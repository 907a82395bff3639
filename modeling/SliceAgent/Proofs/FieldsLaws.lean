import SliceAgent.Proofs.Dict
import SliceAgent.Proofs.JsonText

/-!
Records are read back from the members that they are written as: one law for each way in which fields
are put together, and the bound on nesting that goes with it.
-/
namespace SliceAgent

variable {α β : Type}

namespace Fields

variable {f : Fields (α → β)} {x : Fields α} {g : α → β} {a : α} {name : String}
  {ms ns : List (String × Json)}

/-- The fields claim all of the members and are read from them as a value. -/
structure Takes (x : Fields α) (ms : List (String × Json)) (a : α) : Prop where
  claims : ∀ m ∈ ms, (x.enter? m.1).isSome = true
  reads : ∃ draft, (Doc.ofMembers ms).foldlM (x.visit .json) x.blank = .ok draft ∧
    x.build draft = .ok a

theorem foldlM_cons_ok {σ τ : Type} {step : σ → τ → Decoded σ} {s s' : σ} {m : τ} {ms : List τ}
    (h : (m :: ms).foldlM step s = .ok s') :
    ∃ t, step s m = .ok t ∧ ms.foldlM step t = .ok s' := by
  rw [List.foldlM_cons] at h
  cases hs : step s m with
  | error e =>
    rw [hs] at h
    cases h
  | ok t =>
    rw [hs] at h
    exact ⟨t, rfl, h⟩

theorem foldlM_of_ok {σ τ : Type} {step : σ → τ → Decoded σ} {s t : σ} {m : τ} {ms : List τ}
    (h : step s m = .ok t) : (m :: ms).foldlM step s = ms.foldlM step t := by
  rw [List.foldlM_cons, h]
  rfl

def pair (l : f.Draft) (r : x.Draft) : (f.seq x).Draft := (l, r)

theorem visit_seq_left {k : String} {d : Doc} {l l' : f.Draft} {r : x.Draft}
    (hk : (f.enter? k).isSome = true) (h : f.visit .json l (.str k, d) = .ok l') :
    (f.seq x).visit .json (pair l r) (.str k, d) = .ok (pair l' r) := by
  obtain ⟨enter, he⟩ := Option.isSome_iff_exists.1 hk
  simp only [visit, he] at h
  simp only [visit, seq, pair, he, h]
  rfl

theorem visit_seq_right {k : String} {d : Doc} {l : f.Draft} {r r' : x.Draft}
    (hk : f.enter? k = none) (hx : (x.enter? k).isSome = true)
    (h : x.visit .json r (.str k, d) = .ok r') :
    (f.seq x).visit .json (pair l r) (.str k, d) = .ok (pair l r') := by
  obtain ⟨enter, he⟩ := Option.isSome_iff_exists.1 hx
  simp only [visit, he] at h
  simp only [visit, seq, pair, hk, he, h]
  rfl

theorem foldlM_seq_left {l l' : f.Draft} {r : x.Draft}
    (hms : ∀ m ∈ ms, (f.enter? m.1).isSome = true)
    (h : (Doc.ofMembers ms).foldlM (f.visit .json) l = .ok l') :
    (Doc.ofMembers ms).foldlM ((f.seq x).visit .json) (pair l r) =
      .ok (pair l' r) := by
  induction ms generalizing l with
  | nil =>
    cases h
    rfl
  | cons m ms ih =>
    obtain ⟨t, ht, h⟩ := foldlM_cons_ok h
    rw [Doc.ofMembers, foldlM_of_ok (visit_seq_left (hms m List.mem_cons_self) ht)]
    exact ih (fun m hm => hms m (List.mem_cons_of_mem _ hm)) h

theorem foldlM_seq_right {l : f.Draft} {r r' : x.Draft}
    (hf : ∀ m ∈ ms, f.enter? m.1 = none) (hx : ∀ m ∈ ms, (x.enter? m.1).isSome = true)
    (h : (Doc.ofMembers ms).foldlM (x.visit .json) r = .ok r') :
    (Doc.ofMembers ms).foldlM ((f.seq x).visit .json) (pair l r) =
      .ok (pair l r') := by
  induction ms generalizing r with
  | nil =>
    cases h
    rfl
  | cons m ms ih =>
    obtain ⟨t, ht, h⟩ := foldlM_cons_ok h
    rw [Doc.ofMembers, foldlM_of_ok
      (visit_seq_right (hf m List.mem_cons_self) (hx m List.mem_cons_self) ht)]
    exact ih (fun m hm => hf m (List.mem_cons_of_mem _ hm))
      (fun m hm => hx m (List.mem_cons_of_mem _ hm)) h

theorem takes_pure (a : α) : (Fields.pure a).Takes [] a :=
  ⟨fun _ hm => absurd hm List.not_mem_nil, (), rfl, rfl⟩

theorem Takes.seq (hf : f.Takes ms g) (hx : x.Takes ns a)
    (hd : ∀ n ∈ ns, f.enter? n.1 = none) : (f.seq x).Takes (ms ++ ns) (g a) := by
  obtain ⟨l, hl, hg⟩ := hf.reads
  obtain ⟨r, hr, ha⟩ := hx.reads
  refine ⟨fun m hm => ?_, pair l r, ?_, ?_⟩
  · rcases List.mem_append.1 hm with hm | hm
    · obtain ⟨enter, he⟩ := Option.isSome_iff_exists.1 (hf.claims m hm)
      simp only [Fields.seq, he, Option.isSome_some]
    · obtain ⟨enter, he⟩ := Option.isSome_iff_exists.1 (hx.claims m hm)
      simp only [Fields.seq, hd m hm, he, Option.isSome_some]
  · have happend : Doc.ofMembers (ms ++ ns) = Doc.ofMembers ms ++ Doc.ofMembers ns := by
      rw [Doc.ofMembers_eq_map, Doc.ofMembers_eq_map, Doc.ofMembers_eq_map, List.map_append]
    rw [happend, List.foldlM_append]
    show (Doc.ofMembers ms).foldlM ((f.seq x).visit .json) (pair f.blank x.blank) >>= _ = _
    rw [foldlM_seq_left hf.claims hl]
    exact foldlM_seq_right hd hx.claims hr
  · show (f.build l >>= fun g => x.build r >>= fun a => .ok (g a)) = _
    rw [hg, ha]
    rfl

section Field

variable {dec : Decoder α} {absent : Option α} {j : Json}

theorem takes_field (h : dec .json (Doc.ofJson j) = .ok a) :
    (field name dec absent).Takes [(name, j)] a := by
  refine ⟨fun m hm => ?_, some a, ?_, rfl⟩
  · rw [List.mem_singleton.1 hm]
    simp [field]
  · rw [Doc.ofMembers, Doc.ofMembers, List.foldlM_cons]
    simp only [visit, field, if_true, h]
    rfl

theorem takes_absent : (field name dec (some a)).Takes [] a :=
  ⟨fun _ hm => absurd hm List.not_mem_nil, none, rfl, rfl⟩

theorem Takes.field (hf : f.Takes ms g) (hx : (field name dec absent).Takes ns a)
    (hd : (f.enter? name).isNone = true) : (f.seq (Fields.field name dec absent)).Takes (ms ++ ns) (g a) := by
  refine hf.seq hx fun n hn => ?_
  have hname := hx.claims n hn
  simp only [Fields.field] at hname
  split at hname
  · rename_i heq
    rw [heq]
    exact Option.isNone_iff_eq_none.1 hd
  · cases hname

end Field

end Fields

namespace Decoder

variable {dec : Decoder α} {encode : α → Json}

theorem list_ofJson (h : ∀ a, dec .json (Doc.ofJson (encode a)) = .ok a) (as : List α) :
    list dec .json (Doc.ofJson (.arr (as.map encode))) = .ok as := by
  show (Doc.ofItems (as.map encode)).mapM (dec .json) = _
  induction as with
  | nil => rfl
  | cons a as ih =>
    rw [List.map_cons, Doc.ofItems, List.mapM_cons, h a, ih]
    rfl

theorem strs_ofJson (ss : List String) :
    list string .json (Doc.ofJson (.strs ss)) = .ok ss :=
  list_ofJson (fun _ => rfl) ss

theorem foldlM_members {step : Dict α → Doc × Doc → Decoded (Dict α)}
    (h : ∀ d k a, step d (.str k, Doc.ofJson (encode a)) = .ok (d.insert k a))
    (es : List (String × α)) (d : Dict α) :
    (Doc.ofMembers (es.map fun e => (e.1, encode e.2))).foldlM step d =
      .ok (es.foldl (fun d e => d.insert e.1 e.2) d) := by
  induction es generalizing d with
  | nil => rfl
  | cons e es ih =>
    rw [List.map_cons, Doc.ofMembers, Fields.foldlM_of_ok (h d e.1 e.2)]
    exact ih _

theorem dict_ofJson (h : ∀ a, dec .json (Doc.ofJson (encode a)) = .ok a) (d : Dict α) :
    dict dec .json (Doc.ofJson (.ofDict encode d)) = .ok d := by
  refine (foldlM_members (fun acc k a => ?_) d.entries Dict.empty).trans
    (congrArg Except.ok (Dict.ofList_entries d))
  simp only [h, string, bind, Except.bind]
  rfl

theorem record_ofJson {name : String} {fields : Fields α} {ms : List (String × Json)} {a : α}
    (h : fields.Takes ms a) : record name fields .json (Doc.ofJson (.obj ms)) = .ok a := by
  obtain ⟨draft, hread, hbuild⟩ := h.reads
  show ((Doc.ofMembers ms).foldlM (fields.visit .json) fields.blank >>= fields.build) = _
  rw [hread]
  exact hbuild

end Decoder

namespace Fields

variable {dec : Decoder α} {encode : α → Json} {name : String}

theorem takes_member? (h : ∀ a, dec .json (Doc.ofJson (encode a)) = .ok a)
    (hnull : ∀ a, Doc.ofJson (encode a) ≠ .null) (b : Option α) :
    (optional name dec).Takes (Json.member? name encode b) b := by
  cases b with
  | none => exact takes_absent
  | some a =>
    refine takes_field ?_
    rw [Decoder.optional.eq_2 _ _ _ (hnull a), h a]
    rfl

theorem takes_memberList (h : ∀ a, dec .json (Doc.ofJson (encode a)) = .ok a) (as : List α) :
    (list name dec).Takes (Json.memberList name encode as) as := by
  cases as with
  | nil => exact takes_absent
  | cons a as => exact takes_field (Decoder.list_ofJson h (a :: as))

end Fields

end SliceAgent
