import Mathlib.Data.List.Perm.Basic
import SliceAgent.Proofs.FieldsLaws

/-!
In which order the members of an object stand, and which other members stand among them, makes no difference
to the record that is read from it. A record is therefore read from the canonical form of its members as it
is read from the members themselves (`Decoder.record_canonical`).
-/
namespace SliceAgent

variable {α β : Type}

namespace Fields

variable {f : Fields (α → β)} {x : Fields α} {name k l : String} {d e : Doc} {a : α}
  {ms ns : List (String × Json)}

theorem visit_unknown {r s : x.Draft} (hk : x.enter? k = none) :
    x.visit .json r (.str k, d) = .ok s ↔ d.isComplete = true ∧ s = r := by
  simp only [visit, hk, Decoder.skip]
  by_cases hd : d.isComplete = true
  · rw [if_pos hd]
    exact ⟨fun h => ⟨hd, (Except.ok.inj h).symm⟩, fun h => congrArg Except.ok h.2.symm⟩
  · rw [if_neg hd]
    refine ⟨fun h => ?_, fun h => absurd h.1 hd⟩
    cases h

theorem visit_seq_of_claimed {p q : (f.seq x).Draft} (hk : (f.enter? k).isSome = true) :
    (f.seq x).visit .json p (.str k, d) = .ok q ↔
      f.visit .json p.1 (.str k, d) = .ok q.1 ∧ q.2 = p.2 := by
  obtain ⟨enter, he⟩ := Option.isSome_iff_exists.1 hk
  have hseq : (f.seq x).visit .json p (.str k, d) =
      (enter .json p.1 d).map fun left => pair left p.2 := by
    simp only [visit, seq, he]
    cases enter .json p.1 d <;> rfl
  have hleft : f.visit .json p.1 (.str k, d) = enter .json p.1 d := by
    simp only [visit, he]
  rw [hseq, hleft]
  cases enter .json p.1 d with
  | error err =>
    refine ⟨fun h => ?_, fun h => ?_⟩
    · cases h
    · cases h.1
  | ok left =>
    constructor
    · intro h
      cases h
      exact ⟨rfl, rfl⟩
    · rintro ⟨h, hright⟩
      cases h
      exact congrArg Except.ok (Prod.ext rfl hright.symm)

theorem visit_seq_of_unclaimed {p q : (f.seq x).Draft} (hk : f.enter? k = none) :
    (f.seq x).visit .json p (.str k, d) = .ok q ↔
      x.visit .json p.2 (.str k, d) = .ok q.2 ∧ q.1 = p.1 := by
  cases he : x.enter? k with
  | none =>
    have hseq : (f.seq x).enter? k = none := by
      simp only [seq, hk, he]
    rw [visit_unknown hseq, visit_unknown he]
    constructor
    · rintro ⟨hd, rfl⟩
      exact ⟨⟨hd, rfl⟩, rfl⟩
    · rintro ⟨⟨hd, hright⟩, hleft⟩
      exact ⟨hd, Prod.ext hleft hright⟩
  | some enter =>
    have hseq : (f.seq x).visit .json p (.str k, d) =
        (enter .json p.2 d).map fun right => pair p.1 right := by
      simp only [visit, seq, hk, he]
      cases enter .json p.2 d <;> rfl
    have hright : x.visit .json p.2 (.str k, d) = enter .json p.2 d := by
      simp only [visit, he]
    rw [hseq, hright]
    cases enter .json p.2 d with
    | error err =>
      refine ⟨fun h => ?_, fun h => ?_⟩
      · cases h
      · cases h.1
    | ok right =>
      constructor
      · intro h
        cases h
        exact ⟨rfl, rfl⟩
      · rintro ⟨h, hleft⟩
        cases h
        exact congrArg Except.ok (Prod.ext hleft.symm rfl)

/-- Members of different keys may change places. -/
def Orderly (x : Fields α) : Prop :=
  ∀ ⦃k l : String⦄ ⦃d e : Doc⦄ ⦃r s t : x.Draft⦄, k ≠ l →
    x.visit .json r (.str k, d) = .ok s → x.visit .json s (.str l, e) = .ok t →
      ∃ s', x.visit .json r (.str l, e) = .ok s' ∧ x.visit .json s' (.str k, d) = .ok t

theorem swap_unknown_left {r s t : x.Draft} (hk : x.enter? k = none)
    (hs : x.visit .json r (.str k, d) = .ok s) (ht : x.visit .json s (.str l, e) = .ok t) :
    ∃ s', x.visit .json r (.str l, e) = .ok s' ∧ x.visit .json s' (.str k, d) = .ok t := by
  obtain ⟨hd, rfl⟩ := (visit_unknown hk).1 hs
  exact ⟨t, ht, (visit_unknown hk).2 ⟨hd, rfl⟩⟩

theorem swap_unknown_right {r s t : x.Draft} (hl : x.enter? l = none)
    (hs : x.visit .json r (.str k, d) = .ok s) (ht : x.visit .json s (.str l, e) = .ok t) :
    ∃ s', x.visit .json r (.str l, e) = .ok s' ∧ x.visit .json s' (.str k, d) = .ok t := by
  obtain ⟨he, rfl⟩ := (visit_unknown hl).1 ht
  exact ⟨r, (visit_unknown hl).2 ⟨he, rfl⟩, hs⟩

theorem orderly_pure (a : α) : (Fields.pure a).Orderly :=
  fun _ _ _ _ _ _ _ _ hs ht => swap_unknown_left rfl hs ht

theorem orderly_field (name : String) (dec : Decoder α) (absent : Option α) :
    (field name dec absent).Orderly := by
  intro k l d e r s t hkl hs ht
  have hunknown : ∀ key, key ≠ name → (field name dec absent).enter? key = none :=
    fun key hkey => if_neg hkey
  by_cases hk : k = name
  · have hl : l ≠ name := fun hl => hkl (hk.trans hl.symm)
    exact swap_unknown_right (hunknown l hl) hs ht
  · exact swap_unknown_left (hunknown k hk) hs ht

theorem Orderly.seq (hf : f.Orderly) (hx : x.Orderly) : (f.seq x).Orderly := by
  intro k l d e p q u hkl hs ht
  have hclaims : ∀ key, (f.enter? key).isSome = true ∨ f.enter? key = none := by
    intro key
    cases f.enter? key with
    | none => exact .inr rfl
    | some enter => exact .inl rfl
  rcases hclaims k with hk | hk
  · have hs := (visit_seq_of_claimed hk).1 hs
    rcases hclaims l with hl | hl
    · have ht := (visit_seq_of_claimed hl).1 ht
      obtain ⟨left, hleft, hright⟩ := hf hkl hs.1 ht.1
      refine ⟨pair left p.2, (visit_seq_of_claimed hl).2 ⟨hleft, rfl⟩, ?_⟩
      exact (visit_seq_of_claimed hk).2 ⟨hright, ht.2.trans hs.2⟩
    · have ht := (visit_seq_of_unclaimed hl).1 ht
      rw [hs.2] at ht
      refine ⟨pair p.1 u.2, (visit_seq_of_unclaimed hl).2 ⟨ht.1, rfl⟩, ?_⟩
      refine (visit_seq_of_claimed hk).2 ⟨?_, rfl⟩
      rw [ht.2]
      exact hs.1
  · have hs := (visit_seq_of_unclaimed hk).1 hs
    rcases hclaims l with hl | hl
    · have ht := (visit_seq_of_claimed hl).1 ht
      rw [hs.2] at ht
      refine ⟨pair u.1 p.2, (visit_seq_of_claimed hl).2 ⟨ht.1, rfl⟩, ?_⟩
      refine (visit_seq_of_unclaimed hk).2 ⟨?_, rfl⟩
      rw [ht.2]
      exact hs.1
    · have ht := (visit_seq_of_unclaimed hl).1 ht
      obtain ⟨right, hleft, hright⟩ := hx hkl hs.1 ht.1
      refine ⟨pair p.1 right, (visit_seq_of_unclaimed hl).2 ⟨hleft, rfl⟩, ?_⟩
      exact (visit_seq_of_unclaimed hk).2 ⟨hright, ht.2.trans hs.2⟩

theorem Orderly.foldlM_perm (hx : x.Orderly) (hp : ms.Perm ns) (hkeys : (ms.map (·.1)).Nodup)
    {r t : x.Draft} (h : (Doc.ofMembers ms).foldlM (x.visit .json) r = .ok t) :
    (Doc.ofMembers ns).foldlM (x.visit .json) r = .ok t := by
  induction hp generalizing r with
  | nil => exact h
  | cons m hp ih =>
    obtain ⟨s, hs, h⟩ := foldlM_cons_ok h
    rw [Doc.ofMembers, foldlM_of_ok hs]
    exact ih (List.nodup_cons.1 hkeys).2 h
  | swap m n ms =>
    obtain ⟨s, hs, h⟩ := foldlM_cons_ok h
    obtain ⟨u, hu, h⟩ := foldlM_cons_ok h
    have hne : n.1 ≠ m.1 := by
      intro heq
      simp [heq] at hkeys
    obtain ⟨s', hs', hu'⟩ := hx hne hs hu
    rw [Doc.ofMembers, Doc.ofMembers, foldlM_of_ok hs', foldlM_of_ok hu']
    exact h
  | trans hp _ ih ih' =>
    have hkeys' := (hp.map (·.1)).nodup_iff.1 hkeys
    exact ih' hkeys' (ih hkeys h)

theorem foldlM_unknown (hms : ∀ m ∈ ms, x.enter? m.1 = none) (r : x.Draft) :
    (Doc.ofMembers ms).foldlM (x.visit .json) r = .ok r := by
  induction ms with
  | nil => rfl
  | cons m ms ih =>
    have hskip : x.visit .json r (.str m.1, Doc.ofJson m.2) = .ok r :=
      (visit_unknown (hms m List.mem_cons_self)).2 ⟨Doc.isComplete_ofJson m.2, rfl⟩
    rw [Doc.ofMembers, foldlM_of_ok hskip]
    exact ih fun m hm => hms m (List.mem_cons_of_mem _ hm)

theorem foldlM_seq_fst {p q : (f.seq x).Draft}
    (h : (Doc.ofMembers ms).foldlM ((f.seq x).visit .json) p = .ok q) :
    (Doc.ofMembers ms).foldlM (f.visit .json) p.1 = .ok q.1 := by
  induction ms generalizing p with
  | nil =>
    cases h
    rfl
  | cons m ms ih =>
    obtain ⟨s, hs, h⟩ := foldlM_cons_ok h
    have hleft : f.visit .json p.1 (.str m.1, Doc.ofJson m.2) = .ok s.1 := by
      cases hm : f.enter? m.1 with
      | none =>
        have hs := (visit_seq_of_unclaimed hm).1 hs
        exact (visit_unknown hm).2 ⟨Doc.isComplete_ofJson m.2, hs.2⟩
      | some enter => exact ((visit_seq_of_claimed (by rw [hm]; rfl)).1 hs).1
    rw [Doc.ofMembers, foldlM_of_ok hleft]
    exact ih h

/-- The fields are read from the members of an object, some of which may be none of them. -/
def Reads (x : Fields α) (ms : List (String × Json)) (a : α) : Prop :=
  x.fromMembers .json (Doc.ofMembers ms) = .ok a

theorem reads_iff : x.Reads ms a ↔ ∃ draft,
    (Doc.ofMembers ms).foldlM (x.visit .json) x.blank = .ok draft ∧ x.build draft = .ok a := by
  unfold Reads fromMembers
  cases (Doc.ofMembers ms).foldlM (x.visit .json) x.blank with
  | error err => exact ⟨nofun, nofun⟩
  | ok draft =>
    constructor
    · exact fun h => ⟨draft, rfl, h⟩
    · rintro ⟨_, hdraft, h⟩
      cases hdraft
      exact h

theorem build_seq {draft : (f.seq x).Draft} {b : β} (h : (f.seq x).build draft = .ok b) :
    ∃ g a, f.build draft.1 = .ok g ∧ x.build draft.2 = .ok a ∧ b = g a := by
  have hbuild : (f.build draft.1 >>= fun g => x.build draft.2 >>= fun a => .ok (g a)) = .ok b := h
  cases hg : f.build draft.1 with
  | error err =>
    rw [hg] at hbuild
    cases hbuild
  | ok g =>
    rw [hg] at hbuild
    cases ha : x.build draft.2 with
    | error err =>
      rw [ha] at hbuild
      cases hbuild
    | ok a =>
      rw [ha] at hbuild
      exact ⟨g, a, rfl, rfl, (Except.ok.inj hbuild).symm⟩

theorem Takes.reads_with (h : x.Takes ms a) (ns : List (String × Json))
    (hns : ∀ n ∈ ns, x.enter? n.1 = none) : x.Reads (ms ++ ns) a := by
  obtain ⟨draft, hread, hbuild⟩ := h.reads
  refine reads_iff.2 ⟨draft, ?_, hbuild⟩
  have happend : Doc.ofMembers (ms ++ ns) = Doc.ofMembers ms ++ Doc.ofMembers ns := by
    rw [Doc.ofMembers_eq_map, Doc.ofMembers_eq_map, Doc.ofMembers_eq_map, List.map_append]
  rw [happend, List.foldlM_append, hread]
  exact foldlM_unknown hns draft

theorem Reads.perm (h : x.Reads ms a) (hx : x.Orderly) (hp : ms.Perm ns)
    (hkeys : (ms.map (·.1)).Nodup) : x.Reads ns a := by
  obtain ⟨draft, hread, hbuild⟩ := reads_iff.1 h
  exact reads_iff.2 ⟨draft, hx.foldlM_perm hp hkeys hread, hbuild⟩

end Fields

section Canonical

theorem perm_putEntry {k : String} {v : β} {es : List (String × β)} (hk : k ∉ es.map (·.1)) :
    (putEntry k v es).Perm ((k, v) :: es) := by
  induction es with
  | nil => exact .refl _
  | cons e es ih =>
    have hne : k ≠ e.1 := fun heq => hk (heq ▸ List.mem_cons_self)
    have hrest : k ∉ es.map (·.1) := fun hmem => hk (List.mem_cons_of_mem _ hmem)
    rw [putEntry, if_neg hne]
    split
    · exact .refl _
    · exact ((ih hrest).cons e).trans (.swap _ _ _)

def Json.canonicalMember (m : String × Json) : String × Json := (m.1, m.2.canonical)

theorem Json.perm_canonicalMembers {acc ms : List (String × Json)}
    (hkeys : ((acc ++ ms).map (·.1)).Nodup) :
    (canonicalMembers acc ms).Perm (acc ++ ms.map canonicalMember) := by
  induction ms generalizing acc with
  | nil =>
    rw [canonicalMembers, List.map_nil, List.append_nil]
  | cons m ms ih =>
    have hmiddle : ((acc ++ m :: ms).map (·.1)).Perm (m.1 :: (acc ++ ms).map (·.1)) :=
      (@List.perm_middle _ m acc ms).map (·.1)
    have hdistinct := List.nodup_cons.1 (hmiddle.nodup_iff.1 hkeys)
    have hacc : m.1 ∉ acc.map (·.1) := by
      intro hmem
      apply hdistinct.1
      rw [List.map_append]
      exact List.mem_append_left _ hmem
    have hput : (putEntry m.1 m.2.canonical acc).Perm (canonicalMember m :: acc) := perm_putEntry hacc
    have hkeys' : ((putEntry m.1 m.2.canonical acc ++ ms).map (·.1)).Nodup := by
      have hperm := ((hput.append_right ms).map (·.1)).nodup_iff.2
      apply hperm
      exact List.nodup_cons.2 hdistinct
    have hrest := ih hkeys'
    rw [canonicalMembers]
    refine hrest.trans ((hput.append_right _).trans ?_)
    rw [List.map_cons]
    exact List.perm_middle.symm

theorem Json.canonicalMember_str (k s : String) : canonicalMember (k, .str s) = (k, .str s) := rfl

theorem Json.key_of_mem_member? {k : String} {encode : β → Json} {b : Option β} {m : String × Json}
    (hm : m ∈ member? k encode b) : m.1 = k := by
  cases b with
  | none => cases hm
  | some b => rw [List.mem_singleton.1 hm]

theorem Json.map_canonicalMember_member? (k : String) (encode : β → Json) (b : Option β) :
    (member? k encode b).map canonicalMember = member? k (fun b => (encode b).canonical) b := by
  cases b <;> rfl

/-- A record is read from a canonical value if it is read from the members in any order. -/
theorem Decoder.record_canonical {name : String} {x : Fields α} {ms : List (String × Json)} {a : α}
    (hx : x.Orderly) (hkeys : (ms.map (·.1)).Nodup) (h : x.Reads (ms.map Json.canonicalMember) a) :
    record name x .json (Doc.ofJson (Json.obj ms).canonical) = .ok a := by
  have hperm : (Json.canonicalMembers [] ms).Perm (ms.map Json.canonicalMember) :=
    Json.perm_canonicalMembers hkeys
  have hkeys' : ((ms.map Json.canonicalMember).map (·.1)).Nodup := by
    rw [List.map_map]
    exact hkeys
  exact h.perm hx hperm.symm hkeys'

end Canonical

end SliceAgent
