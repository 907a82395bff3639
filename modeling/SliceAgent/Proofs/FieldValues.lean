import SliceAgent.Proofs.MemberOrder

/-!
A record is read from the values that stand under the names of its fields. Fields of different names are read
apart from each other (`Fields.reads_seq_iff`), and one field from the one value under its name, if there is
any (`Fields.reads_field_iff`). From a list they are read one behind the other.
-/
namespace SliceAgent

variable {α β : Type}

section Values

variable {name k : String} {ms ns : List (String × Json)}

/-- What stands under a name. -/
def valuesAt (name : String) (ms : List (String × Json)) : List Json :=
  (ms.filter (·.1 == name)).map (·.2)

theorem valuesAt_append : valuesAt name (ms ++ ns) = valuesAt name ms ++ valuesAt name ns := by
  rw [valuesAt, List.filter_append, List.map_append]
  rfl

theorem valuesAt_cons_self (j : Json) : valuesAt name ((name, j) :: ms) = j :: valuesAt name ms := by
  simp [valuesAt]

theorem valuesAt_cons_other (j : Json) (hk : k ≠ name) :
    valuesAt name ((k, j) :: ms) = valuesAt name ms := by
  simp [valuesAt, hk]

theorem valuesAt_cons_eq_nil {m : String × Json} :
    valuesAt name (m :: ms) = [] ↔ m.1 ≠ name ∧ valuesAt name ms = [] := by
  by_cases hm : m.1 = name
  · subst hm
    rw [valuesAt_cons_self]
    simp
  · rw [valuesAt_cons_other m.2 hm]
    simp [hm]

end Values

namespace Fields

variable {f : Fields (α → β)} {x : Fields α} {dec : Decoder α} {absent : Option α} {name : String}
  {ms : List (String × Json)} {a : α} {b : β}

theorem foldlM_cons_ok_iff {σ τ : Type} {step : σ → τ → Decoded σ} {s s' : σ} {m : τ} {ms : List τ} :
    (m :: ms).foldlM step s = .ok s' ↔ ∃ t, step s m = .ok t ∧ ms.foldlM step t = .ok s' := by
  constructor
  · exact foldlM_cons_ok
  · rintro ⟨t, ht, h⟩
    rw [foldlM_of_ok ht]
    exact h

/-- No member is for both. -/
def Apart (f : Fields (α → β)) (x : Fields α) : Prop :=
  ∀ k, (f.enter? k).isSome = true → x.enter? k = none

theorem visit_seq_iff (hd : f.Apart x) {p q : (f.seq x).Draft} {m : String × Json} :
    (f.seq x).visit .json p (.str m.1, Doc.ofJson m.2) = .ok q ↔
      f.visit .json p.1 (.str m.1, Doc.ofJson m.2) = .ok q.1 ∧
      x.visit .json p.2 (.str m.1, Doc.ofJson m.2) = .ok q.2 := by
  have hcomplete := Doc.isComplete_ofJson m.2
  cases hm : f.enter? m.1 with
  | some enter =>
    have hclaimed : (f.enter? m.1).isSome = true := by rw [hm]; rfl
    rw [visit_seq_of_claimed hclaimed, visit_unknown (hd m.1 hclaimed)]
    exact and_congr_right fun _ => ⟨fun h => ⟨hcomplete, h⟩, fun h => h.2⟩
  | none =>
    rw [visit_seq_of_unclaimed hm, visit_unknown hm]
    exact ⟨fun h => ⟨⟨hcomplete, h.2⟩, h.1⟩, fun h => ⟨h.2, h.1.2⟩⟩

theorem foldlM_seq_iff (hd : f.Apart x) {p q : (f.seq x).Draft} :
    (Doc.ofMembers ms).foldlM ((f.seq x).visit .json) p = .ok q ↔
      (Doc.ofMembers ms).foldlM (f.visit .json) p.1 = .ok q.1 ∧
      (Doc.ofMembers ms).foldlM (x.visit .json) p.2 = .ok q.2 := by
  induction ms generalizing p with
  | nil =>
    constructor
    · intro h
      cases h
      exact ⟨rfl, rfl⟩
    · rintro ⟨hleft, hright⟩
      exact congrArg Except.ok (Prod.ext (Except.ok.inj hleft) (Except.ok.inj hright))
  | cons m ms ih =>
    simp only [Doc.ofMembers, foldlM_cons_ok_iff]
    constructor
    · rintro ⟨s, hs, h⟩
      obtain ⟨hleft, hright⟩ := (visit_seq_iff hd).1 hs
      obtain ⟨hlefts, hrights⟩ := ih.1 h
      exact ⟨⟨s.1, hleft, hlefts⟩, ⟨s.2, hright, hrights⟩⟩
    · rintro ⟨⟨left, hleft, hlefts⟩, right, hright, hrights⟩
      exact ⟨pair left right, (visit_seq_iff hd).2 ⟨hleft, hright⟩, ih.2 ⟨hlefts, hrights⟩⟩

theorem reads_seq_iff (hd : f.Apart x) :
    (f.seq x).Reads ms b ↔ ∃ g a, f.Reads ms g ∧ x.Reads ms a ∧ b = g a := by
  constructor
  · intro h
    obtain ⟨draft, hread, hbuild⟩ := reads_iff.1 h
    obtain ⟨hleft, hright⟩ := (foldlM_seq_iff hd).1 hread
    obtain ⟨g, a, hg, ha, rfl⟩ := build_seq hbuild
    exact ⟨g, a, reads_iff.2 ⟨draft.1, hleft, hg⟩, reads_iff.2 ⟨draft.2, hright, ha⟩, rfl⟩
  · rintro ⟨g, a, hleft, hright, rfl⟩
    obtain ⟨l, hl, hg⟩ := reads_iff.1 hleft
    obtain ⟨r, hr, ha⟩ := reads_iff.1 hright
    refine reads_iff.2 ⟨pair l r, (foldlM_seq_iff hd).2 ⟨hl, hr⟩, ?_⟩
    show (f.build l >>= fun g => x.build r >>= fun a => .ok (g a)) = _
    rw [hg, ha]
    rfl

theorem reads_pure_iff {c : α} : (Fields.pure c).Reads ms a ↔ a = c := by
  rw [reads_iff, foldlM_unknown (fun _ _ => rfl)]
  exact ⟨fun ⟨_, _, h⟩ => (Except.ok.inj h).symm, fun h => ⟨(), rfl, congrArg Except.ok h.symm⟩⟩

def entered (name : String) (dec : Decoder α) (absent a? : Option α) : (field name dec absent).Draft := a?

theorem visit_field_none {j : Json} {s : (field name dec absent).Draft} :
    (field name dec absent).visit .json (entered name dec absent none) (.str name, Doc.ofJson j) = .ok s ↔
      ∃ a, dec .json (Doc.ofJson j) = .ok a ∧ s = some a := by
  simp only [visit, field, if_true, entered]
  cases dec .json (Doc.ofJson j) with
  | error err =>
    constructor
    · intro h
      cases h
    · rintro ⟨_, ha, -⟩
      cases ha
  | ok a =>
    constructor
    · intro h
      exact ⟨a, rfl, (Except.ok.inj h).symm⟩
    · rintro ⟨_, ha, rfl⟩
      cases ha
      rfl

theorem visit_field_some {j : Json} {s : (field name dec absent).Draft} :
    ¬ (field name dec absent).visit .json (entered name dec absent (some a)) (.str name, Doc.ofJson j) =
      .ok s := by
  simp only [visit, field, if_true, entered]
  intro h
  cases h

theorem foldlM_field_other {m : String × Json} {r s : (field name dec absent).Draft} (hm : m.1 ≠ name) :
    (Doc.ofMembers (m :: ms)).foldlM ((field name dec absent).visit .json) r = .ok s ↔
      (Doc.ofMembers ms).foldlM ((field name dec absent).visit .json) r = .ok s := by
  have hunknown : (field name dec absent).enter? m.1 = none := if_neg hm
  rw [Doc.ofMembers, foldlM_cons_ok_iff]
  simp only [visit_unknown hunknown, Doc.isComplete_ofJson, true_and, exists_eq_left]

theorem foldlM_field_some {s : (field name dec absent).Draft} :
    (Doc.ofMembers ms).foldlM ((field name dec absent).visit .json) (entered name dec absent (some a)) =
      .ok s ↔ valuesAt name ms = [] ∧ s = some a := by
  induction ms with
  | nil => exact ⟨fun h => ⟨rfl, (Except.ok.inj h).symm⟩, fun h => congrArg Except.ok h.2.symm⟩
  | cons m ms ih =>
    by_cases hm : m.1 = name
    · subst hm
      rw [Doc.ofMembers, foldlM_cons_ok_iff, valuesAt_cons_self]
      exact ⟨fun ⟨_, ht, _⟩ => absurd ht visit_field_some, nofun⟩
    · rw [foldlM_field_other hm, valuesAt_cons_other m.2 hm]
      exact ih

theorem foldlM_field_none {s : (field name dec absent).Draft} :
    (Doc.ofMembers ms).foldlM ((field name dec absent).visit .json) (entered name dec absent none) = .ok s ↔
      valuesAt name ms = [] ∧ s = none ∨
        ∃ j a, valuesAt name ms = [j] ∧ dec .json (Doc.ofJson j) = .ok a ∧ s = some a := by
  induction ms with
  | nil =>
    constructor
    · exact fun h => .inl ⟨rfl, (Except.ok.inj h).symm⟩
    · rintro (⟨-, rfl⟩ | ⟨j, a, hj, -⟩)
      · rfl
      · cases hj
  | cons m ms ih =>
    by_cases hm : m.1 = name
    · subst hm
      rw [Doc.ofMembers, foldlM_cons_ok_iff, valuesAt_cons_self]
      constructor
      · rintro ⟨t, ht, h⟩
        obtain ⟨a, ha, rfl⟩ := visit_field_none.1 ht
        obtain ⟨hvalues, rfl⟩ := foldlM_field_some.1 h
        exact .inr ⟨m.2, a, congrArg (m.2 :: ·) hvalues, ha, rfl⟩
      · rintro (⟨hvalues, -⟩ | ⟨i, a, hvalues, ha, rfl⟩)
        · cases hvalues
        · obtain ⟨rfl, hrest⟩ := List.cons.inj hvalues
          exact ⟨some a, visit_field_none.2 ⟨a, ha, rfl⟩, foldlM_field_some.2 ⟨hrest, rfl⟩⟩
    · rw [foldlM_field_other hm, valuesAt_cons_other m.2 hm]
      exact ih

theorem reads_field_iff : (field name dec absent).Reads ms a ↔
    valuesAt name ms = [] ∧ absent = some a ∨
      ∃ j, valuesAt name ms = [j] ∧ dec .json (Doc.ofJson j) = .ok a := by
  have hbuild : (field name dec absent).build (entered name dec absent none) = .ok a ↔ absent = some a := by
    cases absent with
    | none => exact ⟨nofun, nofun⟩
    | some b => exact ⟨fun h => congrArg some (Except.ok.inj h), fun h => congrArg Except.ok (Option.some.inj h)⟩
  rw [reads_iff]
  constructor
  · rintro ⟨draft, hread, hdraft⟩
    rcases foldlM_field_none.1 hread with ⟨hvalues, rfl⟩ | ⟨j, b, hvalues, hb, rfl⟩
    · exact .inl ⟨hvalues, hbuild.1 hdraft⟩
    · exact .inr ⟨j, hvalues, hb.trans hdraft⟩
  · rintro (⟨hvalues, habsent⟩ | ⟨j, hvalues, hj⟩)
    · exact ⟨none, foldlM_field_none.2 (.inl ⟨hvalues, rfl⟩), hbuild.2 habsent⟩
    · exact ⟨some a, foldlM_field_none.2 (.inr ⟨j, a, hvalues, hj, rfl⟩), rfl⟩

theorem fromItems_cons_ok_iff {short : Nat → DecodeError} {position : Nat} {d : Doc} {items rest : List Doc} :
    (field name dec absent).fromItems short .json position (d :: items) = .ok (a, rest) ↔
      dec .json d = .ok a ∧ rest = items := by
  show (dec .json d >>= fun a => .ok (a, items)) = .ok (a, rest) ↔ _
  cases dec .json d with
  | error err => exact ⟨nofun, nofun⟩
  | ok b =>
    constructor
    · intro h
      cases h
      exact ⟨rfl, rfl⟩
    · rintro ⟨h, rfl⟩
      cases h
      rfl

theorem fromItems_seq_ok_iff {short : Nat → DecodeError} {position : Nat} {items rest : List Doc} {b : β} :
    (f.seq x).fromItems short .json position items = .ok (b, rest) ↔
      ∃ g a middle, f.fromItems short .json position items = .ok (g, middle) ∧
        x.fromItems short .json (position + f.size) middle = .ok (a, rest) ∧ b = g a := by
  show (f.fromItems short .json position items >>= fun l =>
    x.fromItems short .json (position + f.size) l.2 >>= fun r => .ok (l.1 r.1, r.2)) = .ok (b, rest) ↔ _
  cases f.fromItems short .json position items with
  | error err => exact ⟨nofun, nofun⟩
  | ok l =>
    obtain ⟨g, middle⟩ := l
    show (x.fromItems short .json (position + f.size) middle >>= fun r => .ok (g r.1, r.2)) =
      .ok (b, rest) ↔ _
    cases hr : x.fromItems short .json (position + f.size) middle with
    | error err =>
      constructor
      · exact nofun
      · rintro ⟨g', a, middle', hl, hx, rfl⟩
        cases hl
        rw [hr] at hx
        cases hx
    | ok r =>
      constructor
      · intro h
        cases h
        exact ⟨g, r.1, middle, rfl, hr, rfl⟩
      · rintro ⟨g', a, middle', hl, hx, rfl⟩
        cases hl
        rw [hr] at hx
        cases hx
        rfl

end Fields

theorem Decoder.record_items_ok_iff {name : String} {x : Fields α} {items : List Doc} {a : α} :
    record name x .json (.arr items) = .ok a ↔
      x.fromItems (.tooShort · name x.size) .json 0 items = .ok (a, []) := by
  show (x.fromItems (.tooShort · name x.size) .json 0 items >>= fun read =>
    if read.2.isEmpty ∨ Dialect.json = .toml then .ok read.1 else .error (.tooLong items.length)) = .ok a ↔ _
  cases x.fromItems (.tooShort · name x.size) .json 0 items with
  | error err => exact ⟨nofun, nofun⟩
  | ok read =>
    obtain ⟨b, rest⟩ := read
    cases rest with
    | nil =>
      constructor
      · intro h
        cases h
        rfl
      · intro h
        cases h
        rfl
    | cons d rest => exact ⟨nofun, nofun⟩

end SliceAgent
