import Mathlib.Data.List.Induction
import Mathlib.Data.Nat.Digits.Defs
import SliceAgent.SliceId

/-!
Which texts are names of slices. A number is spelled with any number of zeros in front
(`Text.isNumeral_iff`), and a name is read as the two numbers that it spells behind `npu-`, if both fit in
32 bits (`SliceId.parse?_inverts_text`).
-/
namespace SliceAgent

namespace Text

variable {cs ds : List Char} {c : Char} {m n : Nat}

def digitValue (c : Char) : Nat := c.toNat - '0'.toNat

/-- A run of digits, the last of which counts ones, the one before it tens, and so on. -/
structure IsNumeral (cs : List Char) (n : Nat) : Prop where
  ne_nil : cs ≠ []
  digits : ∀ c ∈ cs, c.isDigit = true
  value : Nat.ofDigits 10 (cs.reverse.map digitValue) = n

theorem ofDigitChars_eq (cs : List Char) (start : Nat) : Nat.ofDigitChars 10 cs start =
    Nat.ofDigits 10 (cs.reverse.map digitValue) + 10 ^ cs.length * start := by
  induction cs generalizing start with
  | nil => simp
  | cons c cs ih =>
    have hlength : (cs.reverse.map digitValue).length = cs.length := by simp
    rw [Nat.ofDigitChars_cons, ih, List.reverse_cons, List.map_append, Nat.ofDigits_append, hlength,
      List.map_singleton, Nat.ofDigits_singleton, List.length_cons, digitValue]
    ring

theorem natOfDigits?_eq_some_iff : natOfDigits? cs = some n ↔ IsNumeral cs n := by
  have hvalue : Nat.ofDigitChars 10 cs 0 = Nat.ofDigits 10 (cs.reverse.map digitValue) :=
    ofDigitChars_eq cs 0
  unfold natOfDigits?
  split
  · rename_i hbad
    refine ⟨nofun, fun h => ?_⟩
    rcases Bool.or_eq_true_iff.1 hbad with hempty | hdigits
    · exact absurd (List.isEmpty_iff.1 hempty) h.ne_nil
    · rw [List.all_eq_true.2 h.digits] at hdigits
      cases hdigits
  · rename_i hgood
    obtain ⟨hne, hdigits⟩ := not_or.1 (mt Bool.or_eq_true_iff.2 hgood)
    rw [Option.some_inj, hvalue]
    refine ⟨fun h => ⟨mt List.isEmpty_iff.2 hne, ?_, h⟩, IsNumeral.value⟩
    exact List.all_eq_true.1 (by simpa using hdigits)

theorem wordOfDigits?_eq_some_iff {w : UInt32} : wordOfDigits? cs = some w ↔ IsNumeral cs w.toNat := by
  rw [← natOfDigits?_eq_some_iff, wordOfDigits?]
  cases natOfDigits? cs with
  | none => simp
  | some n =>
    simp only [Option.some_inj]
    split
    · rename_i hfits
      rw [Option.some_inj, ← UInt32.toNat_inj, UInt32.toNat_ofNatLT]
    · rename_i hlarge
      constructor
      · intro h
        cases h
      · rintro rfl
        exact absurd w.toNat_lt_size hlarge

theorem isNumeral_decimal (n : Nat) : IsNumeral (decimal n).toList n :=
  natOfDigits?_eq_some_iff.1 (natOfDigits?_decimal n)

theorem IsNumeral.cons_zero (h : IsNumeral cs n) : IsNumeral ('0' :: cs) n := by
  refine ⟨List.cons_ne_nil _ _, List.forall_mem_cons.2 ⟨by decide, h.digits⟩, ?_⟩
  have hzero : digitValue '0' = 0 := rfl
  rw [List.reverse_cons, List.map_append, Nat.ofDigits_append, List.map_singleton, hzero,
    Nat.ofDigits_singleton, Nat.mul_zero, Nat.add_zero, h.value]

theorem digitChar_digitValue (hc : c.isDigit = true) : digitValue c < 10 ∧ (digitValue c).digitChar = c := by
  obtain ⟨hlow, hhigh⟩ := Char.isDigit_iff_toNat.1 hc
  have hnine : ('9' : Char).toNat = '0'.toNat + 9 := rfl
  have hlt : digitValue c < 10 := by
    rw [digitValue]
    omega
  refine ⟨hlt, Char.toNat_inj.1 ?_⟩
  rw [Nat.toNat_digitChar_of_lt_ten hlt]
  exact Nat.add_sub_cancel' hlow

theorem isNumeral_iff : IsNumeral cs n ↔ ∃ zeros, cs = List.replicate zeros '0' ++ (decimal n).toList := by
  constructor
  · intro h
    induction cs using List.reverseRecOn generalizing n with
    | nil => exact absurd rfl h.ne_nil
    | append_singleton cs c ih =>
      obtain ⟨hlt, hchar⟩ := digitChar_digitValue (h.digits c (by simp))
      have hlast : Nat.toDigits 10 (digitValue c) = [c] := by rw [Nat.toDigits_of_lt_base hlt, hchar]
      have hvalue : 10 * Nat.ofDigits 10 (cs.reverse.map digitValue) + digitValue c = n := by
        have hvalue := h.value
        rw [List.reverse_append, List.map_append, Nat.ofDigits_append] at hvalue
        simpa [Nat.add_comm] using hvalue
      by_cases hcs : cs = []
      · subst hcs
        refine ⟨0, ?_⟩
        rw [← hvalue]
        simpa [decimal] using hlast.symm
      · obtain ⟨zeros, hfront⟩ := ih ⟨hcs, fun d hd => h.digits d (by simp [hd]), rfl⟩
        rcases Nat.eq_zero_or_pos (Nat.ofDigits 10 (cs.reverse.map digitValue)) with hzero | hpos
        · refine ⟨zeros + 1, ?_⟩
          rw [hzero] at hvalue hfront
          rw [hfront, ← hvalue, List.replicate_succ']
          simpa [decimal] using hlast.symm
        · refine ⟨zeros, ?_⟩
          have hdigits := Nat.toDigits_append_toDigits (by decide) hpos hlt
          rw [hlast, hvalue] at hdigits
          have hdecimal : (decimal n).toList =
              (decimal (Nat.ofDigits 10 (cs.reverse.map digitValue))).toList ++ [c] := by
            rw [decimal, decimal, String.toList_ofList, String.toList_ofList, hdigits]
          rw [hdecimal, ← List.append_assoc, ← hfront]
  · rintro ⟨zeros, rfl⟩
    induction zeros with
    | zero => exact isNumeral_decimal n
    | succ zeros ih => exact ih.cons_zero

end Text

namespace SliceId

variable {name : String} {i : SliceId}

/-- Two numbers behind `npu-`, joined by a dash. -/
def Spells (name : String) (card counter : Nat) : Prop :=
  ∃ front back, name.toList = "npu-".toList ++ front ++ '-' :: back ∧
    Text.IsNumeral front card ∧ Text.IsNumeral back counter

theorem afterLead?_eq_some_iff {cs rest : List Char} :
    afterLead? cs = some rest ↔ cs = "npu-".toList ++ rest := by
  constructor
  · intro h
    unfold afterLead? at h
    split at h
    · cases h
      rfl
    · cases h
  · rintro rfl
    rfl

theorem ne_dash_of_isDigit {c : Char} (hc : c.isDigit = true) : (c != '-') = true := by
  apply bne_iff_ne.2
  rintro rfl
  exact absurd hc (by decide)

theorem parse?_eq_some_iff : parse? name = some i ↔ Spells name i.card.toNat i.counter.toNat := by
  constructor
  · intro h
    obtain ⟨rest, hlead, h⟩ := Option.bind_eq_some_iff.1 h
    split at h
    · cases h
    · rename_i d back hcut
      obtain ⟨card, hcard, h⟩ := Option.bind_eq_some_iff.1 h
      obtain ⟨counter, hcounter, h⟩ := Option.bind_eq_some_iff.1 h
      cases h
      have hdash : d = '-' := by
        have hne : rest.dropWhile (· != '-') ≠ [] := hcut ▸ List.cons_ne_nil d back
        simpa [hcut] using List.head_dropWhile_not (· != '-') hne
      subst hdash
      have hrest : rest = rest.takeWhile (· != '-') ++ '-' :: back := by
        rw [← hcut, List.takeWhile_append_dropWhile]
      refine ⟨_, back, ?_, Text.wordOfDigits?_eq_some_iff.1 hcard, Text.wordOfDigits?_eq_some_iff.1 hcounter⟩
      rw [List.append_assoc, ← hrest]
      exact afterLead?_eq_some_iff.1 hlead
  · rintro ⟨front, back, hname, hfront, hback⟩
    have hfree : ∀ c ∈ front, (c != '-') = true := fun c hc => ne_dash_of_isDigit (hfront.digits c hc)
    have hlead : afterLead? name.toList = some (front ++ '-' :: back) := by
      rw [afterLead?_eq_some_iff, hname, List.append_assoc]
    rw [parse?_of_lead hlead hfree, Text.wordOfDigits?_eq_some_iff.2 hfront,
      Text.wordOfDigits?_eq_some_iff.2 hback]
    rfl

/-- A name is read back as what it was made from, so that no two slices share one. Read is every text that
spells two numbers of 32 bits, as these numbers, and nothing else; it differs from the name that is written
by zeros in front of the two. -/
theorem parse?_inverts_text :
    (∀ card counter, parse? (text ⟨card, counter⟩) = some ⟨card, counter⟩) ∧
    (∀ card counter card' counter', text ⟨card, counter⟩ = text ⟨card', counter'⟩ ↔
      card = card' ∧ counter = counter') ∧
    (∀ name m n, (∃ i, parse? name = some i ∧ i.card.toNat = m ∧ i.counter.toNat = n) ↔
      Spells name m n ∧ m < UInt32.size ∧ n < UInt32.size) ∧
    ∀ name i, parse? name = some i ↔ ∃ zeros zeros', name.toList = "npu-".toList ++
      (List.replicate zeros '0' ++ (Text.decimal i.card.toNat).toList) ++
      '-' :: (List.replicate zeros' '0' ++ (Text.decimal i.counter.toNat).toList) := by
  refine ⟨fun card counter => parse?_text _, fun card counter card' counter' => ?_, fun name m n => ?_,
    fun name i => ?_⟩
  · constructor
    · intro h
      exact SliceId.mk.inj (text_injective h)
    · rintro ⟨rfl, rfl⟩
      rfl
  · constructor
    · rintro ⟨i, hi, rfl, rfl⟩
      exact ⟨parse?_eq_some_iff.1 hi, i.card.toNat_lt_size, i.counter.toNat_lt_size⟩
    · rintro ⟨hspells, hm, hn⟩
      obtain ⟨card, rfl⟩ : ∃ card : UInt32, card.toNat = m := ⟨.ofNatLT m hm, UInt32.toNat_ofNatLT⟩
      obtain ⟨counter, rfl⟩ : ∃ counter : UInt32, counter.toNat = n := ⟨.ofNatLT n hn, UInt32.toNat_ofNatLT⟩
      exact ⟨⟨card, counter⟩, parse?_eq_some_iff.2 hspells, rfl, rfl⟩
  · rw [parse?_eq_some_iff]
    simp only [Spells, Text.isNumeral_iff]
    constructor
    · rintro ⟨_, _, hname, ⟨zeros, rfl⟩, ⟨zeros', rfl⟩⟩
      exact ⟨zeros, zeros', hname⟩
    · rintro ⟨zeros, zeros', hname⟩
      exact ⟨_, _, hname, ⟨zeros, rfl⟩, ⟨zeros', rfl⟩⟩

example : parse? "npu-007-10" = some ⟨7, 10⟩ := by decide

example : parse? "npu-4294967296-0" = none ∧ parse? "npu-1-2-3" = none ∧ parse? "npu-+1-0" = none := by decide

end SliceId

end SliceAgent
