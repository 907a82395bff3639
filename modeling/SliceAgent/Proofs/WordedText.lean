import SliceAgent.Proofs.JsonText

/-!
The compact text of a value without numbers is the text of no other value, even where more text follows
(`Json.compactChars_unique`). The other value may hold numbers: what a number starts with starts nothing
else.
-/
namespace SliceAgent

def startsNumber (c : Char) : Bool := c.isDigit || ['-', '+', '.', 'e', 'N', 'i'].contains c

theorem startsNumber_of_isDigit {c : Char} (hc : c.isDigit = true) : startsNumber c = true := by
  rw [startsNumber, hc, Bool.true_or]

theorem isDigit_of_mem_toDigits {n : Nat} {c : Char} (hc : c ∈ Nat.toDigits 10 n) : c.isDigit = true :=
  Nat.isDigit_of_mem_toDigits (by omega) (by omega) hc

namespace Binary64

variable {digits : List Char} {first : Int} {c : Char}

theorem startsNumber_positional (hdigits : ∀ c ∈ digits, c.isDigit = true)
    (hc : c ∈ positional digits first) : startsNumber c = true := by
  have hzeros : ∀ {n : Nat} {c : Char}, c ∈ List.replicate n '0' → startsNumber c = true :=
    fun hc => List.eq_of_mem_replicate hc ▸ rfl
  have hpoint : ∀ c ∈ ['0', '.'], startsNumber c = true := List.all_eq_true.1 rfl
  unfold positional at hc
  split at hc
  · rw [List.mem_append, List.mem_append] at hc
    rcases hc with (hc | hc) | hc
    · exact hpoint c hc
    · exact hzeros hc
    · exact startsNumber_of_isDigit (hdigits c hc)
  · simp only at hc
    split at hc
    · rw [List.mem_append, List.mem_append] at hc
      rcases hc with (hc | hc) | hc
      · exact startsNumber_of_isDigit (hdigits c hc)
      · exact hzeros hc
      · exact hpoint c (List.mem_reverse.1 hc)
    · rw [List.mem_append, List.mem_append] at hc
      rcases hc with (hc | hc) | hc
      · exact startsNumber_of_isDigit (hdigits c (List.mem_of_mem_take hc))
      · exact hpoint c (List.mem_cons_of_mem '0' hc)
      · exact startsNumber_of_isDigit (hdigits c (List.mem_of_mem_drop hc))

theorem startsNumber_scientific (hdigits : ∀ c ∈ digits, c.isDigit = true)
    (hc : c ∈ scientific digits first) : startsNumber c = true := by
  unfold scientific at hc
  rw [List.mem_append, List.mem_append] at hc
  rcases hc with (hc | hc) | hc
  · split at hc
    · cases hc
    · exact startsNumber_of_isDigit (hdigits c hc)
    · rename_i d ds _
      rcases List.mem_cons.1 hc with rfl | hc
      · exact startsNumber_of_isDigit (hdigits c List.mem_cons_self)
      · rcases List.mem_cons.1 hc with rfl | hc
        · rfl
        · exact startsNumber_of_isDigit (hdigits c (List.mem_cons_of_mem d hc))
  · rcases List.mem_cons.1 hc with rfl | hc
    · rfl
    · rw [List.mem_singleton.1 hc]
      split <;> rfl
  · exact startsNumber_of_isDigit (isDigit_of_mem_toDigits hc)

theorem isDigit_shortest (x : Binary64) (hc : c ∈ x.shortest.1) : c.isDigit = true := by
  unfold shortest at hc
  simp only at hc
  split at hc
  · have hdropped := (List.dropWhile_sublist _).subset (List.mem_reverse.1 hc)
    exact isDigit_of_mem_toDigits (List.mem_reverse.1 hdropped)
  · rw [List.mem_singleton.1 hc]
    rfl

theorem decimals_head (fixed : Bool) (x : Binary64) : ∃ c cs,
    (if fixed then positional x.shortest.1 x.shortest.2 else scientific x.shortest.1 x.shortest.2) =
      c :: cs ∧ startsNumber c = true := by
  have hdigits : ∀ c ∈ x.shortest.1, c.isDigit = true := fun c hc => isDigit_shortest x hc
  cases fixed with
  | true =>
    have hne : positional x.shortest.1 x.shortest.2 ≠ [] := by
      unfold positional
      split
      · simp
      · simp only
        split <;> simp
    obtain ⟨c, cs, hcs⟩ := List.exists_cons_of_ne_nil hne
    exact ⟨c, cs, hcs, startsNumber_positional hdigits (hcs ▸ List.mem_cons_self)⟩
  | false =>
    have hne : scientific x.shortest.1 x.shortest.2 ≠ [] := by
      unfold scientific
      simp
    obtain ⟨c, cs, hcs⟩ := List.exists_cons_of_ne_nil hne
    exact ⟨c, cs, hcs, startsNumber_scientific hdigits (hcs ▸ List.mem_cons_self)⟩

theorem text_head (fixed : Int → Bool) (x : Binary64) :
    ∃ c cs, (x.text fixed).toList = c :: cs ∧ startsNumber c = true := by
  unfold text
  rw [String.toList_ofList]
  split
  · exact ⟨'N', ['a', 'N'], rfl, rfl⟩
  · cases x.isNegative with
    | true => exact ⟨'-', _, rfl, rfl⟩
    | false =>
      simp only [Bool.false_eq_true, if_false, List.nil_append]
      split
      · exact ⟨'i', ['n', 'f'], rfl, rfl⟩
      · split
        · exact ⟨'0', ['.', '0'], rfl, rfl⟩
        · exact decimals_head (fixed x.shortest.2) x

end Binary64

namespace Json

/-- What the text of a value starts with, unless it is a number. -/
def mark? : Json → Option Char
  | null => some 'n'
  | bool true => some 't'
  | bool false => some 'f'
  | int _ | float _ => none
  | str _ => some '"'
  | arr _ => some '['
  | obj _ => some '{'

theorem decimalInt_head (i : Int) :
    ∃ c cs, (Text.decimalInt i).toList = c :: cs ∧ startsNumber c = true := by
  cases i with
  | ofNat n =>
    cases hdigits : Nat.toDigits 10 n with
    | nil => exact absurd hdigits Nat.toDigits_ne_nil
    | cons c cs =>
      refine ⟨c, cs, by rw [Text.decimalInt, Text.decimal, hdigits, String.toList_ofList], ?_⟩
      exact startsNumber_of_isDigit (isDigit_of_mem_toDigits (hdigits ▸ List.mem_cons_self))
  | negSucc n => exact ⟨'-', _, String.toList_append, rfl⟩

theorem compactChars_mark (j : Json) : ∃ c cs, compactChars j = c :: cs ∧
    (j.mark? = some c ∨ j.mark? = none ∧ startsNumber c = true) := by
  cases j with
  | null => exact ⟨'n', "ull".toList, rfl, .inl rfl⟩
  | bool b =>
    cases b with
    | false => exact ⟨'f', "alse".toList, rfl, .inl rfl⟩
    | true => exact ⟨'t', "rue".toList, rfl, .inl rfl⟩
  | int i =>
    obtain ⟨c, cs, htext, hc⟩ := decimalInt_head i
    exact ⟨c, cs, htext, .inr ⟨rfl, hc⟩⟩
  | float x =>
    obtain ⟨c, cs, htext, hc⟩ := x.text_head _
    exact ⟨c, cs, htext, .inr ⟨rfl, hc⟩⟩
  | str s => exact ⟨'"', _, rfl, .inl rfl⟩
  | arr items => exact ⟨'[', _, rfl, .inl rfl⟩
  | obj members => exact ⟨'{', _, rfl, .inl rfl⟩

variable {j w : Json} {rest rest' : List Char} {n : Nat}

theorem mark?_eq_of_text (hw : plainWithin n w = true)
    (h : compactChars j ++ rest = compactChars w ++ rest') : j.mark? = w.mark? := by
  obtain ⟨c, cs, hj, hc⟩ := compactChars_mark j
  obtain ⟨d, ds, hwtext, hd⟩ := compactChars_mark w
  obtain ⟨e, es, hwhead, he⟩ := compactChars_head hw
  rw [hj, hwtext, List.cons_append, List.cons_append] at h
  obtain ⟨rfl, -⟩ := List.cons.inj h
  rw [hwtext] at hwhead
  obtain ⟨rfl, -⟩ := List.cons.inj hwhead
  have hno : starters.all (fun c => !startsNumber c) = true := rfl
  have hnumber : ¬ startsNumber c = true := by
    have hnot := List.all_eq_true.1 hno c he
    simpa using hnot
  rcases hc with hc | ⟨-, hc⟩
  · rcases hd with hd | ⟨-, hd⟩
    · exact hc.trans hd.symm
    · exact absurd hd hnumber
  · exact absurd hc hnumber

theorem quoted_unique {s t : String} (h : quoted s ++ rest = quoted t ++ rest') : s = t ∧ rest = rest' := by
  have hread : ∀ (s : String) (rest : List Char), stringAhead ((quoted s ++ rest).tail.map some) =
      (.str s, some (rest.map some)) := by
    intro s rest
    have hs := stringAhead_quoted s (rest.map some)
    rwa [← List.map_append] at hs
  have heq := hread s rest
  rw [h, hread t rest'] at heq
  obtain ⟨hst, hrest⟩ := Prod.mk.inj heq
  have hsame := (List.map_inj_right fun _ _ => Option.some.inj).1 (Option.some.inj hrest)
  exact ⟨(Doc.str.inj hst).symm, hsame.symm⟩

section Marks

theorem mark?_null : j.mark? = some 'n' ↔ j = null := by
  fun_cases mark? j <;> simp

theorem mark?_bool {b : Bool} : j.mark? = (bool b).mark? ↔ j = bool b := by
  cases b <;> fun_cases mark? j <;> simp [mark?]

theorem mark?_str : j.mark? = some '"' ↔ ∃ s, j = str s := by
  fun_cases mark? j <;> simp

theorem mark?_arr : j.mark? = some '[' ↔ ∃ items, j = arr items := by
  fun_cases mark? j <;> simp

theorem mark?_obj : j.mark? = some '{' ↔ ∃ members, j = obj members := by
  fun_cases mark? j <;> simp

theorem mark?_ne_bracket : j.mark? ≠ some ']' := by
  fun_cases mark? j <;> simp

end Marks

theorem compactChars_append_ne (j : Json) (xs ys : List Char) : compactChars j ++ xs ≠ ']' :: ys := by
  obtain ⟨c, cs, hj, hc⟩ := compactChars_mark j
  rw [hj, List.cons_append]
  intro h
  obtain ⟨rfl, -⟩ := List.cons.inj h
  rcases hc with hc | ⟨-, hc⟩
  · exact mark?_ne_bracket hc
  · exact absurd hc (by decide)

def itemsAfter : List Json → List Char
  | [] => []
  | j :: js => ',' :: compactItems (j :: js)

def membersAfter : List (String × Json) → List Char
  | [] => []
  | m :: ms => ',' :: compactMembers (m :: ms)

theorem compactItems_cons (j : Json) (js : List Json) :
    compactItems (j :: js) = compactChars j ++ itemsAfter js := by
  cases js with
  | nil => exact (List.append_nil _).symm
  | cons k js => rfl

theorem compactMembers_cons (k : String) (j : Json) (ms : List (String × Json)) :
    compactMembers ((k, j) :: ms) = quoted k ++ ':' :: (compactChars j ++ membersAfter ms) := by
  cases ms with
  | nil => rw [membersAfter, List.append_nil, compactMembers]
  | cons m ms =>
    rw [membersAfter, compactMembers, List.append_assoc, List.cons_append]
    exact List.cons_ne_nil m ms

mutual

-- by recursion on the value without numbers; the rests carry the unread part of both texts
theorem compactChars_unique : ∀ (w : Json) (n : Nat) (j : Json) (rest rest' : List Char),
    plainWithin n w = true → compactChars j ++ rest = compactChars w ++ rest' → j = w ∧ rest = rest'
  | .null, _, j, rest, rest', hw, h => by
    obtain rfl := mark?_null.1 (mark?_eq_of_text hw h)
    exact ⟨rfl, List.append_cancel_left h⟩
  | .bool b, _, j, rest, rest', hw, h => by
    obtain rfl := mark?_bool.1 (mark?_eq_of_text hw h)
    exact ⟨rfl, List.append_cancel_left h⟩
  | .str t, _, j, rest, rest', hw, h => by
    obtain ⟨s, rfl⟩ := mark?_str.1 (mark?_eq_of_text hw h)
    obtain ⟨rfl, hrest⟩ := quoted_unique h
    exact ⟨rfl, hrest⟩
  | .arr ws, n + 1, j, rest, rest', hw, h => by
    obtain ⟨js, rfl⟩ := mark?_arr.1 (mark?_eq_of_text hw h)
    have htext : compactItems js ++ ']' :: rest = compactItems ws ++ ']' :: rest' := by
      simpa [compactChars] using h
    obtain ⟨rfl, hrest⟩ := compactItems_unique ws n js rest rest' hw htext
    exact ⟨rfl, hrest⟩
  | .obj ws, n + 1, j, rest, rest', hw, h => by
    obtain ⟨ms, rfl⟩ := mark?_obj.1 (mark?_eq_of_text hw h)
    have htext : compactMembers ms ++ '}' :: rest = compactMembers ws ++ '}' :: rest' := by
      simpa [compactChars] using h
    obtain ⟨rfl, hrest⟩ := compactMembers_unique ws n ms rest rest' hw htext
    exact ⟨rfl, hrest⟩

theorem compactItems_unique : ∀ (ws : List Json) (n : Nat) (js : List Json) (rest rest' : List Char),
    itemsPlain n ws = true → compactItems js ++ ']' :: rest = compactItems ws ++ ']' :: rest' →
      js = ws ∧ rest = rest'
  | [], _, [], rest, rest', _, h => ⟨rfl, (List.cons.inj h).2⟩
  | [], _, j :: js, rest, rest', _, h => by
    rw [compactItems_cons, List.append_assoc] at h
    exact absurd h (compactChars_append_ne j _ _)
  | w :: ws, _, [], rest, rest', _, h => by
    rw [compactItems_cons, List.append_assoc] at h
    exact absurd h.symm (compactChars_append_ne w _ _)
  | w :: ws, n, j :: js, rest, rest', hw, h => by
    have hplain := Bool.and_eq_true_iff.1 hw
    rw [compactItems_cons, compactItems_cons, List.append_assoc, List.append_assoc] at h
    obtain ⟨rfl, hafter⟩ := compactChars_unique w n j _ _ hplain.1 h
    cases ws with
    | nil =>
      cases js with
      | nil => exact ⟨rfl, (List.cons.inj hafter).2⟩
      | cons k js => cases hafter
    | cons v ws =>
      cases js with
      | nil => cases hafter
      | cons k js =>
        obtain ⟨hsame, hrest⟩ :=
          compactItems_unique (v :: ws) n (k :: js) rest rest' hplain.2 (List.cons.inj hafter).2
        exact ⟨congrArg _ hsame, hrest⟩

theorem compactMembers_unique : ∀ (ws : List (String × Json)) (n : Nat) (ms : List (String × Json))
    (rest rest' : List Char), membersPlain n ws = true →
      compactMembers ms ++ '}' :: rest = compactMembers ws ++ '}' :: rest' → ms = ws ∧ rest = rest'
  | [], _, [], rest, rest', _, h => ⟨rfl, (List.cons.inj h).2⟩
  | [], _, (l, j) :: ms, rest, rest', _, h => by
    rw [compactMembers_cons] at h
    cases h
  | (k, w) :: ws, _, [], rest, rest', _, h => by
    rw [compactMembers_cons] at h
    cases h
  | (k, w) :: ws, n, (l, j) :: ms, rest, rest', hw, h => by
    have hplain := Bool.and_eq_true_iff.1 hw
    simp only [compactMembers_cons, List.append_assoc, List.cons_append] at h
    obtain ⟨rfl, hvalue⟩ := quoted_unique h
    obtain ⟨rfl, hafter⟩ := compactChars_unique w n j _ _ hplain.1 (List.cons.inj hvalue).2
    cases ws with
    | nil =>
      cases ms with
      | nil => exact ⟨rfl, (List.cons.inj hafter).2⟩
      | cons m ms => cases hafter
    | cons v ws =>
      cases ms with
      | nil => cases hafter
      | cons m ms =>
        obtain ⟨hsame, hrest⟩ :=
          compactMembers_unique (v :: ws) n (m :: ms) rest rest' hplain.2 (List.cons.inj hafter).2
        exact ⟨congrArg _ hsame, hrest⟩

end

theorem eq_of_compact (hw : plainWithin n w = true) (h : j.compact = w.compact) : j = w := by
  have htext : compactChars j ++ [] = compactChars w ++ [] := by
    rw [List.append_nil, List.append_nil]
    exact String.ofList_injective h
  exact (compactChars_unique w n j [] [] hw htext).1

end Json

end SliceAgent
