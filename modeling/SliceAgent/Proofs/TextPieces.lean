import SliceAgent.Text.Blank

/-!
The pieces that a text falls into, and how they go together again: lines, words, what is trimmed from the
ends of a text, and what occurs inside it.
-/
namespace SliceAgent.Text

variable {p : Char → Bool} {xs ys needle : List Char} {c : Char}

section Splits

theorem split_append_separator (hc : p c = true) :
    split p (xs ++ c :: ys) = split p xs ++ split p ys := by
  induction xs with
  | nil => simp [split, hc]
  | cons x xs ih =>
    rw [List.cons_append, split, split, ih]
    split
    · rfl
    · cases h : split p xs with
      | nil => exact absurd h (split_ne_nil p xs)
      | cons y ys => rfl

theorem split_of_free (h : ∀ c ∈ xs, p c = false) : split p xs = [xs] := by
  induction xs with
  | nil => rfl
  | cons x xs ih =>
    obtain ⟨hx, hxs⟩ := List.forall_mem_cons.1 h
    rw [split, ih hxs, hx]
    rfl

theorem split_append (p : Char → Bool) (xs : List Char) :
    ∃ init last, (∀ c ∈ last, p c = false) ∧
      ∀ ys, (∀ c ∈ ys, p c = false) → split p (xs ++ ys) = init ++ [last ++ ys] := by
  induction xs with
  | nil => exact ⟨[], [], by simp, fun ys hys => split_of_free hys⟩
  | cons x xs ih =>
    obtain ⟨init, last, hlast, h⟩ := ih
    by_cases hx : p x = true
    · refine ⟨[] :: init, last, hlast, fun ys hys => ?_⟩
      simp [split, hx, h ys hys]
    · have hx := Bool.eq_false_iff.2 hx
      cases init with
      | nil =>
        refine ⟨[], x :: last, List.forall_mem_cons.2 ⟨hx, hlast⟩, fun ys hys => ?_⟩
        simp [split, hx, h ys hys]
      | cons piece init =>
        refine ⟨(x :: piece) :: init, last, hlast, fun ys hys => ?_⟩
        simp [split, hx, h ys hys]

theorem split_eq_cons (p : Char → Bool) (xs : List Char) :
    ∃ pieces, split p xs = xs.takeWhile (fun c => !p c) :: pieces := by
  induction xs with
  | nil => exact ⟨[], rfl⟩
  | cons x xs ih =>
    obtain ⟨pieces, h⟩ := ih
    by_cases hx : p x = true
    · exact ⟨split p xs, by simp [split, hx]⟩
    · exact ⟨pieces, by simp [split, hx, h]⟩

end Splits

section Occurrences

theorem occursIn_iff : occursIn needle xs = true ↔ needle <:+: xs := by
  induction xs with
  | nil => simp [occursIn]
  | cons x xs ih => rw [occursIn, Bool.or_eq_true, ih, List.isPrefixOf_iff_prefix, List.infix_cons_iff]

theorem infix_append_cons (hc : c ∉ needle) (h : needle <:+: xs ++ c :: ys) :
    needle <:+: xs ∨ needle <:+: ys := by
  obtain ⟨before, behind, heq⟩ := h
  rcases List.append_eq_append_iff.1 heq with ⟨rest, hxs, -⟩ | ⟨rest, hfront, hback⟩
  · exact .inl ⟨before, rest, hxs.symm⟩
  · rcases List.cons_eq_append_iff.1 hback with ⟨rfl, -⟩ | ⟨rest, rfl, rfl⟩
    · exact .inl ⟨before, [], by simpa using hfront⟩
    · rcases List.append_eq_append_iff.1 hfront with ⟨lead, -, hneedle⟩ | ⟨lead, -, hback⟩
      · exact absurd (by simp [hneedle]) hc
      · rcases List.cons_eq_append_iff.1 hback with ⟨-, hneedle⟩ | ⟨lead, -, rfl⟩
        · exact absurd (by simp [hneedle]) hc
        · exact .inr ⟨lead, behind, by simp⟩

theorem infix_of_append (hxs : ∀ c ∈ xs, c ∉ needle) (hne : needle ≠ []) (h : needle <:+: xs ++ ys) :
    needle <:+: ys := by
  induction xs with
  | nil => exact h
  | cons x xs ih =>
    obtain ⟨hx, hxs⟩ := List.forall_mem_cons.1 hxs
    rcases (infix_append_cons hx h : needle <:+: [] ∨ needle <:+: xs ++ ys) with hnone | hrest
    · exact absurd (List.infix_nil.1 hnone) hne
    · exact ih hxs hrest

theorem infix_of_append_right (hys : ∀ c ∈ ys, c ∉ needle) (hne : needle ≠ []) (h : needle <:+: xs ++ ys) :
    needle <:+: xs := by
  cases ys with
  | nil => simpa using h
  | cons y ys =>
    obtain ⟨hy, hys⟩ := List.forall_mem_cons.1 hys
    rcases infix_append_cons hy h with hfront | hrest
    · exact hfront
    · have hnone : needle <:+: [] := infix_of_append hys hne (by simpa using hrest)
      exact absurd (List.infix_nil.1 hnone) hne

end Occurrences

section Lines

variable {l : List Char} {ls ms : List (List Char)}

def joined (ls : List (List Char)) : List Char := ['\n'].intercalate ls

theorem joined_cons (hls : ls ≠ []) : joined (l :: ls) = l ++ '\n' :: joined ls := by
  cases ls with
  | nil => exact absurd rfl hls
  | cons m ms => simp [joined, List.intercalate, List.intersperse]

theorem split_line (hl : '\n' ∉ l) : split (· == '\n') l = [l] :=
  split_of_free fun _ hc => beq_false_of_ne fun heq => hl (heq ▸ hc)

theorem lines_of_free (hl : '\n' ∉ l) : lines l = if l.isEmpty then [] else [l] := by
  rw [lines, split_line hl]
  cases l <;> rfl

theorem lines_append_cons (hl : '\n' ∉ l) : lines (l ++ '\n' :: xs) = dropReturn l :: lines xs := by
  have hne := split_ne_nil (· == '\n') xs
  have hsplit : split (· == '\n') (l ++ '\n' :: xs) = l :: split (· == '\n') xs := by
    rw [split_append_separator (by rfl), split_line hl]
    rfl
  rw [lines, lines, hsplit, List.dropLast_cons_of_ne_nil hne, List.getLast?_cons]
  obtain ⟨last, hlast⟩ : ∃ last, (split (· == '\n') xs).getLast? = some last :=
    ⟨_, List.getLast?_eq_some_getLast hne⟩
  rw [hlast]
  rfl

theorem lines_joined_append (hls : ∀ l ∈ ls, '\n' ∉ l) (hms : ms ≠ []) :
    lines (joined (ls ++ ms)) = ls.map dropReturn ++ lines (joined ms) := by
  induction ls with
  | nil => rfl
  | cons l ls ih =>
    obtain ⟨hl, hls⟩ := List.forall_mem_cons.1 hls
    have hmore : ls ++ ms ≠ [] := List.append_ne_nil_of_right_ne_nil ls hms
    rw [List.cons_append, joined_cons hmore, lines_append_cons hl, ih hls]
    rfl

theorem lines_joined_cons (ls : List (List Char)) (hl : '\n' ∉ l) (hne : l ≠ []) : ∃ read,
    (read = l ∨ read = dropReturn l) ∧ lines (joined (l :: ls)) = read :: lines (joined ls) := by
  by_cases hls : ls = []
  · subst hls
    have hempty : l.isEmpty = false := by simpa using hne
    refine ⟨l, .inl rfl, ?_⟩
    rw [show joined [l] = l by simp [joined, List.intercalate], lines_of_free hl, hempty]
    rfl
  · refine ⟨dropReturn l, .inr rfl, ?_⟩
    rw [joined_cons hls, lines_append_cons hl]

theorem filterMap_lines {α : Type} {f : List Char → Option α} (hdrop : ∀ l, f (dropReturn l) = f l)
    (hnil : f [] = none) (hls : ∀ l ∈ ls, '\n' ∉ l) : (lines (joined ls)).filterMap f = ls.filterMap f := by
  induction ls with
  | nil => rfl
  | cons l ls ih =>
    obtain ⟨hl, hrest⟩ := List.forall_mem_cons.1 hls
    cases l with
    | nil =>
      rw [List.filterMap_cons_none hnil, ← ih hrest]
      by_cases hmore : ls = []
      · subst hmore
        rfl
      · rw [joined_cons hmore, lines_append_cons hl, List.filterMap_cons_none ((hdrop []).trans hnil)]
    | cons x l =>
      obtain ⟨read, hread, hlines⟩ := lines_joined_cons ls hl (List.cons_ne_nil x l)
      have hsame : f read = f (x :: l) := by
        rcases hread with rfl | rfl
        · rfl
        · exact hdrop (x :: l)
      rw [hlines, List.filterMap_cons, List.filterMap_cons, hsame, ih hrest]

theorem dropReturn_eq (l : List Char) : dropReturn l = l ∨ l = dropReturn l ++ ['\r'] := by
  unfold dropReturn
  split
  · rename_i hlast
    have hne : l ≠ [] := by
      intro hnil
      rw [hnil] at hlast
      cases hlast
    rw [List.getLast?_eq_some_getLast hne] at hlast
    refine .inr ?_
    rw [← Option.some.inj hlast, List.dropLast_concat_getLast]
  · exact .inl rfl

theorem infix_dropReturn (hc : '\r' ∉ needle) (hne : needle ≠ []) :
    needle <:+: dropReturn l ↔ needle <:+: l := by
  rcases dropReturn_eq l with hsame | hsnoc
  · rw [hsame]
  · constructor
    · intro h
      rw [hsnoc]
      exact List.infix_append_of_infix_left h
    · intro h
      rw [hsnoc] at h
      exact infix_of_append_right (by simpa using hc) hne h

end Lines

section Trims

variable {l core r : List Char}

theorem dropWhile_append_of_stop (h : xs.dropWhile p ≠ [] ∨ ∀ c ∈ ys.head?, p c = false) :
    (xs ++ ys).dropWhile p = xs.dropWhile p ++ ys := by
  rw [List.dropWhile_append]
  split
  · rename_i hempty
    have hdropped : xs.dropWhile p = [] := List.isEmpty_iff.1 hempty
    have hstop : ∀ c ∈ ys.head?, p c = false := h.resolve_left fun hne => hne hdropped
    have hys : ys.dropWhile p = ys := by
      cases ys with
      | nil => rfl
      | cons y ys => exact List.dropWhile_cons_of_neg (by simp [hstop y rfl])
    rw [hys, hdropped, List.nil_append]
  · rfl

theorem trim_around (hne : core ≠ []) (hfront : l.dropWhile p ≠ [] ∨ ∀ c ∈ core.head?, p c = false)
    (hback : r.reverse.dropWhile p ≠ [] ∨ ∀ c ∈ core.getLast?, p c = false) : trim p (l ++ core ++ r) =
      l.dropWhile p ++ core ++ (r.reverse.dropWhile p).reverse := by
  have hhead : (core ++ r).head? = core.head? := by
    rw [List.head?_append, List.head?_eq_some_head hne]
    rfl
  have hlast : (core.reverse ++ (l.dropWhile p).reverse).head? = core.getLast? := by
    rw [List.head?_append, List.head?_reverse, List.getLast?_eq_some_getLast hne]
    rfl
  have hreverse : (l.dropWhile p ++ (core ++ r)).reverse =
      r.reverse ++ (core.reverse ++ (l.dropWhile p).reverse) := by simp
  rw [← hhead] at hfront
  rw [← hlast] at hback
  rw [trim, List.append_assoc, dropWhile_append_of_stop hfront, hreverse, dropWhile_append_of_stop hback]
  simp

theorem trim_snoc (hc : p c = true) (xs : List Char) : trim p (xs ++ [c]) = trim p xs := by
  rw [trim, trim, List.dropWhile_append]
  split
  · rename_i hempty
    rw [List.isEmpty_iff.1 hempty, List.dropWhile_cons_of_pos hc]
    rfl
  · rw [List.reverse_append, List.reverse_singleton, List.singleton_append, List.dropWhile_cons_of_pos hc]

theorem eq_takeWhile_append_trim (p : Char → Bool) (xs : List Char) :
    ∃ tail, xs = xs.takeWhile p ++ (trim p xs ++ tail) := by
  refine ⟨((xs.dropWhile p).reverse.takeWhile p).reverse, ?_⟩
  rw [trim, ← List.reverse_append, List.takeWhile_append_dropWhile, List.reverse_reverse,
    List.takeWhile_append_dropWhile]

theorem head?_trim (h : (trim p xs).head? = some c) : p c = false := by
  have hstart : trim p xs <+: xs.dropWhile p := by
    have hsuffix := List.dropWhile_suffix p (l := (xs.dropWhile p).reverse)
    exact List.reverse_suffix.1 (by simpa [trim] using hsuffix)
  have hhead : (xs.dropWhile p).head? = some c := by
    obtain ⟨tail, htail⟩ := hstart
    rw [← htail, List.head?_append, h]
    rfl
  have hnot := List.head?_dropWhile_not p xs
  rw [hhead] at hnot
  simpa using hnot

end Trims

section Words

variable {w : List Char} {ws : List (List Char)}

theorem words_append_cons (hc : isBlank c = true) : words (xs ++ c :: ys) = words xs ++ words ys := by
  rw [words, split_append_separator hc, List.filter_append]
  rfl

theorem words_of_word (hne : w ≠ []) (hw : ∀ c ∈ w, isBlank c = false) : words w = [w] := by
  rw [words, split_of_free hw]
  simp [hne]

theorem words_append_blanks (hxs : ∀ c ∈ xs, isBlank c = true) : words (xs ++ ys) = words ys := by
  induction xs with
  | nil => rfl
  | cons x xs ih =>
    obtain ⟨hx, hxs⟩ := List.forall_mem_cons.1 hxs
    rw [← ih hxs]
    exact (words_append_cons hx : words ([] ++ x :: (xs ++ ys)) = words [] ++ words (xs ++ ys))

theorem prefix_of_words (hhead : ∀ c ∈ xs.head?, isBlank c = false) (h : words xs = w :: ws) : w <+: xs := by
  obtain ⟨pieces, hsplit⟩ := split_eq_cons isBlank xs
  have hfirst : (!(xs.takeWhile fun c => !isBlank c).isEmpty) = true := by
    cases xs with
    | nil => cases h
    | cons x xs =>
      have hx := hhead x rfl
      simp [hx]
  rw [words, hsplit, List.filter_cons, if_pos hfirst] at h
  rw [← (List.cons.inj h).1]
  exact List.takeWhile_prefix _

inductive Spaced : List (List Char) → List Char → Prop
  | word {w : List Char} : w ≠ [] → (∀ c ∈ w, isBlank c = false) → Spaced [w] w
  | cons {w gap rest : List Char} {ws : List (List Char)} : w ≠ [] → (∀ c ∈ w, isBlank c = false) →
      gap ≠ [] → (∀ c ∈ gap, isBlank c = true) → Spaced ws rest → Spaced (w :: ws) (w ++ (gap ++ rest))

namespace Spaced

theorem words_eq (h : Spaced ws xs) : words xs = ws := by
  induction h with
  | word hne hw => exact words_of_word hne hw
  | @cons w gap rest ws hne hw hgap hblank _ ih =>
    cases gap with
    | nil => exact absurd rfl hgap
    | cons g gap =>
      obtain ⟨hg, hblank⟩ := List.forall_mem_cons.1 hblank
      rw [List.cons_append, words_append_cons hg, words_of_word hne hw, words_append_blanks hblank, ih]
      rfl

theorem infix_of_mem (h : Spaced ws xs) (hw : w ∈ ws) : w <:+: xs := by
  induction h with
  | word _ _ =>
    have heq := List.mem_singleton.1 hw
    exact heq ▸ List.infix_rfl
  | @cons v gap rest ws _ _ _ _ _ ih =>
    rcases List.mem_cons.1 hw with rfl | hmem
    · exact (List.prefix_append _ _).isInfix
    · exact (ih hmem).trans ((List.suffix_append gap rest).trans (List.suffix_append v _)).isInfix

theorem exists_around (h : Spaced ws xs) (hneedle : ∀ c ∈ needle, isBlank c = false) (hne : needle ≠ [])
    (hinside : needle <:+: xs) : ∃ w ∈ ws, needle <:+: w := by
  induction h with
  | @word w _ _ => exact ⟨w, List.mem_singleton_self w, hinside⟩
  | @cons w gap rest ws _ _ hgap hblank _ ih =>
    have hfree : ∀ c ∈ gap, c ∉ needle := by
      intro c hc hmem
      have hnot := hneedle c hmem
      rw [hblank c hc] at hnot
      exact absurd hnot (by decide)
    cases gap with
    | nil => exact absurd rfl hgap
    | cons g gap =>
      obtain ⟨hg, hfree⟩ := List.forall_mem_cons.1 hfree
      rcases infix_append_cons hg hinside with hword | hrest
      · exact ⟨w, List.mem_cons_self, hword⟩
      · obtain ⟨v, hv, hinside⟩ := ih (infix_of_append hfree hne hrest)
        exact ⟨v, List.mem_cons_of_mem w hv, hinside⟩

theorem ne_nil (h : Spaced ws xs) : xs ≠ [] := by
  cases h with
  | word hne _ => exact hne
  | cons hne _ _ _ _ => exact List.append_ne_nil_of_left_ne_nil hne _

theorem head_not_blank (h : Spaced ws xs) : ∀ c ∈ xs.head?, isBlank c = false := by
  intro c hc
  have hfirst : ∃ w, (∀ c ∈ w, isBlank c = false) ∧ w ≠ [] ∧ w <+: xs := by
    cases h with
    | word hne hw => exact ⟨_, hw, hne, List.prefix_rfl⟩
    | cons hne hw _ _ _ => exact ⟨_, hw, hne, List.prefix_append _ _⟩
  obtain ⟨w, hw, hne, hstart⟩ := hfirst
  have hhead := hstart.head hne
  rw [List.head?_eq_some_head h.ne_nil, ← hhead] at hc
  cases hc
  exact hw _ (List.head_mem hne)

theorem last_not_blank (h : Spaced ws xs) : ∀ c ∈ xs.getLast?, isBlank c = false := by
  induction h with
  | word _ hw => exact fun c hc => hw c (List.mem_of_getLast? hc)
  | @cons w gap rest ws _ _ _ _ hrest ih =>
    have hne := hrest.ne_nil
    intro c hc
    rw [List.getLast?_append, List.getLast?_append, List.getLast?_eq_some_getLast hne] at hc
    exact ih c (by simpa [List.getLast?_eq_some_getLast hne] using hc)

end Spaced

end Words

end SliceAgent.Text
