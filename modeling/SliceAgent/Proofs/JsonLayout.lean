import SliceAgent.Proofs.JsonText

/-!
Text with one item or member a line reads back as compact text does (`Json.decodeBytes_pretty`): the
reader passes over the line breaks and indents.
-/
namespace SliceAgent.Json

section Blanks

variable {cs ds : Symbols} {fuel depth level : Nat}

theorem skipBlank_space (cs : Symbols) : skipBlank (some ' ' :: cs) = skipBlank cs := by
  rw [skipBlank]

theorem skipBlank_spaces (n : Nat) (cs : Symbols) :
    skipBlank ((List.replicate n ' ').map some ++ cs) = skipBlank cs := by
  induction n with
  | zero => rfl
  | succ n ih =>
    rw [List.replicate_succ, List.map_cons, List.cons_append, skipBlank_space, ih]

@[simp] theorem skipBlank_newLine (level : Nat) (cs : Symbols) :
    skipBlank ((newLine level).map some ++ cs) = skipBlank cs := by
  rw [newLine, List.map_cons, List.cons_append, skipBlank]
  exact skipBlank_spaces ..

theorem valueAhead_congr (h : skipBlank cs = skipBlank ds) :
    valueAhead fuel depth cs = valueAhead fuel depth ds := by
  cases fuel with
  | zero => rfl
  | succ fuel => rw [valueAhead, valueAhead, h]

theorem itemsAhead_congr (h : skipBlank cs = skipBlank ds) :
    itemsAhead fuel depth cs = itemsAhead fuel depth ds := by
  cases fuel with
  | zero => rfl
  | succ fuel => rw [itemsAhead, itemsAhead, valueAhead_congr h]

theorem membersAhead_congr (h : skipBlank cs = skipBlank ds) :
    membersAhead fuel depth cs = membersAhead fuel depth ds := by
  cases fuel with
  | zero => rfl
  | succ fuel => rw [membersAhead, membersAhead, h]

end Blanks

section Values

variable {c : Char} {cs : Symbols} {j : Json} {n fuel depth : Nat}

theorem skipBlank_starter (hc : c ∈ starters) : skipBlank (some c :: cs) = some c :: cs := by
  simp only [starters, List.mem_cons, List.not_mem_nil, or_false] at hc
  rcases hc with rfl | rfl | rfl | rfl | rfl | rfl <;> rfl

theorem prettyChars_head (level : Nat) (h : plainWithin n j = true) :
    ∃ c cs, prettyChars level j = c :: cs ∧ c ∈ starters := by
  cases j with
  | arr items => cases items <;> exact ⟨'[', _, rfl, by decide⟩
  | obj members => cases members <;> exact ⟨'{', _, rfl, by decide⟩
  | _ => exact compactChars_head h

theorem prettyItems_head {js : List Json} (level : Nat) (h : itemsPlain n (j :: js) = true) :
    ∃ c cs, prettyItems level (j :: js) = newLine level ++ c :: cs ∧ c ∈ starters := by
  obtain ⟨c, cs, hj, hc⟩ := prettyChars_head level (Bool.and_eq_true_iff.1 h).1
  cases js with
  | nil => exact ⟨c, cs, by rw [prettyItems, hj], hc⟩
  | cons k js =>
    refine ⟨c, cs ++ ',' :: prettyItems level (k :: js), ?_, hc⟩
    rw [prettyItems, hj]
    · simp
    · simp

theorem prettyMembers_head (level : Nat) (k : String) (j : Json) (ms : List (String × Json)) :
    ∃ cs, prettyMembers level ((k, j) :: ms) = newLine level ++ '"' :: cs := by
  cases ms with
  | nil =>
    refine ⟨k.toList.flatMap escapedChar ++ '"' :: ':' :: ' ' :: prettyChars level j, ?_⟩
    simp [prettyMembers, quoted]
  | cons m ms =>
    refine ⟨k.toList.flatMap escapedChar ++ '"' :: ':' :: ' ' ::
      (prettyChars level j ++ ',' :: prettyMembers level (m :: ms)), ?_⟩
    simp [prettyMembers, quoted]

theorem valueAhead_items_below (level : Nat) (hc : c ∈ starters) :
    valueAhead (fuel + 1) depth (some '[' :: ((newLine level).map some ++ some c :: cs)) =
      bounded depth (.arr (itemsAhead fuel depth (some c :: cs)).1)
        (itemsAhead fuel depth (some c :: cs)).2 := by
  rw [← valueAhead_items hc, valueAhead, valueAhead]
  simp only [skipBlank_starter (show '[' ∈ starters by decide), skipBlank_newLine]

theorem valueAhead_members_below (level : Nat) :
    valueAhead (fuel + 1) depth (some '{' :: ((newLine level).map some ++ some '"' :: cs)) =
      bounded depth (.obj (membersAhead fuel depth (some '"' :: cs)).1)
        (membersAhead fuel depth (some '"' :: cs)).2 := by
  rw [← valueAhead_members, valueAhead, valueAhead]
  simp only [skipBlank_starter (show '{' ∈ starters by decide), skipBlank_newLine]

mutual

-- by recursion on the fuel, as for compact text; line breaks only add to the text that pays for it
theorem valueAhead_pretty : ∀ (j : Json) (n level fuel depth : Nat) (rest : Symbols),
    plainWithin n j = true → depth + n ≤ nestingLimit →
    2 * (prettyChars level j).length + 1 ≤ fuel →
      valueAhead fuel depth ((prettyChars level j).map some ++ rest) = (Doc.ofJson j, some rest)
  | .null, _, _, _ + 1, _, _, _, _, _ => rfl
  | .bool true, _, _, _ + 1, _, _, _, _, _ => rfl
  | .bool false, _, _, _ + 1, _, _, _, _, _ => rfl
  | .str s, _, _, _ + 1, _, rest, _, _, _ => stringAhead_quoted s rest
  | .arr [], _ + 1, _, _ + 1, _, _, _, hd, _ => bounded_some (by omega)
  | .arr (j :: js), n + 1, level, fuel + 1, depth, rest, hp, hd, hf => by
    have hitems := itemsAhead_pretty j js n (level + 1) fuel depth ((newLine level).map some ++ some ']' :: rest)
      rest hp (by omega)
      (by simp only [prettyChars, List.cons_append, List.length_cons, List.length_append,
            List.length_nil] at hf; omega)
      (by simp [skipBlank_mark (show ']' ∈ marks by decide)])
    obtain ⟨c, cs, hcs, hc⟩ := prettyItems_head (level + 1) hp
    have htext : (prettyChars level (.arr (j :: js))).map some ++ rest =
        some '[' :: ((prettyItems (level + 1) (j :: js)).map some ++
          ((newLine level).map some ++ some ']' :: rest)) := by
      simp [prettyChars]
    rw [hcs, List.map_append, List.append_assoc, itemsAhead_congr (skipBlank_newLine ..)] at hitems
    rw [htext, hcs, List.map_append, List.append_assoc, List.map_cons, List.cons_append,
      valueAhead_items_below _ hc, ← List.cons_append, ← List.map_cons, hitems]
    exact bounded_some (by omega)
  | .obj [], _ + 1, _, _ + 1, _, _, _, hd, _ => bounded_some (by omega)
  | .obj ((k, j) :: ms), n + 1, level, fuel + 1, depth, rest, hp, hd, hf => by
    have hmembers := membersAhead_pretty k j ms n (level + 1) fuel depth
      ((newLine level).map some ++ some '}' :: rest) rest hp (by omega)
      (by simp only [prettyChars, List.cons_append, List.length_cons, List.length_append,
            List.length_nil] at hf; omega)
      (by simp [skipBlank_mark (show '}' ∈ marks by decide)])
    obtain ⟨cs, hcs⟩ := prettyMembers_head (level + 1) k j ms
    have htext : (prettyChars level (.obj ((k, j) :: ms))).map some ++ rest =
        some '{' :: ((prettyMembers (level + 1) ((k, j) :: ms)).map some ++
          ((newLine level).map some ++ some '}' :: rest)) := by
      simp [prettyChars]
    rw [hcs, List.map_append, List.append_assoc, membersAhead_congr (skipBlank_newLine ..)] at hmembers
    rw [htext, hcs, List.map_append, List.append_assoc, List.map_cons, List.cons_append,
      valueAhead_members_below, ← List.cons_append, ← List.map_cons, hmembers]
    exact bounded_some (by omega)
termination_by structural _ _ _ fuel => fuel

theorem itemsAhead_pretty : ∀ (j : Json) (js : List Json) (n level fuel depth : Nat)
    (closing rest : Symbols),
    itemsPlain n (j :: js) = true → depth + 1 + n ≤ nestingLimit →
    2 * (prettyItems level (j :: js)).length + 2 ≤ fuel → skipBlank closing = some ']' :: rest →
      itemsAhead fuel depth ((prettyItems level (j :: js)).map some ++ closing) =
        (Doc.ofItems (j :: js), some rest)
  | j, [], n, level, fuel + 1, depth, closing, rest, hp, hd, hf, hclosing => by
    have hj := valueAhead_pretty j n level fuel (depth + 1) closing
      (Bool.and_eq_true_iff.1 hp).1 hd (by simp [prettyItems] at hf; omega)
    rw [prettyItems, List.map_append, List.append_assoc, itemsAhead_congr (skipBlank_newLine ..),
      itemsAhead, hj]
    simp only [hclosing]
    rfl
  | j, k :: js, n, level, fuel + 1, depth, closing, rest, hp, hd, hf, hclosing => by
    have hlen : (prettyItems level (j :: k :: js)).length = (newLine level).length +
        (prettyChars level j).length + 1 + (prettyItems level (k :: js)).length := by
      simp [prettyItems]; omega
    have hp := Bool.and_eq_true_iff.1 hp
    have hj := valueAhead_pretty j n level fuel (depth + 1)
      (some ',' :: ((prettyItems level (k :: js)).map some ++ closing)) hp.1 hd (by omega)
    have hjs := itemsAhead_pretty k js n level fuel depth closing rest hp.2 hd (by omega) hclosing
    have htext : (prettyItems level (j :: k :: js)).map some ++ closing =
        (newLine level).map some ++ ((prettyChars level j).map some ++
          some ',' :: ((prettyItems level (k :: js)).map some ++ closing)) := by
      simp [prettyItems]
    rw [htext, itemsAhead_congr (skipBlank_newLine ..), itemsAhead, hj]
    simp only [skipBlank_mark (show ',' ∈ marks by decide), hjs]
    rfl
termination_by structural _ _ _ _ fuel => fuel

theorem membersAhead_pretty : ∀ (k : String) (j : Json) (ms : List (String × Json))
    (n level fuel depth : Nat) (closing rest : Symbols),
    membersPlain n ((k, j) :: ms) = true → depth + 1 + n ≤ nestingLimit →
    2 * (prettyMembers level ((k, j) :: ms)).length + 2 ≤ fuel →
    skipBlank closing = some '}' :: rest →
      membersAhead fuel depth ((prettyMembers level ((k, j) :: ms)).map some ++ closing) =
        (Doc.ofMembers ((k, j) :: ms), some rest)
  | k, j, [], n, level, fuel + 1, depth, closing, rest, hp, hd, hf, hclosing => by
    have hj := valueAhead_pretty j n level fuel (depth + 1) closing
      (Bool.and_eq_true_iff.1 hp).1 hd (by simp [prettyMembers] at hf; omega)
    have htext : (prettyMembers level [(k, j)]).map some ++ closing = (newLine level).map some ++
        ((quoted k).map some ++ some ':' :: (some ' ' :: ((prettyChars level j).map some ++ closing))) := by
      simp [prettyMembers]
    rw [htext, membersAhead_congr (skipBlank_newLine ..), membersAhead_key,
      valueAhead_congr (skipBlank_space _), hj]
    simp only [hclosing]
    rfl
  | k, j, (l, i) :: ms, n, level, fuel + 1, depth, closing, rest, hp, hd, hf, hclosing => by
    have hlen : (prettyMembers level ((k, j) :: (l, i) :: ms)).length = (newLine level).length +
        (quoted k).length + 2 + (prettyChars level j).length + 1 +
        (prettyMembers level ((l, i) :: ms)).length := by
      simp [prettyMembers]; omega
    have hp := Bool.and_eq_true_iff.1 hp
    have hj := valueAhead_pretty j n level fuel (depth + 1)
      (some ',' :: ((prettyMembers level ((l, i) :: ms)).map some ++ closing)) hp.1 hd (by omega)
    have hms := membersAhead_pretty l i ms n level fuel depth closing rest hp.2 hd (by omega) hclosing
    have htext : (prettyMembers level ((k, j) :: (l, i) :: ms)).map some ++ closing =
        (newLine level).map some ++ ((quoted k).map some ++ some ':' :: (some ' ' ::
          ((prettyChars level j).map some ++
            some ',' :: ((prettyMembers level ((l, i) :: ms)).map some ++ closing)))) := by
      simp [prettyMembers]
    rw [htext, membersAhead_congr (skipBlank_newLine ..), membersAhead_key,
      valueAhead_congr (skipBlank_space _), hj]
    simp only [skipBlank_mark (show ',' ∈ marks by decide), hms]
    rfl
termination_by structural _ _ _ _ _ fuel => fuel

end

end Values

section Decoding

variable {α : Type} {j : Json} {n : Nat}

theorem read_pretty (hp : plainWithin n j = true) (hn : n < nestingLimit) :
    read (Text.symbolsOf j.pretty) = ⟨Doc.ofJson j, true⟩ := by
  have hsymbols : Text.symbolsOf j.pretty = (prettyChars 0 j).map some ++ [] := by
    rw [Text.symbolsOf, pretty, String.toList_ofList, List.append_nil]
  have hvalue := valueAhead_pretty j n 0 (2 * ((prettyChars 0 j).map some ++ []).length + 2) 1 [] hp
    (by omega) (by simp)
  rw [hsymbols, read, hvalue]
  rfl

theorem decodeBytes_pretty (dec : Decoder α) (hp : plainWithin n j = true) (hn : n < nestingLimit) :
    decodeBytes dec j.pretty.toUTF8 = dec .json (Doc.ofJson j) := by
  rw [decodeBytes, symbols_toUTF8]
  simp only [decodeSymbols, read_pretty hp hn, if_true]
  cases dec .json (Doc.ofJson j) <;> rfl

end Decoding

end SliceAgent.Json
