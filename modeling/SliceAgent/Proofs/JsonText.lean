import SliceAgent.Json.Parser
import SliceAgent.Json.Printer

/-!
Compact text of values without numbers reads back as the value that it was printed from, as long as
containers are nested within the limit (`Json.decodeText_compact`).
-/
namespace SliceAgent.Json

mutual

/-- No numbers, and containers nested at most `n` deep. -/
def plainWithin : Nat → Json → Bool
  | _, null => true
  | _, bool _ => true
  | _, int _ => false
  | _, float _ => false
  | _, str _ => true
  | 0, arr _ => false
  | n + 1, arr items => itemsPlain n items
  | 0, obj _ => false
  | n + 1, obj members => membersPlain n members

def itemsPlain : Nat → List Json → Bool
  | _, [] => true
  | n, j :: js => plainWithin n j && itemsPlain n js

def membersPlain : Nat → List (String × Json) → Bool
  | _, [] => true
  | n, (_, j) :: ms => plainWithin n j && membersPlain n ms

end

theorem itemsPlain_iff {n : Nat} {js : List Json} :
    itemsPlain n js = true ↔ ∀ j ∈ js, plainWithin n j = true := by
  induction js with
  | nil => simp [itemsPlain]
  | cons j js ih => simp [itemsPlain, ih]

theorem membersPlain_iff {n : Nat} {ms : List (String × Json)} :
    membersPlain n ms = true ↔ ∀ m ∈ ms, plainWithin n m.2 = true := by
  induction ms with
  | nil => simp [membersPlain]
  | cons m ms ih => simp [membersPlain, ih]

section Quoted

theorem hexValue?_hexDigit : ∀ n < 16, Text.hexValue? (Text.hexDigit n) = some n := by
  decide

theorem unit?_control {c : Char} (h : c.toNat < 0x20) :
    unit? (some '0') (some '0') (some (Text.hexDigit (c.toNat / 16))) (some (Text.hexDigit c.toNat)) =
      some c.toNat := by
  have h0 : Text.hexValue? '0' = some 0 := by decide
  have h1 := hexValue?_hexDigit (c.toNat / 16) (by omega)
  have h2 := hexValue?_hexDigit (c.toNat % 16) (by omega)
  have h3 : Text.hexDigit c.toNat = Text.hexDigit (c.toNat % 16) := by
    rw [Text.hexDigit, Text.hexDigit, Nat.mod_mod]
  simp only [unit?, bind, Option.bind, h0, h1, h3, h2, pure]
  congr 1
  omega

theorem pieces_plain {c : Char} {cs : Symbols} (hq : c ≠ '"') (hb : c ≠ '\\')
    (hc : ¬ c.toNat < 0x20) :
    pieces (some c :: cs) = (pieces cs).map fun r => (.char c :: r.1, r.2) := by
  rw [pieces, if_neg hc]
  · cases pieces cs <;> rfl
  · exact hq
  all_goals intros; contradiction

theorem pieces_escape {e c : Char} {cs : Symbols} (he : escape? e = some c) :
    pieces (some '\\' :: some e :: cs) = (pieces cs).map fun r => (.char c :: r.1, r.2) := by
  have hu : e ≠ 'u' := by
    rintro rfl
    cases he
  rw [pieces, he]
  · cases pieces cs <;> rfl
  · intros; contradiction

theorem pieces_escapedChar (c : Char) (cs : Symbols) :
    ∃ p, (∀ ps, assemble (p :: ps) = (assemble ps).map (c :: ·)) ∧
      pieces ((escapedChar c).map some ++ cs) = (pieces cs).map fun r => (p :: r.1, r.2) := by
  unfold escapedChar
  split
  case h_8 =>
    split
    · rename_i hc
      refine ⟨.unit c.toNat, fun ps => ?_, ?_⟩
      · rw [assemble.eq_def]
        simp only [if_pos (show c.toNat < 0xD800 ∨ 0xDFFF < c.toNat by omega), Char.ofNat_toNat]
      · simp only [List.map_cons, List.map_nil, List.cons_append, List.nil_append, pieces,
          unit?_control hc, bind, Option.bind]
        cases pieces cs <;> rfl
    · rename_i hq hb _ _ _ _ _ hc
      exact ⟨.char c, fun ps => rfl, pieces_plain hq hb hc⟩
  all_goals exact ⟨.char _, fun ps => rfl, pieces_escape rfl⟩

theorem stringAhead_escaped (cs : List Char) (rest : Symbols) :
    ∃ ps, pieces ((cs.flatMap escapedChar).map some ++ some '"' :: rest) = some (ps, rest) ∧
      assemble ps = some cs := by
  induction cs with
  | nil => exact ⟨[], rfl, rfl⟩
  | cons c cs ih =>
    obtain ⟨ps, hps, ha⟩ := ih
    obtain ⟨p, hp, hc⟩ := pieces_escapedChar c
      ((cs.flatMap escapedChar).map some ++ some '"' :: rest)
    refine ⟨p :: ps, ?_, ?_⟩
    · rw [List.flatMap_cons, List.map_append, List.append_assoc, hc, hps]
      rfl
    · rw [hp, ha]
      rfl

theorem stringAhead_quoted (s : String) (rest : Symbols) :
    stringAhead ((s.toList.flatMap escapedChar ++ ['"']).map some ++ rest) =
      (.str s, some rest) := by
  obtain ⟨ps, hps, ha⟩ := stringAhead_escaped s.toList rest
  rw [List.map_append, List.append_assoc]
  simp only [stringAhead, List.map_cons, List.map_nil, List.cons_append, List.nil_append, hps, ha,
    String.ofList_toList]

end Quoted

section Values

def marks : List Char := ['"', ',', ':', ']', '}']

theorem skipBlank_mark {c : Char} {cs : Symbols} (h : c ∈ marks) :
    skipBlank (some c :: cs) = some c :: cs := by
  simp only [marks, List.mem_cons, List.not_mem_nil, or_false] at h
  rcases h with rfl | rfl | rfl | rfl | rfl <;> rfl

def starters : List Char := ['n', 't', 'f', '"', '[', '{']

theorem compactChars_head {j : Json} {n : Nat} (h : plainWithin n j = true) :
    ∃ c cs, compactChars j = c :: cs ∧ c ∈ starters := by
  cases j with
  | null => exact ⟨'n', "ull".toList, rfl, by decide⟩
  | bool b =>
    cases b with
    | false => exact ⟨'f', "alse".toList, rfl, by decide⟩
    | true => exact ⟨'t', "rue".toList, rfl, by decide⟩
  | int i => cases h
  | float x => cases h
  | str s => exact ⟨'"', _, rfl, by decide⟩
  | arr items => exact ⟨'[', _, rfl, by decide⟩
  | obj members => exact ⟨'{', _, rfl, by decide⟩

theorem valueAhead_items {c : Char} {cs : Symbols} {fuel depth : Nat} (hc : c ∈ starters) :
    valueAhead (fuel + 1) depth (some '[' :: some c :: cs) =
      bounded depth (.arr (itemsAhead fuel depth (some c :: cs)).1)
        (itemsAhead fuel depth (some c :: cs)).2 := by
  simp only [starters, List.mem_cons, List.not_mem_nil, or_false] at hc
  rcases hc with rfl | rfl | rfl | rfl | rfl | rfl <;> rfl

theorem valueAhead_members {cs : Symbols} {fuel depth : Nat} :
    valueAhead (fuel + 1) depth (some '{' :: some '"' :: cs) =
      bounded depth (.obj (membersAhead fuel depth (some '"' :: cs)).1)
        (membersAhead fuel depth (some '"' :: cs)).2 := rfl

theorem compactMembers_head (k : String) (j : Json) (ms : List (String × Json)) :
    ∃ cs, compactMembers ((k, j) :: ms) = '"' :: cs := by
  cases ms with
  | nil => exact ⟨_, rfl⟩
  | cons m ms => exact ⟨_, rfl⟩

theorem bounded_some {depth : Nat} {d : Doc} {rest : Symbols} (h : depth < nestingLimit) :
    bounded depth d (some rest) = (d, some rest) := if_pos h

theorem compactItems_head {j : Json} {js : List Json} {n : Nat}
    (h : itemsPlain n (j :: js) = true) :
    ∃ c cs, compactItems (j :: js) = c :: cs ∧ c ∈ starters := by
  obtain ⟨c, cs, hj, hc⟩ := compactChars_head (Bool.and_eq_true_iff.1 h).1
  cases js with
  | nil => exact ⟨c, cs, hj, hc⟩
  | cons k js =>
    refine ⟨c, cs ++ ',' :: compactItems (k :: js), ?_, hc⟩
    rw [compactItems, hj, List.cons_append]
    exact List.cons_ne_nil k js

theorem membersAhead_key (k : String) (fuel depth : Nat) (cs : Symbols) :
    membersAhead (fuel + 1) depth ((quoted k).map some ++ some ':' :: cs) =
      match valueAhead fuel (depth + 1) cs with
      | (d, none) => ([(.str k, d)], none)
      | (d, some cs) =>
        match skipBlank cs with
        | some '}' :: cs => ([(.str k, d)], some cs)
        | some ',' :: cs =>
          let (ms, rest) := membersAhead fuel depth cs
          ((.str k, d) :: ms, rest)
        | _ => ([(.str k, d), (.broken, .broken)], none) := by
  have hk := stringAhead_quoted k (some ':' :: cs)
  have hq : (quoted k).map some ++ some ':' :: cs =
      some '"' :: ((k.toList.flatMap escapedChar ++ ['"']).map some ++ some ':' :: cs) := rfl
  rw [hq, membersAhead, skipBlank_mark (by decide)]
  simp only [hk]
  rw [skipBlank_mark (by decide)]
  rfl

mutual

-- by recursion on the fuel, of which two units for each character of the text are enough
/-- The text of a value is read back as the value, whatever follows it. -/
theorem valueAhead_compact : ∀ (j : Json) (n fuel depth : Nat) (rest : Symbols),
    plainWithin n j = true → depth + n ≤ nestingLimit → 2 * (compactChars j).length + 1 ≤ fuel →
      valueAhead fuel depth ((compactChars j).map some ++ rest) = (Doc.ofJson j, some rest)
  | .null, _, _ + 1, _, _, _, _, _ => rfl
  | .bool true, _, _ + 1, _, _, _, _, _ => rfl
  | .bool false, _, _ + 1, _, _, _, _, _ => rfl
  | .str s, _, _ + 1, _, rest, _, _, _ => stringAhead_quoted s rest
  | .arr [], _ + 1, _ + 1, _, _, _, hd, _ => bounded_some (by omega)
  | .arr (j :: js), n + 1, fuel + 1, depth, rest, hp, hd, hf => by
    have hitems := itemsAhead_compact j js n fuel depth rest hp (by omega)
      (by simp only [compactChars, List.cons_append, List.length_cons, List.length_append,
            List.length_nil] at hf; omega)
    obtain ⟨c, cs, hcs, hc⟩ := compactItems_head hp
    have htext : (compactChars (.arr (j :: js))).map some ++ rest =
        some '[' :: ((compactItems (j :: js)).map some ++ some ']' :: rest) := by
      simp [compactChars]
    rw [htext, hcs, List.map_cons, List.cons_append, valueAhead_items hc, ← List.cons_append,
      ← List.map_cons, ← hcs, hitems]
    exact bounded_some (by omega)
  | .obj [], _ + 1, _ + 1, _, _, _, hd, _ => bounded_some (by omega)
  | .obj ((k, j) :: ms), n + 1, fuel + 1, depth, rest, hp, hd, hf => by
    have hmembers := membersAhead_compact k j ms n fuel depth rest hp (by omega)
      (by simp only [compactChars, List.cons_append, List.length_cons, List.length_append,
            List.length_nil] at hf; omega)
    obtain ⟨cs, hcs⟩ := compactMembers_head k j ms
    have htext : (compactChars (.obj ((k, j) :: ms))).map some ++ rest =
        some '{' :: ((compactMembers ((k, j) :: ms)).map some ++ some '}' :: rest) := by
      simp [compactChars]
    rw [htext, hcs, List.map_cons, List.cons_append, valueAhead_members, ← List.cons_append,
      ← List.map_cons, ← hcs, hmembers]
    exact bounded_some (by omega)
termination_by structural _ _ fuel => fuel

theorem itemsAhead_compact : ∀ (j : Json) (js : List Json) (n fuel depth : Nat) (rest : Symbols),
    itemsPlain n (j :: js) = true → depth + 1 + n ≤ nestingLimit →
    2 * (compactItems (j :: js)).length + 2 ≤ fuel →
      itemsAhead fuel depth ((compactItems (j :: js)).map some ++ some ']' :: rest) =
        (Doc.ofItems (j :: js), some rest)
  | j, [], n, fuel + 1, depth, rest, hp, hd, hf => by
    have hj := valueAhead_compact j n fuel (depth + 1) (some ']' :: rest)
      (Bool.and_eq_true_iff.1 hp).1 hd (by simp only [compactItems] at hf; omega)
    rw [itemsAhead, compactItems, hj]
    rfl
  | j, k :: js, n, fuel + 1, depth, rest, hp, hd, hf => by
    have hlen : (compactItems (j :: k :: js)).length =
        (compactChars j).length + 1 + (compactItems (k :: js)).length := by
      simp [compactItems]; omega
    have hp := Bool.and_eq_true_iff.1 hp
    have hj := valueAhead_compact j n fuel (depth + 1)
      (some ',' :: ((compactItems (k :: js)).map some ++ some ']' :: rest)) hp.1 hd (by omega)
    have hjs := itemsAhead_compact k js n fuel depth rest hp.2 hd (by omega)
    have htext : (compactItems (j :: k :: js)).map some ++ some ']' :: rest =
        (compactChars j).map some ++
          some ',' :: ((compactItems (k :: js)).map some ++ some ']' :: rest) := by
      simp [compactItems]
    rw [htext, itemsAhead, hj]
    simp only [skipBlank_mark (show ',' ∈ marks by decide), hjs]
    rfl
termination_by structural _ _ _ fuel => fuel

theorem membersAhead_compact : ∀ (k : String) (j : Json) (ms : List (String × Json))
    (n fuel depth : Nat) (rest : Symbols),
    membersPlain n ((k, j) :: ms) = true → depth + 1 + n ≤ nestingLimit →
    2 * (compactMembers ((k, j) :: ms)).length + 2 ≤ fuel →
      membersAhead fuel depth ((compactMembers ((k, j) :: ms)).map some ++ some '}' :: rest) =
        (Doc.ofMembers ((k, j) :: ms), some rest)
  | k, j, [], n, fuel + 1, depth, rest, hp, hd, hf => by
    have hj := valueAhead_compact j n fuel (depth + 1) (some '}' :: rest)
      (Bool.and_eq_true_iff.1 hp).1 hd (by simp [compactMembers] at hf; omega)
    have htext : (compactMembers [(k, j)]).map some ++ some '}' :: rest =
        (quoted k).map some ++ some ':' :: ((compactChars j).map some ++ some '}' :: rest) := by
      simp [compactMembers]
    rw [htext, membersAhead_key, hj]
    rfl
  | k, j, (l, i) :: ms, n, fuel + 1, depth, rest, hp, hd, hf => by
    have hlen : (compactMembers ((k, j) :: (l, i) :: ms)).length = (quoted k).length + 1 +
        (compactChars j).length + 1 + (compactMembers ((l, i) :: ms)).length := by
      simp [compactMembers]; omega
    have hp := Bool.and_eq_true_iff.1 hp
    have hj := valueAhead_compact j n fuel (depth + 1)
      (some ',' :: ((compactMembers ((l, i) :: ms)).map some ++ some '}' :: rest)) hp.1 hd (by omega)
    have hms := membersAhead_compact l i ms n fuel depth rest hp.2 hd (by omega)
    have htext : (compactMembers ((k, j) :: (l, i) :: ms)).map some ++ some '}' :: rest =
        (quoted k).map some ++ some ':' :: ((compactChars j).map some ++
          some ',' :: ((compactMembers ((l, i) :: ms)).map some ++ some '}' :: rest)) := by
      simp [compactMembers]
    rw [htext, membersAhead_key, hj]
    simp only [skipBlank_mark (show ',' ∈ marks by decide), hms]
    rfl
termination_by structural _ _ _ _ fuel => fuel

end

end Values

section Decoding

variable {α : Type} {j : Json} {n : Nat}

theorem read_compact (hp : plainWithin n j = true) (hn : n < nestingLimit) :
    read (Text.symbolsOf j.compact) = ⟨Doc.ofJson j, true⟩ := by
  have hsymbols : Text.symbolsOf j.compact = (compactChars j).map some ++ [] := by
    rw [Text.symbolsOf, compact, String.toList_ofList, List.append_nil]
  have hvalue := valueAhead_compact j n (2 * ((compactChars j).map some ++ []).length + 2) 1 [] hp
    (by omega) (by simp)
  rw [hsymbols, read, hvalue]
  rfl

theorem decodeText_compact (dec : Decoder α) (hp : plainWithin n j = true) (hn : n < nestingLimit) :
    decodeText dec j.compact = dec .json (Doc.ofJson j) := by
  simp only [decodeText, decodeSymbols, read_compact hp hn, if_true]
  cases dec .json (Doc.ofJson j) <;> rfl

theorem symbols_toUTF8 (s : String) : Text.symbols s.toUTF8 = Text.symbolsOf s := by
  have hs : String.fromUTF8? s.toUTF8 = some s := by
    rw [String.toUTF8_eq_toByteArray]
    exact dif_pos s.isValidUTF8
  rw [Text.symbols, hs, Text.symbolsOf]

theorem decodeBytes_compact (dec : Decoder α) (hp : plainWithin n j = true) (hn : n < nestingLimit) :
    decodeBytes dec j.compact.toUTF8 = dec .json (Doc.ofJson j) := by
  rw [decodeBytes, symbols_toUTF8]
  exact decodeText_compact dec hp hn

end Decoding

end SliceAgent.Json
