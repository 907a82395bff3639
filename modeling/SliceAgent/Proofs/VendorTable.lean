import SliceAgent.Proofs.CardBudget
import SliceAgent.Proofs.SortedFit
import SliceAgent.Proofs.TextPieces
import SliceAgent.Template.Table

/-!
The layout of the vendor's table, and that reading undoes it: the catalog of a table is the one whose
templates are its rows, in whatever order they stand, with whatever borders and blanks, and with other lines
between them (`TemplateTable.parse?_layout`).
-/
namespace SliceAgent

namespace TemplateTable

open Text

/-- A border with blanks about it, or blanks alone. -/
def IsEdge (cs : List Char) : Prop := ∃ outer bars inner, cs = outer ++ (bars ++ inner) ∧
  (∀ c ∈ outer, isBlank c = true) ∧ (∀ c ∈ bars, c = '|') ∧ ∀ c ∈ inner, isBlank c = true

def StandsApart (cs : List Char) : Prop := ∃ outer bars inner, cs = outer ++ (bars ++ inner) ∧
  (∀ c ∈ outer, isBlank c = true) ∧ bars ≠ [] ∧ (∀ c ∈ bars, c = '|') ∧ inner ≠ [] ∧
    ∀ c ∈ inner, isBlank c = true

/-- A line of these words, with a border or without one. A bar at the end of a line is of the border, also
where it touches a word; the words themselves end in one only if a border stands apart from it. -/
def Shows (ws : List (List Char)) (line : List Char) : Prop := ∃ left core right,
  line = left ++ core ++ right ∧ IsEdge left ∧ IsEdge right ∧ Spaced ws core ∧
    (core.head? = some '|' → StandsApart left) ∧ (core.getLast? = some '|' → StandsApart right.reverse)

def IsAmount (cell : List Char) (n : UInt32) : Prop := ∃ digits, digits ≠ [] ∧
  (∀ c ∈ digits, c.isDigit = true) ∧ Nat.ofDigitChars 10 digits 0 = n.toNat ∧
    (cell = digits ∨ cell = digits ++ "GB".toList)

structure IsVendorName (name : String) : Prop where
  lead : "vir".toList <+: name.toList
  word : ∀ c ∈ name.toList, isBlank c = false
  bars : '|' ∉ name.toList
  rules : ¬ "--".toList <:+: name.toList

/-- The row of a template: its name, and its amounts below their columns. -/
def IsRow (columns : List (List Char)) (t : Template) (line : List Char) : Prop := ∃ others,
  Shows (t.name.toList :: others) line ∧ (∀ cell ∈ others, '|' ∉ cell ∧ ¬ "--".toList <:+: cell) ∧
    (∃ cell, (t.name.toList :: others)[columns.idxOf "AICORE".toList]? = some cell ∧
      IsAmount cell t.aiCore) ∧
    ∃ cell, (t.name.toList :: others)[columns.idxOf "Memory".toList]? = some cell ∧
      IsAmount cell t.memoryGb

/-- A rule, or a line that does not begin as the row of a template does, such as a blank one. -/
def IsFiller (line : List Char) : Prop := "--".toList <:+: line ∨
  ∀ edge rest, IsEdge edge → line = edge ++ rest → ¬ "vir".toList <+: rest

inductive Body (columns : List (List Char)) : List Template → List (List Char) → Prop
  | nil : Body columns [] []
  | row {t : Template} {ts : List Template} {line : List Char} {lines : List (List Char)} :
      IsRow columns t line → Body columns ts lines → Body columns (t :: ts) (line :: lines)
  | filler {ts : List Template} {line : List Char} {lines : List (List Char)} :
      IsFiller line → Body columns ts lines → Body columns ts (line :: lines)

structure Layout where
  before : List (List Char)
  header : List Char
  columns : List (List Char)
  units : List Char
  skipped : List (List Char)
  rule : List Char
  body : List (List Char)

namespace Layout

def top (l : Layout) : List (List Char) := l.before ++ l.header :: l.units :: l.skipped

def text (l : Layout) : String := String.ofList (joined (l.top ++ l.rule :: l.body))

structure Lists (l : Layout) (ts : List Template) : Prop where
  before : ∀ line ∈ l.before,
    ¬ ("Name".toList <:+: line ∧ "AICORE".toList <:+: line ∧ "Memory".toList <:+: line)
  header : Shows l.columns l.header
  first : l.columns.head? = some "Name".toList
  aiCore : l.columns.count "AICORE".toList = 1
  memory : l.columns.count "Memory".toList = 1
  skipped : ∀ line ∈ l.skipped, ¬ "==".toList <:+: line
  rule : "==".toList <:+: l.rule
  body : Body l.columns ts l.body
  feeds : ∀ line ∈ l.top ++ l.rule :: l.body, '\n' ∉ line

end Layout

variable {line cs : List Char} {ws columns : List (List Char)} {t : Template} {ts : List Template}
  {n : UInt32}

section Edges

theorem isBlank_bar : isBlank '|' = false := by decide

theorem IsEdge.reverse (h : IsEdge cs) : IsEdge cs.reverse := by
  obtain ⟨outer, bars, inner, rfl, houter, hbars, hinner⟩ := h
  refine ⟨inner.reverse, bars.reverse, outer.reverse, by simp, ?_, ?_, ?_⟩
  · exact fun c hc => hinner c (List.mem_reverse.1 hc)
  · exact fun c hc => hbars c (List.mem_reverse.1 hc)
  · exact fun c hc => houter c (List.mem_reverse.1 hc)

theorem IsEdge.mem (h : IsEdge cs) {c : Char} (hc : c ∈ cs) : isBlank c = true ∨ c = '|' := by
  obtain ⟨outer, bars, inner, rfl, houter, hbars, hinner⟩ := h
  rcases List.mem_append.1 hc with hc | hc
  · exact .inl (houter c hc)
  · rcases List.mem_append.1 hc with hc | hc
    · exact .inr (hbars c hc)
    · exact .inl (hinner c hc)

theorem dropWhile_edge {outer bars inner : List Char} (houter : ∀ c ∈ outer, isBlank c = true)
    (hbars : ∀ c ∈ bars, c = '|') (hinner : ∀ c ∈ inner, isBlank c = true) (hne : bars ≠ []) :
    ((outer ++ (bars ++ inner)).dropWhile isBlank).dropWhile (· == '|') = inner := by
  rw [List.dropWhile_append_of_pos houter]
  cases bars with
  | nil => exact absurd rfl hne
  | cons bar bars =>
    have hbar : bar = '|' := hbars bar List.mem_cons_self
    have hall : ∀ c ∈ bar :: bars, (c == '|') = true := fun c hc => beq_iff_eq.2 (hbars c hc)
    have hstay : ((bar :: bars) ++ inner).dropWhile isBlank = (bar :: bars) ++ inner :=
      List.dropWhile_cons_of_neg (by rw [hbar]; decide)
    rw [hstay, List.dropWhile_append_of_pos hall]
    cases inner with
    | nil => rfl
    | cons c inner =>
      have hc := hinner c List.mem_cons_self
      refine List.dropWhile_cons_of_neg fun heq => ?_
      rw [beq_iff_eq.1 heq, isBlank_bar] at hc
      cases hc

theorem IsEdge.dropped (h : IsEdge cs) :
    ((cs.dropWhile isBlank).dropWhile (· == '|')).dropWhile isBlank = [] := by
  obtain ⟨outer, bars, inner, rfl, houter, hbars, hinner⟩ := h
  by_cases hne : bars = []
  · rw [hne, List.nil_append, List.dropWhile_append_of_pos houter, List.dropWhile_eq_nil_iff.2 hinner]
    rfl
  · rw [dropWhile_edge houter hbars hinner hne, List.dropWhile_eq_nil_iff.2 hinner]

theorem StandsApart.kept (h : StandsApart cs) : (cs.dropWhile isBlank).dropWhile (· == '|') ≠ [] := by
  obtain ⟨outer, bars, inner, rfl, houter, hne, hbars, hgap, hinner⟩ := h
  rw [dropWhile_edge houter hbars hinner hne]
  exact hgap

theorem cells_of_shows (h : Shows ws line) : cells line = ws := by
  obtain ⟨left, core, right, rfl, hleft, hright, hspaced, hfirst, hlast⟩ := h
  have hne := hspaced.ne_nil
  have hblank : ∀ l r, trim isBlank (l ++ core ++ r) =
      l.dropWhile isBlank ++ core ++ (r.reverse.dropWhile isBlank).reverse :=
    fun l r => trim_around hne (.inr hspaced.head_not_blank) (.inr hspaced.last_not_blank)
  have hstop : ∀ (cs : List Char) (mark : Option Char), (mark = some '|' → StandsApart cs) →
      (cs.dropWhile isBlank).dropWhile (· == '|') ≠ [] ∨ ∀ c ∈ mark, (c == '|') = false := by
    intro cs mark hend
    by_cases hbar : mark = some '|'
    · exact .inl (hend hbar).kept
    · exact .inr fun c hc => beq_false_of_ne fun heq => hbar (heq ▸ hc)
  have hbar := trim_around (p := (· == '|')) (l := left.dropWhile isBlank)
    (r := (right.reverse.dropWhile isBlank).reverse) hne (hstop left core.head? hfirst)
    (by simpa only [List.reverse_reverse] using hstop right.reverse core.getLast? hlast)
  rw [cells, hblank, hbar, hblank, List.reverse_reverse, List.reverse_reverse, hleft.dropped,
    hright.reverse.dropped, List.reverse_nil, List.nil_append, List.append_nil, hspaced.words_eq]

end Edges

section Cells

theorem columnOf?_eq {name : String} (h : columns.count name.toList = 1) :
    columnOf? name columns = some (columns.idxOf name.toList) := by
  have hmem : name.toList ∈ columns := List.count_pos_iff.1 (by omega)
  obtain ⟨front, back, rfl, hfront⟩ := List.eq_append_cons_of_mem hmem
  have hback : name.toList ∉ back := by
    intro hin
    have hpos := List.count_pos_iff.2 hin
    rw [List.count_append, List.count_cons_self] at h
    omega
  have hnone : (back.zipIdx (front.length + 1)).filter (fun c => c.1 == name.toList) = [] := by
    refine List.filter_eq_nil_iff.2 fun c hc heq => hback ?_
    rw [← beq_iff_eq.1 heq]
    exact List.fst_mem_of_mem_zipIdx hc
  have hlist : (front ++ name.toList :: back).zipIdx.filter (fun c => c.1 == name.toList) =
      front.zipIdx.filter (fun c => c.1 == name.toList) ++ [(name.toList, front.length)] := by
    rw [List.zipIdx_append, List.filter_append, List.zipIdx_cons, List.filter_cons,
      if_pos (beq_self_eq_true _), Nat.zero_add, hnone]
  have hplace : (front ++ name.toList :: back).idxOf name.toList = front.length := by
    rw [List.idxOf_append_of_notMem hfront, List.idxOf_cons_self]
    rfl
  rw [columnOf?, hplace]
  simp only [hlist, List.getLast?_concat, Option.map_some]

theorem wordOfNumeral?_digits {digits : List Char} (hne : digits ≠ []) (hdigits : ∀ c ∈ digits, c.isDigit = true)
    (hvalue : Nat.ofDigitChars 10 digits 0 = n.toNat) : wordOfNumeral? digits = some n := by
  have hnat : natOfDigits? digits = some n.toNat := by
    have hempty : digits.isEmpty = false := by simpa using hne
    rw [natOfDigits?, hempty, List.all_eq_true.2 hdigits, hvalue]
    rfl
  have hword : wordOfDigits? digits = some n := by
    rw [wordOfDigits?, hnat]
    simp [UInt32.toNat_lt_size]
  cases digits with
  | nil => exact absurd rfl hne
  | cons c digits =>
    have hplus : c ≠ '+' := by
      rintro rfl
      exact absurd (hdigits '+' List.mem_cons_self) (by decide)
    rw [wordOfNumeral?]
    · exact hword
    · intro rest heq
      exact hplus (List.cons.inj heq).1

theorem amount_of_isAmount (h : IsAmount line n) : amount line = n := by
  obtain ⟨digits, hne, hdigits, hvalue, rfl | rfl⟩ := h
  · have hnot : "GB".toList.isSuffixOf line = false := by
      refine Bool.eq_false_iff.2 fun hsuffix => ?_
      have hmem : 'B' ∈ line := (List.isSuffixOf_iff_suffix.1 hsuffix).subset (by decide)
      exact absurd (hdigits 'B' hmem) (by decide)
    rw [amount, hnot]
    simp [wordOfNumeral?_digits hne hdigits hvalue]
  · have hunit : "GB".toList.isSuffixOf (digits ++ "GB".toList) = true :=
      List.isSuffixOf_iff_suffix.2 (List.suffix_append _ _)
    have hdrop : (digits ++ "GB".toList).dropLast.dropLast = digits := by
      rw [show "GB".toList = ['G'] ++ ['B'] from rfl, ← List.append_assoc, List.dropLast_concat,
        List.dropLast_concat]
    rw [amount, if_pos hunit, hdrop, wordOfNumeral?_digits hne hdigits hvalue]
    rfl

theorem amountAt_eq {i : Nat} (h : ∃ cell, ws[i]? = some cell ∧ IsAmount cell n) :
    amountAt ws (some i) = n := by
  obtain ⟨cell, hcell, hamount⟩ := h
  rw [amountAt, hcell]
  exact amount_of_isAmount hamount

end Cells

section Rows

theorem Shows.exists_around {needle : List Char} (h : Shows ws line)
    (hneedle : ∀ c ∈ needle, isBlank c = false ∧ c ≠ '|') (hne : needle ≠ []) (hinside : needle <:+: line) :
    ∃ w ∈ ws, needle <:+: w := by
  obtain ⟨left, core, right, rfl, hleft, hright, hspaced, -, -⟩ := h
  have hedge : ∀ cs, IsEdge cs → ∀ c ∈ cs, c ∉ needle := by
    intro cs hcs c hc hmem
    obtain ⟨hblank, hbar⟩ := hneedle c hmem
    rcases hcs.mem hc with hyes | hyes
    · rw [hyes] at hblank
      cases hblank
    · exact hbar hyes
  have hfront := infix_of_append_right (hedge right hright) hne hinside
  have hcore := infix_of_append (hedge left hleft) hne hfront
  exact hspaced.exists_around (fun c hc => (hneedle c hc).1) hne hcore

theorem Shows.infix_of_mem {w : List Char} (h : Shows ws line) (hw : w ∈ ws) : w <:+: line := by
  obtain ⟨left, core, right, rfl, -, -, hspaced, -, -⟩ := h
  exact (hspaced.infix_of_mem hw).trans (List.infix_append left core right)

theorem template?_row (hname : IsVendorName t.name) (h : IsRow columns t line) :
    template? (some (columns.idxOf "AICORE".toList)) (some (columns.idxOf "Memory".toList)) line = some t := by
  obtain ⟨others, hshows, hothers, haiCore, hmemory⟩ := h
  have hrule : occursIn "--".toList line = false := by
    refine Bool.eq_false_iff.2 fun hoccurs => ?_
    have hdashes : ∀ c ∈ "--".toList, isBlank c = false ∧ c ≠ '|' := by
      intro c hc
      have hdash : c = '-' := by simpa using hc
      rw [hdash]
      exact ⟨by decide, by decide⟩
    obtain ⟨w, hw, hinside⟩ := hshows.exists_around hdashes (by decide) (occursIn_iff.1 hoccurs)
    rcases List.mem_cons.1 hw with rfl | hother
    · exact hname.rules hinside
    · exact (hothers w hother).2 hinside
  have hlead : "vir".toList.isPrefixOf t.name.toList = true := List.isPrefixOf_iff_prefix.2 hname.lead
  rw [template?, cells_of_shows hshows]
  simp only [hrule, hlead, amountAt_eq haiCore, amountAt_eq hmemory, String.ofList_toList]
  rfl

theorem isEdge_takeWhile (xs ys zs : List Char) :
    IsEdge (xs.takeWhile isBlank ++ (ys.takeWhile (· == '|') ++ zs.takeWhile isBlank)) := by
  refine ⟨_, _, _, rfl, fun c hc => ?_, fun c hc => ?_, fun c hc => ?_⟩
  · exact List.mem_takeWhile_imp hc
  · exact beq_iff_eq.1 (List.mem_takeWhile_imp (p := (· == '|')) hc)
  · exact List.mem_takeWhile_imp hc

theorem exists_edge (line : List Char) : ∃ edge core tail, IsEdge edge ∧ line = edge ++ (core ++ tail) ∧
    cells line = words core ∧ ∀ c ∈ core.head?, isBlank c = false := by
  obtain ⟨behind, houter⟩ := eq_takeWhile_append_trim isBlank line
  generalize hinside : trim isBlank line = inside at houter
  obtain ⟨behind', hbars⟩ := eq_takeWhile_append_trim (· == '|') inside
  generalize hopen : trim (· == '|') inside = opened at hbars
  obtain ⟨behind'', hinner⟩ := eq_takeWhile_append_trim isBlank opened
  have hcells : cells line = words (trim isBlank opened) := by
    rw [cells, hinside, hopen]
  have hline : line = (line.takeWhile isBlank ++ (inside.takeWhile (· == '|') ++ opened.takeWhile isBlank)) ++
      (trim isBlank opened ++ (behind'' ++ (behind' ++ behind))) := by
    calc line = line.takeWhile isBlank ++ (inside ++ behind) := houter
      _ = line.takeWhile isBlank ++ (inside.takeWhile (· == '|') ++ (opened ++ behind') ++ behind) := by
        rw [← hbars]
      _ = line.takeWhile isBlank ++ (inside.takeWhile (· == '|') ++
            (opened.takeWhile isBlank ++ (trim isBlank opened ++ behind'') ++ behind') ++ behind) := by
        rw [← hinner]
      _ = _ := by simp only [List.append_assoc]
  exact ⟨_, _, _, isEdge_takeWhile line inside opened, hline, hcells, fun c hc => head?_trim hc⟩

theorem template?_filler {aiCore memory : Option Nat} (h : IsFiller line) :
    template? aiCore memory line = none := by
  obtain ⟨edge, core, tail, hedge, hline, hcells, hhead⟩ := exists_edge line
  rw [template?, hcells]
  split
  · rfl
  · rename_i name row hwords
    refine if_pos ?_
    rcases h with hrule | hother
    · rw [occursIn_iff.2 hrule]
      rfl
    · have hlead : "vir".toList.isPrefixOf name = false := by
        refine Bool.eq_false_iff.2 fun hstart => hother edge (core ++ tail) hedge hline ?_
        have hname := prefix_of_words hhead hwords
        exact ((List.isPrefixOf_iff_prefix.1 hstart).trans hname).trans (List.prefix_append _ _)
      rw [hlead, Bool.not_false, Bool.or_true]

theorem filterMap_body {lines : List (List Char)} (hnames : ∀ t ∈ ts, IsVendorName t.name)
    (h : Body columns ts lines) : lines.filterMap (template? (some (columns.idxOf "AICORE".toList))
      (some (columns.idxOf "Memory".toList))) = ts := by
  induction h with
  | nil => rfl
  | row hrow _ ih =>
    obtain ⟨hname, hnames⟩ := List.forall_mem_cons.1 hnames
    rw [List.filterMap_cons_some (template?_row hname hrow), ih hnames]
  | filler hfiller _ ih => rw [List.filterMap_cons_none (template?_filler hfiller), ih hnames]

end Rows

section Ends

theorem cells_dropReturn (line : List Char) : cells (dropReturn line) = cells line := by
  have hblank : isBlank '\r' = true := by decide
  rcases dropReturn_eq line with hsame | hsnoc
  · rw [hsame]
  · have htrim := trim_snoc hblank (dropReturn line)
    rw [← hsnoc] at htrim
    rw [cells, cells, htrim]

theorem occursIn_dropReturn {needle : List Char} (hreturn : '\r' ∉ needle) (hne : needle ≠ []) :
    occursIn needle (dropReturn line) = occursIn needle line := by
  rw [Bool.eq_iff_iff, occursIn_iff, occursIn_iff]
  exact infix_dropReturn hreturn hne

theorem template?_dropReturn (aiCore memory : Option Nat) (line : List Char) :
    template? aiCore memory (dropReturn line) = template? aiCore memory line := by
  have hrule : occursIn "--".toList (dropReturn line) = occursIn "--".toList line :=
    occursIn_dropReturn (by decide) (by decide)
  rw [template?, template?, cells_dropReturn, hrule]

theorem isHeader_dropReturn : isHeader (dropReturn line) = isHeader line := by
  rw [isHeader, isHeader, occursIn_dropReturn (by decide) (by decide),
    occursIn_dropReturn (by decide) (by decide), occursIn_dropReturn (by decide) (by decide)]

end Ends

section Tables

variable {l : Layout} {c : Catalog} {p : List Char → Bool} {ls ms : List (List Char)}

theorem after_append (hls : ∀ line ∈ ls, p line = false) : after p (ls ++ ms) = after p ms := by
  induction ls with
  | nil => rfl
  | cons line ls ih =>
    obtain ⟨hline, hls⟩ := List.forall_mem_cons.1 hls
    rw [List.cons_append, after, hline]
    exact ih hls

theorem after_append_cons (hls : ∀ line ∈ ls, p line = false) (hline : p line = true) :
    after p (ls ++ line :: ms) = ms := by
  rw [after_append hls, after, if_pos hline]

theorem isHeader_of_lists (h : l.Lists ts) : isHeader l.header = true := by
  have hname : "Name".toList <:+: l.header := h.header.infix_of_mem (List.mem_of_head? h.first)
  have hcores : "AICORE".toList <:+: l.header :=
    h.header.infix_of_mem (List.count_pos_iff.1 (by rw [h.aiCore]; exact Nat.one_pos))
  have hmemory : "Memory".toList <:+: l.header :=
    h.header.infix_of_mem (List.count_pos_iff.1 (by rw [h.memory]; exact Nat.one_pos))
  rw [isHeader, occursIn_iff.2 hname, occursIn_iff.2 hcores, occursIn_iff.2 hmemory]
  rfl

theorem not_isHeader_before (h : l.Lists ts) : ∀ line ∈ l.before.map dropReturn, isHeader line = false := by
  intro line hline
  obtain ⟨raw, hraw, rfl⟩ := List.mem_map.1 hline
  refine Bool.eq_false_iff.2 fun hheader => h.before raw hraw ?_
  rw [isHeader_dropReturn, isHeader, Bool.and_eq_true, Bool.and_eq_true, occursIn_iff, occursIn_iff,
    occursIn_iff] at hheader
  exact ⟨hheader.1.1, hheader.1.2, hheader.2⟩

theorem not_rule_skipped (h : l.Lists ts) :
    ∀ line ∈ l.skipped.map dropReturn, occursIn "==".toList line = false := by
  intro line hline
  obtain ⟨raw, hraw, rfl⟩ := List.mem_map.1 hline
  rw [occursIn_dropReturn (by decide) (by decide)]
  exact Bool.eq_false_iff.2 fun hoccurs => h.skipped raw hraw (occursIn_iff.1 hoccurs)

theorem lines_text (h : l.Lists ts) : ∃ rule, occursIn "==".toList rule = true ∧ lines l.text.toList =
    l.before.map dropReturn ++ dropReturn l.header :: dropReturn l.units ::
      (l.skipped.map dropReturn ++ rule :: lines (joined l.body)) := by
  have hfeeds := h.feeds
  rw [List.forall_mem_append, List.forall_mem_cons] at hfeeds
  obtain ⟨htop, hrule, hbody⟩ := hfeeds
  have hne : l.rule ≠ [] := by
    intro hnil
    have hrule := h.rule
    rw [hnil] at hrule
    exact absurd (List.infix_nil.1 hrule) (by decide)
  obtain ⟨rule, hread, hlines⟩ := lines_joined_cons l.body hrule hne
  refine ⟨rule, ?_, ?_⟩
  · have hraw := occursIn_iff.2 h.rule
    rcases hread with rfl | rfl
    · exact hraw
    · rw [occursIn_dropReturn (by decide) (by decide)]
      exact hraw
  · rw [Layout.text, String.toList_ofList, lines_joined_append htop (List.cons_ne_nil _ _), hlines,
      Layout.top, List.map_append, List.append_assoc]
    rfl

/-- A table reads as the templates that it lists. -/
theorem parse?_of_lists (hnames : ∀ t ∈ ts, IsVendorName t.name) (h : l.Lists ts) :
    parse? l.text = some (Catalog.ofList ts) := by
  obtain ⟨rule, hrule, hlines⟩ := lines_text h
  have hbefore := not_isHeader_before h
  have hheader : isHeader (dropReturn l.header) = true := isHeader_dropReturn.trans (isHeader_of_lists h)
  have hfind : (lines l.text.toList).find? isHeader = some (dropReturn l.header) := by
    have hnone : (l.before.map dropReturn).find? isHeader = none :=
      List.find?_eq_none.2 fun line hline => by simp [hbefore line hline]
    rw [hlines, List.find?_append, hnone, List.find?_cons_of_pos hheader]
    rfl
  have hafter : after isHeader (lines l.text.toList) = dropReturn l.units ::
      (l.skipped.map dropReturn ++ rule :: lines (joined l.body)) := by
    rw [hlines, after_append_cons hbefore hheader]
  have hrows : after (occursIn "==".toList) ((after isHeader (lines l.text.toList)).drop 1) =
      lines (joined l.body) := by
    rw [hafter, List.drop_one, List.tail_cons, after_append_cons (not_rule_skipped h) hrule]
  have hfeeds : ∀ line ∈ l.body, '\n' ∉ line := fun line hline =>
    h.feeds line (List.mem_append_right _ (List.mem_cons_of_mem _ hline))
  have htemplates : (lines (joined l.body)).filterMap (template? (columnOf? "AICORE" l.columns)
      (columnOf? "Memory" l.columns)) = ts := by
    rw [columnOf?_eq h.aiCore, columnOf?_eq h.memory,
      filterMap_lines (template?_dropReturn _ _) rfl hfeeds, filterMap_body hnames h.body]
  simp only [parse?, hfind, hrows, cells_dropReturn, cells_of_shows h.header, htemplates]

end Tables

end TemplateTable

namespace Catalog

variable {c : Catalog} {ts : List Template}

theorem ofList_eq (ts : List Template) : ofList ts = ⟨Dict.ofList (ts.map fun t => (t.name, t))⟩ := by
  have hfold : ∀ d : Dict Template, ts.foldl insert ⟨d⟩ =
      ⟨(ts.map fun t => (t.name, t)).foldl (fun d e => d.insert e.1 e.2) d⟩ := by
    induction ts with
    | nil => exact fun d => rfl
    | cons t ts ih => exact fun d => ih (d.insert t.name t)
  exact hfold Dict.empty

theorem Keyed.entries_eq (h : c.Keyed) : c.toList.map (fun t => (t.name, t)) = c.templates.entries := by
  rw [toList, Dict.values, List.map_map]
  refine (List.map_congr_left fun e he => ?_).trans (List.map_id _)
  have hname := h e.1 e.2 (Dict.find?_eq_some_iff.2 he)
  exact Prod.ext hname rfl

theorem Keyed.ofList_eq_of_perm (h : c.Keyed) (hall : ts.Perm c.toList) : ofList ts = c := by
  have hkeys : (c.toList.map (·.name)).Nodup := by
    have hentries := congrArg (List.map Prod.fst) h.entries_eq
    rw [List.map_map] at hentries
    have hnodup := Dict.keys_nodup c.templates
    rw [Dict.keys, ← hentries] at hnodup
    exact hnodup
  have hsorted : ofList c.toList = c := by
    rw [ofList_eq, h.entries_eq, Dict.ofList_entries]
  rw [ofList_perm hall ((hall.map _).nodup_iff.2 hkeys), hsorted]

end Catalog

/-- A table that lists the templates of a catalog, each once and in whatever order, reads as the catalog. -/
theorem TemplateTable.parse?_layout {c : Catalog} {l : Layout} {ts : List Template} (hkeyed : c.Keyed)
    (hnames : ∀ t ∈ c.toList, IsVendorName t.name) (h : l.Lists ts) (hall : ts.Perm c.toList) :
    parse? l.text = some c := by
  have hread := parse?_of_lists (fun t ht => hnames t (hall.mem_iff.1 ht)) h
  rw [hread, hkeyed.ofList_eq_of_perm hall]

namespace TemplateTable

open Text

section Sample

variable {left right line : List Char} {ws : List (List Char)} {n : UInt32}

theorem isEdge_nil : IsEdge [] := ⟨[], [], [], rfl, nofun, nofun, nofun⟩

theorem isEdge_bar : IsEdge "| ".toList ∧ IsEdge " |".toList := by
  have hblank : ∀ c ∈ [' '], isBlank c = true := by simp [isBlank, blanks]
  exact ⟨⟨[], ['|'], [' '], rfl, nofun, by simp, hblank⟩, ⟨[' '], ['|'], [], rfl, hblank, by simp, nofun⟩⟩

def isCell (w : List Char) : Bool := !w.isEmpty && w.all fun c => !isBlank c && c != '|'

theorem spaced_of_cells (hne : ws ≠ []) (hws : ws.all isCell = true) :
    Spaced ws ([' '].intercalate ws) ∧ '|' ∉ [' '].intercalate ws := by
  have hblank : ∀ c ∈ [' '], isBlank c = true := by simp [isBlank, blanks]
  induction ws with
  | nil => exact absurd rfl hne
  | cons w ws ih =>
    rw [List.all_cons, Bool.and_eq_true] at hws
    obtain ⟨hcell, hws⟩ := hws
    obtain ⟨hword, hfree⟩ : w ≠ [] ∧ ∀ c ∈ w, isBlank c = false ∧ c ≠ '|' := by simpa [isCell] using hcell
    have hbar : '|' ∉ w := fun hc => (hfree '|' hc).2 rfl
    cases ws with
    | nil =>
      have hone : [' '].intercalate [w] = w := by simp [List.intercalate]
      rw [hone]
      exact ⟨.word hword fun c hc => (hfree c hc).1, hbar⟩
    | cons v ws =>
      have hmore : [' '].intercalate (w :: v :: ws) = w ++ ([' '] ++ [' '].intercalate (v :: ws)) := by
        simp [List.intercalate, List.intersperse]
      obtain ⟨hrest, hnone⟩ := ih (List.cons_ne_nil v ws) hws
      rw [hmore]
      refine ⟨.cons hword (fun c hc => (hfree c hc).1) (List.cons_ne_nil _ _) hblank hrest, ?_⟩
      simp [hbar, hnone]

theorem shows_of_cells (hleft : IsEdge left) (hright : IsEdge right) (hne : ws ≠ [])
    (hws : ws.all isCell = true) : Shows ws (left ++ [' '].intercalate ws ++ right) := by
  obtain ⟨hspaced, hbar⟩ := spaced_of_cells hne hws
  refine ⟨left, _, right, rfl, hleft, hright, hspaced, fun hhead => ?_, fun hlast => ?_⟩
  · exact absurd (List.mem_of_head? hhead) hbar
  · exact absurd (List.mem_of_getLast? hlast) hbar

theorem isFiller_of_free (h : occursIn "vir".toList line = false) : IsFiller line := by
  refine .inr fun edge rest _ hline hlead => ?_
  have hinside : "vir".toList <:+: line := by
    rw [hline]
    exact (hlead.isInfix).trans (List.suffix_append edge rest).isInfix
  rw [occursIn_iff.2 hinside] at h
  cases h

def sampleCatalog : Catalog := .ofList [⟨"vir01", 4, 8⟩, ⟨"vir02", 8, 12⟩]

def sampleTable : Layout where
  before := ["+---------+".toList, "| Name |".toList]
  header := "| Name AICPU Memory AICORE |".toList
  columns := ["Name".toList, "AICPU".toList, "Memory".toList, "AICORE".toList]
  units := "|== GB |".toList
  skipped := [[]]
  rule := "|=========|".toList
  body := ["| vir02 1 12GB 8 |".toList, "|---------|".toList, "vir01 2 008 4".toList, [], "| others 1 1 |".toList]

theorem isAmount_of {digits : List Char} (h : (!digits.isEmpty && digits.all Char.isDigit &&
    Nat.ofDigitChars 10 digits 0 == n.toNat) = true) :
    IsAmount digits n ∧ IsAmount (digits ++ "GB".toList) n := by
  simp only [Bool.and_eq_true, Bool.not_eq_true', List.all_eq_true, beq_iff_eq] at h
  obtain ⟨⟨hne, hdigits⟩, hvalue⟩ := h
  have hne : digits ≠ [] := by simpa using hne
  exact ⟨⟨digits, hne, hdigits, hvalue, .inl rfl⟩, ⟨digits, hne, hdigits, hvalue, .inr rfl⟩⟩

theorem isOther_of (h : (ws.all fun w => isCell w && !occursIn "--".toList w) = true) :
    ∀ cell ∈ ws, '|' ∉ cell ∧ ¬ "--".toList <:+: cell := by
  intro cell hcell
  have hcheck := List.all_eq_true.1 h cell hcell
  simp only [Bool.and_eq_true, isCell, Bool.not_eq_true', List.all_eq_true] at hcheck
  refine ⟨fun hbar => ?_, fun hinside => ?_⟩
  · exact absurd (hcheck.1.2 '|' hbar).2 (by decide)
  · rw [occursIn_iff.2 hinside] at hcheck
    exact absurd hcheck.2 (by decide)

theorem sampleTable_row_bordered : IsRow sampleTable.columns ⟨"vir02", 8, 12⟩ "| vir02 1 12GB 8 |".toList :=
  ⟨["1".toList, "12GB".toList, "8".toList], shows_of_cells isEdge_bar.1 isEdge_bar.2 (by simp) (by decide),
    isOther_of (by decide), ⟨"8".toList, rfl, (isAmount_of (by decide)).1⟩,
    ⟨"12".toList ++ "GB".toList, rfl, (isAmount_of (by decide)).2⟩⟩

theorem sampleTable_row_bare : IsRow sampleTable.columns ⟨"vir01", 4, 8⟩ "vir01 2 008 4".toList :=
  ⟨["2".toList, "008".toList, "4".toList], shows_of_cells isEdge_nil isEdge_nil (by simp) (by decide),
    isOther_of (by decide), ⟨"4".toList, rfl, (isAmount_of (by decide)).1⟩,
    ⟨"008".toList, rfl, (isAmount_of (by decide)).1⟩⟩

theorem sampleTable_lists : sampleTable.Lists [⟨"vir02", 8, 12⟩, ⟨"vir01", 4, 8⟩] where
  before := by
    have hnone : ∀ line ∈ sampleTable.before, occursIn "AICORE".toList line = false := by decide
    intro line hline hall
    have hoccurs := occursIn_iff.2 hall.2.1
    rw [hnone line hline] at hoccurs
    cases hoccurs
  header := shows_of_cells isEdge_bar.1 isEdge_bar.2 (by simp [sampleTable]) (by decide)
  first := rfl
  aiCore := by decide
  memory := by decide
  skipped := by
    intro line hline hrule
    rw [List.mem_singleton.1 hline] at hrule
    exact absurd (List.infix_nil.1 hrule) (by decide)
  rule := occursIn_iff.1 (by decide)
  body := .row sampleTable_row_bordered (.filler (.inl (occursIn_iff.1 (by decide)))
    (.row sampleTable_row_bare (.filler (isFiller_of_free (by decide))
      (.filler (isFiller_of_free (by decide)) .nil))))
  feeds := by decide

theorem isVendorName_of {name : String} (h : ("vir".toList.isPrefixOf name.toList && isCell name.toList &&
    !occursIn "--".toList name.toList) = true) : IsVendorName name := by
  simp only [Bool.and_eq_true, isCell, Bool.not_eq_true', List.all_eq_true] at h
  obtain ⟨⟨hlead, -, hcells⟩, hrules⟩ := h
  refine ⟨List.isPrefixOf_iff_prefix.1 hlead, fun c hc => ?_, fun hbar => ?_, fun hinside => ?_⟩
  · exact (hcells c hc).1
  · exact absurd (hcells '|' hbar).2 (by decide)
  · rw [occursIn_iff.2 hinside] at hrules
    cases hrules

theorem parse?_layout_sample : sampleCatalog.Keyed ∧ (∀ t ∈ sampleCatalog.toList, IsVendorName t.name) ∧
    sampleTable.Lists [⟨"vir02", 8, 12⟩, ⟨"vir01", 4, 8⟩] ∧
    [⟨"vir02", 8, 12⟩, ⟨"vir01", 4, 8⟩].Perm sampleCatalog.toList ∧
    parse? sampleTable.text = some sampleCatalog := by
  have hkeyed := Catalog.keyed_ofList [⟨"vir01", 4, 8⟩, ⟨"vir02", 8, 12⟩]
  have hlist : sampleCatalog.toList = [⟨"vir01", 4, 8⟩, ⟨"vir02", 8, 12⟩] := by decide +kernel
  have hnames : ∀ t ∈ sampleCatalog.toList, IsVendorName t.name := by
    rw [hlist, List.forall_mem_cons, List.forall_mem_singleton]
    exact ⟨isVendorName_of (by decide), isVendorName_of (by decide)⟩
  have hall : [⟨"vir02", 8, 12⟩, ⟨"vir01", 4, 8⟩].Perm sampleCatalog.toList := by
    rw [hlist]
    exact .swap _ _ _
  exact ⟨hkeyed, hnames, sampleTable_lists, hall, parse?_layout hkeyed hnames sampleTable_lists hall⟩

end Sample

end TemplateTable

end SliceAgent
