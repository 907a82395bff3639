import SliceAgent.Proofs.ClassNames
import SliceAgent.Proofs.RegisteredCards

/-!
Which devices a class selects. Its expression is read back as the conditions that it was written from
(`readsAs_conjunction`), and a class of whole cards selects those that are announced with its model. So every
card that discovery finds is selected by the class of its model, except that cards without a model are
announced without one while their class asks for the model `unknown` (`discover_selected`).
-/
namespace SliceAgent

/-- Without what would end a quoted text, or start an escape in one. -/
def Unquoted (s : String) : Prop := ∀ c ∈ s.toList, c ≠ '"' ∧ c ≠ '\\'

instance (s : String) : Decidable (Unquoted s) := List.decidableBAll _ s.toList

namespace Condition

variable {driver key value : String} {amount : UInt32} {k : Condition} {rest : List Char}

def isPlain (c : Char) : Bool := c != '"' && c != '\\'

/-- Reads what an attribute is compared with: a text between quotes, or an amount. -/
def readComparison? (key : String) : List Char → Option (Condition × List Char)
  | ' ' :: '=' :: '=' :: ' ' :: '"' :: cs =>
    match cs.dropWhile isPlain with
    | '"' :: rest => some (.equals key (String.ofList (cs.takeWhile isPlain)), rest)
    | _ => none
  | ' ' :: '>' :: '=' :: ' ' :: cs => do
    let amount ← Text.wordOfDigits? (cs.takeWhile Char.isDigit)
    pure (.atLeast key amount, cs.dropWhile Char.isDigit)
  | _ => none

def read? (driver : String) (cs : List Char) : Option (Condition × List Char) := do
  let cs ← cs.dropPrefix? ("device.attributes[\"" ++ driver ++ "\"].").toList
  readComparison? (String.ofList (cs.takeWhile Char.isAlpha)) (cs.dropWhile Char.isAlpha)

/-- A condition that stands in an expression as it is: its attribute has a name of letters, and its value
needs no escapes. -/
def Legible : Condition → Prop
  | equals key value => (∀ c ∈ key.toList, c.isAlpha = true) ∧ Unquoted value
  | atLeast key _ => ∀ c ∈ key.toList, c.isAlpha = true

def Holds (d : AllocatableDevice) : Condition → Prop
  | equals key value => d.find? key = some (.text value)
  | atLeast key amount => ∃ i, d.find? key = some (.int i) ∧ amount.toNat ≤ i.toInt

theorem readComparison?_equals (hvalue : Unquoted value) :
    readComparison? key (' ' :: '=' :: '=' :: ' ' :: '"' :: (value.toList ++ '"' :: rest)) =
      some (.equals key value, rest) := by
  have hplain : ∀ c ∈ value.toList, isPlain c = true := fun c hc => by
    obtain ⟨hquote, hescape⟩ := hvalue c hc
    simp [isPlain, hquote, hescape]
  have hstop : isPlain '"' = false := rfl
  simp only [readComparison?, List.dropWhile_append_of_pos hplain, List.takeWhile_append_of_pos hplain,
    List.dropWhile_cons, List.takeWhile_cons, hstop, Bool.false_eq_true, if_false, List.append_nil,
    String.ofList_toList]

theorem readComparison?_atLeast (hrest : ∀ c ∈ rest.head?, c.isDigit = false) :
    readComparison? key (' ' :: '>' :: '=' :: ' ' :: ((Text.decimal amount.toNat).toList ++ rest)) =
      some (.atLeast key amount, rest) := by
  have hdigits : ∀ c ∈ (Text.decimal amount.toNat).toList, c.isDigit = true :=
    fun c hc => isDigit_of_mem_decimal hc
  have hstop : rest.takeWhile Char.isDigit = [] ∧ rest.dropWhile Char.isDigit = rest := by
    cases rest with
    | nil => exact ⟨rfl, rfl⟩
    | cons c rest => simp [hrest c rfl]
  simp only [readComparison?, List.dropWhile_append_of_pos hdigits, List.takeWhile_append_of_pos hdigits,
    hstop.1, hstop.2, List.append_nil, Text.wordOfDigits?_decimal]
  rfl

theorem read?_of_comparison {cs : List Char} (hkey : ∀ c ∈ key.toList, c.isAlpha = true)
    (h : readComparison? key (' ' :: cs) = some (k, rest)) :
    read? driver (("device.attributes[\"" ++ driver ++ "\"].").toList ++ (key.toList ++ ' ' :: cs)) =
      some (k, rest) := by
  have hstop : Char.isAlpha ' ' = false := rfl
  have hlead := fun lead rest : List Char => List.dropPrefix?_append_of_beq rest (beq_self_eq_true lead)
  rw [read?, hlead]
  simp only [Option.bind_eq_bind, Option.bind_some, List.dropWhile_append_of_pos hkey,
    List.takeWhile_append_of_pos hkey, List.dropWhile_cons, List.takeWhile_cons, hstop,
    Bool.false_eq_true, if_false, List.append_nil, String.ofList_toList]
  exact h

theorem read?_expression (hk : k.Legible) (hrest : ∀ c ∈ rest.head?, c.isDigit = false) :
    read? driver ((k.expression driver).toList ++ rest) = some (k, rest) := by
  cases k with
  | equals key value =>
    have htext : ((equals key value).expression driver).toList ++ rest =
        ("device.attributes[\"" ++ driver ++ "\"].").toList ++
          (key.toList ++ ' ' :: '=' :: '=' :: ' ' :: '"' :: (value.toList ++ '"' :: rest)) := by
      have hmark : " == \"".toList = [' ', '=', '=', ' ', '"'] := rfl
      have hquote : "\"".toList = ['"'] := rfl
      rw [ClassSubject.expression_equals]
      simp only [String.toList_append, hmark, hquote, List.append_assoc, List.cons_append, List.nil_append]
    rw [htext]
    exact read?_of_comparison hk.1 (readComparison?_equals hk.2)
  | atLeast key amount =>
    have htext : ((atLeast key amount).expression driver).toList ++ rest =
        ("device.attributes[\"" ++ driver ++ "\"].").toList ++
          (key.toList ++ ' ' :: '>' :: '=' :: ' ' :: ((Text.decimal amount.toNat).toList ++ rest)) := by
      have hmark : " >= ".toList = [' ', '>', '=', ' '] := rfl
      rw [ClassSubject.expression_atLeast]
      simp only [String.toList_append, hmark, List.append_assoc, List.cons_append, List.nil_append]
    rw [htext]
    exact read?_of_comparison hk (readComparison?_atLeast hrest)

end Condition

section Expressions

variable {driver model other : String} {cs : List Char} {k : Condition} {ks ls : List Condition}
  {cards : List Card} {d : AllocatableDevice}

/-- The conditions of an expression, which stand one after another with `&&` between them. -/
inductive ReadsAs (driver : String) : List Char → List Condition → Prop
  | last {cs : List Char} {k : Condition} (h : Condition.read? driver cs = some (k, [])) :
    ReadsAs driver cs [k]
  | more {cs rest : List Char} {k : Condition} {ks : List Condition}
    (h : Condition.read? driver cs = some (k, ' ' :: '&' :: '&' :: ' ' :: rest))
    (hrest : ReadsAs driver rest ks) : ReadsAs driver cs (k :: ks)

theorem ReadsAs.unique (h : ReadsAs driver cs ks) (h' : ReadsAs driver cs ls) : ks = ls := by
  induction h generalizing ls with
  | last h =>
    cases h' with
    | last h' => rw [(Prod.mk.inj (Option.some.inj (h.symm.trans h'))).1]
    | more h' _ => exact nomatch (Prod.mk.inj (Option.some.inj (h.symm.trans h'))).2
  | more h _ ih =>
    cases h' with
    | last h' => exact nomatch (Prod.mk.inj (Option.some.inj (h.symm.trans h'))).2
    | more h' hrest' =>
      obtain ⟨rfl, htail⟩ := Prod.mk.inj (Option.some.inj (h.symm.trans h'))
      simp only [List.cons.injEq, true_and] at htail
      subst htail
      rw [ih hrest']

theorem readsAs_conjunction (hk : k.Legible) (hks : ∀ l ∈ ks, l.Legible) :
    ReadsAs driver (conjunction driver (k :: ks)).toList (k :: ks) := by
  induction ks generalizing k with
  | nil =>
    have hread : Condition.read? driver ((k.expression driver).toList ++ []) = some (k, []) :=
      Condition.read?_expression hk nofun
    rw [List.append_nil] at hread
    exact .last hread
  | cons l ks ih =>
    obtain ⟨hl, hks⟩ := List.forall_mem_cons.1 hks
    have htext : (conjunction driver (k :: l :: ks)).toList =
        (k.expression driver).toList ++ ' ' :: '&' :: '&' :: ' ' :: (conjunction driver (l :: ks)).toList := by
      simp [conjunction, String.intercalate_cons_cons]
    rw [htext]
    exact .more (Condition.read?_expression hk (by simp)) (ih hl hks)

/-- A class selects the devices that meet every condition of its expressions. -/
def DeviceClass.Selects (driver : String) (c : DeviceClass) (d : AllocatableDevice) : Prop :=
  ∀ text ∈ c.spec.selectors, ∃ ks, ReadsAs driver text.toList ks ∧ ∀ k ∈ ks, k.Holds d

theorem DeviceClass.selects_wholeCards_iff (hmodel : Unquoted model) :
    (wholeCards driver model).Selects driver d ↔
      d.find? "model" = some (.text model) ∧ d.find? "type" = some (.text "NPU") := by
  have hreads : ReadsAs driver (conjunction driver (wholeCardConditions model)).toList
      (wholeCardConditions model) := by
    refine readsAs_conjunction ⟨List.all_eq_true.1 rfl, hmodel⟩
      (List.forall_mem_singleton.2 ⟨List.all_eq_true.1 rfl, ?_⟩)
    exact (by decide : Unquoted "NPU")
  have hselectors : (wholeCards driver model).spec.selectors =
      [conjunction driver (wholeCardConditions model)] := rfl
  rw [Selects, hselectors, List.forall_mem_singleton]
  constructor
  · rintro ⟨ks, hks, hold⟩
    rw [hks.unique hreads] at hold
    exact ⟨hold _ List.mem_cons_self, hold _ (List.mem_cons_of_mem _ List.mem_cons_self)⟩
  · rintro ⟨hm, ht⟩
    exact ⟨_, hreads, List.forall_mem_cons.2 ⟨hm, List.forall_mem_singleton.2 ht⟩⟩

theorem wholeCards_mem_predefinedClasses :
    DeviceClass.wholeCards driver model ∈ predefinedClasses driver cards ↔ model ∈ modelNames cards := by
  rw [ClassSubject.predefinedClasses_eq, List.mem_map, ← ClassSubject.wholeCards_mem]
  constructor
  · rintro ⟨x, hx, hclass⟩
    have hspec : ((ClassSubject.wholeCards model).toClass driver).spec = (x.toClass driver).spec :=
      congrArg DeviceClass.spec hclass.symm
    cases x with
    | wholeCards other => rwa [ClassSubject.separates_spec.wholeCards.1 hspec]
    | byMemory other t => exact absurd hspec ClassSubject.separates_spec.unlike.1
    | byCores other t => exact absurd hspec ClassSubject.separates_spec.unlike.2
  · intro hmodel
    exact ⟨_, hmodel, rfl⟩

theorem Card.selects_entry_iff {c : Card} {nodeName : String} (hmodel : Unquoted model) :
    (DeviceClass.wholeCards driver model).Selects driver (c.entry nodeName) ↔ model = c.model := by
  have hannounced : (c.entry nodeName).find? "model" = some (.text c.model) :=
    AllocatableDevice.find?_ofSlice _ "model"
  have htype : (c.entry nodeName).find? "type" = some (.text "NPU") :=
    AllocatableDevice.find?_ofSlice _ "type"
  rw [DeviceClass.selects_wholeCards_iff hmodel, hannounced, htype]
  simp [eq_comm]

theorem unquoted_of_mem_modelNames (hplain : ∀ c ∈ cards, Unquoted c.model) (h : model ∈ modelNames cards) :
    Unquoted model ∧ model ≠ "" := by
  obtain ⟨c, hc, rfl⟩ := mem_modelNames.1 h
  unfold Card.modelName
  split
  · exact ⟨by decide, by decide⟩
  · rename_i hnamed
    exact ⟨hplain c hc, hnamed⟩

theorem Card.selected_iff {c : Card} {nodeName : String} (hplain : ∀ c ∈ cards, Unquoted c.model)
    (hc : c ∈ cards) :
    (∃ other, DeviceClass.wholeCards driver other ∈ predefinedClasses driver cards ∧
      (DeviceClass.wholeCards driver other).Selects driver (c.entry nodeName)) ↔ c.model ≠ "" := by
  constructor
  · rintro ⟨other, hclass, hselects⟩
    obtain ⟨hother, hnamed⟩ :=
      unquoted_of_mem_modelNames hplain (wholeCards_mem_predefinedClasses.1 hclass)
    rw [← (Card.selects_entry_iff hother).1 hselects]
    exact hnamed
  · intro hnamed
    refine ⟨c.model, wholeCards_mem_predefinedClasses.2 (mem_modelNames.2 ⟨c, hc, if_neg hnamed⟩), ?_⟩
    exact (Card.selects_entry_iff (hplain c hc)).2 rfl

end Expressions

section Discovered

variable {nodeName : String} {catalog : Catalog} {policy : Eligibility} {declared : List DeclaredCard}
  {i : Inventory} {e : Engine} {d : AllocatableDevice} {card : Card}

theorem exists_declared (h : discover (.ofDeclared declared) (.new catalog policy) nodeName = .ok (i, e))
    (hcard : card ∈ e.devices) : ∃ c ∈ declared, card.model = c.model ∧
      card.deviceId = SliceId.wholeCard c.logicalIndex := by
  obtain ⟨key, hkey⟩ := Dict.mem_values.1 hcard
  rw [find?_of_discovered rfl h] at hkey
  obtain ⟨c, hc, rfl⟩ := Option.map_eq_some_iff.1 hkey
  obtain ⟨declaredCard, hmem, rfl⟩ := List.mem_map.1 (List.mem_of_find?_eq_some hc)
  exact ⟨declaredCard, hmem, rfl, rfl⟩

theorem exists_card (h : discover (.ofDeclared declared) (.new catalog policy) nodeName = .ok (i, e))
    (hd : d ∈ i.toList) : ∃ card ∈ e.devices, d = card.entry nodeName := by
  obtain ⟨-, -, hmirrors, hnode, -⟩ := discover_spec h
  obtain ⟨name, hname⟩ := Dict.mem_values.1 hd
  have hknown : i.devices.contains name = true := Option.isSome_iff_exists.2 ⟨d, hname⟩
  have hkeys : name ∈ e.cards.keys := names_of_discovered h ▸ Dict.contains_iff.1 hknown
  obtain ⟨card, hcard⟩ := Option.isSome_iff_exists.1 (Dict.contains_iff.2 hkeys)
  have hentry := hmirrors.cards name card hcard
  rw [hnode] at hentry
  exact ⟨card, Dict.mem_values.2 ⟨name, hcard⟩, Option.some.inj (hname.symm.trans hentry)⟩

/-- Discovery announces each declared card with its model, as a whole card. Of the classes of whole cards
that are published for the engine's cards the one of this model selects it and no other, and there is one
exactly if the card has a model. -/
theorem discover_selected (driver nodeName : String) (catalog : Catalog) (policy : Eligibility)
    (hplain : ∀ c ∈ declared, Unquoted c.model) :
    ∃ i e, discover (.ofDeclared declared) (.new catalog policy) nodeName = .ok (i, e) ∧
      (∀ c ∈ declared, i.contains (SliceId.wholeCard c.logicalIndex) = true) ∧
      ∀ d ∈ i.toList, ∃ model, d.find? "model" = some (.text model) ∧ d.find? "type" = some (.text "NPU") ∧
        (∃ c ∈ declared, d.name = SliceId.wholeCard c.logicalIndex ∧ c.model = model) ∧
        (∀ other, DeviceClass.wholeCards driver other ∈ predefinedClasses driver e.devices →
          ((DeviceClass.wholeCards driver other).Selects driver d ↔ other = model)) ∧
        ((∃ other, DeviceClass.wholeCards driver other ∈ predefinedClasses driver e.devices ∧
          (DeviceClass.wholeCards driver other).Selects driver d) ↔ model ≠ "") := by
  obtain ⟨⟨i, e⟩, h⟩ : ∃ found, discover (.ofDeclared declared) (.new catalog policy) nodeName = .ok found :=
    ⟨_, rfl⟩
  have hcards : ∀ card ∈ e.devices, Unquoted card.model := by
    intro card hcard
    obtain ⟨c, hc, hmodel, -⟩ := exists_declared h hcard
    rw [hmodel]
    exact hplain c hc
  refine ⟨i, e, h, fun c hc => ?_, fun d hd => ?_⟩
  · refine Dict.contains_iff.2 ?_
    have hnames : i.devices.keys = e.cards.keys := names_of_discovered h
    rw [hnames, (ids_of_discovered rfl h).mem_iff]
    exact List.mem_map_of_mem (List.mem_dedup.2 (List.mem_map_of_mem (List.mem_map_of_mem hc)))
  · obtain ⟨card, hcard, rfl⟩ := exists_card h hd
    obtain ⟨c, hc, hmodel, hid⟩ := exists_declared h hcard
    refine ⟨card.model, AllocatableDevice.find?_ofSlice _ "model", AllocatableDevice.find?_ofSlice _ "type",
      ⟨c, hc, hid, hmodel.symm⟩, fun other hother => ?_, Card.selected_iff hcards hcard⟩
    exact Card.selects_entry_iff
      (unquoted_of_mem_modelNames hcards (wholeCards_mem_predefinedClasses.1 hother)).1

def partlyNamedCards : List DeclaredCard :=
  [⟨0, "Ascend 310P/Pro", some 8, some 24⟩, ⟨1, "", some 24, none⟩]

theorem discover_selected_partly :
    (∀ c ∈ partlyNamedCards, Unquoted c.model) ∧
    ∃ i e, discover (.ofDeclared partlyNamedCards) (.new .standard .all) "node-a" = .ok (i, e) ∧
      i.names = ["npu-0-0", "npu-1-0"] ∧ ∀ d ∈ i.toList,
        (d.find? "model" = some (.text "Ascend 310P/Pro") ∧
          ∃ c ∈ predefinedClasses "npu.example.com" e.devices, c.Selects "npu.example.com" d) ∨
        d.find? "model" = some (.text "") := by
  have hplain : ∀ c ∈ partlyNamedCards, Unquoted c.model := by decide
  obtain ⟨i, e, h, -, hall⟩ := discover_selected "npu.example.com" "node-a" .standard .all hplain
  refine ⟨hplain, i, e, h, ?_, fun d hd => ?_⟩
  · cases h
    decide +kernel
  · obtain ⟨model, hmodel, -, ⟨c, hc, -, rfl⟩, -, hclass⟩ := hall d hd
    rcases List.mem_pair.1 hc with rfl | rfl
    · obtain ⟨other, hother, hselects⟩ := hclass.2 (by decide)
      exact .inl ⟨hmodel, _, hother, hselects⟩
    · exact .inr hmodel

def unnamedCard : Card := .new "npu-0-0" 0 "" ⟨8, 24⟩ .standard

/-- The only class of whole cards that is published for it does not select it. -/
theorem not_selected_unnamed :
    ∃ i e, discover (.ofDeclared [⟨0, "", some 8, some 24⟩]) (.new .standard .all) "node-a" = .ok (i, e) ∧
      i.toList = [unnamedCard.entry "node-a"] ∧ e.devices = [unnamedCard] ∧
      ((predefinedClasses "npu.example.com" e.devices).map (·.name)).head? = some "npu-unknown.example.com" ∧
      ¬ ∃ other, DeviceClass.wholeCards "npu.example.com" other ∈ predefinedClasses "npu.example.com" e.devices ∧
        (DeviceClass.wholeCards "npu.example.com" other).Selects "npu.example.com"
          (unnamedCard.entry "node-a") := by
  obtain ⟨⟨i, e⟩, h⟩ : ∃ found, discover (.ofDeclared [⟨0, "", some 8, some 24⟩])
      (.new .standard .all) "node-a" = .ok found := ⟨_, rfl⟩
  obtain ⟨hi, he⟩ : i.toList = [unnamedCard.entry "node-a"] ∧ e.devices = [unnamedCard] := by
    cases h
    decide +kernel
  refine ⟨i, e, h, hi, he, ?_, fun hselected => ?_⟩
  · rw [he]
    decide +kernel
  · rw [he] at hselected
    exact (Card.selected_iff (by decide) List.mem_cons_self).1 hselected rfl

end Discovered

end SliceAgent
