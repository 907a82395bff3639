import Mathlib.Data.List.Dedup
import SliceAgent.Proofs.FoundCards

/-!
What discovery makes of a list of cards that may name one index more than once. Every index is registered
once, as the card that is listed first, and the engine and the inventory agree about it
(`discover_registers`).
-/
namespace SliceAgent

/-- Discovery on an engine that is there, which is changed card by card and not before the cards are
listed. -/
def discoverInPlace (p : Provider) (nodeName : String) : EStateM String Engine Inventory := do
  match p.cards with
  | .error reason => throw reason
  | .ok cards =>
    let mut inventory := Inventory.new nodeName
    for c in cards do
      let id := SliceId.wholeCard c.logicalIndex
      let capacity := p.capacity c.logicalIndex
      modify fun e => e.register id c.logicalIndex c.model capacity
      inventory := inventory.insertSlice ⟨id, c.logicalIndex, c.model, .wholeCard, capacity⟩
    return inventory

inductive CountsAs (standard : UInt32) : Except QueryError UInt32 → UInt32 → Prop
  | told (n : UInt32) : CountsAs standard (.ok n) n
  | unsupported : CountsAs standard (.error .unsupported) standard
  | failed (reason : String) : CountsAs standard (.error (.failed reason)) 0

section InPlace

variable {p : Provider} {nodeName : String} {cards : List ListedCard} {i : Inventory} {e : Engine}

theorem discoverInPlace_eq : (discoverInPlace p nodeName).run e =
    match discover p e nodeName with
    | .error reason => .error reason e
    | .ok (i, found) => .ok i found := by
  unfold discoverInPlace discover
  cases p.cards with
  | error reason => rfl
  | ok cards =>
    simp only
    generalize Inventory.new nodeName = i
    induction cards generalizing i e with
    | nil => rfl
    | cons c cards ih =>
      have hrest := ih (i := (discoverCard p (i, e) c).1) (e := (discoverCard p (i, e) c).2)
      rw [List.forIn_cons]
      exact hrest

end InPlace

section Entries

variable {nodeName : String} {c : Card}

theorem AllocatableDevice.find?_ofSlice (s : AdvertisedSlice) (name : String) :
    (ofSlice nodeName s).find? name =
      if name = "memory" then some (.word s.capacity.memoryGb)
      else if name = "aicore" then some (.word s.capacity.aiCore)
      else if name = "type" then some (.text (typeName s.kind))
      else if name = "model" then some (.text s.model)
      else if name = "uuid" then some (.text (nodeName ++ "-" ++ Text.decimal s.logicalIndex.toNat))
      else if name = "index" then some (.word s.logicalIndex)
      else none := by
  unfold AllocatableDevice.find? ofSlice Dict.ofList
  simp only [List.foldl_cons, List.foldl_nil, Dict.find?_insert, Dict.find?_empty]

end Entries

section Once

variable {p : Provider} {nodeName : String} {catalog : Catalog} {policy : Eligibility}
  {listed : List ListedCard} {i : Inventory} {e : Engine} {key : String}

theorem countsAs_iff {standard n : UInt32} {answer : Except QueryError UInt32} :
    CountsAs standard answer n ↔ n = Provider.resolve standard answer := by
  constructor
  · intro h
    cases h <;> rfl
  · rintro rfl
    cases answer with
    | ok n => exact .told n
    | error err =>
      cases err with
      | unsupported => exact .unsupported
      | failed reason => exact .failed reason

def enteredCard (p : Provider) (catalog : Catalog) (c : ListedCard) : Card :=
  Card.new (SliceId.wholeCard c.logicalIndex) c.logicalIndex c.model (p.capacity c.logicalIndex) catalog

theorem Engine.find?_registerAll (listed : List ListedCard) (e : Engine) (key : String) :
    (e.performAll (listed.map (registration p))).cards.find? key =
      (e.cards.find? key).or
        ((listed.find? fun c => SliceId.wholeCard c.logicalIndex = key).map (enteredCard p e.catalog)) := by
  induction listed generalizing e with
  | nil => exact Option.or_none.symm
  | cons c listed ih =>
    have hcatalog : (e.perform (registration p c)).catalog = e.catalog := e.perform_catalog _
    have hstep : (e.perform (registration p c)).cards.find? key = (e.cards.find? key).or
        (if SliceId.wholeCard c.logicalIndex = key then some (enteredCard p e.catalog c) else none) := by
      show (e.register _ _ _ _).cards.find? key = _
      unfold Engine.register
      by_cases hknown : e.cards.contains (SliceId.wholeCard c.logicalIndex) = true
      · rw [if_pos hknown]
        by_cases hkey : SliceId.wholeCard c.logicalIndex = key
        · obtain ⟨d, hd⟩ := Option.isSome_iff_exists.1 hknown
          rw [← hkey, hd]
          rfl
        · rw [if_neg hkey, Option.or_none]
      · rw [if_neg hknown, Dict.find?_insert]
        by_cases hkey : SliceId.wholeCard c.logicalIndex = key
        · have hnone : e.cards.find? key = none := by
            rw [← hkey]
            exact Option.not_isSome_iff_eq_none.1 hknown
          rw [if_pos hkey.symm, if_pos hkey, hnone]
          rfl
        · rw [if_neg (Ne.symm hkey), if_neg hkey, Option.or_none]
    have hrest := ih (e.perform (registration p c))
    rw [hcatalog, hstep] at hrest
    rw [List.map_cons, Engine.performAll_cons, hrest, Option.or_assoc, List.find?_cons]
    by_cases hkey : SliceId.wholeCard c.logicalIndex = key <;> simp [hkey]

theorem wholeCard_injective : Function.Injective SliceId.wholeCard := by
  intro m n h
  have hid := SliceId.text_injective h
  exact congrArg SliceId.card hid

/-- One card and one entry for every index that is listed, made from its first occurrence. -/
structure RegistersOnce (p : Provider) (nodeName : String) (catalog : Catalog) (listed : List ListedCard)
    (i : Inventory) (e : Engine) : Prop where
  ids : e.cards.keys.Perm ((listed.map (·.logicalIndex)).dedup.map SliceId.wholeCard)
  names : i.names = e.cards.keys
  each : ∀ first, (listed.find? fun c => c.logicalIndex = first.logicalIndex) = some first →
    ∃ card entry, e.device? (SliceId.wholeCard first.logicalIndex) = some card ∧
      i.find? (SliceId.wholeCard first.logicalIndex) = some entry ∧
      card = Card.new (SliceId.wholeCard first.logicalIndex) first.logicalIndex first.model card.capacity
        catalog ∧
      entry.name = card.deviceId ∧ entry.find? "index" = some (.word card.logicalIndex) ∧
      entry.find? "type" = some (.text "NPU") ∧
      entry.find? "model" = some (.text first.model) ∧
      entry.find? "aicore" = some (.word card.capacity.aiCore) ∧
      entry.find? "memory" = some (.word card.capacity.memoryGb) ∧
      CountsAs 1 (p.coreCount first.logicalIndex) card.capacity.aiCore ∧
      CountsAs 32 (p.memoryGb first.logicalIndex) card.capacity.memoryGb

theorem find?_of_discovered (hlisted : p.cards = .ok listed)
    (h : discover p (.new catalog policy) nodeName = .ok (i, e)) (key : String) :
    e.cards.find? key =
      (listed.find? fun c => SliceId.wholeCard c.logicalIndex = key).map (enteredCard p catalog) := by
  obtain ⟨cards, hcards, rfl, -⟩ := discover_ok h
  obtain rfl : listed = cards := Except.ok.inj (hlisted.symm.trans hcards)
  have hnew : (Engine.new catalog policy).cards.find? key = none := rfl
  rw [Engine.find?_registerAll, hnew, Option.none_or]
  rfl

theorem ids_of_discovered (hlisted : p.cards = .ok listed)
    (h : discover p (.new catalog policy) nodeName = .ok (i, e)) :
    e.cards.keys.Perm ((listed.map (·.logicalIndex)).dedup.map SliceId.wholeCard) := by
  have hdistinct := (List.nodup_dedup (listed.map (·.logicalIndex))).map wholeCard_injective
  refine (List.perm_ext_iff_of_nodup (Dict.keys_nodup e.cards) hdistinct).2 fun key => ?_
  have hfind := find?_of_discovered hlisted h key
  rw [← Dict.contains_iff, Dict.contains, hfind, Option.isSome_map, List.find?_isSome]
  simp only [List.mem_map, List.mem_dedup, decide_eq_true_eq]
  constructor
  · rintro ⟨c, hc, hkey⟩
    exact ⟨c.logicalIndex, ⟨c, hc, rfl⟩, hkey⟩
  · rintro ⟨index, ⟨c, hc, rfl⟩, hkey⟩
    exact ⟨c, hc, hkey⟩

theorem names_of_discovered (h : discover p (.new catalog policy) nodeName = .ok (i, e)) :
    i.names = e.cards.keys := by
  obtain ⟨hs, hfree, hmirrors, -⟩ := discover_spec h
  refine Dict.keys_eq_of_contains fun name => ?_
  rw [Bool.eq_iff_iff]
  have hnames := hmirrors.names name
  refine hnames.trans ?_
  rw [Dict.contains, Option.isSome_iff_exists]
  constructor
  · rintro ⟨key, c, hc, hid⟩
    have hkey : name = key := by
      rw [hfree key c hc] at hid
      exact (List.mem_singleton.1 hid).trans (hs key c hc).1
    exact ⟨c, hkey ▸ hc⟩
  · rintro ⟨c, hc⟩
    have hid := (hs name c hc).2.deviceId_mem_sliceIds
    rw [(hs name c hc).1] at hid
    exact ⟨name, c, hc, hid⟩

theorem registersOnce_of_discovered (hlisted : p.cards = .ok listed)
    (h : discover p (.new catalog policy) nodeName = .ok (i, e)) :
    RegistersOnce p nodeName catalog listed i e := by
  refine ⟨ids_of_discovered hlisted h, names_of_discovered h, fun first hfirst => ?_⟩
  obtain ⟨-, -, hmirrors, hnode, -⟩ := discover_spec h
  have hfound : (listed.find? fun c =>
      SliceId.wholeCard c.logicalIndex = SliceId.wholeCard first.logicalIndex) = some first := by
    simpa only [wholeCard_injective.eq_iff] using hfirst
  have hcard : e.cards.find? (SliceId.wholeCard first.logicalIndex) = some (enteredCard p catalog first) := by
    rw [find?_of_discovered hlisted h, hfound]
    rfl
  have hentry := hmirrors.cards _ _ hcard
  refine ⟨enteredCard p catalog first, _, hcard, hentry, rfl, rfl, ?_, ?_, ?_, ?_, ?_, ?_, ?_⟩
  · exact AllocatableDevice.find?_ofSlice _ "index"
  · exact AllocatableDevice.find?_ofSlice _ "type"
  · exact AllocatableDevice.find?_ofSlice _ "model"
  · exact AllocatableDevice.find?_ofSlice _ "aicore"
  · exact AllocatableDevice.find?_ofSlice _ "memory"
  · exact countsAs_iff.2 rfl
  · exact countsAs_iff.2 rfl

/-- Discovery fails exactly if the cards cannot be listed, and has not touched the engine then. Otherwise
it registers every listed index once in a fresh engine. -/
theorem discover_registers (p : Provider) (nodeName : String) (catalog : Catalog) (policy : Eligibility) :
    match p.cards with
    | .error reason => ∀ e, discover p e nodeName = .error reason ∧
        (discoverInPlace p nodeName).run e = .error reason e
    | .ok listed => ∃ i e, discover p (.new catalog policy) nodeName = .ok (i, e) ∧
        (discoverInPlace p nodeName).run (.new catalog policy) = .ok i e ∧
        RegistersOnce p nodeName catalog listed i e := by
  cases hlisted : p.cards with
  | error reason =>
    intro e
    have hfailed : discover p e nodeName = .error reason := by
      rw [discover, hlisted]
    refine ⟨hfailed, ?_⟩
    rw [discoverInPlace_eq, hfailed]
  | ok listed =>
    have hfound : discover p (.new catalog policy) nodeName =
        .ok (listed.foldl (discoverCard p) (.new nodeName, .new catalog policy)) := by
      rw [discover, hlisted]
    refine ⟨_, _, hfound, ?_, registersOnce_of_discovered hlisted hfound⟩
    rw [discoverInPlace_eq, hfound]

def relistedCards : Provider where
  cards := .ok [⟨0, "Ascend910B"⟩, ⟨1, "Ascend310P"⟩, ⟨0, "Ascend310P"⟩]
  coreCount index := if index = 0 then .error .unsupported else .error (.failed "dcmi timeout")
  memoryGb index := if index = 0 then .ok 64 else .error .unsupported

theorem discover_registers_relisted :
    ∃ i e, (discoverInPlace relistedCards "node-a").run (.new .standard .all) = .ok i e ∧
      RegistersOnce relistedCards "node-a" .standard
        [⟨0, "Ascend910B"⟩, ⟨1, "Ascend310P"⟩, ⟨0, "Ascend310P"⟩] i e ∧
      ∃ card, e.device? "npu-0-0" = some card ∧ card.model = "Ascend910B" ∧
        card.capacity.aiCore = 1 ∧ card.capacity.memoryGb = 64 := by
  obtain ⟨i, e, -, hrun, h⟩ := discover_registers relistedCards "node-a" .standard .all
  obtain ⟨card, entry, hcard, -, hnew, -, -, -, -, -, -, hcores, hmemory⟩ := h.each ⟨0, "Ascend910B"⟩ rfl
  have hid : SliceId.wholeCard 0 = "npu-0-0" := by decide
  have hmodel : card.model = "Ascend910B" := congrArg Card.model hnew
  exact ⟨i, e, hrun, h, card, hid ▸ hcard, hmodel, countsAs_iff.1 hcores, countsAs_iff.1 hmemory⟩

end Once

end SliceAgent
