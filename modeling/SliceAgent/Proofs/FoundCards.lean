import SliceAgent.Proofs.InventoryMirror

/-!
The cards that discovery finds. Using an engine never changes which cards it has, so that an engine
with nothing allocated, and its inventory, are again as discovery left them.
-/
namespace SliceAgent

def EngineCall.isUse : EngineCall → Bool
  | .register .. => false
  | .allocate .. => true
  | .release _ => true

theorem EngineCall.releases_isUse (ids : List String) :
    ∀ call ∈ ids.map EngineCall.release, call.isUse = true := by
  intro call hcall
  obtain ⟨id, _, rfl⟩ := List.mem_map.1 hcall
  rfl

theorem Card.IsFree.isOk_allocate {catalog : Catalog} {c : Card} (h : c.IsFree catalog)
    (policy : Eligibility) (aiCore memoryGb : UInt32) :
    (c.allocate policy catalog c.deviceId aiCore memoryGb).isOk = true ↔
      aiCore = 0 ∧ memoryGb = 0 ∨ ∃ t ∈ catalog.toList, t.satisfies aiCore memoryGb = true := by
  unfold allocate
  by_cases hwhole : aiCore = 0 ∧ memoryGb = 0
  · rw [if_pos hwhole, takeWhole_of_free h]
    simp [hwhole, Except.isOk, Except.toBool]
  · rw [if_neg hwhole, h.supported, ← Catalog.isSome_bestFit_iff]
    cases hfit : catalog.bestFit aiCore memoryGb with
    | none => simp [hwhole, Except.isOk, Except.toBool]
    | some t =>
      simp only [carve_of_spare h.available]
      simp [Except.isOk, Except.toBool]

namespace Engine

variable {e e' : Engine} {i i' : Inventory}

structure SameCards (e e' : Engine) : Prop where
  catalog : e'.catalog = e.catalog
  eligibility : e'.eligibility = e.eligibility
  cards : ∀ key, (e'.cards.find? key).map Card.identity = (e.cards.find? key).map Card.identity

theorem SameCards.refl (e : Engine) : e.SameCards e := ⟨rfl, rfl, fun _ => rfl⟩

theorem SameCards.trans {e'' : Engine} (h : e.SameCards e') (h' : e'.SameCards e'') :
    e.SameCards e'' :=
  ⟨h'.catalog.trans h.catalog, h'.eligibility.trans h.eligibility,
    fun key => (h'.cards key).trans (h.cards key)⟩

theorem SameCards.insert {key : String} {c c' : Card} (hc : e.cards.find? key = some c)
    (hi : c'.identity = c.identity) : e.SameCards { e with cards := e.cards.insert key c' } := by
  refine ⟨rfl, rfl, fun k => ?_⟩
  show ((e.cards.insert key c').find? k).map _ = _
  rw [Dict.find?_insert]
  split
  · rename_i hk
    rw [hk, hc]
    exact congrArg some hi
  · rfl

theorem Sound.sameCards_perform (h : e.Sound) {call : EngineCall} (huse : call.isUse = true) :
    e.SameCards (e.perform call) := by
  rcases e.perform_cases call with ⟨_, _, _, rfl, _⟩ | ⟨_, _, _, _, he | ⟨g, ha⟩⟩ |
    ⟨_, _, he | ⟨change, hr⟩⟩
  · cases huse
  · rw [he]
    exact SameCards.refl e
  · obtain ⟨key, c, c', hc, _, hcard, he⟩ := allocate_ok ha
    rw [he]
    refine SameCards.insert hc ?_
    rcases (h key c hc).2.allocate_cases hcard with ⟨_, _, rfl⟩ | ⟨_, _, _, _, rfl, _⟩
    · exact Card.taken_identity
    · exact Card.carvedOff_identity
  · rw [he]
    exact SameCards.refl e
  · obtain ⟨key, c, place, s, hc, _, _, ⟨_, _, he⟩ | ⟨_, _, he⟩⟩ := h.release_cases hr
    · rw [he]
      exact SameCards.insert hc Card.restored_identity
    · rw [he]
      exact SameCards.insert hc Card.coalesced_identity

theorem Sound.sameCards_performAll (h : e.Sound) {calls : List EngineCall}
    (huse : ∀ call ∈ calls, call.isUse = true) (hfit : e.FitsThrough calls) :
    e.SameCards (e.performAll calls) := by
  induction calls generalizing e with
  | nil => exact SameCards.refl e
  | cons call calls ih =>
    exact (h.sameCards_perform (huse call List.mem_cons_self)).trans
      (ih (h.perform call hfit.1) (fun call hc => huse call (List.mem_cons_of_mem _ hc)) hfit.2)

def AllFree (e : Engine) : Prop :=
  ∀ key c, e.cards.find? key = some c → c = c.restored e.catalog

theorem Sound.allFree (h : e.Sound) (hn : e.allocatedIds = []) : e.AllFree := by
  intro key c hc
  have hnone : c.allocated = [] := by
    refine Classical.not_not.1 fun ha => ?_
    have hid := mem_allocatedIds.2 ⟨key, c, hc, (h key c hc).2.deviceId_mem_allocatedIds ha⟩
    rw [hn] at hid
    cases hid
  exact Card.isFree_iff.1 ((h key c hc).2.isFree_of_allocated hnone)

theorem AllFree.allocatedIds_eq (h : e.AllFree) : e.allocatedIds = [] := by
  refine List.eq_nil_iff_forall_not_mem.2 fun id hid => ?_
  obtain ⟨key, c, hc, hmem⟩ := mem_allocatedIds.1 hid
  rw [h key c hc] at hmem
  cases hmem

theorem Sound.locate?_of_allFree (h : e.Sound) (hf : e.AllFree) (id : String) :
    e.locate? id = (e.cards.find? id).map fun c => (id, c) := by
  unfold locate?
  cases hid : e.cards.find? id with
  | some c => rfl
  | none =>
    refine List.find?_eq_none.2 fun entry hentry => ?_
    have hc := Dict.find?_eq_some_iff.2 hentry
    have hfree := Card.isFree_iff.2 (hf entry.1 entry.2 hc)
    rw [Card.findAvailable?_of_spare hfree.available, (h entry.1 entry.2 hc).1, if_neg]
    · exact Bool.false_ne_true
    · rintro rfl
      cases hid.symm.trans hc

theorem Sound.isOk_allocate_of_allFree (h : e.Sound) (hf : e.AllFree) (id : String)
    (aiCore memoryGb : UInt32) : (e.allocate id aiCore memoryGb).isOk = true ↔
      e.cards.contains id = true ∧ (aiCore = 0 ∧ memoryGb = 0 ∨
        ∃ t ∈ e.catalog.toList, t.satisfies aiCore memoryGb = true) := by
  rw [Engine.allocate, h.locate?_of_allFree hf, Dict.contains]
  cases hc : e.cards.find? id with
  | none => simp [Except.isOk, Except.toBool]
  | some c =>
    have hfree := Card.isFree_iff.2 (hf id c hc)
    have hcard := hfree.isOk_allocate e.eligibility aiCore memoryGb
    rw [(h id c hc).1] at hcard
    simp only [Option.map_some, Option.isSome_some, true_and]
    rw [← hcard]
    cases c.allocate e.eligibility e.catalog id aiCore memoryGb <;> rfl

theorem SameCards.eq_of_allFree (h : e.SameCards e') (hf : e.AllFree) (hf' : e'.AllFree) : e' = e := by
  have hcards : e'.cards = e.cards := by
    refine Dict.ext_find? fun key => ?_
    have hid := h.cards key
    cases hc : e.cards.find? key with
    | none =>
      rw [hc] at hid
      exact Option.map_eq_none_iff.1 hid
    | some c =>
      rw [hc] at hid
      obtain ⟨c', hc', hi⟩ := Option.map_eq_some_iff.1 hid
      have hmodel : c'.model = c.model := congrArg (·.2.2.1) hi
      have hcapacity : c'.capacity = c.capacity := congrArg (·.2.2.2) hi
      rw [hc', hf key c hc, hf' key c' hc', h.catalog, Card.restored, Card.restored,
        Card.deviceId_of_identity hi, Card.logicalIndex_of_identity hi, hmodel, hcapacity]
  obtain ⟨cards', catalog', policy'⟩ := e'
  obtain ⟨cards, catalog, policy⟩ := e
  obtain ⟨hcat, hpol, _⟩ := h
  simp only at hcards hcat hpol
  rw [hcards, hcat, hpol]

end Engine

namespace Inventory

variable {e : Engine} {i i' : Inventory}

theorem Mirrors.eq_of_allFree (h : i.Mirrors e) (h' : i'.Mirrors e) (hs : e.Sound) (hf : e.AllFree)
    (hn : i'.nodeName = i.nodeName) : i' = i := by
  have hdevices : i'.devices = i.devices := by
    refine Dict.ext_find? fun name => ?_
    show i'.find? name = i.find? name
    by_cases hin : ∃ key c, e.cards.find? key = some c ∧ name ∈ c.sliceIds
    · obtain ⟨key, c, hc, hid⟩ := hin
      have hname : name = key := by
        rw [hf key c hc] at hid
        exact (List.mem_singleton.1 hid).trans (hs key c hc).1
      rw [hname, h.cards key c hc, h'.cards key c hc, hn]
    · have hnone : ∀ {j : Inventory}, j.Mirrors e → j.find? name = none := fun hj =>
        Option.isNone_iff_eq_none.1 (by
          rw [← Option.not_isSome, Bool.not_eq_true']
          exact Bool.eq_false_iff.2 fun hsome => hin ((hj.names name).1 hsome))
      rw [hnone h, hnone h']
  obtain ⟨nodeName', devices'⟩ := i'
  obtain ⟨nodeName, devices⟩ := i
  simp only at hdevices hn
  rw [hdevices, hn]

theorem Mirrors.contains_knownIds (h : i.Mirrors e) (name : String) :
    e.knownIds.contains name = i.contains name := by
  rw [Bool.eq_iff_iff, h.names, Engine.knownIds, Dict.contains_ofList]
  simp only [List.mem_flatMap, List.mem_map, Dict.mem_values]
  constructor
  · rintro ⟨_, c, ⟨key, hc⟩, id, hid, he⟩
    cases he
    exact ⟨key, c, hc, hid⟩
  · rintro ⟨key, c, hc, hid⟩
    exact ⟨(), c, ⟨key, hc⟩, name, hid, rfl⟩

theorem Mirrors.names_eq (h : i.Mirrors e) : i.names = e.knownIds.keys := by
  exact Dict.keys_eq_of_contains fun name => (h.contains_knownIds name).symm

theorem Mirrors.stale_eq (h : i.Mirrors e) : i.stale e.knownIds = [] := by
  refine List.filter_eq_nil_iff.2 fun name hname => ?_
  rw [h.contains_knownIds, show i.contains name = true from Dict.contains_iff.2 hname]
  exact Bool.false_ne_true

theorem Mirrors.reconcile_eq (h : i.Mirrors e) : i.reconcile e.knownIds = i := by
  have hdevices : (i.devices.filter fun name _ => e.knownIds.contains name) = i.devices := by
    refine Dict.ext_find? fun name => ?_
    rw [Dict.find?_filter, h.contains_knownIds]
    cases hd : i.devices.find? name with
    | none => rfl
    | some d =>
      rw [show i.contains name = true from Option.isSome_iff_exists.2 ⟨d, hd⟩]
      rfl
  rw [reconcile, hdevices]

end Inventory

section Discovery

variable {p : Provider} {nodeName : String} {catalog : Catalog} {policy : Eligibility}
  {i : Inventory} {e : Engine}

def registration (p : Provider) (c : ListedCard) : EngineCall :=
  .register c.logicalIndex c.model (p.capacity c.logicalIndex)

theorem discover_ok {e₀ : Engine} (h : discover p e₀ nodeName = .ok (i, e)) :
    ∃ cards : List ListedCard, p.cards = .ok cards ∧
      e = e₀.performAll (cards.map (registration p)) ∧
      i = (Inventory.new nodeName).follow e₀ (cards.map (registration p)) := by
  unfold discover at h
  cases hc : p.cards with
  | error reason =>
    rw [hc] at h
    cases h
  | ok cards =>
    rw [hc] at h
    have hfold : ∀ (cards : List ListedCard) (i : Inventory) (e : Engine),
        cards.foldl (discoverCard p) (i, e) = (i.follow e (cards.map (registration p)),
          e.performAll (cards.map (registration p))) := by
      intro cards
      induction cards with
      | nil => exact fun _ _ => rfl
      | cons c cards ih => exact fun i e => ih _ _
    have hpair := (hfold cards _ _).symm.trans (Except.ok.inj h)
    exact ⟨cards, rfl, (congrArg Prod.snd hpair).symm, (congrArg Prod.fst hpair).symm⟩

namespace Engine

theorem AllFree.register (h : e.AllFree) (c : ListedCard) :
    (e.perform (registration p c)).AllFree := by
  show AllFree (e.register _ _ _ _)
  unfold Engine.register
  split
  · exact h
  · intro k d hd
    rw [Dict.find?_insert] at hd
    split at hd
    · cases hd
      rfl
    · exact h k d hd

theorem AllFree.countersFit (h : e.AllFree) : e.CountersFit := by
  intro c hc
  obtain ⟨key, hk⟩ := Dict.mem_values.1 hc
  rw [h key c hk]
  show (1 : UInt32) ≠ 0
  decide

theorem AllFree.registerAll (h : e.AllFree) (cards : List ListedCard) :
    (e.performAll (cards.map (registration p))).AllFree ∧
      e.FitsThrough (cards.map (registration p)) := by
  induction cards generalizing e with
  | nil => exact ⟨h, trivial⟩
  | cons c cards ih =>
    obtain ⟨hfree, hfit⟩ := ih (h.register (p := p) c)
    exact ⟨hfree, (h.register c).countersFit, hfit⟩

end Engine

theorem discover_spec (h : discover p (.new catalog policy) nodeName = .ok (i, e)) :
    e.Sound ∧ e.AllFree ∧ i.Mirrors e ∧ i.nodeName = nodeName ∧ e.catalog = catalog := by
  obtain ⟨cards, _, rfl, rfl⟩ := discover_ok h
  have hnew : (Engine.new catalog policy).AllFree := by
    intro _ _ hc
    cases hc
  obtain ⟨hfree, hfit⟩ := hnew.registerAll (p := p) cards
  have hs := Engine.sound_new catalog policy
  exact ⟨hs.performAll hfit, hfree, (Inventory.mirrors_new nodeName catalog policy).follow hs hfit,
    Inventory.nodeName_follow _, Engine.performAll_catalog _ _⟩

theorem discover_contains {declared : List DeclaredCard}
    (h : discover (.ofDeclared declared) (.new catalog policy) nodeName = .ok (i, e)) (key : String) :
    e.cards.contains key = true ↔ ∃ c ∈ declared, key = SliceId.wholeCard c.logicalIndex := by
  obtain ⟨cards, hcards, rfl, _⟩ := discover_ok h
  obtain rfl : declared.map (fun c => ⟨c.logicalIndex, c.model⟩) = cards := Except.ok.inj hcards
  have hnew : (Engine.new catalog policy).cards.contains key = false := rfl
  rw [Engine.performAll_contains, hnew]
  simp only [Bool.false_eq_true, false_or, List.map_map, List.mem_map, Function.comp_def, registration]
  constructor
  · rintro ⟨index, _, _, ⟨c, hc, hcall⟩, hkey⟩
    cases hcall
    exact ⟨c, hc, hkey⟩
  · rintro ⟨c, hc, hkey⟩
    exact ⟨_, _, _, ⟨c, hc, rfl⟩, hkey⟩

end Discovery

end SliceAgent
