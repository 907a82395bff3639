import Mathlib.Logic.ExistsUnique
import SliceAgent.Proofs.CardShape

/-!
Engines in use. Whatever is registered, allocated and released, each card stays free, taken or carved,
and no two slices of the engine have the same name.
-/
namespace SliceAgent

/-- A call of an engine; cards are registered under the name of their index. -/
inductive EngineCall where
  | register (index : UInt32) (model : String) (capacity : Capacity)
  | allocate (id : String) (aiCore memoryGb : UInt32)
  | release (id : String)

namespace Engine

variable {e e' : Engine} {id : String} {aiCore memoryGb : UInt32} {g : Allocation}
  {change : SliceChange}

/-- The engine after a call. A call that fails leaves it as it is. -/
def perform (e : Engine) : EngineCall → Engine
  | .register index model capacity => e.register (SliceId.wholeCard index) index model capacity
  | .allocate id aiCore memoryGb =>
    match e.allocate id aiCore memoryGb with
    | .ok (_, e') => e'
    | .error _ => e
  | .release id =>
    match e.release id with
    | .ok (_, e') => e'
    | .error _ => e

def performAll (e : Engine) (calls : List EngineCall) : Engine := calls.foldl perform e

theorem performAll_nil : e.performAll [] = e := rfl

theorem performAll_cons (call : EngineCall) (calls : List EngineCall) :
    e.performAll (call :: calls) = (e.perform call).performAll calls := rfl

theorem performAll_append (calls more : List EngineCall) :
    e.performAll (calls ++ more) = (e.performAll calls).performAll more := List.foldl_append

def CountersFit (e : Engine) : Prop := ∀ c ∈ e.devices, c.CounterFits

instance : Decidable e.CountersFit := inferInstanceAs (Decidable (∀ c ∈ e.devices, c.CounterFits))

/-- No counter of a card passes the largest word while calls are made. -/
def FitsThrough : Engine → List EngineCall → Prop
  | _, [] => True
  | e, call :: calls => (e.perform call).CountersFit ∧ FitsThrough (e.perform call) calls

instance decidableFitsThrough : ∀ e calls, Decidable (FitsThrough e calls)
  | _, [] => isTrue trivial
  | e, call :: calls =>
    have := decidableFitsThrough (e.perform call) calls
    inferInstanceAs (Decidable (_ ∧ _))

/-- Each card stands under its own name and has one of the shapes. -/
def Sound (e : Engine) : Prop :=
  ∀ key c, e.cards.find? key = some c → c.deviceId = key ∧ c.Sound e.catalog

section Inversion

theorem locate?_some {key : String} {c : Card} (h : e.locate? id = some (key, c)) :
    e.cards.find? key = some c ∧ (key = id ∨ (c.findAvailable? id).isSome) := by
  unfold locate? at h
  cases hf : e.cards.find? id with
  | some d =>
    rw [hf] at h
    cases h
    exact ⟨hf, .inl rfl⟩
  | none =>
    rw [hf] at h
    have hsome : (c.findAvailable? id).isSome = true :=
      List.find?_some (p := fun entry : String × Card => (entry.2.findAvailable? id).isSome) h
    exact ⟨Dict.find?_eq_some_iff.2 (List.mem_of_find?_eq_some h), .inr hsome⟩

theorem allocate_ok (h : e.allocate id aiCore memoryGb = .ok (g, e')) :
    ∃ key c c', e.cards.find? key = some c ∧ (key = id ∨ (c.findAvailable? id).isSome) ∧
      c.allocate e.eligibility e.catalog id aiCore memoryGb = .ok (g, c') ∧
      e' = { e with cards := e.cards.insert key c' } := by
  unfold allocate at h
  cases hl : e.locate? id with
  | none =>
    rw [hl] at h
    cases h
  | some entry =>
    obtain ⟨key, c⟩ := entry
    rw [hl] at h
    cases hc : c.allocate e.eligibility e.catalog id aiCore memoryGb with
    | error err =>
      simp only [hc] at h
      cases h
    | ok granted =>
      simp only [hc] at h
      cases h
      exact ⟨key, c, granted.2, (locate?_some hl).1, (locate?_some hl).2, hc, rfl⟩

theorem findAllocated?_some {c : Card} {place : Nat} (h : c.findAllocated? id = some place) :
    ∃ s, c.allocated[place]? = some s ∧ s.id = id := by
  obtain ⟨hlt, hid, _⟩ := List.findIdx?_eq_some_iff_getElem.1 h
  exact ⟨c.allocated[place], List.getElem?_eq_getElem hlt, by simpa using hid⟩

theorem release_ok (h : e.release id = .ok (change, e')) :
    ∃ key c place s, e.cards.find? key = some c ∧ c.allocated[place]? = some s ∧ s.id = id ∧
      change = (c.release e.eligibility e.catalog place).1 ∧
      e' = { e with cards := e.cards.insert key (c.release e.eligibility e.catalog place).2 } := by
  unfold release at h
  cases hh : e.holder? id with
  | none =>
    rw [hh] at h
    cases h
  | some found =>
    obtain ⟨key, c, place⟩ := found
    rw [hh] at h
    cases h
    obtain ⟨entry, hmem, hp⟩ := List.exists_of_findSome?_eq_some hh
    obtain ⟨place, hplace, he⟩ := Option.map_eq_some_iff.1 hp
    cases he
    obtain ⟨s, hs, hid⟩ := findAllocated?_some hplace
    exact ⟨_, _, _, s, Dict.find?_eq_some_iff.2 hmem, hs, hid, rfl, rfl⟩

end Inversion

theorem perform_cases (e : Engine) (call : EngineCall) :
    (∃ index model capacity, call = .register index model capacity ∧
      e.perform call = e.register (SliceId.wholeCard index) index model capacity) ∨
    (∃ id aiCore memoryGb, call = .allocate id aiCore memoryGb ∧ (e.perform call = e ∨
      ∃ g, e.allocate id aiCore memoryGb = .ok (g, e.perform call))) ∨
    (∃ id, call = .release id ∧ (e.perform call = e ∨
      ∃ change, e.release id = .ok (change, e.perform call))) := by
  cases call with
  | register index model capacity => exact .inl ⟨index, model, capacity, rfl, rfl⟩
  | allocate id aiCore memoryGb =>
    refine .inr (.inl ⟨id, aiCore, memoryGb, rfl, ?_⟩)
    simp only [perform]
    cases e.allocate id aiCore memoryGb with
    | error err => exact .inl rfl
    | ok granted => exact .inr ⟨granted.1, rfl⟩
  | release id =>
    refine .inr (.inr ⟨id, rfl, ?_⟩)
    simp only [perform]
    cases e.release id with
    | error err => exact .inl rfl
    | ok released => exact .inr ⟨released.1, rfl⟩

section Soundness

theorem Sound.insert {key : String} {c c' : Card} (h : e.Sound) (hc : e.cards.find? key = some c)
    (hi : c'.identity = c.identity) (hs : c'.Sound e.catalog) :
    Sound { e with cards := e.cards.insert key c' } := by
  intro k d hd
  rw [Dict.find?_insert] at hd
  split at hd
  · rename_i hk
    cases hd
    exact ⟨(Card.deviceId_of_identity hi).trans ((h key c hc).1.trans hk.symm), hs⟩
  · exact h k d hd

theorem CountersFit.of_insert {key : String} {c : Card}
    (h : CountersFit { e with cards := e.cards.insert key c }) : c.CounterFits :=
  h c (Dict.mem_values.2 ⟨key, by rw [Dict.find?_insert, if_pos rfl]⟩)

theorem sound_new (catalog : Catalog) (policy : Eligibility) : (Engine.new catalog policy).Sound := by
  intro key c hc
  cases hc

theorem Sound.register (h : e.Sound) (index : UInt32) (model : String) (capacity : Capacity) :
    (e.register (SliceId.wholeCard index) index model capacity).Sound := by
  unfold Engine.register
  split
  · exact h
  · intro k d hd
    rw [Dict.find?_insert] at hd
    split at hd
    · rename_i hk
      cases hd
      exact ⟨hk.symm, rfl, fun _ ht => ht, .inl ⟨rfl, rfl, rfl, rfl⟩⟩
    · exact h k d hd

theorem Sound.allocate (h : e.Sound) (ha : e.allocate id aiCore memoryGb = .ok (g, e'))
    (hfit : e'.CountersFit) : e'.Sound := by
  obtain ⟨key, c, c', hc, _, hcard, rfl⟩ := allocate_ok ha
  have hs := (h key c hc).2
  rcases hs.allocate_cases hcard with ⟨hf, _, rfl⟩ | ⟨kind, t, havail, ht, rfl, _⟩
  · exact h.insert hc Card.taken_identity (hs.taken hf)
  · exact h.insert hc Card.carvedOff_identity (hs.carvedOff havail ht hfit.of_insert)

theorem Sound.release_cases (h : e.Sound) (hr : e.release id = .ok (change, e')) :
    ∃ key c place s, e.cards.find? key = some c ∧ c.allocated[place]? = some s ∧ s.id = id ∧
      ((s.kind = .wholeCard ∧ change = ⟨[], c.retired (c.restored e.catalog)⟩ ∧
          e' = { e with cards := e.cards.insert key (c.restored e.catalog) }) ∨
        (s.kind = .partition ∧
          change = ⟨[.ofCard (c.coalesced e.eligibility e.catalog place) c.remainder],
            c.retired (c.coalesced e.eligibility e.catalog place)⟩ ∧
          e' = { e with cards := e.cards.insert key (c.coalesced e.eligibility e.catalog place) })) := by
  obtain ⟨key, c, place, s, hc, hs, hid, hchange, he⟩ := release_ok hr
  refine ⟨key, c, place, s, hc, hs, hid, ?_⟩
  cases hk : s.kind with
  | wholeCard =>
    rw [Card.release_of_whole hs hk] at hchange he
    exact .inl ⟨rfl, hchange, he⟩
  | partition =>
    rw [(h key c hc).2.release_of_partition hs hk] at hchange he
    exact .inr ⟨rfl, hchange, he⟩

theorem Sound.release (h : e.Sound) (hr : e.release id = .ok (change, e'))
    (hfit : e'.CountersFit) : e'.Sound := by
  obtain ⟨key, c, place, s, hc, hs, _, ⟨hk, _, rfl⟩ | ⟨hk, _, rfl⟩⟩ := h.release_cases hr
  · exact h.insert hc Card.restored_identity (h key c hc).2.restored
  · exact h.insert hc Card.coalesced_identity ((h key c hc).2.coalesced hs hk hfit.of_insert)

theorem Sound.perform (h : e.Sound) (call : EngineCall) (hfit : (e.perform call).CountersFit) :
    (e.perform call).Sound := by
  rcases e.perform_cases call with ⟨index, model, capacity, _, he⟩ | ⟨_, _, _, _, he | ⟨g, ha⟩⟩ |
    ⟨_, _, he | ⟨change, hr⟩⟩
  · rw [he]
    exact h.register index model capacity
  · rwa [he]
  · exact h.allocate ha hfit
  · rwa [he]
  · exact h.release hr hfit

theorem Sound.performAll (h : e.Sound) {calls : List EngineCall} (hfit : e.FitsThrough calls) :
    (e.performAll calls).Sound := by
  induction calls generalizing e with
  | nil => exact h
  | cons call calls ih => exact ih (h.perform call hfit.1) hfit.2

theorem Sound.key_unique (h : e.Sound) {k l : String} {c d : Card} (hc : e.cards.find? k = some c)
    (hd : e.cards.find? l = some d) (hcid : id ∈ c.sliceIds) (hdid : id ∈ d.sliceIds) : k = l := by
  obtain ⟨hck, hcs⟩ := h k c hc
  obtain ⟨hdl, hds⟩ := h l d hd
  obtain ⟨i, _, hi⟩ := hcs.mem_sliceIds hcid
  obtain ⟨j, _, hj⟩ := hds.mem_sliceIds hdid
  -- the index of a card stands in the name of each of its slices
  have hindex := congrArg SliceId.card (SliceId.text_injective (hi.symm.trans hj))
  rw [← hck, ← hdl, hcs.named, hds.named]
  exact congrArg SliceId.wholeCard hindex

theorem Sound.sliceIds_nodup (h : e.Sound) : (e.devices.flatMap Card.sliceIds).Nodup := by
  refine List.pairwise_flatMap.2 ⟨fun c hc => ?_, ?_⟩
  · obtain ⟨key, hk⟩ := Dict.mem_values.1 hc
    exact (h key c hk).2.sliceIds_nodup
  · refine List.pairwise_map.2 (List.Pairwise.imp_of_mem ?_ e.cards.sorted)
    intro a b ha hb hlt x hx y hy hxy
    have hk := h.key_unique (Dict.find?_eq_some_iff.2 ha) (Dict.find?_eq_some_iff.2 hb) hx (hxy ▸ hy)
    exact String.lt_irrefl _ (hk ▸ hlt)

end Soundness

section Registered

theorem contains_of_insert {key : String} {c c' : Card} (hc : e.cards.find? key = some c)
    (k : String) : (e.cards.insert key c').contains k = e.cards.contains k := by
  rw [Dict.contains_insert]
  by_cases hk : k = key
  · subst hk
    simp [Dict.contains, hc]
  · simp [hk]

theorem allocate_contains (ha : e.allocate id aiCore memoryGb = .ok (g, e')) (k : String) :
    e'.cards.contains k = e.cards.contains k := by
  obtain ⟨key, c, c', hc, _, _, rfl⟩ := allocate_ok ha
  exact contains_of_insert hc k

theorem allocate_catalog (ha : e.allocate id aiCore memoryGb = .ok (g, e')) :
    e'.catalog = e.catalog := by
  obtain ⟨_, _, _, _, _, _, rfl⟩ := allocate_ok ha
  rfl

theorem release_contains (hr : e.release id = .ok (change, e')) (k : String) :
    e'.cards.contains k = e.cards.contains k := by
  obtain ⟨key, c, place, s, hc, _, _, _, rfl⟩ := release_ok hr
  exact contains_of_insert hc k

theorem perform_contains (e : Engine) (call : EngineCall) (k : String) :
    (e.perform call).cards.contains k = true ↔ e.cards.contains k = true ∨
      ∃ index model capacity, call = .register index model capacity ∧
        k = SliceId.wholeCard index := by
  rcases e.perform_cases call with ⟨index, model, capacity, rfl, he⟩ |
    ⟨_, _, _, rfl, he | ⟨g, ha⟩⟩ | ⟨_, rfl, he | ⟨change, hr⟩⟩
  · rw [he, Engine.register]
    split
    · rename_i hk
      constructor
      · exact .inl
      · rintro (h | ⟨_, _, _, hcall, rfl⟩)
        · exact h
        · cases hcall
          exact hk
    · rw [Dict.contains_insert, Bool.or_eq_true, beq_iff_eq]
      constructor
      · rintro (rfl | h)
        · exact .inr ⟨index, model, capacity, rfl, rfl⟩
        · exact .inl h
      · rintro (h | ⟨_, _, _, hcall, rfl⟩)
        · exact .inr h
        · cases hcall
          exact .inl rfl
  · simp [he]
  · simp [allocate_contains ha]
  · simp [he]
  · simp [release_contains hr]

theorem perform_catalog (e : Engine) (call : EngineCall) : (e.perform call).catalog = e.catalog := by
  rcases e.perform_cases call with ⟨_, _, _, _, he⟩ | ⟨_, _, _, _, he | ⟨_, ha⟩⟩ |
    ⟨_, _, he | ⟨_, hr⟩⟩
  · rw [he, Engine.register]
    split <;> rfl
  · rw [he]
  · exact allocate_catalog ha
  · rw [he]
  · obtain ⟨_, _, _, _, _, _, _, _, he⟩ := release_ok hr
    rw [he]

theorem performAll_catalog (e : Engine) (calls : List EngineCall) :
    (e.performAll calls).catalog = e.catalog := by
  induction calls generalizing e with
  | nil => rfl
  | cons call calls ih => exact (ih (e.perform call)).trans (e.perform_catalog call)

theorem performAll_contains (e : Engine) (calls : List EngineCall) (k : String) :
    (e.performAll calls).cards.contains k = true ↔ e.cards.contains k = true ∨
      ∃ index model capacity, EngineCall.register index model capacity ∈ calls ∧
        k = SliceId.wholeCard index := by
  induction calls generalizing e with
  | nil => simp [performAll]
  | cons call calls ih =>
    rw [performAll_cons, ih, perform_contains]
    simp only [List.mem_cons, or_and_right, exists_or, or_assoc, eq_comm (a := call)]

end Registered

end Engine

inductive CardShape where
  | free
  | taken
  | carved

def Card.HasShape (catalog : Catalog) (c : Card) : CardShape → Prop
  | .free => c.IsFree catalog
  | .taken => c.IsTaken
  | .carved => ∃ pieces, c.IsCarvedInto catalog pieces

theorem Card.Sound.existsUnique_shape {catalog : Catalog} {c : Card} (h : c.Sound catalog) :
    ∃! shape, c.HasShape catalog shape := by
  rcases h.shape with hf | ht | ⟨pieces, hc⟩
  · refine ⟨.free, hf, fun shape hs => ?_⟩
    cases shape with
    | free => rfl
    | taken => exact absurd (hf.allocated.symm.trans hs.allocated) (List.cons_ne_nil _ _).symm
    | carved =>
      obtain ⟨_, hc⟩ := hs
      exact absurd hf.allocated hc.allocated_ne_nil
  · refine ⟨.taken, ht, fun shape hs => ?_⟩
    cases shape with
    | free => exact absurd (hs.allocated.symm.trans ht.allocated) (List.cons_ne_nil _ _).symm
    | taken => rfl
    | carved =>
      obtain ⟨_, hc⟩ := hs
      exact absurd (ht.available.symm.trans hc.available) (List.cons_ne_nil _ _).symm
  · refine ⟨.carved, ⟨pieces, hc⟩, fun shape hs => ?_⟩
    cases shape with
    | free => exact absurd hs.allocated hc.allocated_ne_nil
    | taken => exact absurd (hs.available.symm.trans hc.available) (List.cons_ne_nil _ _).symm
    | carved => rfl

namespace Engine

/-- Whatever calls an engine gets, it has the cards that were registered, each of exactly one shape and
with all its slices numbered below its counter, and no two slices of the engine share a name. -/
theorem performAll_representation (catalog : Catalog) (policy : Eligibility)
    (calls : List EngineCall) (hfit : (Engine.new catalog policy).FitsThrough calls) :
    let e := (Engine.new catalog policy).performAll calls
    (∀ index, (∃ c, e.device? (SliceId.wholeCard index) = some c) ↔
      ∃ model capacity, EngineCall.register index model capacity ∈ calls) ∧
    (∀ key c, e.device? key = some c →
      key = SliceId.wholeCard c.logicalIndex ∧ c.deviceId = key ∧
      (∃! shape, c.HasShape catalog shape) ∧
      ∀ id ∈ c.sliceIds, ∃ k, k < c.nextSliceIndex ∧ id = SliceId.text ⟨c.logicalIndex, k⟩) ∧
    (e.devices.flatMap Card.sliceIds).Nodup := by
  intro e
  have hs : e.Sound := (sound_new catalog policy).performAll hfit
  refine ⟨fun index => ?_, fun key c hc => ?_, hs.sliceIds_nodup⟩
  · rw [device?, ← Option.isSome_iff_exists]
    show e.cards.contains _ = true ↔ _
    rw [performAll_contains]
    constructor
    · rintro (h | ⟨i, model, capacity, hmem, hi⟩)
      · cases h
      · cases SliceId.text_injective hi
        exact ⟨model, capacity, hmem⟩
    · rintro ⟨model, capacity, hmem⟩
      exact .inr ⟨index, model, capacity, hmem, rfl⟩
  · obtain ⟨hkey, hcs⟩ := hs key c hc
    refine ⟨hkey.symm.trans hcs.named, hkey, ?_, fun id => hcs.mem_sliceIds⟩
    have hcat : e.catalog = catalog := performAll_catalog _ calls
    exact hcat ▸ hcs.existsUnique_shape

def sampleCalls : List EngineCall :=
  [.register 3 "Ascend910B" ⟨24, 64⟩, .register 0 "Ascend310P" ⟨8, 24⟩, .allocate "npu-3-0" 4 8,
    .allocate "npu-3-1" 5 9, .allocate "npu-3-1" 4 8, .release "npu-3-1", .release "npu-9-0",
    .allocate "npu-0-0" 0 0]

theorem performAll_representation_sample :
    (Engine.new .standard .all).FitsThrough sampleCalls ∧
    (((Engine.new .standard .all).performAll sampleCalls).devices.flatMap Card.sliceIds).Nodup :=
  have hfit : (Engine.new .standard .all).FitsThrough sampleCalls := by decide +kernel
  ⟨hfit, (performAll_representation .standard .all sampleCalls hfit).2.2⟩

end Engine

end SliceAgent
