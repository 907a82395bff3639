import Mathlib.Data.List.Induction
import SliceAgent.Proofs.FreeSlices
import SliceAgent.Proofs.OfferedTemplates
import SliceAgent.Proofs.TakenBack

/-!
Cards from which everything is taken back. In whatever order that happens, each card is in the end as it
was entered (`Engine.restored_in_any_order`). To take back a slice right after it was allocated undoes the
allocation, except that the remainder of a carved card is another one.
-/
namespace SliceAgent

namespace Card

variable {policy : Eligibility} {catalog : Catalog} {c c' : Card} {s : Slice} {g : Allocation}
  {id : String} {aiCore memoryGb : UInt32} {place : Nat}

def renewed (policy : Eligibility) (catalog : Catalog) (c : Card) : Card :=
  { c with available := [Slice.free (c.pieceId (c.nextSliceIndex + 1)) .partition],
           nextSliceIndex := c.nextSliceIndex + 1 + 1,
           supported := policy.eligible catalog c }

theorem coalesced_carvedOff : (c.carvedOff policy catalog s).coalesced policy catalog c.allocated.length =
    c.renewed policy catalog := by
  obtain ⟨offer, hcarved, _⟩ := refreshAllocated_eq policy catalog { c with
    available := [c.remainder], allocated := c.allocated ++ [s],
    nextSliceIndex := c.nextSliceIndex + 1 }
  have hback : (c.allocated ++ [s]).eraseIdx c.allocated.length = c.allocated := by
    rw [List.eraseIdx_append_of_length_le (Nat.le_refl _)]
    simp
  rw [carvedOff, hcarved, coalesced, refresh, renewed]
  simp only [hback, Card.mk.injEq, true_and, and_true]
  exact ⟨rfl, Eligibility.eligible_congr rfl rfl⟩

theorem Sound.allocate_of_whole (h : c.Sound catalog) (hwhole : c.isWhole = true)
    (ha : c.allocate policy catalog id aiCore memoryGb = .ok (g, c')) (hfit : c'.CounterFits) :
    c.IsFree catalog ∧ g.slice.id = c.deviceId := by
  have hfree := h.isFree_of_allocated (List.isEmpty_iff.1 hwhole)
  rcases (h.allocate_shapes ha hfit).2 with ⟨_, hdevice⟩ | ⟨_, _, hpieces, _⟩
  · exact ⟨hfree, hdevice⟩
  · exact absurd hfree.allocated hpieces.allocated_ne_nil

theorem Sound.allocate_of_carved (h : c.Sound catalog) (hcarved : c.isWhole = false)
    (ha : c.allocate policy catalog id aiCore memoryGb = .ok (g, c')) :
    g.slice.id ≠ c.deviceId ∧ c' = c.carvedOff policy catalog g.slice ∧
      c'.coalesced policy catalog c.allocated.length = c.renewed policy catalog := by
  have hsome : c.allocated ≠ [] := List.isEmpty_eq_false_iff.1 hcarved
  have hids := (h.allocate_allocatedIds ha).2.2.2
  rcases h.allocate_cases ha with ⟨hf, _⟩ | ⟨kind, t, _, _, rfl, rfl⟩
  · exact absurd hf.allocated hsome
  · exact ⟨fun hdevice => hsome (hids hdevice), rfl, coalesced_carvedOff⟩

end Card

namespace Engine

variable {e e₁ : Engine} {catalog : Catalog} {policy : Eligibility} {calls : List EngineCall}
  {key id : String} {c c₀ : Card} {call : EngineCall} {aiCore memoryGb : UInt32} {g : Allocation}

def AsEntered (start : Engine) (calls : List EngineCall) (key : String) (c : Card) : Prop :=
  ∃ before index model capacity after, calls = before ++ .register index model capacity :: after ∧
    (start.performAll before).device? key = none ∧
    ((start.performAll before).perform (.register index model capacity)).device? key = some c

theorem AsEntered.concat {start : Engine} (h : start.AsEntered calls key c) (call : EngineCall) :
    start.AsEntered (calls ++ [call]) key c := by
  obtain ⟨before, index, model, capacity, after, rfl, hnone, hentered⟩ := h
  exact ⟨before, index, model, capacity, after ++ [call], by simp, hnone, hentered⟩

theorem Sound.identity_perform (h : e.Sound) (hc₀ : e.device? key = some c₀)
    (hc : (e.perform call).device? key = some c) : c.identity = c₀.identity := by
  cases huse : call.isUse with
  | true =>
    have hcard := (h.sameCards_perform huse).cards key
    rw [show e.cards.find? key = some c₀ from hc₀,
      show (e.perform call).cards.find? key = some c from hc] at hcard
    exact Option.some.inj hcard
  -- a card that is known is not entered again
  | false =>
    cases call with
    | allocate id aiCore memoryGb => cases huse
    | release id => cases huse
    | register index model capacity =>
      rw [Engine.perform, Engine.register] at hc
      split at hc
      · exact congrArg Card.identity (Option.some.inj (hc.symm.trans hc₀))
      · rename_i hunknown
        rw [device?, Dict.find?_insert, if_neg] at hc
        · exact congrArg Card.identity (Option.some.inj (hc.symm.trans hc₀))
        · rintro rfl
          exact hunknown (Option.isSome_iff_exists.2 ⟨c₀, hc₀⟩)

theorem asEntered_restored (hfit : (Engine.new catalog policy).FitsThrough calls)
    (hc : ((Engine.new catalog policy).performAll calls).device? key = some c) :
    (Engine.new catalog policy).AsEntered calls key (c.restored catalog) := by
  induction calls using List.reverseRecOn generalizing c with
  | nil => cases hc
  | append_singleton calls call ih =>
    have hbefore := (fitsThrough_append.1 hfit).1
    have hcatalog := performAll_catalog (Engine.new catalog policy) calls
    rw [performAll_append, performAll_cons, performAll_nil] at hc
    cases hc₀ : ((Engine.new catalog policy).performAll calls).device? key with
    | some c₀ =>
      have hidentity := ((sound_new catalog policy).performAll hbefore).identity_perform hc₀ hc
      rw [Card.restored_of_identity hidentity]
      exact (ih hbefore hc₀).concat call
    | none =>
      have hnew : ¬ ((Engine.new catalog policy).performAll calls).cards.contains key = true := by
        rw [Dict.contains, show Dict.find? _ key = none from hc₀]
        exact Bool.false_ne_true
      have hin : (((Engine.new catalog policy).performAll calls).perform call).cards.contains key =
          true := Option.isSome_iff_exists.2 ⟨c, hc⟩
      rcases (perform_contains _ call key).1 hin with hold | ⟨index, model, capacity, rfl, rfl⟩
      · exact absurd hold hnew
      · refine ⟨calls, index, model, capacity, [], rfl, hc₀, hc.trans ?_⟩
        rw [perform, Engine.register, if_neg hnew, device?, Dict.find?_insert, if_pos rfl, hcatalog] at hc
        cases hc
        rfl

theorem Sound.restored_of_releaseAll (h : e.Sound) {ids : List String}
    (hids : ∀ id ∈ e.allocatedIds, id ∈ ids) (hfit : e.FitsThrough (ids.map .release))
    (hc : e.device? key = some c) :
    (e.performAll (ids.map .release)).device? key = some (c.restored e.catalog) := by
  have hsame := h.sameCards_performAll (EngineCall.releases_isUse ids) hfit
  have hnone : (e.performAll (ids.map .release)).allocatedIds = [] := by
    refine List.eq_nil_iff_forall_not_mem.2 fun id hid => ?_
    obtain ⟨hheld, hkept⟩ := (h.mem_releaseAll hfit).1 hid
    exact hkept id (hids id hheld) (SliceId.covers_self id)
  have hcard := hsame.cards key
  rw [show e.cards.find? key = some c from hc] at hcard
  obtain ⟨d, hd, hidentity⟩ := Option.map_eq_some_iff.1 hcard
  have hfree := (h.performAll hfit).allFree hnone key d hd
  rw [device?, hd, hfree, hsame.catalog, Card.restored_of_identity hidentity]

theorem insert_eq_self (hc : e.device? key = some c) :
    { e with cards := e.cards.insert key c } = e := by
  have hcards : e.cards.insert key c = e.cards := by
    refine Dict.ext_find? fun k => ?_
    rw [Dict.find?_insert]
    split
    · rename_i hk
      exact hk ▸ hc.symm
    · rfl
  rw [hcards]

theorem insert_insert (key : String) (c d : Card) :
    (e.cards.insert key c).insert key d = e.cards.insert key d := by
  refine Dict.ext_find? fun k => ?_
  simp only [Dict.find?_insert]
  split <;> rfl

theorem Sound.release_of_allocate (h : e.Sound) (ha : e.allocate id aiCore memoryGb = .ok (g, e₁))
    (hfit : e₁.CountersFit) : ∃ key c c' change e₂, e.device? key = some c ∧
      c.allocate e.eligibility e.catalog id aiCore memoryGb = .ok (g, c') ∧ c'.CounterFits ∧
      e₁ = { e with cards := e.cards.insert key c' } ∧ e₁.release g.slice.id = .ok (change, e₂) ∧
      (g.slice.id = c.deviceId ∧ e₂ = { e with cards := e.cards.insert key (c'.restored e.catalog) } ∨
        g.slice.id ≠ c.deviceId ∧ e₂ = { e with
          cards := e.cards.insert key (c'.coalesced e.eligibility e.catalog c.allocated.length) }) := by
  have hs₁ := h.allocate ha hfit
  have hheld : g.slice.id ∈ e₁.allocatedIds := (h.mem_allocate ha).2 (.inr rfl)
  obtain ⟨key, c, c', hc, _, hcard, rfl⟩ := allocate_ok ha
  have hcs := (h key c hc).2
  have hc' : (e.cards.insert key c').find? key = some c' := (Dict.find?_insert ..).trans (if_pos rfl)
  have hcs' := (hs₁ key c' hc').2
  have hlast : c'.allocated[c.allocated.length]? = some g.slice := by
    rw [hcs.allocate_allocated hcard]
    simp
  cases hr : Engine.release { e with cards := e.cards.insert key c' } g.slice.id with
  | error err => exact absurd hheld (release_error hr)
  | ok released =>
    obtain ⟨change, e₂⟩ := released
    obtain ⟨k, d, place, s, hd, hs, hid, hcases⟩ := hs₁.release_cases hr
    obtain rfl := hs₁.key_unique hc' hd (Card.mem_sliceIds_of_slice (List.mem_of_getElem? hlast) rfl)
      (Card.mem_sliceIds_of_slice (List.mem_of_getElem? hs) hid)
    cases hc'.symm.trans hd
    obtain rfl := hcs'.place_eq hs hlast hid
    cases hlast.symm.trans hs
    have hkind := hcs'.kind_iff (List.mem_of_getElem? hlast)
    rw [Card.deviceId_of_identity (hcs.allocate_shapes hcard hfit.of_insert).1] at hkind
    refine ⟨key, c, c', change, e₂, hc, hcard, hfit.of_insert, rfl, rfl, ?_⟩
    rcases hcases with ⟨hwhole, _, rfl⟩ | ⟨hpart, _, rfl⟩
    · exact .inl ⟨hkind.1 hwhole, by rw [insert_insert]⟩
    · refine .inr ⟨fun hdevice => ?_, by rw [insert_insert]⟩
      rw [hkind.2 hdevice] at hpart
      cases hpart

theorem Sound.release_allocated (h : e.Sound) (ha : e.allocate id aiCore memoryGb = .ok (g, e₁))
    (hfit : e₁.CountersFit) : ∃ key c change e₂, e.device? key = some c ∧ g.slice.id ∈ c.sliceIds ∧
      e₁.release g.slice.id = .ok (change, e₂) ∧ (c.isWhole = true → e₂ = e) ∧
      (c.isWhole = false →
        e₂ = { e with cards := e.cards.insert key (c.renewed e.eligibility e.catalog) } ∧
        ¬ e₁.Knows (c.pieceId (c.nextSliceIndex + 1))) := by
  have hs₁ := h.allocate ha hfit
  obtain ⟨key, c, c', change, e₂, hc, hcard, hcfit, rfl, hr, hleft⟩ := h.release_of_allocate ha hfit
  have hcs := (h key c hc).2
  have hidentity := (hcs.allocate_shapes hcard hcfit).1
  refine ⟨key, c, change, e₂, hc, (hcs.allocate_allocatedIds hcard).2.1, hr, fun hwhole => ?_,
    fun hcarved => ?_⟩
  · obtain ⟨hfree, hdevice⟩ := hcs.allocate_of_whole hwhole hcard hcfit
    rcases hleft with ⟨_, rfl⟩ | ⟨hpiece, _⟩
    · rw [Card.restored_of_identity hidentity, ← Card.isFree_iff.1 hfree]
      exact insert_eq_self hc
    · exact absurd hdevice hpiece
  · obtain ⟨hpiece, hcarve, hrenewed⟩ := hcs.allocate_of_carved hcarved hcard
    rcases hleft with ⟨hdevice, _⟩ | ⟨_, rfl⟩
    · exact absurd hdevice hpiece
    · refine ⟨by rw [hrenewed], ?_⟩
      have hunknown := hs₁.not_knows_remainder ((Dict.find?_insert ..).trans (if_pos rfl))
      have hnext : c'.remainder.id = c.pieceId (c.nextSliceIndex + 1) := by
        show c'.pieceId c'.nextSliceIndex = _
        rw [Card.pieceId_of_identity hidentity, hcarve, Card.carvedOff_nextSliceIndex]
      rwa [hnext] at hunknown

/-- To take back each allocated slice once, in any order and whether or not it is still there, leaves
every card as it was entered. To take back one slice right after it was allocated leaves a whole card as
it was; a carved card keeps the other slices, and its remainder is a new one. -/
theorem restored_in_any_order (catalog : Catalog) (policy : Eligibility) (calls : List EngineCall)
    (hfit : (Engine.new catalog policy).FitsThrough calls) :
    let e := (Engine.new catalog policy).performAll calls
    (∀ ids : List String, ids.Perm e.allocatedIds → e.FitsThrough (ids.map .release) → ∀ key,
      match e.device? key with
      | none => (e.performAll (ids.map .release)).device? key = none
      | some _ => ∃ d, (e.performAll (ids.map .release)).device? key = some d ∧
          (Engine.new catalog policy).AsEntered calls key d) ∧
    (∀ id aiCore memoryGb g e₁, e.allocate id aiCore memoryGb = .ok (g, e₁) → e₁.CountersFit →
      ∃ key c change e₂, e.device? key = some c ∧ g.slice.id ∈ c.sliceIds ∧
        e₁.release g.slice.id = .ok (change, e₂) ∧ (c.isWhole = true → e₂ = e) ∧
        (c.isWhole = false →
          e₂ = { e with cards := e.cards.insert key (c.renewed policy catalog) } ∧
          ¬ e₁.Knows (c.pieceId (c.nextSliceIndex + 1)))) := by
  intro e
  have hsound : e.Sound := (sound_new catalog policy).performAll hfit
  have hcatalog : e.catalog = catalog := performAll_catalog _ calls
  have hpolicy : e.eligibility = policy := performAll_eligibility _ calls
  refine ⟨fun ids hperm hback key => ?_, fun id aiCore memoryGb g e₁ ha h₁ => ?_⟩
  · cases hc : e.device? key with
    | none =>
      have hsame := (hsound.sameCards_performAll (EngineCall.releases_isUse ids) hback).cards key
      rw [show e.cards.find? key = none from hc] at hsame
      exact Option.map_eq_none_iff.1 hsame
    | some c =>
      have hheld : ∀ id ∈ e.allocatedIds, id ∈ ids := fun id hid => hperm.mem_iff.2 hid
      refine ⟨_, hsound.restored_of_releaseAll hheld hback hc, ?_⟩
      rw [hcatalog]
      exact asEntered_restored hfit hc
  · have hundone := hsound.release_allocated ha h₁
    rwa [hcatalog, hpolicy] at hundone ⊢

def twiceCarvedCalls : List EngineCall :=
  [.register 3 "Ascend910B" ⟨24, 64⟩, .register 0 "Ascend310P" ⟨8, 24⟩, .allocate "npu-3-0" 4 8,
    .allocate "npu-3-1" 5 9, .allocate "npu-0-0" 0 0]

def twiceCarvedIds : List String := ["npu-3-0", "npu-3-1", "npu-0-0"]

theorem restored_in_any_order_sample :
    let e := (Engine.new .standard .all).performAll twiceCarvedCalls
    (∃ d, (e.performAll (twiceCarvedIds.map .release)).device? "npu-3-0" = some d ∧
      (Engine.new .standard .all).AsEntered twiceCarvedCalls "npu-3-0" d) ∧
    ∃ g e₁ key c change e₂, e.allocate "npu-3-2" 4 8 = .ok (g, e₁) ∧ e.device? key = some c ∧
      e₁.release g.slice.id = .ok (change, e₂) ∧ (c.isWhole = false →
        e₂ = { e with cards := e.cards.insert key (c.renewed .all .standard) }) := by
  intro e
  have hfit : (Engine.new .standard .all).FitsThrough twiceCarvedCalls := by decide +kernel
  have hback : e.FitsThrough (twiceCarvedIds.map .release) := by decide +kernel
  have hperm : twiceCarvedIds.Perm e.allocatedIds := by decide +kernel
  obtain ⟨hall, hone⟩ := restored_in_any_order .standard .all twiceCarvedCalls hfit
  refine ⟨?_, ?_⟩
  · have hcard := hall twiceCarvedIds hperm hback "npu-3-0"
    obtain ⟨c, hc⟩ : ∃ c, e.device? "npu-3-0" = some c :=
      Option.isSome_iff_exists.1 (by decide +kernel)
    rwa [show ((Engine.new .standard .all).performAll twiceCarvedCalls).device? "npu-3-0" = some c
      from hc] at hcard
  · cases ha : e.allocate "npu-3-2" 4 8 with
    | error err =>
      have hok : (e.allocate "npu-3-2" 4 8).isOk = true := by decide +kernel
      rw [ha] at hok
      cases hok
    | ok granted =>
      obtain ⟨g, e₁⟩ := granted
      have h₁ : e₁.CountersFit := by
        have hnext : (e.perform (.allocate "npu-3-2" 4 8)).CountersFit := by decide +kernel
        rwa [Engine.perform, ha] at hnext
      obtain ⟨key, c, change, e₂, hc, _, hr, _, hcarved⟩ := hone _ _ _ _ _ ha h₁
      exact ⟨g, e₁, key, c, change, e₂, rfl, hc, hr, fun hpart => (hcarved hpart).1⟩

end Engine

end SliceAgent
