import SliceAgent.Proofs.InPlaceCalls

/-!
Which calls an engine refuses, and why. What a call needs is said in terms of the pools of the cards; a
refused call is refused for the first of its needs that is not met, and leaves every card as it was
(`Engine.calls_exact`).
-/
namespace SliceAgent

namespace Card

variable {policy : Eligibility} {catalog : Catalog} {c c' : Card} {id : String} {aiCore memoryGb : UInt32}
  {err : EngineError}

def AnswersTo (c : Card) (id : String) : Prop := c.deviceId = id ∨ ∃ s ∈ c.available, s.id = id

def refusal (c : Card) (id : String) (aiCore memoryGb : UInt32) : EngineError :=
  if aiCore = 0 ∧ memoryGb = 0 then .alreadyAllocated c.deviceId
  else if ∃ t ∈ c.supported.toList, t.satisfies aiCore memoryGb = true then .sliceUnavailable id
  else .resourceExhausted aiCore memoryGb

theorem refusal_ne_unknownCard {name : String} : c.refusal id aiCore memoryGb ≠ .unknownCard name := by
  unfold refusal
  split
  · exact fun h => by cases h
  · split <;> exact fun h => by cases h

theorem takeWhole_error (h : c.takeWhole policy catalog = .error err) : err = .alreadyAllocated c.deviceId := by
  unfold takeWhole at h
  split at h
  · exact (Except.error.inj h).symm
  · split at h
    · exact (Except.error.inj h).symm
    · cases h

theorem carve_error {t : Template} (h : c.carve policy catalog id t = .error err) :
    err = .sliceUnavailable id := by
  unfold carve at h
  split at h
  · exact (Except.error.inj h).symm
  · split at h
    · exact (Except.error.inj h).symm
    · cases h

theorem allocate_error (h : c.allocate policy catalog id aiCore memoryGb = .error err) :
    err = c.refusal id aiCore memoryGb := by
  unfold allocate at h
  unfold refusal
  split at h
  · rename_i hwhole
    rw [if_pos hwhole]
    exact takeWhole_error h
  · rename_i hwhole
    rw [if_neg hwhole]
    have hfit : (c.supported.bestFit aiCore memoryGb).isSome = true ↔
        ∃ t ∈ c.supported.toList, t.satisfies aiCore memoryGb = true := Catalog.isSome_bestFit_iff
    split at h
    · rename_i hnone
      rw [hnone] at hfit
      rw [if_neg fun hsome => Bool.false_ne_true (hfit.2 hsome)]
      exact (Except.error.inj h).symm
    · rename_i t hsome
      rw [hsome] at hfit
      rw [if_pos (hfit.1 rfl)]
      exact carve_error h

theorem Sound.hasFree_iff_exists (h : c.Sound catalog) : c.HasFree id ↔ ∃ s ∈ c.available, s.id = id := by
  rw [h.hasFree_iff, List.mem_map]

theorem Sound.offers_whole_iff (h : c.Sound catalog) :
    c.HasFree id ∧ c.Offers 0 0 ↔ id = SliceId.wholeCard c.logicalIndex ∧ c.allocated = [] := by
  have hoffers : c.Offers 0 0 ↔ c.allocated = [] := by
    rw [Offers, if_pos ⟨rfl, rfl⟩]
  rw [hoffers, and_congr_left_iff, ← h.named]
  intro hnone
  have hfree := h.isFree_of_allocated hnone
  rw [h.hasFree_iff, hfree.available]
  exact List.mem_singleton

theorem Sound.offers_shape_iff (h : c.Sound catalog) (hshape : ¬ (aiCore = 0 ∧ memoryGb = 0)) :
    c.HasFree id ∧ c.Offers aiCore memoryGb ↔
      (∃ s ∈ c.available, s.id = id) ∧ ∃ t ∈ c.supported.toList, t.satisfies aiCore memoryGb = true := by
  rw [h.hasFree_iff_exists, Offers, if_neg hshape, Catalog.isSome_bestFit_iff]

end Card

namespace Engine

variable {e e' : Engine} {id key : String} {aiCore memoryGb : UInt32} {err : EngineError} {c : Card}

/-- What an allocation needs, what it is refused for, and what it leaves alone. -/
structure AllocatesExactly (e : Engine) (id : String) (aiCore memoryGb : UInt32) : Prop where
  granted : (e.allocate id aiCore memoryGb).isOk = true ↔
    if aiCore = 0 ∧ memoryGb = 0 then
      ∃ c ∈ e.devices, id = SliceId.wholeCard c.logicalIndex ∧ c.allocated = []
    else
      ∃ c ∈ e.devices, (∃ s ∈ c.available, s.id = id) ∧
        ∃ t ∈ c.supported.toList, t.satisfies aiCore memoryGb = true
  refused : ∀ err, e.allocate id aiCore memoryGb = .error err →
    (err = .unknownCard id ↔ ∀ c ∈ e.devices, ¬ c.AnswersTo id) ∧
      ∀ c ∈ e.devices, c.AnswersTo id → err = c.refusal id aiCore memoryGb
  inPlace : ∀ g e', (allocateInPlace id aiCore memoryGb).run e = .ok g e' ↔
    e.allocate id aiCore memoryGb = .ok (g, e')
  unchanged : ∀ err e', (allocateInPlace id aiCore memoryGb).run e = .error err e' →
    e.allocate id aiCore memoryGb = .error err ∧ e' = e
  elsewhere : ∀ g e', e.allocate id aiCore memoryGb = .ok (g, e') →
    ∃ owner ∈ e.devices, (∃ s ∈ owner.available, s.id = id) ∧
      ∀ key, key ≠ owner.deviceId → e'.device? key = e.device? key

structure ReleasesExactly (e : Engine) (id : String) : Prop where
  released : (e.release id).isOk = true ↔ ∃ c ∈ e.devices, ∃ s ∈ c.allocated, s.id = id
  refused : ∀ err, e.release id = .error err → err = .unknownSlice id
  inPlace : ∀ change e', (releaseInPlace id).run e = .ok change e' ↔ e.release id = .ok (change, e')
  unchanged : ∀ err e', (releaseInPlace id).run e = .error err e' → e.release id = .error err ∧ e' = e
  elsewhere : ∀ change e', e.release id = .ok (change, e') →
    ∃ owner ∈ e.devices, (∃ s ∈ owner.allocated, s.id = id) ∧
      ∀ key, key ≠ owner.deviceId → e'.device? key = e.device? key

theorem mem_devices : c ∈ e.devices ↔ ∃ key, e.device? key = some c := Dict.mem_values

theorem device?_insert_of_ne (hkey : key ≠ id) : device? { e with cards := e.cards.insert id c } key =
    e.device? key := (Dict.find?_insert ..).trans (if_neg hkey)

theorem Sound.locate?_of_answers (h : e.Sound) (hc : e.device? key = some c) (hid : c.AnswersTo id) :
    e.locate? id = some (key, c) := by
  obtain ⟨hname, hs⟩ := h key c hc
  have hopen : key = id ∨ c.HasFree id := by
    rw [hs.hasFree_iff_exists, ← hname]
    exact hid
  have hmem : id ∈ c.sliceIds := by
    rcases hopen with rfl | hfree
    · exact hname ▸ hs.deviceId_mem_sliceIds
    · exact hs.mem_sliceIds_iff.2 (.inl hfree)
  exact h.locate?_of_mem hc hmem hopen

theorem Sound.locate?_of_unanswered (h : e.Sound) (hnot : ∀ c ∈ e.devices, ¬ c.AnswersTo id) :
    e.locate? id = none := by
  refine Option.eq_none_iff_forall_not_mem.2 fun entry hl => ?_
  obtain ⟨key, c⟩ := entry
  obtain ⟨hkey, hopen⟩ := locate?_some hl
  obtain ⟨hname, hs⟩ := h key c hkey
  apply hnot c (mem_devices.2 ⟨key, hkey⟩)
  rw [Card.AnswersTo, hname, ← hs.hasFree_iff_exists]
  exact hopen

theorem Sound.allocate_error (h : e.Sound) (ha : e.allocate id aiCore memoryGb = .error err) :
    (err = .unknownCard id ↔ ∀ c ∈ e.devices, ¬ c.AnswersTo id) ∧
      ∀ c ∈ e.devices, c.AnswersTo id → err = c.refusal id aiCore memoryGb := by
  unfold Engine.allocate at ha
  have hanswered : ∀ c ∈ e.devices, c.AnswersTo id → err = c.refusal id aiCore memoryGb := by
    intro c hc hid
    obtain ⟨key, hkey⟩ := mem_devices.1 hc
    rw [h.locate?_of_answers hkey hid] at ha
    simp only at ha
    split at ha
    · rename_i hcard
      exact Card.allocate_error (hcard.trans (congrArg _ (Except.error.inj ha)))
    · cases ha
  refine ⟨⟨?_, fun hnot => ?_⟩, hanswered⟩
  · rintro rfl c hc hid
    exact Card.refusal_ne_unknownCard (hanswered c hc hid).symm
  · rw [h.locate?_of_unanswered hnot] at ha
    exact (Except.error.inj ha).symm

theorem Sound.allocate_granted_iff (h : e.Sound) : (e.allocate id aiCore memoryGb).isOk = true ↔
    if aiCore = 0 ∧ memoryGb = 0 then
      ∃ c ∈ e.devices, id = SliceId.wholeCard c.logicalIndex ∧ c.allocated = []
    else
      ∃ c ∈ e.devices, (∃ s ∈ c.available, s.id = id) ∧
        ∃ t ∈ c.supported.toList, t.satisfies aiCore memoryGb = true := by
  rw [h.isOk_allocate_iff]
  by_cases hwhole : aiCore = 0 ∧ memoryGb = 0
  · obtain ⟨rfl, rfl⟩ := hwhole
    rw [if_pos ⟨rfl, rfl⟩]
    constructor
    · rintro ⟨key, c, hc, hoffers⟩
      exact ⟨c, mem_devices.2 ⟨key, hc⟩, (h key c hc).2.offers_whole_iff.1 hoffers⟩
    · rintro ⟨c, hc, hnone⟩
      obtain ⟨key, hkey⟩ := mem_devices.1 hc
      exact ⟨key, c, hkey, (h key c hkey).2.offers_whole_iff.2 hnone⟩
  · rw [if_neg hwhole]
    constructor
    · rintro ⟨key, c, hc, hoffers⟩
      exact ⟨c, mem_devices.2 ⟨key, hc⟩, ((h key c hc).2.offers_shape_iff hwhole).1 hoffers⟩
    · rintro ⟨c, hc, hfits⟩
      obtain ⟨key, hkey⟩ := mem_devices.1 hc
      exact ⟨key, c, hkey, ((h key c hkey).2.offers_shape_iff hwhole).2 hfits⟩

theorem Sound.allocate_elsewhere {g : Allocation} (h : e.Sound)
    (ha : e.allocate id aiCore memoryGb = .ok (g, e')) :
    ∃ owner ∈ e.devices, (∃ s ∈ owner.available, s.id = id) ∧
      ∀ key, key ≠ owner.deviceId → e'.device? key = e.device? key := by
  obtain ⟨key, c, c', hc, hopen, hcard, rfl⟩ := allocate_ok ha
  obtain ⟨hname, hs⟩ := h key c hc
  have hcardok : (c.allocate e.eligibility e.catalog id aiCore memoryGb).isOk = true := by
    rw [hcard]
    rfl
  have hfree := ((hs.isOk_allocate_iff (hopen.imp_left hname.trans)).1 hcardok).1
  refine ⟨c, mem_devices.2 ⟨key, hc⟩, hs.hasFree_iff_exists.1 hfree, fun k hk => ?_⟩
  exact device?_insert_of_ne (hname ▸ hk)

theorem isOk_release_iff : (e.release id).isOk = true ↔ ∃ c ∈ e.devices, ∃ s ∈ c.allocated, s.id = id := by
  constructor
  · intro hok
    cases hr : e.release id with
    | error err =>
      rw [hr] at hok
      cases hok
    | ok released =>
      obtain ⟨key, c, place, s, hc, hs, hid, _⟩ := release_ok hr
      exact ⟨c, mem_devices.2 ⟨key, hc⟩, s, List.mem_of_getElem? hs, hid⟩
  · rintro ⟨c, hc, s, hs, hid⟩
    obtain ⟨key, hkey⟩ := mem_devices.1 hc
    cases hr : e.release id with
    | error err =>
      exact absurd (mem_allocatedIds.2 ⟨key, c, hkey, List.mem_map.2 ⟨s, hs, hid⟩⟩) (release_error hr)
    | ok released => rfl

theorem release_error_eq (hr : e.release id = .error err) : err = .unknownSlice id := by
  unfold release at hr
  split at hr
  · exact (Except.error.inj hr).symm
  · cases hr

theorem Sound.release_elsewhere {change : SliceChange} (h : e.Sound)
    (hr : e.release id = .ok (change, e')) :
    ∃ owner ∈ e.devices, (∃ s ∈ owner.allocated, s.id = id) ∧
      ∀ key, key ≠ owner.deviceId → e'.device? key = e.device? key := by
  obtain ⟨key, c, place, s, hc, hs, hid, _, rfl⟩ := release_ok hr
  refine ⟨c, mem_devices.2 ⟨key, hc⟩, ⟨s, List.mem_of_getElem? hs, hid⟩, fun k hk => ?_⟩
  exact device?_insert_of_ne ((h key c hc).1 ▸ hk)

theorem Sound.allocatesExactly (h : e.Sound) : e.AllocatesExactly id aiCore memoryGb where
  granted := h.allocate_granted_iff
  refused _ := h.allocate_error
  inPlace g e' := by
    rw [allocateInPlace_eq, settled_eq_ok_iff]
  unchanged err e' hrun := by
    rwa [allocateInPlace_eq, settled_eq_error_iff] at hrun
  elsewhere _ _ := h.allocate_elsewhere

theorem Sound.releasesExactly (h : e.Sound) : e.ReleasesExactly id where
  released := isOk_release_iff
  refused _ := release_error_eq
  inPlace change e' := by
    rw [releaseInPlace_eq, settled_eq_ok_iff]
  unchanged err e' hrun := by
    rwa [releaseInPlace_eq, settled_eq_error_iff] at hrun
  elsewhere _ _ := h.release_elsewhere

/-- Whatever calls an engine got before, an allocation succeeds exactly where the pools hold what it asks
for, a release exactly where the name is allocated; each error has its one cause, a call that fails leaves
every card as it was, and one that succeeds changes no card but that of the slice. -/
theorem calls_exact (catalog : Catalog) (policy : Eligibility) (calls : List EngineCall)
    (hfit : (Engine.new catalog policy).FitsThrough calls) :
    let e := (Engine.new catalog policy).performAll calls
    (∀ id aiCore memoryGb, e.AllocatesExactly id aiCore memoryGb) ∧ ∀ id, e.ReleasesExactly id := by
  intro e
  have hs : e.Sound := (sound_new catalog policy).performAll hfit
  exact ⟨fun id aiCore memoryGb => hs.allocatesExactly, fun id => hs.releasesExactly⟩

theorem calls_exact_sample : (Engine.new .standard .all).FitsThrough sampleCalls ∧
    let e := (Engine.new .standard .all).performAll sampleCalls
    e.allocate "npu-3-3" 0 0 = .error (.alreadyAllocated "npu-3-0") ∧
    (∀ e', (allocateInPlace "npu-3-3" 0 0).run e = .error (.alreadyAllocated "npu-3-0") e' → e' = e) ∧
    (e.release "npu-3-0").isOk = true := by
  have hfit : (Engine.new .standard .all).FitsThrough sampleCalls := by decide +kernel
  obtain ⟨hallocates, hreleases⟩ := calls_exact .standard .all sampleCalls hfit
  refine ⟨hfit, by decide +kernel, fun e' hrun => ?_, ?_⟩
  · exact ((hallocates "npu-3-3" 0 0).unchanged _ e' hrun).2
  · exact (hreleases "npu-3-0").released.2 (by decide +kernel)

end Engine

end SliceAgent
