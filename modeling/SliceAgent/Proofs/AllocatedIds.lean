import SliceAgent.Proofs.EngineRun

/-!
Which slices are allocated after an allocation or a release. To take back the slice that is the whole
card is to take back every slice of the card (`SliceId.Covers`); to take back a piece is not.
-/
namespace SliceAgent

/-- Whether a slice goes when another is taken back. -/
def SliceId.Covers (id other : String) : Prop :=
  other = id ∨ ∃ card counter, id = SliceId.wholeCard card ∧ other = SliceId.text ⟨card, counter⟩

namespace Card

variable {policy : Eligibility} {catalog : Catalog} {c c' : Card} {s : Slice} {g : Allocation}
  {id : String} {aiCore memoryGb : UInt32} {place : Nat}

def allocatedIds (c : Card) : List String := c.allocated.map (·.id)

theorem mem_sliceIds_of_allocated (h : id ∈ c.allocatedIds) : id ∈ c.sliceIds := by
  rw [sliceIds_eq]
  exact List.mem_append_right _ h

theorem mem_sliceIds_of_slice (hs : s ∈ c.allocated) (hid : s.id = id) : id ∈ c.sliceIds :=
  mem_sliceIds_of_allocated (hid ▸ List.mem_map_of_mem hs)

theorem Sound.allocatedIds_nodup (h : c.Sound catalog) : c.allocatedIds.Nodup := by
  have hnd := h.sliceIds_nodup
  rw [sliceIds_eq] at hnd
  exact (List.nodup_append.1 hnd).2.1

theorem Sound.exists_counter (h : c.Sound catalog) (hid : id ∈ c.sliceIds) :
    ∃ counter, id = SliceId.text ⟨c.logicalIndex, counter⟩ := by
  obtain ⟨k, _, hk⟩ := h.mem_sliceIds hid
  exact ⟨k, hk⟩

theorem Sound.deviceId_mem_allocatedIds (h : c.Sound catalog) (ha : c.allocated ≠ []) :
    c.deviceId ∈ c.allocatedIds := by
  rcases h.shape with hf | ht | ⟨pieces, hc⟩
  · exact absurd hf.allocated ha
  · rw [allocatedIds, ht.allocated]
    exact List.mem_singleton.2 rfl
  · obtain ⟨t, rest, hp⟩ := hc.first
    rw [allocatedIds, hc.allocated, hp, h.deviceId_eq]
    exact List.mem_cons_self

theorem Sound.kind_iff (h : c.Sound catalog) (hs : s ∈ c.allocated) :
    s.kind = .wholeCard ↔ s.id = c.deviceId := by
  rcases h.shape with hf | ht | ⟨pieces, hc⟩
  · rw [hf.allocated] at hs
    cases hs
  · rw [ht.allocated] at hs
    rw [List.mem_singleton.1 hs]
    exact ⟨fun _ => rfl, fun _ => rfl⟩
  · rw [hc.allocated] at hs
    obtain ⟨p, _, rfl⟩ := List.mem_map.1 hs
    have hzero : (c.piece p).id = c.deviceId ↔ p.1 = 0 := by
      rw [h.deviceId_eq]
      exact ⟨pieceId_injective, fun h0 => congrArg c.pieceId h0⟩
    rw [hzero, piece]
    by_cases h0 : p.1 = 0
    · simp [h0]
    · simp [h0]

theorem Sound.allocate_allocated (h : c.Sound catalog)
    (hc : c.allocate policy catalog id aiCore memoryGb = .ok (g, c')) :
    c'.allocated = c.allocated ++ [g.slice] := by
  rcases h.allocate_cases hc with ⟨hf, rfl, rfl⟩ | ⟨_, _, _, _, rfl, rfl⟩
  · rw [Card.taken, refreshAllocated_allocated, hf.allocated]
    rfl
  · exact carvedOff_allocated

theorem Sound.allocate_allocatedIds (h : c.Sound catalog)
    (hc : c.allocate policy catalog id aiCore memoryGb = .ok (g, c')) :
    c'.allocatedIds = c.allocatedIds ++ [g.slice.id] ∧ g.slice.id ∈ c.sliceIds ∧
      g.slice.id ∉ c.allocatedIds ∧ (g.slice.id = c.deviceId → c.allocated = []) := by
  have hids : c'.allocatedIds = c.allocatedIds ++ [g.slice.id] := by
    rw [allocatedIds, h.allocate_allocated hc, List.map_append]
    rfl
  refine ⟨hids, ?_⟩
  rcases h.allocate_cases hc with ⟨hf, rfl, rfl⟩ | ⟨kind, t, hs, _, rfl, rfl⟩
  · refine ⟨h.deviceId_mem_sliceIds, ?_, fun _ => hf.allocated⟩
    rw [allocatedIds, hf.allocated]
    exact List.not_mem_nil
  · have hids : c.sliceIds = id :: c.allocatedIds := by
      rw [sliceIds_eq, hs]
      rfl
    have hnd := h.sliceIds_nodup
    rw [hids] at hnd
    refine ⟨?_, (List.nodup_cons.1 hnd).1, fun hid => ?_⟩
    · rw [hids]
      exact List.mem_cons_self
    · have hfind : c.findAvailable? c.deviceId = if id = c.deviceId then some 0 else none :=
        findAvailable?_of_spare hs
      rw [h.findAvailable?_deviceId, if_pos (show id = c.deviceId from hid)] at hfind
      split at hfind
      · assumption
      · cases hfind

theorem Sound.mem_coalesced_allocatedIds {other : String} (h : c.Sound catalog)
    (hs : c.allocated[place]? = some s) :
    other ∈ (c.coalesced policy catalog place).allocatedIds ↔
      other ∈ c.allocatedIds ∧ other ≠ s.id := by
  have hids : (c.coalesced policy catalog place).allocatedIds = c.allocatedIds.eraseIdx place :=
    (List.eraseIdx_map ..).symm
  have hplace : c.allocatedIds[place]? = some s.id := by
    rw [allocatedIds, List.getElem?_map, hs]
    rfl
  have hlt : place < c.allocatedIds.length := (List.getElem?_eq_some_iff.1 hplace).1
  rw [hids, List.mem_eraseIdx_iff_getElem?]
  constructor
  · rintro ⟨i, hi, hget⟩
    refine ⟨List.mem_of_getElem? hget, ?_⟩
    rintro rfl
    exact hi ((List.getElem?_inj hlt h.allocatedIds_nodup).1 (hplace.trans hget.symm)).symm
  · rintro ⟨hmem, hne⟩
    obtain ⟨i, hget⟩ := List.mem_iff_getElem?.1 hmem
    refine ⟨i, ?_, hget⟩
    rintro rfl
    exact hne (Option.some.inj (hget.symm.trans hplace))

end Card

namespace Engine

variable {e e' : Engine} {id other : String} {aiCore memoryGb : UInt32} {g : Allocation}
  {change : SliceChange}

def allocatedIds (e : Engine) : List String := e.allocatedSlices.map (·.id)

theorem mem_allocatedIds :
    id ∈ e.allocatedIds ↔ ∃ key c, e.cards.find? key = some c ∧ id ∈ c.allocatedIds := by
  simp only [allocatedIds, allocatedSlices, List.mem_map, List.mem_flatMap, Dict.mem_values,
    Card.allocatedIds]
  constructor
  · rintro ⟨s, ⟨c, ⟨key, hc⟩, hs⟩, rfl⟩
    exact ⟨key, c, hc, s, hs, rfl⟩
  · rintro ⟨key, c, hc, s, hs, rfl⟩
    exact ⟨s, ⟨c, ⟨key, hc⟩, hs⟩, rfl⟩

theorem mem_allocatedIds_insert {key : String} {c' : Card} :
    id ∈ allocatedIds { e with cards := e.cards.insert key c' } ↔
      id ∈ c'.allocatedIds ∨ ∃ k c, k ≠ key ∧ e.cards.find? k = some c ∧ id ∈ c.allocatedIds :=
  mem_allocatedIds.trans Dict.exists_find?_insert

theorem Sound.key_of_slice {key : String} {c : Card} {card counter : UInt32} (h : e.Sound)
    (hc : e.cards.find? key = some c) (hid : SliceId.text ⟨card, counter⟩ ∈ c.sliceIds) :
    key = SliceId.wholeCard card ∧ c.deviceId = SliceId.wholeCard card := by
  obtain ⟨hkey, hs⟩ := h key c hc
  obtain ⟨k, hk⟩ := hs.exists_counter hid
  have hindex : card = c.logicalIndex := congrArg SliceId.card (SliceId.text_injective hk)
  rw [← hkey, hindex]
  exact ⟨hs.named, hs.named⟩

theorem Sound.mem_allocate (h : e.Sound) (ha : e.allocate id aiCore memoryGb = .ok (g, e')) :
    other ∈ e'.allocatedIds ↔ other ∈ e.allocatedIds ∨ other = g.slice.id := by
  obtain ⟨key, c, c', hc, _, hcard, rfl⟩ := allocate_ok ha
  have hids := ((h key c hc).2.allocate_allocatedIds hcard).1
  rw [mem_allocatedIds_insert, hids, mem_allocatedIds, List.mem_append, List.mem_singleton]
  constructor
  · rintro ((hid | hid) | ⟨k, d, _, hd, hid⟩)
    · exact .inl ⟨key, c, hc, hid⟩
    · exact .inr hid
    · exact .inl ⟨k, d, hd, hid⟩
  · rintro (⟨k, d, hd, hid⟩ | hid)
    · by_cases hk : k = key
      · cases hk
        cases hc.symm.trans hd
        exact .inl (.inl hid)
      · exact .inr ⟨k, d, hk, hd, hid⟩
    · exact .inl (.inr hid)

theorem Sound.covers_cases {key k : String} {c d : Card} (h : e.Sound)
    (hc : e.cards.find? key = some c) (hid : id ∈ c.sliceIds) (hd : e.cards.find? k = some d)
    (ho : other ∈ d.sliceIds) (hcov : SliceId.Covers id other) :
    k = key ∧ (other = id ∨ id = c.deviceId) := by
  rcases hcov with rfl | ⟨card, counter, rfl, rfl⟩
  · exact ⟨h.key_unique hd hc ho hid, .inl rfl⟩
  · obtain ⟨hkey, hdevice⟩ := h.key_of_slice hc hid
    exact ⟨(h.key_of_slice hd ho).1.trans hkey.symm, .inr hdevice.symm⟩

theorem Sound.covers_deviceId {key : String} {c : Card} (h : e.Sound)
    (hc : e.cards.find? key = some c) (ho : other ∈ c.sliceIds) :
    SliceId.Covers c.deviceId other := by
  obtain ⟨_, hs⟩ := h key c hc
  obtain ⟨counter, hcounter⟩ := hs.exists_counter ho
  exact .inr ⟨c.logicalIndex, counter, hs.named, hcounter⟩

theorem Sound.not_covers_allocate (h : e.Sound) (ha : e.allocate id aiCore memoryGb = .ok (g, e'))
    (ho : other ∈ e.allocatedIds) : ¬ SliceId.Covers g.slice.id other := by
  obtain ⟨key, c, c', hc, _, hcard, rfl⟩ := allocate_ok ha
  obtain ⟨_, hmem, hfresh, hwhole⟩ := (h key c hc).2.allocate_allocatedIds hcard
  obtain ⟨k, d, hd, hod⟩ := mem_allocatedIds.1 ho
  intro hcov
  obtain ⟨rfl, hcase⟩ := h.covers_cases hc hmem hd (Card.mem_sliceIds_of_allocated hod) hcov
  cases hc.symm.trans hd
  rcases hcase with rfl | hid
  · exact hfresh hod
  · rw [Card.allocatedIds, hwhole hid] at hod
    cases hod

theorem release_error {err : EngineError} (hr : e.release id = .error err) :
    id ∉ e.allocatedIds := by
  intro hid
  obtain ⟨key, c, hc, hid⟩ := mem_allocatedIds.1 hid
  obtain ⟨s, hs, hsid⟩ := List.mem_map.1 hid
  have hsome : (c.findAllocated? id).isSome = true := by
    rw [Card.findAllocated?, List.findIdx?_isSome, List.any_eq_true]
    exact ⟨s, hs, beq_iff_eq.2 hsid⟩
  obtain ⟨place, hplace⟩ := Option.isSome_iff_exists.1 hsome
  unfold release at hr
  cases hh : e.holder? id with
  | none =>
    have hnone := List.findSome?_eq_none_iff.1 hh (key, c) (Dict.find?_eq_some_iff.1 hc)
    rw [hplace] at hnone
    cases hnone
  | some found =>
    rw [hh] at hr
    cases hr

section Release

variable {key : String} {c : Card} {place : Nat} {s : Slice}

theorem Sound.not_covers_of_not_mem (h : e.Sound) (hid : id ∉ e.allocatedIds)
    (ho : other ∈ e.allocatedIds) : ¬ SliceId.Covers id other := by
  rintro (rfl | ⟨card, counter, rfl, rfl⟩)
  · exact hid ho
  · obtain ⟨k, d, hd, hod⟩ := mem_allocatedIds.1 ho
    obtain ⟨_, hdevice⟩ := h.key_of_slice hd (Card.mem_sliceIds_of_allocated hod)
    have hne : d.allocated ≠ [] := by
      intro hnil
      rw [Card.allocatedIds, hnil] at hod
      cases hod
    exact hid (mem_allocatedIds.2 ⟨k, d, hd, hdevice ▸ (h k d hd).2.deviceId_mem_allocatedIds hne⟩)

theorem Sound.mem_restored (h : e.Sound) (hc : e.cards.find? key = some c)
    (hid : c.deviceId = id) :
    other ∈ allocatedIds { e with cards := e.cards.insert key (c.restored e.catalog) } ↔
      other ∈ e.allocatedIds ∧ ¬ SliceId.Covers id other := by
  subst hid
  have hdevice := (h key c hc).2.deviceId_mem_sliceIds
  rw [mem_allocatedIds_insert, mem_allocatedIds]
  constructor
  · rintro (ho | ⟨k, d, hne, hd, hod⟩)
    · cases ho
    · exact ⟨⟨k, d, hd, hod⟩, fun hcov => hne
        (h.covers_cases hc hdevice hd (Card.mem_sliceIds_of_allocated hod) hcov).1⟩
  · rintro ⟨⟨k, d, hd, hod⟩, hcov⟩
    refine .inr ⟨k, d, ?_, hd, hod⟩
    rintro rfl
    cases hc.symm.trans hd
    exact hcov (h.covers_deviceId hc (Card.mem_sliceIds_of_allocated hod))

theorem Sound.mem_coalesced (h : e.Sound) (hc : e.cards.find? key = some c)
    (hs : c.allocated[place]? = some s) (hne : s.id ≠ c.deviceId) :
    other ∈ allocatedIds
        { e with cards := e.cards.insert key (c.coalesced e.eligibility e.catalog place) } ↔
      other ∈ e.allocatedIds ∧ ¬ SliceId.Covers s.id other := by
  have hid : s.id ∈ c.sliceIds :=
    Card.mem_sliceIds_of_allocated (List.mem_map_of_mem (List.mem_of_getElem? hs))
  rw [mem_allocatedIds_insert, mem_allocatedIds, (h key c hc).2.mem_coalesced_allocatedIds hs]
  constructor
  · rintro (⟨hoc, ho⟩ | ⟨k, d, hk, hd, hod⟩)
    · refine ⟨⟨key, c, hc, hoc⟩, fun hcov => ?_⟩
      rcases (h.covers_cases hc hid hc (Card.mem_sliceIds_of_allocated hoc) hcov).2 with he | he
      · exact ho he
      · exact hne he
    · exact ⟨⟨k, d, hd, hod⟩, fun hcov => hk
        (h.covers_cases hc hid hd (Card.mem_sliceIds_of_allocated hod) hcov).1⟩
  · rintro ⟨⟨k, d, hd, hod⟩, hcov⟩
    by_cases hk : k = key
    · cases hk
      cases hc.symm.trans hd
      exact .inl ⟨hod, fun ho => hcov (.inl ho)⟩
    · exact .inr ⟨k, d, hk, hd, hod⟩

theorem Sound.mem_release (h : e.Sound) :
    other ∈ (e.perform (.release id)).allocatedIds ↔
      other ∈ e.allocatedIds ∧ ¬ SliceId.Covers id other := by
  rw [Engine.perform]
  cases hr : e.release id with
  | error err => exact iff_self_and.2 (h.not_covers_of_not_mem (release_error hr))
  | ok released =>
    obtain ⟨key, c, place, s, hc, hs, rfl, ⟨hk, _, he⟩ | ⟨hk, _, he⟩⟩ :=
      h.release_cases (show e.release id = .ok (released.1, released.2) from hr)
    · show other ∈ released.2.allocatedIds ↔ _
      rw [he]
      exact h.mem_restored hc (((h key c hc).2.kind_iff (List.mem_of_getElem? hs)).1 hk).symm
    · show other ∈ released.2.allocatedIds ↔ _
      rw [he]
      refine h.mem_coalesced hc hs fun hid => ?_
      rw [((h key c hc).2.kind_iff (List.mem_of_getElem? hs)).2 hid] at hk
      cases hk

end Release

theorem Sound.mem_releaseAll (h : e.Sound) {ids : List String}
    (hfit : e.FitsThrough (ids.map .release)) :
    other ∈ (e.performAll (ids.map .release)).allocatedIds ↔
      other ∈ e.allocatedIds ∧ ∀ id ∈ ids, ¬ SliceId.Covers id other := by
  induction ids generalizing e with
  | nil => simp [performAll_nil]
  | cons id ids ih =>
    have hs := h.perform (.release id) hfit.1
    rw [List.map_cons, performAll_cons, ih hs hfit.2, h.mem_release, List.forall_mem_cons, and_assoc]

end Engine

end SliceAgent
