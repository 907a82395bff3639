import SliceAgent.Proofs.RefusedCalls
import SliceAgent.Proofs.SortedFit

/-!
What the shape that a free slice is made known with says about the requests that the slice can meet. The
shape has the most of either amount, and a request for one amount is met up to it; both amounts together
are met where one template has both, so the whole shape only where it is the shape of a template
(`Engine.advertised_met`).
-/
namespace SliceAgent

theorem word_max_cases (a b : UInt32) : b ≤ a ∧ max a b = a ∨ a ≤ b ∧ max a b = b := by
  by_cases h : a ≤ b
  · exact .inr ⟨h, if_pos h⟩
  · exact .inl ⟨(UInt32.le_total a b).resolve_left h, if_neg h⟩

namespace Capacity

variable {c d e : Capacity}

def Within (c d : Capacity) : Prop := c.aiCore ≤ d.aiCore ∧ c.memoryGb ≤ d.memoryGb

instance : Decidable (c.Within d) := inferInstanceAs (Decidable (_ ∧ _))

theorem Within.trans (hcd : c.Within d) (hde : d.Within e) : c.Within e :=
  ⟨UInt32.le_trans hcd.1 hde.1, UInt32.le_trans hcd.2 hde.2⟩

theorem Within.antisymm (hcd : c.Within d) (hdc : d.Within c) : c = d := by
  have haiCore : c.aiCore = d.aiCore := UInt32.le_antisymm hcd.1 hdc.1
  have hmemory : c.memoryGb = d.memoryGb := UInt32.le_antisymm hcd.2 hdc.2
  cases c
  congr

theorem within_none_iff : c.Within none ↔ c = none := by
  refine ⟨fun h => h.antisymm ?_, fun h => h ▸ ⟨UInt32.le_refl _, UInt32.le_refl _⟩⟩
  exact ⟨UInt32.zero_le, UInt32.zero_le⟩

theorem foldl_join_amount (amount : Capacity → UInt32)
    (hjoin : ∀ c d, amount (c.join d) = max (amount c) (amount d)) (ts : List Template)
    (most : Capacity) :
    let joined := ts.foldl (fun acc t => acc.join t.capacity) most
    amount most ≤ amount joined ∧ (∀ t ∈ ts, amount t.capacity ≤ amount joined) ∧
      (amount joined = amount most ∨ ∃ t ∈ ts, amount t.capacity = amount joined) := by
  induction ts generalizing most with
  | nil => exact ⟨UInt32.le_refl _, List.forall_mem_nil _, .inl rfl⟩
  | cons t ts ih =>
    obtain ⟨hmost, hall, hone⟩ := ih (most.join t.capacity)
    rw [hjoin] at hmost hone
    rcases word_max_cases (amount most) (amount t.capacity) with ⟨hle, hmax⟩ | ⟨hle, hmax⟩
    · rw [hmax] at hmost hone
      refine ⟨hmost, List.forall_mem_cons.2 ⟨UInt32.le_trans hle hmost, hall⟩, hone.imp_right ?_⟩
      exact fun ⟨u, hu, hsame⟩ => ⟨u, List.mem_cons_of_mem t hu, hsame⟩
    · rw [hmax] at hmost hone
      refine ⟨UInt32.le_trans hle hmost, List.forall_mem_cons.2 ⟨hmost, hall⟩, .inr ?_⟩
      rcases hone with hsame | ⟨u, hu, hsame⟩
      · exact ⟨t, List.mem_cons_self, hsame.symm⟩
      · exact ⟨u, List.mem_cons_of_mem t hu, hsame⟩

end Capacity

/-- Of any two templates one has at least what the other has. -/
def Catalog.Nested (catalog : Catalog) : Prop :=
  ∀ t ∈ catalog.toList, ∀ u ∈ catalog.toList,
    t.capacity.Within u.capacity ∨ u.capacity.Within t.capacity

instance (catalog : Catalog) : Decidable catalog.Nested := inferInstanceAs (Decidable (∀ _ ∈ _, _))

namespace Card

variable {c : Card} {t : Template} {aiCore memoryGb : UInt32}

theorem maxSupported_aiCore : (∀ t ∈ c.supported.toList, t.aiCore ≤ c.maxSupported.aiCore) ∧
    (c.maxSupported.aiCore = 0 ∨ ∃ t ∈ c.supported.toList, t.aiCore = c.maxSupported.aiCore) :=
  (Capacity.foldl_join_amount Capacity.aiCore (fun _ _ => rfl) c.supported.toList .none).2

theorem maxSupported_memoryGb : (∀ t ∈ c.supported.toList, t.memoryGb ≤ c.maxSupported.memoryGb) ∧
    (c.maxSupported.memoryGb = 0 ∨ ∃ t ∈ c.supported.toList, t.memoryGb = c.maxSupported.memoryGb) :=
  (Capacity.foldl_join_amount Capacity.memoryGb (fun _ _ => rfl) c.supported.toList .none).2

theorem within_maxSupported (ht : t ∈ c.supported.toList) : t.capacity.Within c.maxSupported :=
  ⟨maxSupported_aiCore.1 t ht, maxSupported_memoryGb.1 t ht⟩

theorem capacity_eq_maxSupported (ht : t ∈ c.supported.toList)
    (h : c.maxSupported.Within t.capacity) : t.capacity = c.maxSupported :=
  (within_maxSupported ht).antisymm h

theorem exists_satisfies_aiCore (h : aiCore ≤ c.maxSupported.aiCore) (hne : aiCore ≠ 0) :
    ∃ t ∈ c.supported.toList, t.satisfies aiCore 0 = true := by
  rcases maxSupported_aiCore.2 with hzero | ⟨t, ht, hmost⟩
  · rw [hzero] at h
    exact absurd (UInt32.le_zero_iff.1 h) hne
  · rw [← hmost] at h
    exact ⟨t, ht, Template.satisfies_iff.2 ⟨h, UInt32.zero_le⟩⟩

theorem exists_satisfies_memoryGb (h : memoryGb ≤ c.maxSupported.memoryGb) (hne : memoryGb ≠ 0) :
    ∃ t ∈ c.supported.toList, t.satisfies 0 memoryGb = true := by
  rcases maxSupported_memoryGb.2 with hzero | ⟨t, ht, hmost⟩
  · rw [hzero] at h
    exact absurd (UInt32.le_zero_iff.1 h) hne
  · rw [← hmost] at h
    exact ⟨t, ht, Template.satisfies_iff.2 ⟨UInt32.zero_le, h⟩⟩

theorem exists_capacity_of_nested (hnested : c.supported.Nested) :
    c.maxSupported = .none ∨ ∃ t ∈ c.supported.toList, t.capacity = c.maxSupported := by
  rcases maxSupported_aiCore.2 with hcore | ⟨t, ht, hcore⟩
  · rcases maxSupported_memoryGb.2 with hmemory | ⟨u, hu, hmemory⟩
    · exact .inl (Capacity.within_none_iff.1 ⟨UInt32.le_of_eq hcore, UInt32.le_of_eq hmemory⟩)
    · refine .inr ⟨u, hu, capacity_eq_maxSupported hu ⟨?_, UInt32.le_of_eq hmemory.symm⟩⟩
      rw [hcore]
      exact UInt32.zero_le
  · rcases maxSupported_memoryGb.2 with hmemory | ⟨u, hu, hmemory⟩
    · refine .inr ⟨t, ht, capacity_eq_maxSupported ht ⟨UInt32.le_of_eq hcore.symm, ?_⟩⟩
      rw [hmemory]
      exact UInt32.zero_le
    · rcases hnested t ht u hu with htu | hut
      · refine .inr ⟨u, hu, capacity_eq_maxSupported hu ⟨?_, UInt32.le_of_eq hmemory.symm⟩⟩
        exact hcore ▸ htu.1
      · refine .inr ⟨t, ht, capacity_eq_maxSupported ht ⟨UInt32.le_of_eq hcore.symm, ?_⟩⟩
        exact hmemory ▸ hut.2

end Card

namespace Engine

variable {e : Engine} {key : String} {c : Card} {s : Slice} {aiCore memoryGb : UInt32}

def MeetsUpTo (e : Engine) (id : String) (shape : Capacity) : Prop :=
  ∀ aiCore memoryGb, ¬ (aiCore = 0 ∧ memoryGb = 0) → Capacity.Within ⟨aiCore, memoryGb⟩ shape →
    (e.allocate id aiCore memoryGb).isOk = true

theorem Sound.isOk_allocate_free (h : e.Sound) (hc : e.device? key = some c) (hs : s ∈ c.available)
    (hshape : ¬ (aiCore = 0 ∧ memoryGb = 0)) : (e.allocate s.id aiCore memoryGb).isOk = true ↔
      ∃ t ∈ c.supported.toList, t.satisfies aiCore memoryGb = true := by
  rw [h.allocate_granted_iff, if_neg hshape]
  constructor
  · rintro ⟨d, hd, hfree, hfits⟩
    obtain ⟨other, hother⟩ := mem_devices.1 hd
    -- a name of a free slice leads to one card only
    have hlocated := h.locate?_of_answers hc (.inr ⟨s, hs, rfl⟩)
    rw [h.locate?_of_answers hother (.inr hfree)] at hlocated
    cases hlocated
    exact hfits
  · intro hfits
    exact ⟨c, mem_devices.2 ⟨key, hc⟩, ⟨s, hs, rfl⟩, hfits⟩

theorem Sound.meetsUpTo_iff (h : e.Sound) (hc : e.device? key = some c) (hs : s ∈ c.available) :
    e.MeetsUpTo s.id c.maxSupported ↔
      c.maxSupported = .none ∨ ∃ t ∈ c.supported.toList, t.capacity = c.maxSupported := by
  constructor
  · intro hmeets
    by_cases hnone : c.maxSupported = .none
    · exact .inl hnone
    have hasked : ¬ (c.maxSupported.aiCore = 0 ∧ c.maxSupported.memoryGb = 0) := by
      rintro ⟨hcore, hmemory⟩
      exact hnone (Capacity.within_none_iff.1 ⟨UInt32.le_of_eq hcore, UInt32.le_of_eq hmemory⟩)
    have hgranted := hmeets _ _ hasked ⟨UInt32.le_refl _, UInt32.le_refl _⟩
    obtain ⟨t, ht, hsat⟩ := (h.isOk_allocate_free hc hs hasked).1 hgranted
    exact .inr ⟨t, ht, Card.capacity_eq_maxSupported ht (Template.satisfies_iff.1 hsat)⟩
  · intro hshape aiCore memoryGb hasked hwithin
    rcases hshape with hnone | ⟨t, ht, hmost⟩
    · rw [hnone, Capacity.within_none_iff] at hwithin
      cases hwithin
      exact absurd ⟨rfl, rfl⟩ hasked
    · rw [← hmost] at hwithin
      exact (h.isOk_allocate_free hc hs hasked).2 ⟨t, ht, Template.satisfies_iff.2 hwithin⟩

theorem Sound.supported_nested (h : e.Sound) (hc : e.device? key = some c)
    (hnested : e.catalog.Nested) : c.supported.Nested := by
  intro t ht u hu
  have hoffered := (h key c hc).2.offered
  exact hnested t (hoffered t ht) u (hoffered u hu)

/-- Whatever calls an engine got before, a free slice is granted for a request where one template that its
card offers has both amounts. So nothing beyond the shape that is made known is granted and each amount of
it by itself is; all of it is where the shape is that of one template, as it is under every policy if the
templates of the catalog are nested. -/
theorem advertised_met {catalog : Catalog} {policy : Eligibility} {calls : List EngineCall}
    (hfit : (Engine.new catalog policy).FitsThrough calls)
    (hc : ((Engine.new catalog policy).performAll calls).device? key = some c) (hs : s ∈ c.available) :
    let e := (Engine.new catalog policy).performAll calls
    let shape := (AdvertisedSlice.ofCard c s).capacity
    (∀ aiCore memoryGb, ¬ (aiCore = 0 ∧ memoryGb = 0) →
      ((e.allocate s.id aiCore memoryGb).isOk = true ↔
        ∃ t ∈ c.supported.toList, t.satisfies aiCore memoryGb = true) ∧
      ((e.allocate s.id aiCore memoryGb).isOk = true → Capacity.Within ⟨aiCore, memoryGb⟩ shape)) ∧
    (∀ aiCore, aiCore ≠ 0 → aiCore ≤ shape.aiCore → (e.allocate s.id aiCore 0).isOk = true) ∧
    (∀ memoryGb, memoryGb ≠ 0 → memoryGb ≤ shape.memoryGb → (e.allocate s.id 0 memoryGb).isOk = true) ∧
    (e.MeetsUpTo s.id shape ↔ shape = .none ∨ ∃ t ∈ c.supported.toList, t.capacity = shape) ∧
    (catalog.Nested → e.MeetsUpTo s.id shape) := by
  intro e shape
  have hsound : e.Sound := (sound_new catalog policy).performAll hfit
  have hgranted : ∀ aiCore memoryGb, ¬ (aiCore = 0 ∧ memoryGb = 0) →
      ((e.allocate s.id aiCore memoryGb).isOk = true ↔
        ∃ t ∈ c.supported.toList, t.satisfies aiCore memoryGb = true) :=
    fun aiCore memoryGb hasked => hsound.isOk_allocate_free hc hs hasked
  have hwhole := hsound.meetsUpTo_iff hc hs
  refine ⟨fun aiCore memoryGb hasked => ⟨hgranted aiCore memoryGb hasked, fun hok => ?_⟩, ?_, ?_,
    hwhole, ?_⟩
  · obtain ⟨t, ht, hsat⟩ := (hgranted aiCore memoryGb hasked).1 hok
    have hwithin : Capacity.Within ⟨aiCore, memoryGb⟩ t.capacity := Template.satisfies_iff.1 hsat
    exact hwithin.trans (Card.within_maxSupported ht)
  · intro aiCore hne hle
    exact (hgranted aiCore 0 fun hzero => hne hzero.1).2 (Card.exists_satisfies_aiCore hle hne)
  · intro memoryGb hne hle
    exact (hgranted 0 memoryGb fun hzero => hne hzero.2).2 (Card.exists_satisfies_memoryGb hle hne)
  · intro hnested
    refine hwhole.2 (Card.exists_capacity_of_nested (hsound.supported_nested hc ?_))
    rwa [performAll_catalog]

theorem advertised_met_sample : ∃ c s, (Engine.new .standard .all).FitsThrough sampleCalls ∧
    ((Engine.new .standard .all).performAll sampleCalls).device? "npu-3-0" = some c ∧
    s ∈ c.available ∧ s.kind = .partition ∧ (AdvertisedSlice.ofCard c s).capacity = ⟨16, 16⟩ ∧
    ((Engine.new .standard .all).performAll sampleCalls).MeetsUpTo s.id
      (AdvertisedSlice.ofCard c s).capacity := by
  have hfit : (Engine.new .standard .all).FitsThrough sampleCalls := by decide +kernel
  have hstate : (((Engine.new .standard .all).performAll sampleCalls).device? "npu-3-0").map
      (fun c => (c.available, c.maxSupported)) = some ([Slice.free "npu-3-3" .partition], ⟨16, 16⟩) := by
    decide +kernel
  obtain ⟨c, hc, hpools⟩ := Option.map_eq_some_iff.1 hstate
  obtain ⟨havailable, hshape⟩ := Prod.mk.inj hpools
  have hfree : Slice.free "npu-3-3" .partition ∈ c.available := by
    rw [havailable]
    exact List.mem_singleton_self _
  obtain ⟨-, -, -, -, hnested⟩ := advertised_met hfit hc hfree
  exact ⟨c, _, hfit, hc, hfree, rfl, hshape, hnested (by decide +kernel)⟩

def crossedCatalog : Catalog := .ofList [⟨"tall", 4, 16⟩, ⟨"wide", 8, 8⟩]

def crossedCalls : List EngineCall := [.register 0 "Ascend910B" ⟨24, 64⟩, .allocate "npu-0-0" 4 16]

/-- Once the card is carved, what is left is made known with the most of either amount, which no template
has together. -/
theorem not_advertised_met : ¬ ∀ (catalog : Catalog) (policy : Eligibility) (calls : List EngineCall)
    (key : String) (c : Card) (s : Slice), (Engine.new catalog policy).FitsThrough calls →
      ((Engine.new catalog policy).performAll calls).device? key = some c → s ∈ c.available →
      s.kind = .partition →
      ((Engine.new catalog policy).performAll calls).MeetsUpTo s.id
        (AdvertisedSlice.ofCard c s).capacity := by
  intro h
  have hstate : (((Engine.new crossedCatalog .all).performAll crossedCalls).device? "npu-0-0").map
      (fun c => (c.available, c.maxSupported)) = some ([Slice.free "npu-0-1" .partition], ⟨8, 16⟩) := by
    decide +kernel
  obtain ⟨c, hc, hpools⟩ := Option.map_eq_some_iff.1 hstate
  obtain ⟨havailable, hshape⟩ := Prod.mk.inj hpools
  have hfree : Slice.free "npu-0-1" .partition ∈ c.available := by
    rw [havailable]
    exact List.mem_singleton_self _
  have hmeets := h crossedCatalog .all crossedCalls "npu-0-0" c _ (by decide +kernel) hc hfree rfl
  have hwithin : Capacity.Within ⟨8, 16⟩ c.maxSupported := by
    rw [hshape]
    decide
  have hrefused : (((Engine.new crossedCatalog .all).performAll crossedCalls).allocate
      "npu-0-1" 8 16).isOk = false := by decide +kernel
  exact Bool.false_ne_true (hrefused.symm.trans (hmeets 8 16 (by decide) hwithin))

end Engine

end SliceAgent
