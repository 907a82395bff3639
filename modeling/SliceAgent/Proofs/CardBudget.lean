import Mathlib
import SliceAgent.Proofs.OfferedTemplates

/-!
What the slices of a card take of it. Under the policy that looks at what is left, the templates that a
card was carved with never take more than the card has, so that what is left is exactly the difference.
-/
namespace SliceAgent

def Catalog.Keyed (catalog : Catalog) : Prop :=
  ∀ name t, catalog.find? name = some t → t.name = name

namespace Catalog

variable {catalog : Catalog} {t : Template}

theorem keyed_insert (h : catalog.Keyed) (t : Template) : (catalog.insert t).Keyed := by
  intro name u hu
  rw [find?, insert, Dict.find?_insert] at hu
  split at hu
  · rename_i hname
    cases hu
    exact hname.symm
  · exact h name u hu

theorem keyed_ofList (ts : List Template) : (ofList ts).Keyed := by
  have hfold : ∀ (ts : List Template) (c : Catalog), c.Keyed → (ts.foldl insert c).Keyed := by
    intro ts
    induction ts with
    | nil => exact fun c hc => hc
    | cons t ts ih => exact fun c hc => ih _ (keyed_insert hc t)
  exact hfold ts empty fun name t ht => by cases ht

theorem Keyed.find?_name (h : catalog.Keyed) (ht : t ∈ catalog.toList) :
    catalog.find? t.name = some t := by
  obtain ⟨name, hname⟩ := mem_toList.1 ht
  rw [h name t hname]
  exact hname

theorem mem_filter {keep : Template → Bool} :
    t ∈ (catalog.filter keep).toList ↔ t ∈ catalog.toList ∧ keep t = true := by
  constructor
  · intro h
    obtain ⟨name, hn⟩ := mem_toList.1 h
    rw [filter, Dict.find?_filter] at hn
    obtain ⟨hfind, hkeep⟩ := Option.filter_eq_some_iff.1 hn
    exact ⟨mem_toList.2 ⟨name, hfind⟩, hkeep⟩
  · rintro ⟨h, hkeep⟩
    obtain ⟨name, hn⟩ := mem_toList.1 h
    refine mem_toList.2 ⟨name, ?_⟩
    rw [filter, Dict.find?_filter]
    exact Option.filter_eq_some_iff.2 ⟨hn, hkeep⟩

end Catalog

namespace Capacity

theorem toNat_less (c : Capacity) (aiCore memoryGb : UInt32) :
    (c.less aiCore memoryGb).aiCore.toNat = c.aiCore.toNat - aiCore.toNat ∧
      (c.less aiCore memoryGb).memoryGb.toNat = c.memoryGb.toNat - memoryGb.toNat := by
  have hsub : ∀ a b : UInt32, (if b ≤ a then a - b else 0).toNat = a.toNat - b.toNat := by
    intro a b
    by_cases h : b ≤ a
    · rw [if_pos h, UInt32.toNat_sub_of_le _ _ h]
    · rw [if_neg h, UInt32.toNat_zero]
      exact (Nat.sub_eq_zero_of_le (Nat.le_of_not_le fun h' => h (UInt32.le_iff_toNat_le.2 h'))).symm
  exact ⟨hsub _ _, hsub _ _⟩

def FitsEach (c : Capacity) (catalog : Catalog) : Prop :=
  ∀ t ∈ catalog.toList, t.aiCore ≤ c.aiCore ∧ t.memoryGb ≤ c.memoryGb

instance (c : Capacity) (catalog : Catalog) : Decidable (c.FitsEach catalog) :=
  inferInstanceAs (Decidable (∀ t ∈ catalog.toList, t.aiCore ≤ c.aiCore ∧ t.memoryGb ≤ c.memoryGb))

end Capacity

/-- The templates that slices were carved with; a slice that is the whole card has none. -/
def carvedTemplates (catalog : Catalog) (slices : List Slice) : List Template :=
  slices.filterMap fun s => catalog.find? s.templateName

theorem carvedTemplates_append {catalog : Catalog} {slices more : List Slice} :
    carvedTemplates catalog (slices ++ more) =
      carvedTemplates catalog slices ++ carvedTemplates catalog more := List.filterMap_append

theorem carvedTemplates_cons {catalog : Catalog} {s : Slice} {slices : List Slice} {t : Template}
    (h : catalog.find? s.templateName = some t) :
    carvedTemplates catalog (s :: slices) = t :: carvedTemplates catalog slices :=
  List.filterMap_cons_some h

def coresOf (ts : List Template) : Nat := (ts.map fun t => t.aiCore.toNat).sum

def memoryOf (ts : List Template) : Nat := (ts.map fun t => t.memoryGb.toNat).sum

section Sums

variable {ts us : List Template} {t : Template}

theorem coresOf_cons : coresOf (t :: ts) = t.aiCore.toNat + coresOf ts := List.sum_cons

theorem memoryOf_cons : memoryOf (t :: ts) = t.memoryGb.toNat + memoryOf ts := List.sum_cons

theorem coresOf_append : coresOf (ts ++ us) = coresOf ts + coresOf us := by
  rw [coresOf, List.map_append, List.sum_append]
  rfl

theorem memoryOf_append : memoryOf (ts ++ us) = memoryOf ts + memoryOf us := by
  rw [memoryOf, List.map_append, List.sum_append]
  rfl

theorem coresOf_le_of_sublist (h : ts.Sublist us) : coresOf ts ≤ coresOf us :=
  (h.map _).sum_le_sum fun _ _ => Nat.zero_le _

theorem memoryOf_le_of_sublist (h : ts.Sublist us) : memoryOf ts ≤ memoryOf us :=
  (h.map _).sum_le_sum fun _ _ => Nat.zero_le _

end Sums

namespace Card

variable {policy : Eligibility} {catalog : Catalog} {c : Card} {t : Template}

/-- The templates that the slices of the card were carved with take no more than the card has. -/
structure WithinBudget (catalog : Catalog) (c : Card) : Prop where
  cores : coresOf (carvedTemplates catalog c.allocated) ≤ c.capacity.aiCore.toNat
  memory : memoryOf (carvedTemplates catalog c.allocated) ≤ c.capacity.memoryGb.toNat

section Remaining

theorem toNat_remaining_go (left : Capacity) {slices : List Slice}
    (h : ∀ s ∈ slices, (catalog.find? s.templateName).isSome) :
    (remaining.go catalog left slices).aiCore.toNat =
        left.aiCore.toNat - coresOf (carvedTemplates catalog slices) ∧
      (remaining.go catalog left slices).memoryGb.toNat =
        left.memoryGb.toNat - memoryOf (carvedTemplates catalog slices) := by
  induction slices generalizing left with
  | nil => exact ⟨rfl, rfl⟩
  | cons s slices ih =>
    obtain ⟨t, ht⟩ := Option.isSome_iff_exists.1 (h s List.mem_cons_self)
    obtain ⟨hcores, hmemory⟩ := ih (left.less t.aiCore t.memoryGb)
      fun s hs => h s (List.mem_cons_of_mem _ hs)
    obtain ⟨hless, hlessm⟩ := left.toNat_less t.aiCore t.memoryGb
    rw [remaining.go, ht, carvedTemplates_cons ht, coresOf_cons, memoryOf_cons]
    exact ⟨by rw [hcores, hless]; omega, by rw [hmemory, hlessm]; omega⟩

theorem IsCarvedInto.isSome_template {pieces : List (UInt32 × Template)} (hk : catalog.Keyed)
    (h : c.IsCarvedInto catalog pieces) {s : Slice} (hs : s ∈ c.allocated) :
    (catalog.find? s.templateName).isSome := by
  rw [h.allocated] at hs
  obtain ⟨p, hp, rfl⟩ := List.mem_map.1 hs
  exact Option.isSome_iff_exists.2 ⟨p.2, hk.find?_name (h.shaped p hp)⟩

theorem IsCarvedInto.remaining_add {pieces : List (UInt32 × Template)} (hk : catalog.Keyed)
    (h : c.IsCarvedInto catalog pieces) (hw : c.WithinBudget catalog) :
    (c.remaining catalog).aiCore.toNat + coresOf (carvedTemplates catalog c.allocated) =
        c.capacity.aiCore.toNat ∧
      (c.remaining catalog).memoryGb.toNat + memoryOf (carvedTemplates catalog c.allocated) =
        c.capacity.memoryGb.toNat := by
  obtain ⟨hcores, hmemory⟩ := toNat_remaining_go c.capacity fun s => h.isSome_template hk
  exact ⟨by rw [remaining, hcores, Nat.sub_add_cancel hw.cores],
    by rw [remaining, hmemory, Nat.sub_add_cancel hw.memory]⟩

theorem IsCarvedInto.fits_remaining {pieces : List (UInt32 × Template)} (hk : catalog.Keyed)
    (h : c.IsCarvedInto catalog pieces) (hw : c.WithinBudget catalog) {before after : List Slice}
    {s : Slice} (hs : c.allocated = before ++ s :: after) :
    ∃ t, catalog.find? s.templateName = some t ∧
      t.aiCore ≤ (remaining.go catalog c.capacity before).aiCore ∧
      t.memoryGb ≤ (remaining.go catalog c.capacity before).memoryGb := by
  have hsome : ∀ s ∈ c.allocated, (catalog.find? s.templateName).isSome :=
    fun s => h.isSome_template hk
  rw [hs] at hsome
  obtain ⟨t, ht⟩ := Option.isSome_iff_exists.1 (hsome s (by simp))
  obtain ⟨hcores, hmemory⟩ := toNat_remaining_go c.capacity fun u hu =>
    hsome u (List.mem_append_left _ hu)
  have htemplates : carvedTemplates catalog c.allocated =
      carvedTemplates catalog before ++ t :: carvedTemplates catalog after := by
    rw [hs, carvedTemplates_append, carvedTemplates_cons ht]
  have hwc := hw.cores
  have hwm := hw.memory
  rw [htemplates, coresOf_append, coresOf_cons] at hwc
  rw [htemplates, memoryOf_append, memoryOf_cons] at hwm
  refine ⟨t, ht, UInt32.le_iff_toNat_le.2 ?_, UInt32.le_iff_toNat_le.2 ?_⟩
  · rw [hcores]
    omega
  · rw [hmemory]
    omega

theorem mem_eligible_capacity (h : c.allocated ≠ []) :
    t ∈ (Eligibility.capacity.eligible catalog c).toList ↔ t ∈ catalog.toList ∧
      t.aiCore ≤ (c.remaining catalog).aiCore ∧ t.memoryGb ≤ (c.remaining catalog).memoryGb := by
  have hwhole : ¬ c.isWhole = true := fun hw => h (List.isEmpty_iff.1 hw)
  rw [Eligibility.eligible, if_neg hwhole, Catalog.mem_filter, Bool.and_eq_true, decide_eq_true_eq,
    decide_eq_true_eq]

end Remaining

section Steps

variable {id : String} {kind : SliceKind}

theorem withinBudget_restored : (c.restored catalog).WithinBudget catalog :=
  ⟨Nat.zero_le _, Nat.zero_le _⟩

theorem withinBudget_taken (hname : catalog.find? "" = none) :
    (c.taken policy catalog).WithinBudget catalog := by
  have hnone : carvedTemplates catalog (c.taken policy catalog).allocated = [] := by
    rw [show (c.taken policy catalog).allocated = [c.wholeGrant] from refreshAllocated_allocated]
    exact List.filterMap_cons_none hname
  refine ⟨?_, ?_⟩ <;> rw [hnone] <;> exact Nat.zero_le _

theorem Sound.withinBudget_carvedOff (hk : catalog.Keyed) (h : c.Sound catalog)
    (hroom : c.capacity.FitsEach catalog) (hw : c.WithinBudget catalog)
    (hoff : c.supported = Eligibility.capacity.eligible catalog c)
    (havail : c.available = [Slice.free id kind]) (ht : t ∈ c.supported.toList) :
    (c.carvedOff policy catalog ((Slice.free id kind).shapedBy t)).WithinBudget catalog := by
  have htemplates : carvedTemplates catalog
      (c.carvedOff policy catalog ((Slice.free id kind).shapedBy t)).allocated =
        carvedTemplates catalog c.allocated ++ [t] := by
    have hfind : catalog.find? ((Slice.free id kind).shapedBy t).templateName = some t :=
      hk.find?_name (h.offered t ht)
    rw [carvedOff_allocated, carvedTemplates_append, carvedTemplates_cons hfind]
    rfl
  have hcap : (c.carvedOff policy catalog ((Slice.free id kind).shapedBy t)).capacity = c.capacity :=
    congrArg (·.2.2.2) carvedOff_identity
  have hfits : coresOf (carvedTemplates catalog c.allocated) + t.aiCore.toNat ≤
        c.capacity.aiCore.toNat ∧
      memoryOf (carvedTemplates catalog c.allocated) + t.memoryGb.toNat ≤
        c.capacity.memoryGb.toNat := by
    rcases h.shape with hf | htk | ⟨pieces, hc⟩
    -- the first piece: the template fits by itself
    · obtain ⟨hcores, hmemory⟩ := hroom t (h.offered t ht)
      rw [hf.allocated]
      exact ⟨by simpa [carvedTemplates, coresOf] using UInt32.le_iff_toNat_le.1 hcores,
        by simpa [carvedTemplates, memoryOf] using UInt32.le_iff_toNat_le.1 hmemory⟩
    · rw [htk.available] at havail
      cases havail
    · rw [hoff, mem_eligible_capacity hc.allocated_ne_nil] at ht
      obtain ⟨hleft, hleftm⟩ := hc.remaining_add hk hw
      have hcores := UInt32.le_iff_toNat_le.1 ht.2.1
      have hmemory := UInt32.le_iff_toNat_le.1 ht.2.2
      exact ⟨by omega, by omega⟩
  refine ⟨?_, ?_⟩
  · rw [htemplates, hcap, coresOf_append]
    exact hfits.1
  · rw [htemplates, hcap, memoryOf_append]
    exact hfits.2

theorem WithinBudget.coalesced (h : c.WithinBudget catalog) (place : Nat) :
    (c.coalesced policy catalog place).WithinBudget catalog := by
  have hsub : (carvedTemplates catalog (c.coalesced policy catalog place).allocated).Sublist
      (carvedTemplates catalog c.allocated) :=
    (List.eraseIdx_sublist c.allocated place).filterMap _
  exact ⟨(coresOf_le_of_sublist hsub).trans h.cores, (memoryOf_le_of_sublist hsub).trans h.memory⟩

end Steps

end Card

namespace Engine

variable {e e' : Engine} {key : String} {c : Card}

structure Budgeted (e : Engine) : Prop where
  sound : e.Sound
  policy : e.eligibility = .capacity
  offers : e.OffersEligible
  room : ∀ key c, e.cards.find? key = some c → c.capacity.FitsEach e.catalog
  within : ∀ key c, e.cards.find? key = some c → c.WithinBudget e.catalog

theorem budgeted_new (catalog : Catalog) : (Engine.new catalog .capacity).Budgeted where
  sound := sound_new catalog .capacity
  policy := rfl
  offers := offersEligible_new catalog .capacity
  room key c hc := by cases hc
  within key c hc := by cases hc

theorem OffersEligible.perform (h : e.OffersEligible)
    (hp : e.eligibility = .all ∨ e.eligibility = .capacity) (call : EngineCall) :
    (e.perform call).OffersEligible := by
  rw [perform_eq_serve]
  exact h.serve hp call.request

theorem Budgeted.of_insert {c' : Card} (h : e.Budgeted) (hc : e.cards.find? key = some c)
    (hi : c'.identity = c.identity) (hw : c'.WithinBudget e.catalog) :
    ∀ k d, (e.cards.insert key c').find? k = some d →
      d.capacity.FitsEach e.catalog ∧ d.WithinBudget e.catalog := by
  intro k d hd
  rw [Dict.find?_insert] at hd
  split at hd
  · cases hd
    have hcap : c'.capacity = c.capacity := congrArg (·.2.2.2) hi
    exact ⟨hcap ▸ h.room key c hc, hw⟩
  · exact ⟨h.room k d hd, h.within k d hd⟩

theorem Budgeted.cards_perform (h : e.Budgeted) (hk : e.catalog.Keyed)
    (hname : e.catalog.find? "" = none) (call : EngineCall)
    (hroom : ∀ index model capacity, call = .register index model capacity →
      capacity.FitsEach e.catalog) :
    ∀ k d, (e.perform call).cards.find? k = some d →
      d.capacity.FitsEach e.catalog ∧ d.WithinBudget e.catalog := by
  intro k d hd
  rcases e.perform_cases call with ⟨index, model, capacity, rfl, he⟩ |
    ⟨id, aiCore, memoryGb, rfl, he | ⟨g, ha⟩⟩ | ⟨id, rfl, he | ⟨change, hr⟩⟩
  · rw [he, Engine.register] at hd
    split at hd
    · exact ⟨h.room k d hd, h.within k d hd⟩
    · rw [Dict.find?_insert] at hd
      split at hd
      · cases hd
        exact ⟨hroom index model capacity rfl, Nat.zero_le _, Nat.zero_le _⟩
      · exact ⟨h.room k d hd, h.within k d hd⟩
  · rw [he] at hd
    exact ⟨h.room k d hd, h.within k d hd⟩
  · obtain ⟨key, c, c', hc, _, hcard, he⟩ := allocate_ok ha
    rw [he] at hd
    have hs := (h.sound key c hc).2
    rcases hs.allocate_cases hcard with ⟨_, _, rfl⟩ | ⟨kind, t, havail, ht, rfl, _⟩
    · exact h.of_insert hc Card.taken_identity (Card.withinBudget_taken hname) k d hd
    · have hoff : c.supported = Eligibility.capacity.eligible e.catalog c :=
        h.policy ▸ h.offers key c hc
      exact h.of_insert hc Card.carvedOff_identity
        (hs.withinBudget_carvedOff hk (h.room key c hc) (h.within key c hc) hoff havail ht) k d hd
  · rw [he] at hd
    exact ⟨h.room k d hd, h.within k d hd⟩
  · obtain ⟨key, c, place, s, hc, _, _, ⟨_, _, he⟩ | ⟨_, _, he⟩⟩ := h.sound.release_cases hr
    · rw [he] at hd
      exact h.of_insert hc Card.restored_identity Card.withinBudget_restored k d hd
    · rw [he] at hd
      exact h.of_insert hc Card.coalesced_identity ((h.within key c hc).coalesced place) k d hd

theorem Budgeted.perform (h : e.Budgeted) (hk : e.catalog.Keyed)
    (hname : e.catalog.find? "" = none) (call : EngineCall)
    (hroom : ∀ index model capacity, call = .register index model capacity →
      capacity.FitsEach e.catalog) (hfit : (e.perform call).CountersFit) :
    (e.perform call).Budgeted where
  sound := h.sound.perform call hfit
  policy := (e.perform_eligibility call).trans h.policy
  offers := h.offers.perform (.inr h.policy) call
  room k d hd := by
    rw [perform_catalog]
    exact (h.cards_perform hk hname call hroom k d hd).1
  within k d hd := by
    rw [perform_catalog]
    exact (h.cards_perform hk hname call hroom k d hd).2

theorem Budgeted.performAll (h : e.Budgeted) (hk : e.catalog.Keyed)
    (hname : e.catalog.find? "" = none) {calls : List EngineCall}
    (hroom : ∀ index model capacity, EngineCall.register index model capacity ∈ calls →
      capacity.FitsEach e.catalog) (hfit : e.FitsThrough calls) : (e.performAll calls).Budgeted := by
  induction calls generalizing e with
  | nil => exact h
  | cons call calls ih =>
    have hcat := e.perform_catalog call
    refine ih (h.perform hk hname call (fun index model capacity hcall => ?_) hfit.1) (hcat ▸ hk)
      (hcat ▸ hname) (fun index model capacity hmem => ?_) hfit.2
    · exact hroom index model capacity (hcall ▸ List.mem_cons_self)
    · exact hcat ▸ hroom index model capacity (List.mem_cons_of_mem _ hmem)

/-- Under the policy that looks at what is left, on cards that are large enough for each template by
itself: the templates that a card was carved with take no more than the card has. On a carved card each
of them fits in what the earlier ones left, what is left in the end is what they did not take, and the
card offers exactly the templates that fit in it. -/
theorem within_capacity {catalog : Catalog} {calls : List EngineCall} (hk : catalog.Keyed)
    (hname : catalog.find? "" = none)
    (hroom : ∀ index model capacity, EngineCall.register index model capacity ∈ calls →
      capacity.FitsEach catalog)
    (hfit : (Engine.new catalog .capacity).FitsThrough calls)
    (hc : ((Engine.new catalog .capacity).performAll calls).device? key = some c) :
    let carved := carvedTemplates catalog c.allocated
    let left := c.remaining catalog
    coresOf carved ≤ c.capacity.aiCore.toNat ∧ memoryOf carved ≤ c.capacity.memoryGb.toNat ∧
    (c.HasShape catalog .carved →
      (∀ before s after, c.allocated = before ++ s :: after →
        ∃ t, catalog.find? s.templateName = some t ∧
          t.aiCore ≤ (Card.remaining.go catalog c.capacity before).aiCore ∧
          t.memoryGb ≤ (Card.remaining.go catalog c.capacity before).memoryGb) ∧
      left.aiCore.toNat + coresOf carved = c.capacity.aiCore.toNat ∧
      left.memoryGb.toNat + memoryOf carved = c.capacity.memoryGb.toNat ∧
      ∀ t, t ∈ c.supported.toList ↔
        t ∈ catalog.toList ∧ t.aiCore ≤ left.aiCore ∧ t.memoryGb ≤ left.memoryGb) := by
  intro carved left
  have hb : ((Engine.new catalog .capacity).performAll calls).Budgeted :=
    (budgeted_new catalog).performAll hk hname hroom hfit
  have hcat : ((Engine.new catalog .capacity).performAll calls).catalog = catalog :=
    performAll_catalog _ calls
  have hw := hb.within key c hc
  have hoff := hb.offers key c hc
  rw [hb.policy] at hoff
  rw [hcat] at hw hoff
  refine ⟨hw.cores, hw.memory, fun hshape => ?_⟩
  obtain ⟨pieces, hp⟩ := hshape
  obtain ⟨hcores, hmemory⟩ := hp.remaining_add hk hw
  refine ⟨fun before s after hs => hp.fits_remaining hk hw hs, hcores, hmemory, fun t => ?_⟩
  rw [hoff]
  exact Card.mem_eligible_capacity hp.allocated_ne_nil

def carvingCalls : List EngineCall :=
  [.register 0 "Ascend910B" ⟨24, 64⟩, .allocate "npu-0-0" 8 12, .allocate "npu-0-1" 16 16,
    .release "npu-0-1", .allocate "npu-0-3" 4 8]

theorem within_capacity_sample : ∃ c,
    ((Engine.new .standard .capacity).performAll carvingCalls).device? "npu-0-0" = some c ∧
    c.HasShape .standard .carved ∧ coresOf (carvedTemplates .standard c.allocated) = 12 ∧
    (c.remaining .standard).aiCore.toNat + coresOf (carvedTemplates .standard c.allocated) =
      c.capacity.aiCore.toNat := by
  obtain ⟨c, hc⟩ : ∃ c, ((Engine.new .standard .capacity).performAll carvingCalls).device? "npu-0-0" =
      some c := Option.isSome_iff_exists.1 (by decide +kernel)
  have hsizes : (((Engine.new .standard .capacity).performAll carvingCalls).device? "npu-0-0").map
      (fun c => (c.allocated.length, coresOf (carvedTemplates .standard c.allocated))) =
        some (2, 12) := by decide +kernel
  rw [hc] at hsizes
  obtain ⟨hlength, htwelve⟩ := Prod.mk.inj (Option.some.inj hsizes)
  have hfit : (Engine.new .standard .capacity).FitsThrough carvingCalls := by decide +kernel
  have hroom : ∀ index model capacity, EngineCall.register index model capacity ∈ carvingCalls →
      capacity.FitsEach .standard := by
    intro index model capacity hmem
    obtain ⟨-, -, rfl⟩ : index = 0 ∧ model = "Ascend910B" ∧ capacity = ⟨24, 64⟩ := by
      simpa [carvingCalls] using hmem
    decide +kernel
  have hcarved : c.HasShape .standard .carved := by
    have hs := ((sound_new .standard .capacity).performAll hfit "npu-0-0" c hc).2
    rcases hs.shape with hf | ht | hp
    · rw [hf.allocated] at hlength
      cases hlength
    · rw [ht.allocated] at hlength
      cases hlength
    · rwa [performAll_catalog] at hp
  have hbudget := within_capacity (Catalog.keyed_ofList _) (by decide +kernel) hroom hfit hc
  exact ⟨c, hc, hcarved, htwelve, (hbudget.2.2 hcarved).2.1⟩

end Engine

end SliceAgent
