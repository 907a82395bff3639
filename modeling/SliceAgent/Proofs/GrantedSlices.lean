import SliceAgent.Proofs.NodeCalls

/-!
What is allocated after devices were granted, and after they were taken back: the slices that were
carved are new, so that to take them back takes back nothing that was allocated before.
-/
namespace SliceAgent

theorem SliceId.covers_self (id : String) : SliceId.Covers id id := .inl rfl

namespace Engine

variable {e : Engine}

theorem fitsThrough_append {calls more : List EngineCall} :
    e.FitsThrough (calls ++ more) ↔
      e.FitsThrough calls ∧ (e.performAll calls).FitsThrough more := by
  induction calls generalizing e with
  | nil => exact (true_and _).symm.to_iff
  | cons call calls ih =>
    rw [List.cons_append, FitsThrough, FitsThrough, ih, and_assoc, performAll_cons]

end Engine

namespace Granting

variable {e : Engine} {g : Granting} {configs : List RankedConfig} {r : Assignment}

/-- The slices that were carved came on top of those of an engine, and cover none of them. -/
structure Extends (g : Granting) (e : Engine) : Prop where
  sound : g.engine.Sound
  mem : ∀ id, id ∈ g.engine.allocatedIds ↔ id ∈ e.allocatedIds ∨ id ∈ g.carved
  apart : ∀ id ∈ g.carved, ∀ other ∈ e.allocatedIds, ¬ SliceId.Covers id other

theorem extends_start {i : Inventory} (h : e.Sound) : Extends ⟨e, i, []⟩ e :=
  ⟨h, fun _ => (or_iff_left List.not_mem_nil).symm, fun _ hid => absurd hid List.not_mem_nil⟩

theorem Extends.take (h : g.Extends e)
    (hfit : (g.engine.perform (g.request configs r)).CountersFit) :
    (g.take configs r).2.Extends e := by
  rcases g.take_cases configs r with ⟨ht, _⟩ | ⟨a, engine, ha, ht⟩
  · rw [ht]
    exact h
  · rw [ht]
    rw [request, Engine.perform, ha] at hfit
    refine ⟨h.sound.allocate ha hfit, fun id => ?_, fun id hid other ho => ?_⟩
    · rw [h.sound.mem_allocate ha, h.mem, List.mem_append, List.mem_singleton, or_assoc]
    · rcases List.mem_append.1 hid with hid | hid
      · exact h.apart id hid other ho
      -- the newest slice is no whole card of which others are allocated
      · rw [List.mem_singleton.1 hid]
        exact h.sound.not_covers_allocate ha ((h.mem other).2 (.inl ho))

theorem Extends.mem_takenBack (h : g.Extends e)
    (hfit : g.engine.FitsThrough (g.carved.reverse.map .release)) {id : String} :
    id ∈ (g.engine.performAll (g.carved.reverse.map .release)).allocatedIds ↔
      id ∈ e.allocatedIds := by
  rw [h.sound.mem_releaseAll hfit, h.mem]
  constructor
  · rintro ⟨hid | hid, hcov⟩
    · exact hid
    · exact absurd (SliceId.covers_self id) (hcov id (List.mem_reverse.2 hid))
  · exact fun hid => ⟨.inl hid, fun other ho => h.apart other (List.mem_reverse.1 ho) id hid⟩

theorem grant_ok {d : Granted} {g' : Granting} (h : g.grant configs r = (.ok d, g')) :
    d = ⟨r, (g.take configs r).1⟩ ∧ g' = (g.take configs r).2 := by
  have hsnd := grant_snd configs g r
  rw [h] at hsnd
  refine ⟨?_, hsnd⟩
  unfold grant at h
  split at h
  rename_i heq
  rw [heq]
  split at h
  · cases h
    rfl
  · cases h

theorem grantAll_cons_inv {rs : List Assignment} {ds : List Granted} {g' : Granting}
    (h : Granting.grantAll configs (r :: rs) g = (.ok ds, g')) :
    ∃ d g₁ ds', g.grant configs r = (.ok d, g₁) ∧ ds = d :: ds' ∧
      Granting.grantAll configs rs g₁ = (.ok ds', g') := by
  rw [Granting.grantAll] at h
  cases hg : g.grant configs r with
  | mk result g₁ =>
    rw [hg] at h
    cases result with
    | error err => cases h
    | ok d =>
      simp only at h
      cases hall : Granting.grantAll configs rs g₁ with
      | mk result g₂ =>
        rw [hall] at h
        cases result with
        | error err => cases h
        | ok ds' =>
          cases h
          exact ⟨d, g₁, ds', rfl, rfl, hall⟩

theorem grantAll_cons_ok {rs : List Assignment} {ds : List Granted} {g' : Granting}
    (h : Granting.grantAll configs (r :: rs) g = (.ok ds, g')) :
    ∃ ds', ds = ⟨r, (g.take configs r).1⟩ :: ds' ∧
      Granting.grantAll configs rs (g.take configs r).2 = (.ok ds', g') := by
  obtain ⟨d, g₁, ds', hg, rfl, hall⟩ := grantAll_cons_inv h
  obtain ⟨rfl, rfl⟩ := grant_ok hg
  exact ⟨ds', rfl, hall⟩

theorem mem_carved_grantAll {rs : List Assignment} {ds : List Granted} {g' : Granting}
    (h : Granting.grantAll configs rs g = (.ok ds, g')) {id : String} (hid : id ∈ g'.carved) :
    id ∈ g.carved ∨ id ∈ ds.map (·.deviceId) := by
  induction rs generalizing g ds with
  | nil =>
    cases h
    exact .inl hid
  | cons r rs ih =>
    obtain ⟨ds', rfl, hrest⟩ := grantAll_cons_ok h
    rcases ih hrest with hold | hnew
    · rcases g.take_cases configs r with ⟨ht, _⟩ | ⟨a, engine, _, ht⟩
      · rw [ht] at hold
        exact .inl hold
      · rw [ht] at hold ⊢
        rcases List.mem_append.1 hold with hold | hold
        · exact .inl hold
        · exact .inr (List.mem_singleton.1 hold ▸ List.mem_cons_self)
    · exact .inr (List.mem_cons_of_mem _ hnew)

/-- Every assigned device is allocated by the engine: none is granted merely because it is known. -/
def AllAllocated (configs : List RankedConfig) : List Assignment → Granting → Prop
  | [], _ => True
  | r :: rs, g =>
    (g.engine.allocate r.device (requestedAmounts configs r.request g.engine.catalog).1
      (requestedAmounts configs r.request g.engine.catalog).2).isOk = true ∧
    AllAllocated configs rs (g.take configs r).2

instance decidableAllAllocated : ∀ rs g, Decidable (AllAllocated configs rs g)
  | [], _ => isTrue trivial
  | r :: rs, g =>
    have := decidableAllAllocated rs (g.take configs r).2
    inferInstanceAs (Decidable (_ ∧ _))

theorem carved_of_allAllocated {rs : List Assignment} {ds : List Granted} {g' : Granting}
    (h : Granting.grantAll configs rs g = (.ok ds, g')) (hall : AllAllocated configs rs g) :
    g'.carved = g.carved ++ ds.map (·.deviceId) := by
  induction rs generalizing g ds with
  | nil =>
    cases h
    exact (List.append_nil _).symm
  | cons r rs ih =>
    obtain ⟨ds', rfl, hrest⟩ := grantAll_cons_ok h
    obtain ⟨hisOk, hall⟩ := hall
    rw [ih hrest hall]
    rcases g.take_cases configs r with ⟨_, err, herr⟩ | ⟨a, engine, _, ht⟩
    · rw [herr] at hisOk
      cases hisOk
    · rw [ht, List.append_assoc]
      rfl

end Granting

section Claim

variable {driver : String} {cdiIds : List String} {sources : ConfigSources} {claim : ResourceClaim}
  {g g' : Granting} {e : Engine} {devices : List PreparedDevice}

def deviceNames (devices : List PreparedDevice) : List String := devices.map (·.device.deviceName)

theorem Granting.Extends.grantClaim (h : g.Extends e)
    (hfit : g.engine.FitsThrough (claimCalls driver sources claim g)) :
    (grantClaim driver cdiIds sources claim g).2.Extends e :=
  grantClaim_keeps (p := (Granting.Extends · e)) (fun _ _ _ hfit h => h.take hfit) hfit h

theorem grantClaim_ok_iff : grantClaim driver cdiIds sources claim g = (.ok devices, g') ↔
    ∃ allocation configs granted, claim.allocation = some allocation ∧
      resolveConfigs driver sources allocation.config = .ok configs ∧
      Granting.grantAll configs (allocation.results.filter (·.driver = driver)) g =
        (.ok granted, g') ∧
      checkConfigs granted configs configs = .ok () ∧
      devices = granted.map (preparedDevice cdiIds configs g'.engine) := by
  constructor
  · intro h
    unfold grantClaim at h
    cases ha : claim.allocation with
    | none =>
      rw [ha] at h
      cases h
    | some allocation =>
      simp only [ha] at h
      cases hr : resolveConfigs driver sources allocation.config with
      | error err =>
        rw [hr] at h
        cases h
      | ok configs =>
        simp only [hr] at h
        cases hg : Granting.grantAll configs (allocation.results.filter (·.driver = driver)) g with
        | mk result g₁ =>
          rw [hg] at h
          cases result with
          | error err => cases h
          | ok granted =>
            simp only at h
            cases hcheck : checkConfigs granted configs configs with
            | error err =>
              rw [hcheck] at h
              cases h
            | ok u =>
              rw [hcheck] at h
              cases h
              exact ⟨allocation, configs, granted, rfl, hr, hg, hcheck, rfl⟩
  · rintro ⟨allocation, configs, granted, ha, hr, hg, hcheck, rfl⟩
    unfold grantClaim
    rw [ha]
    simp only [hr, hg, hcheck]

theorem grantClaim_ok (h : grantClaim driver cdiIds sources claim g = (.ok devices, g')) :
    ∃ allocation configs granted, claim.allocation = some allocation ∧
      resolveConfigs driver sources allocation.config = .ok configs ∧
      Granting.grantAll configs (allocation.results.filter (·.driver = driver)) g =
        (.ok granted, g') ∧
      deviceNames devices = granted.map (·.deviceId) := by
  obtain ⟨allocation, configs, granted, ha, hr, hg, _, rfl⟩ := grantClaim_ok_iff.1 h
  refine ⟨allocation, configs, granted, ha, hr, hg, ?_⟩
  rw [deviceNames, List.map_map]
  rfl

def ClaimAllocated (driver : String) (sources : ConfigSources) (claim : ResourceClaim)
    (g : Granting) : Prop :=
  match claim.allocation with
  | none => True
  | some allocation =>
    match resolveConfigs driver sources allocation.config with
    | .error _ => True
    | .ok configs =>
      Granting.AllAllocated configs (allocation.results.filter (·.driver = driver)) g

instance (driver : String) (sources : ConfigSources) (claim : ResourceClaim) (g : Granting) :
    Decidable (ClaimAllocated driver sources claim g) :=
  match ha : claim.allocation with
  | none => isTrue (by simp only [ClaimAllocated, ha])
  | some allocation =>
    match hr : resolveConfigs driver sources allocation.config with
    | .error _ => isTrue (by simp only [ClaimAllocated, ha, hr])
    | .ok configs =>
      decidable_of_iff
        (Granting.AllAllocated configs (allocation.results.filter (·.driver = driver)) g)
        (by simp only [ClaimAllocated, ha, hr])

end Claim

namespace Node

variable {n : Node} {claim : ResourceClaim} {checkpoint : Checkpoint} {devices : List PreparedDevice}
  {id : String}

theorem extends_granting (h : n.engine.Sound)
    (hfit : n.engine.FitsThrough (n.prepareCalls claim checkpoint)) :
    (n.granting claim).2.Extends n.engine :=
  (Granting.extends_start h).grantClaim (Engine.fitsThrough_append.1 hfit).1

theorem granting_engine : (n.granting claim).2.engine = n.engine.performAll
    (claimCalls n.cdi.driverName n.claims.sources claim ⟨n.engine, n.inventory, []⟩) :=
  (grantClaim_leads _ _ _ _ _).engine

theorem mem_allocatedIds_of_error (h : n.engine.Sound) (hmode : n.claims.persistence = .compensating)
    (hfit : n.engine.FitsThrough (n.prepareCalls claim checkpoint)) {e : NodeError}
    (he : (n.prepareNew claim checkpoint).1 = .error e) (id : String) :
    id ∈ (n.engine.performAll (n.prepareCalls claim checkpoint)).allocatedIds ↔
      id ∈ n.engine.allocatedIds := by
  have hroll := rollbackCalls_of_error he
  rw [hmode] at hroll
  have hback := (Engine.fitsThrough_append.1 hfit).2
  rw [← granting_engine, hroll] at hback
  rw [prepareCalls, Engine.performAll_append, ← granting_engine, hroll]
  exact (extends_granting h hfit).mem_takenBack hback

theorem mem_allocatedIds_of_ok (h : n.engine.Sound)
    (hfit : n.engine.FitsThrough (n.prepareCalls claim checkpoint))
    (hok : (n.prepareNew claim checkpoint).1 = .ok devices) (id : String) :
    id ∈ (n.engine.performAll (n.prepareCalls claim checkpoint)).allocatedIds ↔
      id ∈ n.engine.allocatedIds ∨ id ∈ (n.granting claim).2.carved := by
  rw [prepareCalls, Engine.performAll_append, ← granting_engine, rollbackCalls_of_ok hok]
  exact (extends_granting h hfit).mem id

theorem carved_subset (hok : (n.granting claim).1 = .ok devices)
    (hid : id ∈ (n.granting claim).2.carved) : id ∈ deviceNames devices := by
  have hg : n.granting claim = (.ok devices, (n.granting claim).2) := Prod.ext hok rfl
  obtain ⟨_, _, granted, _, _, hall, hnames⟩ := grantClaim_ok hg
  rcases Granting.mem_carved_grantAll hall hid with hnil | hmem
  · exact absurd hnil List.not_mem_nil
  · exact hnames ▸ hmem

theorem carved_eq (hok : (n.granting claim).1 = .ok devices)
    (hall : ClaimAllocated n.cdi.driverName n.claims.sources claim ⟨n.engine, n.inventory, []⟩) :
    (n.granting claim).2.carved = deviceNames devices := by
  have hg : n.granting claim = (.ok devices, (n.granting claim).2) := Prod.ext hok rfl
  obtain ⟨allocation, configs, granted, ha, hr, hgranted, hnames⟩ := grantClaim_ok hg
  simp only [ClaimAllocated, ha, hr] at hall
  rw [hnames, Granting.carved_of_allAllocated hgranted hall]
  rfl

end Node

end SliceAgent
