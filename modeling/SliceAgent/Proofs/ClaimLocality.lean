import SliceAgent.Proofs.AdoptedSlices
import SliceAgent.Proofs.EngineLocality

/-!
The granting of devices that are all on certain cards. It goes the same way over engines that have these
cards in common: the same engine calls are made, the same slices are carved and the outcome is the same
(`Granting.AgreesOn.grantClaim_eq`).
-/
namespace SliceAgent

namespace Granting

variable {g k : Granting} {S : Set UInt32} {configs : List RankedConfig} {r : Assignment}
  {rs : List Assignment}

/-- Grantings whose engines have certain cards in common, and that have carved the same. -/
structure AgreesOn (S : Set UInt32) (g k : Granting) : Prop where
  engine : g.engine.AgreesOn S k.engine
  carved : k.carved = g.carved

theorem calls_pointTo (hrs : ∀ r ∈ rs, SliceId.PointsTo S r.device) (g : Granting) :
    ∀ call ∈ calls configs rs g, call.PointsTo S := by
  induction rs generalizing g with
  | nil => exact List.forall_mem_nil _
  | cons r rs ih =>
    obtain ⟨hr, hrs⟩ := List.forall_mem_cons.1 hrs
    rw [calls]
    refine List.forall_mem_cons.2 ⟨hr, ?_⟩
    split
    · exact List.forall_mem_nil _
    · exact ih hrs _

theorem Current.carved_pointTo (hg : g.Current) (hrs : ∀ r ∈ rs, SliceId.PointsTo S r.device)
    (hcarved : ∀ id ∈ g.carved, SliceId.PointsTo S id)
    (hfit : g.engine.FitsThrough (calls configs rs g)) :
    ∀ id ∈ (grantAll configs rs g).2.carved, SliceId.PointsTo S id := by
  induction rs generalizing g with
  | nil => exact hcarved
  | cons r rs ih =>
    obtain ⟨hr, hrs⟩ := List.forall_mem_cons.1 hrs
    have htaken : ∀ id ∈ (g.take configs r).2.carved, SliceId.PointsTo S id := by
      rcases g.take_cases configs r with ⟨ht, _⟩ | ⟨a, engine, ha, ht⟩
      · rw [ht]
        exact hcarved
      · rw [ht, hg.sound.slice_id_of_allocate ha]
        exact List.forall_mem_append.2 ⟨hcarved, List.forall_mem_singleton.2 hr⟩
    rcases grantAll_cons_cases configs r rs g with ⟨hall, _⟩ | ⟨hall, hcalls⟩
    · rw [hall]
      exact htaken
    · rw [hcalls] at hfit
      rw [hall]
      exact ih (hg.take hfit.1) hrs htaken (g.take_engine configs r ▸ hfit.2)

theorem AgreesOn.request_eq (h : g.AgreesOn S k) : k.request configs r = g.request configs r := by
  rw [request, request, h.engine.catalog]

theorem AgreesOn.take (h : g.AgreesOn S k) (hg : g.Current) (hk : k.Current)
    (hr : SliceId.PointsTo S r.device) : (g.take configs r).2.AgreesOn S (k.take configs r).2 := by
  refine ⟨?_, ?_⟩
  · rw [take_engine, take_engine, h.request_eq]
    exact h.engine.perform hg.sound hk.sound hr
  · have hsame := h.engine.allocate_fst hg.sound hk.sound hr
      (requestedAmounts configs r.request g.engine.catalog).1
      (requestedAmounts configs r.request g.engine.catalog).2
    rcases g.take_cases configs r with ⟨ht, err, ha⟩ | ⟨a, engine, ha, ht⟩ <;>
      rcases k.take_cases configs r with ⟨hkt, err', hb⟩ | ⟨b, engine', hb, hkt⟩ <;>
      rw [h.engine.catalog] at hb <;> rw [ha, hb] at hsame
    · rw [ht, hkt]
      exact h.carved
    · cases hsame
    · cases hsame
    · obtain rfl : b = a := Except.ok.inj hsame
      rw [ht, hkt, h.carved]

theorem AgreesOn.current_take (h : g.AgreesOn S k) (hg : g.Current) (hk : k.Current)
    (hr : SliceId.PointsTo S r.device)
    (hfit : (g.engine.perform (g.request configs r)).CountersFit) :
    (g.take configs r).2.Current ∧ (k.take configs r).2.Current := by
  refine ⟨hg.take hfit, hk.take ?_⟩
  rw [h.request_eq]
  exact h.engine.countersFit hg.sound hk.sound hr hfit

theorem grant_fst (hs : g.engine.Sound) : (g.grant configs r).1 =
    if (g.take configs r).2.inventory.contains r.device then .ok ⟨r, r.device⟩
    else .error (.notAllocatable r.device) := by
  have hfst : (g.take configs r).1 = r.device := take_fst hs
  rw [← hfst, grant]
  split
  rename_i heq
  rw [heq]
  split <;> rfl

theorem AgreesOn.grant_fst_eq (h : g.AgreesOn S k) (hg : g.Current) (hk : k.Current)
    (hr : SliceId.PointsTo S r.device)
    (hfit : (g.engine.perform (g.request configs r)).CountersFit) :
    (k.grant configs r).1 = (g.grant configs r).1 := by
  obtain ⟨hg', hk'⟩ := h.current_take hg hk hr hfit
  have hknown : (k.take configs r).2.inventory.contains r.device =
      (g.take configs r).2.inventory.contains r.device := by
    rw [Bool.eq_iff_iff, hk'.contains_iff, hg'.contains_iff]
    exact (h.take hg hk hr).engine.knows_iff hg'.sound hk'.sound hr
  rw [grant_fst hg.sound, grant_fst hk.sound, hknown]

theorem AgreesOn.grantAll (h : g.AgreesOn S k) (hg : g.Current) (hk : k.Current)
    (hrs : ∀ r ∈ rs, SliceId.PointsTo S r.device)
    (hfit : g.engine.FitsThrough (calls configs rs g)) :
    (grantAll configs rs k).1 = (grantAll configs rs g).1 ∧
    calls configs rs k = calls configs rs g ∧
    (grantAll configs rs g).2.AgreesOn S (grantAll configs rs k).2 := by
  induction rs generalizing g k with
  | nil => exact ⟨rfl, rfl, h⟩
  | cons r rs ih =>
    obtain ⟨hr, hrs⟩ := List.forall_mem_cons.1 hrs
    obtain ⟨hg', hk'⟩ := h.current_take hg hk hr hfit.1
    have hnext : (g.take configs r).2.AgreesOn S (k.take configs r).2 := h.take hg hk hr
    have hfirst := h.grant_fst_eq hg hk hr hfit.1
    have hgsnd := grant_snd configs g r
    have hksnd := grant_snd configs k r
    rw [calls] at hfit
    rw [calls, calls, h.request_eq, Granting.grantAll, Granting.grantAll]
    cases hgrant : g.grant configs r with
    | mk result g₁ =>
      cases hkgrant : k.grant configs r with
      | mk result' k₁ =>
        simp only [hgrant, hkgrant] at hfirst hgsnd hksnd hfit ⊢
        subst hfirst hgsnd hksnd
        cases result' with
        | error err => exact ⟨rfl, rfl, hnext⟩
        | ok d =>
          obtain ⟨hall, hcalls, hend⟩ := ih hnext hg' hk' hrs (g.take_engine configs r ▸ hfit.2)
          rw [hcalls]
          cases hg₂ : Granting.grantAll configs rs (g.take configs r).2 with
          | mk rest g₂ =>
            cases hk₂ : Granting.grantAll configs rs (k.take configs r).2 with
            | mk rest' k₂ =>
              rw [hg₂, hk₂] at hall hend
              simp only at hall hend
              subst hall
              simp only [hg₂, hk₂]
              cases rest' <;> exact ⟨rfl, trivial, hend⟩

theorem AgreesOn.current_grantAll (h : g.AgreesOn S k) (hg : g.Current) (hk : k.Current)
    (hrs : ∀ r ∈ rs, SliceId.PointsTo S r.device)
    (hfit : g.engine.FitsThrough (calls configs rs g)) :
    (Granting.grantAll configs rs g).2.Current ∧ (Granting.grantAll configs rs k).2.Current := by
  have hkeep : ∀ {g : Granting}, g.Current → g.engine.FitsThrough (calls configs rs g) →
      (Granting.grantAll configs rs g).2.Current :=
    fun hg hfit => grantAll_keeps (fun _ _ hfit hg => hg.take hfit) hfit hg
  refine ⟨hkeep hg hfit, hkeep hk ?_⟩
  rw [(h.grantAll hg hk hrs hfit).2.1]
  exact (h.engine.performAll hg.sound hk.sound (calls_pointTo hrs g) hfit).1

end Granting

section Claim

variable {driver : String} {cdiIds : List String} {sources : ConfigSources} {claim : ResourceClaim}
  {configs : List RankedConfig} {allocation : DeviceAllocation} {S : Set UInt32} {g k : Granting}

def ResourceClaim.assigned (claim : ResourceClaim) (driver : String) : List Assignment :=
  (claim.allocation.map fun a => a.results.filter (·.driver = driver)).getD []

/-- Whether the devices of a driver that a claim is assigned are on certain cards, as far as they are on
any. -/
def ResourceClaim.PointsTo (S : Set UInt32) (driver : String) (claim : ResourceClaim) : Prop :=
  ∀ r ∈ claim.assigned driver, SliceId.PointsTo S r.device

theorem ResourceClaim.assigned_of_allocation (ha : claim.allocation = some allocation) :
    claim.assigned driver = allocation.results.filter (·.driver = driver) := by
  rw [assigned, ha]
  rfl

theorem grantClaim_of_assigned (driver : String) (cdiIds : List String) (sources : ConfigSources)
    (claim : ResourceClaim) (g : Granting) :
    ((grantClaim driver cdiIds sources claim g).2 = g ∧ claimCalls driver sources claim g = []) ∨
    ∃ configs, (grantClaim driver cdiIds sources claim g).2 =
        (Granting.grantAll configs (claim.assigned driver) g).2 ∧
      claimCalls driver sources claim g = Granting.calls configs (claim.assigned driver) g := by
  unfold claimCalls grantClaim
  cases ha : claim.allocation with
  | none => exact .inl ⟨rfl, rfl⟩
  | some allocation =>
    rw [ResourceClaim.assigned_of_allocation ha]
    cases hr : resolveConfigs driver sources allocation.config with
    | error err =>
      simp only [hr]
      exact .inl ⟨trivial, trivial⟩
    | ok configs =>
      refine .inr ⟨configs, ?_⟩
      simp only [hr, and_true]
      cases Granting.grantAll configs (allocation.results.filter (·.driver = driver)) g with
      | mk result g' =>
        cases result with
        | error err => rfl
        | ok granted => cases hcheck : checkConfigs granted configs configs <;> simp only [hcheck]

theorem claimCalls_pointTo (hclaim : claim.PointsTo S driver) (g : Granting) :
    ∀ call ∈ claimCalls driver sources claim g, call.PointsTo S := by
  rcases grantClaim_of_assigned driver [] sources claim g with ⟨_, hcalls⟩ | ⟨configs, _, hcalls⟩
  · rw [hcalls]
    exact List.forall_mem_nil _
  · rw [hcalls]
    exact Granting.calls_pointTo hclaim g

theorem Granting.Current.carved_grantClaim_pointTo (hg : g.Current) (hnone : g.carved = [])
    (hclaim : claim.PointsTo S driver)
    (hfit : g.engine.FitsThrough (claimCalls driver sources claim g)) :
    ∀ id ∈ (grantClaim driver cdiIds sources claim g).2.carved, SliceId.PointsTo S id := by
  have hcarved : ∀ id ∈ g.carved, SliceId.PointsTo S id := hnone ▸ List.forall_mem_nil _
  rcases grantClaim_of_assigned driver cdiIds sources claim g with
    ⟨hgrant, _⟩ | ⟨configs, hgrant, hcalls⟩
  · rw [hgrant]
    exact hcarved
  · rw [hcalls] at hfit
    rw [hgrant]
    exact hg.carved_pointTo hclaim hcarved hfit

theorem preparedDevice_of_agreesOn {e f : Engine} {d : Granted} (h : e.AgreesOn S f) (he : e.Sound)
    (hf : f.Sound) (hd : SliceId.PointsTo S d.deviceId) :
    preparedDevice cdiIds configs f d = preparedDevice cdiIds configs e d := by
  simp only [preparedDevice, deviceEdits, templateSetting, h.templateOf_eq he hf hd]

theorem Granting.AgreesOn.grantClaim_eq (h : g.AgreesOn S k) (hg : g.Current) (hk : k.Current)
    (hclaim : claim.PointsTo S driver)
    (hfit : g.engine.FitsThrough (claimCalls driver sources claim g)) :
    (grantClaim driver cdiIds sources claim k).1 = (grantClaim driver cdiIds sources claim g).1 ∧
    claimCalls driver sources claim k = claimCalls driver sources claim g ∧
    (grantClaim driver cdiIds sources claim g).2.AgreesOn S
      (grantClaim driver cdiIds sources claim k).2 := by
  unfold grantClaim
  cases ha : claim.allocation with
  | none =>
    simp only [claimCalls, ha]
    exact ⟨trivial, trivial, h⟩
  | some allocation =>
    cases hr : resolveConfigs driver sources allocation.config with
    | error err =>
      simp only [claimCalls, ha, hr]
      exact ⟨trivial, trivial, h⟩
    | ok configs =>
      rw [claimCalls_of_resolved g ha hr] at hfit
      rw [claimCalls_of_resolved g ha hr, claimCalls_of_resolved k ha hr]
      have hrs : ∀ r ∈ allocation.results.filter (·.driver = driver), SliceId.PointsTo S r.device :=
        ResourceClaim.assigned_of_allocation ha ▸ hclaim
      obtain ⟨hall, hcalls, hend⟩ := h.grantAll hg hk hrs hfit
      obtain ⟨hg', hk'⟩ := h.current_grantAll hg hk hrs hfit
      simp only [hr]
      cases hgall : Granting.grantAll configs (allocation.results.filter (·.driver = driver)) g with
      | mk result g' =>
        cases hkall : Granting.grantAll configs (allocation.results.filter (·.driver = driver)) k with
        | mk result' k' =>
          rw [hgall, hkall] at hall hend
          rw [hgall] at hg'
          rw [hkall] at hk'
          obtain rfl : result' = result := hall
          cases result' with
          | error err => exact ⟨rfl, hcalls, hend⟩
          | ok granted =>
            cases hcheck : checkConfigs granted configs configs with
            | error err =>
              simp only [hcheck]
              exact ⟨trivial, hcalls, hend⟩
            | ok u =>
              simp only [hcheck]
              refine ⟨congrArg Except.ok (List.map_congr_left fun d hd => ?_), hcalls, hend⟩
              obtain ⟨_, hgranted, _⟩ := Granting.asIs_of_grantAll hg hfit hgall
              rw [hgranted] at hd
              obtain ⟨r, hr, rfl⟩ := List.mem_map.1 hd
              exact preparedDevice_of_agreesOn hend.engine hg'.sound hk'.sound (hrs r hr)

end Claim

theorem Node.granting_of_agreesOn {n m : Node} {claim : ResourceClaim} {S : Set UInt32}
    (hcdi : m.cdi = n.cdi) (hclaims : m.claims = n.claims) (hagree : n.engine.AgreesOn S m.engine)
    (hg : Granting.Current ⟨n.engine, n.inventory, []⟩)
    (hk : Granting.Current ⟨m.engine, m.inventory, []⟩) (hclaim : claim.PointsTo S n.cdi.driverName)
    (hfit : n.engine.FitsThrough
      (claimCalls n.cdi.driverName n.claims.sources claim ⟨n.engine, n.inventory, []⟩)) :
    (m.granting claim).1 = (n.granting claim).1 ∧
    claimCalls m.cdi.driverName m.claims.sources claim ⟨m.engine, m.inventory, []⟩ =
      claimCalls n.cdi.driverName n.claims.sources claim ⟨n.engine, n.inventory, []⟩ ∧
    (n.granting claim).2.AgreesOn S (m.granting claim).2 := by
  have hstart : Granting.AgreesOn S ⟨n.engine, n.inventory, []⟩ ⟨m.engine, m.inventory, []⟩ :=
    ⟨hagree, rfl⟩
  rw [granting, granting, hcdi, hclaims]
  exact hstart.grantClaim_eq hg hk hclaim hfit

end SliceAgent
