import SliceAgent.Proofs.FreeSlices
import SliceAgent.Proofs.StorageFailures

/-!
A claim that is prepared again in legacy mode, where a failure leaves allocated what was allocated for
it. The engine refuses all its devices the second time, and each is granted as it was assigned
(`NodeSetup.Reaches.adopts_leaked`).
-/
namespace SliceAgent

namespace Granting

variable {g g' : Granting} {configs : List RankedConfig} {r other : Assignment} {d : Granted}
  {rs : List Assignment} {ds : List Granted}

/-- Whether an assigned device is granted without the engine, and nothing changes. -/
structure GrantsAsIs (g : Granting) (configs : List RankedConfig) (r : Assignment) : Prop where
  refused : ¬ g.engine.Offers r.device (requestedAmounts configs r.request g.engine.catalog).1
    (requestedAmounts configs r.request g.engine.catalog).2
  known : g.inventory.contains r.device = true

theorem GrantsAsIs.grant_eq (h : g.GrantsAsIs configs r) (hs : g.engine.Sound) :
    g.grant configs r = (.ok ⟨r, r.device⟩, g) := by
  refine grant_ok_iff.2 ⟨?_, rfl, h.known⟩
  rcases g.take_cases configs r with ⟨ht, _⟩ | ⟨a, engine, ha, _⟩
  · exact ht
  · exact absurd (hs.offers_of_ok ha) h.refused

theorem grantAll_of_asIs (hs : g.engine.Sound) (h : ∀ r ∈ rs, g.GrantsAsIs configs r) :
    grantAll configs rs g = (.ok (rs.map fun r => ⟨r, r.device⟩), g) := by
  induction rs with
  | nil => rfl
  | cons r rs ih =>
    obtain ⟨hfirst, hrest⟩ := List.forall_mem_cons.1 h
    rw [grantAll, hfirst.grant_eq hs]
    simp only [ih hrest]
    rfl

theorem GrantsAsIs.take (h : g.GrantsAsIs configs r) (hg : g.Current)
    (hfit : (g.engine.perform (g.request configs other)).CountersFit) :
    (g.take configs other).2.GrantsAsIs configs r := by
  have hcurrent := hg.take hfit
  rcases g.take_cases configs other with ⟨ht, _⟩ | ⟨a, engine, ha, ht⟩
  · rw [ht]
    exact h
  · have hknown : g.engine.Knows r.device := (hg.mirrors.names _).1 h.known
    rw [ht] at hcurrent ⊢
    refine ⟨fun hoffers => ?_, ?_⟩
    · rw [Engine.allocate_catalog ha] at hoffers
      exact h.refused (hg.sound.offers_of_allocate ha hknown hoffers)
    · exact (hcurrent.mirrors.names _).2 (hg.sound.knows_allocate ha hknown)

theorem grantsAsIs_of_grant (hg : g.Current)
    (hfit : (g.engine.perform (g.request configs r)).CountersFit)
    (h : g.grant configs r = (.ok d, g')) : g'.GrantsAsIs configs r := by
  obtain ⟨htake, _, hknown⟩ := grant_ok_iff.1 h
  have hname : d.deviceId = r.device := by
    rw [← take_fst hg.sound, htake]
  have hcurrent := hg.take hfit
  rw [htake] at hcurrent
  rw [hname] at hknown
  refine ⟨fun hoffers => ?_, hknown⟩
  rcases g.take_cases configs r with ⟨ht, err, ha⟩ | ⟨a, engine, ha, ht⟩
  · obtain ⟨_, rfl⟩ := Prod.mk.inj (ht.symm.trans htake)
    exact hg.sound.not_offers_of_error ha hoffers
  -- it was carved, and what is allocated is not offered
  · obtain ⟨_, rfl⟩ := Prod.mk.inj (ht.symm.trans htake)
    have hheld : r.device ∈ engine.allocatedIds :=
      (hg.sound.mem_allocate ha).2 (.inr (hg.sound.slice_id_of_allocate ha).symm)
    exact hcurrent.sound.not_offers_of_allocated hheld hoffers

theorem asIs_of_grantAll (hg : g.Current) (hfit : g.engine.FitsThrough (calls configs rs g))
    (h : grantAll configs rs g = (.ok ds, g')) :
    g'.Current ∧ ds = rs.map (fun r => ⟨r, r.device⟩) ∧ (∀ r ∈ rs, g'.GrantsAsIs configs r) ∧
      ∀ r, g.GrantsAsIs configs r → g'.GrantsAsIs configs r := by
  induction rs generalizing g ds with
  | nil =>
    cases h
    exact ⟨hg, rfl, List.forall_mem_nil _, fun _ h => h⟩
  | cons r rs ih =>
    obtain ⟨ds', rfl, hgrant, hfirst, hnext, hfits, hrest⟩ := hg.grantAll_cons hfit h
    have hasIs := grantsAsIs_of_grant hg hfirst hgrant
    obtain ⟨hcurrent, rfl, hall, hkept⟩ := ih hnext hfits hrest
    refine ⟨hcurrent, rfl, List.forall_mem_cons.2 ⟨hkept r hasIs, hall⟩, fun other ho => ?_⟩
    exact hkept other (ho.take hg hfirst)

end Granting

theorem grantClaim_of_granted {driver : String} {cdiIds : List String} {sources : ConfigSources}
    {claim : ResourceClaim} {g g' : Granting} {devices : List PreparedDevice} (hg : g.Current)
    (hfit : g.engine.FitsThrough (claimCalls driver sources claim g))
    (h : grantClaim driver cdiIds sources claim g = (.ok devices, g')) :
    grantClaim driver cdiIds sources claim ⟨g'.engine, g'.inventory, []⟩ =
      (.ok devices, ⟨g'.engine, g'.inventory, []⟩) := by
  obtain ⟨allocation, configs, granted, ha, hr, hall, hcheck, rfl⟩ := grantClaim_ok_iff.1 h
  rw [claimCalls_of_resolved g ha hr] at hfit
  obtain ⟨hcurrent, hgranted, hasIs, _⟩ := Granting.asIs_of_grantAll hg hfit hall
  have hagain := Granting.grantAll_of_asIs (g := ⟨g'.engine, g'.inventory, []⟩) hcurrent.sound
    fun r hr => ⟨(hasIs r hr).refused, (hasIs r hr).known⟩
  rw [← hgranted] at hagain
  exact grantClaim_ok_iff.2 ⟨allocation, configs, granted, ha, hr, hagain, hcheck, rfl⟩

section Adopts

variable {s : NodeSetup} {host : Host} {n : Node} {claim : ResourceClaim} {devices : List PreparedDevice}
  {files files' : FileTree} {faults : Faults}

theorem Node.StorageFails.leaves_granted (h : n.StorageFails claim files faults devices)
    (hmode : n.claims.persistence = .legacy) : n.engineCalls (.prepare claim) =
      claimCalls n.cdi.driverName n.claims.sources claim ⟨n.engine, n.inventory, []⟩ ∧
    (n.prepare claim).2.engine = (n.granting claim).2.engine ∧
    (n.prepare claim).2.inventory = (n.granting claim).2.inventory ∧
    (n.prepare claim).2.claims = n.claims := by
  obtain ⟨c, hread, hnone⟩ := h.absent
  obtain ⟨e, herr⟩ := h.fails
  rw [Node.prepare_of_absent hread hnone] at herr
  have hcalls : n.engineCalls (.prepare claim) =
      claimCalls n.cdi.driverName n.claims.sources claim ⟨n.engine, n.inventory, []⟩ := by
    have hroll := Node.rollbackCalls_of_error herr
    rw [hmode] at hroll
    rw [Node.engineCalls_prepare hread hnone, Node.prepareCalls, hroll, List.append_nil]
  have hcall : NodeCall.prepare claim ≠ .reconcile := NodeCall.noConfusion
  obtain ⟨host, hafter⟩ := n.perform_after hcall
  have hleads := grantClaim_leads n.cdi.driverName (n.cdi.deviceIds claim.uid) n.claims.sources claim
    ⟨n.engine, n.inventory, []⟩
  rw [hcalls] at hafter
  refine ⟨hcalls, ?_, ?_, ?_⟩
  · exact (congrArg Node.engine hafter).trans hleads.engine.symm
  · exact (congrArg Node.inventory hafter).trans hleads.inventory.symm
  · rw [show (n.prepare claim).2 = _ from hafter]
    rfl

/-- A claim that fails in legacy mode, though its devices are granted, because its specification or the
record cannot be written: once they can be, preparing it again returns what it would have returned, and
changes neither the cards nor the inventory. -/
theorem NodeSetup.Reaches.adopts_leaked (hreach : s.Reaches host n)
    (hmode : s.claims.persistence = .legacy) (hfit : n.Fits (.prepare claim))
    (hfail : n.StorageFails claim files faults devices) (hdirs : files.SameDirectories files') :
    let m := (n.prepare claim).2.disturbed files' faults
    (m.prepare claim).1 = .ok devices ∧ (m.prepare claim).2.engine = m.engine ∧
      (m.prepare claim).2.inventory = m.inventory := by
  obtain ⟨n₀, h, hclaims⟩ := hreach.holds
  have hmode' : n.claims.persistence = .legacy := by rw [hclaims, hmode]
  obtain ⟨hcalls, hengine, hinventory, hsame⟩ := hfail.leaves_granted hmode'
  rw [Node.Fits, hcalls] at hfit
  have hcdi : (n.prepare claim).2.cdi = n.cdi := n.cdi_perform (.prepare claim)
  have hgranting : (n.prepare claim).2.granting claim =
      (.ok devices, ⟨(n.prepare claim).2.engine, (n.prepare claim).2.inventory, []⟩) := by
    have hgranted : n.granting claim = (.ok devices, (n.granting claim).2) :=
      Prod.ext hfail.served.1 rfl
    rw [Node.granting, hcdi, hsame, hengine, hinventory]
    exact grantClaim_of_granted ⟨h.sound, h.mirrors⟩ hfit hgranted
  intro m
  obtain ⟨c, _, _, hagain, _⟩ := hfail.again hdirs
  have hprepare := hagain devices (congrArg Prod.fst hgranting)
  have hadopted : (m.granting claim).2 = ⟨m.engine, m.inventory, []⟩ := congrArg Prod.snd hgranting
  rw [hprepare]
  refine ⟨rfl, ?_, ?_⟩
  · exact congrArg Granting.engine hadopted
  · exact congrArg Granting.inventory hadopted

end Adopts

section Sample

theorem sampleUnwritable_fits : (sampleUnwritable .legacy).Fits (.prepare samplePair) := by
  rw [Node.Fits, ((sampleUnwritable_fails .legacy).leaves_granted rfl).1]
  decide +kernel

theorem NodeSetup.Reaches.adopts_leaked_pair :
    (sampleUnwritable .legacy).StorageFails samplePair (sampleUnwritable .legacy).host.files .none
        samplePairDevices ∧
      (sampleUnwritable .legacy).engine.allocatedIds = [] ∧
      ((sampleUnwritable .legacy).granting samplePair).2.engine.allocatedIds = ["npu-0-0", "npu-0-1"] ∧
      ((((sampleUnwritable .legacy).prepare samplePair).2.disturbed
        ((sampleUnwritable .legacy).prepare samplePair).2.host.files .none).prepare samplePair).1 =
          .ok samplePairDevices :=
  have hfails := sampleUnwritable_fails .legacy
  have hdirs := (sampleUnwritable .legacy).sameDirectories_prepare samplePair
  have hfree := sampleStart_starts.holds.2.1.allocatedIds_eq
  ⟨hfails, hfree, samplePair_granted.2.2,
    (NodeSetup.Reaches.adopts_leaked (sampleUnwritable_reached .legacy) rfl sampleUnwritable_fits hfails
      hdirs).1⟩

end Sample

end SliceAgent
