import SliceAgent.Proofs.DurableClaims
import SliceAgent.Proofs.RolledBack

/-!
Claims that fail to be prepared for the storage only. What a repeated call needs of the storage is then
given, so that its outcome is that of granting the devices once more (`Node.StorageFails.again`).
-/
namespace SliceAgent

namespace Host

variable {h : Host} {r : CdiRoot} {uid : String} {devices : List PreparedDevice}

theorem writeClaimSpec_ok_iff : (h.writeClaimSpec r uid devices).1 = .ok () ↔
    h.faults.writeClaimSpec = none ∧
      (h.files.replace (r.specPath uid) (r.spec uid (CdiRoot.claimEdits devices)).content).1 = .ok () := by
  unfold writeClaimSpec
  cases h.faults.writeClaimSpec with
  | some text => simp [changeFiles]
  | none =>
    simp only [changeFiles, CdiRoot.writeClaim, CdiRoot.write, true_and]
    cases hr : h.files.replace (r.specPath uid) (r.spec uid (CdiRoot.claimEdits devices)).content with
    | mk result files => cases result <;> simp

theorem writeClaimSpec_ok_of_sameDirectories {files : FileTree}
    (hok : (h.writeClaimSpec r uid devices).1 = .ok ()) (hsame : h.files.SameDirectories files)
    (store : CheckpointStore) (others : List PreparedDevice) :
    (Host.writeClaimSpec ⟨store, files, h.faults⟩ r uid others).1 = .ok () := by
  obtain ⟨hfault, hreplace⟩ := writeClaimSpec_ok_iff.1 hok
  exact writeClaimSpec_ok_iff.2 ⟨hfault, hsame.replace_ok hreplace⟩

end Host

namespace Node

variable {n : Node} {claim : ResourceClaim} {c : Checkpoint} {devices : List PreparedDevice}
  {files files' : FileTree} {faults : Faults}

theorem sameDirectories_perform (n : Node) (call : NodeCall) :
    n.host.files.SameDirectories (n.perform call).host.files := by
  rw [perform_host]
  exact n.host.applyAll_sameDirectories (n.effects call)

theorem sameDirectories_prepare (n : Node) (claim : ResourceClaim) :
    n.host.files.SameDirectories (n.prepare claim).2.host.files :=
  n.sameDirectories_perform (.prepare claim)

theorem commit_ok_iff {uid : String} : (n.commit c uid devices).1 = .ok () ↔
    (n.host.writeClaimSpec n.cdi uid devices).1 = .ok () ∧ n.host.faults.writeCheckpoint = none := by
  obtain ⟨files, hfiles⟩ := n.host.writeClaimSpec_host n.cdi uid devices
  unfold commit
  cases hw : n.host.writeClaimSpec n.cdi uid devices with
  | mk result host =>
    rw [hw] at hfiles
    obtain rfl : host = { n.host with files } := hfiles
    cases result with
    | error e => simp
    | ok u =>
      simp only [Host.writeCheckpoint]
      cases n.host.faults.writeCheckpoint <;> simp

theorem prepareNew_ok_iff : (n.prepareNew claim c).1 = .ok devices ↔
    (n.granting claim).1 = .ok devices ∧
      (n.host.writeClaimSpec n.cdi claim.uid devices).1 = .ok () ∧
      n.host.faults.writeCheckpoint = none := by
  unfold prepareNew
  rw [show grantClaim n.cdi.driverName (n.cdi.deviceIds claim.uid) n.claims.sources claim
    ⟨n.engine, n.inventory, []⟩ = n.granting claim from rfl]
  cases n.granting claim with
  | mk result g =>
    cases result with
    | error e => simp
    | ok ds =>
      have hcommit : ((n.adopt g).commit c claim.uid ds).1 = .ok () ↔
          (n.host.writeClaimSpec n.cdi claim.uid ds).1 = .ok () ∧
            n.host.faults.writeCheckpoint = none := commit_ok_iff
      simp only
      cases hc : (n.adopt g).commit c claim.uid ds with
      | mk result m =>
        rw [hc] at hcommit
        cases result with
        | error e =>
          refine ⟨fun h => absurd h (by simp), ?_⟩
          rintro ⟨hds, hstorage⟩
          cases hds
          cases hcommit.2 hstorage
        | ok u =>
          simp only [Except.ok.injEq]
          constructor
          · rintro rfl
            exact ⟨rfl, hcommit.1 rfl⟩
          · exact fun h => h.1

theorem writeClaimSpec_ok_of_prepare (hread : n.host.readCheckpoint = .ok c)
    (hnone : c.find? claim.uid = none) (hok : (n.prepare claim).1 = .ok devices)
    (others : List PreparedDevice) : (n.host.writeClaimSpec n.cdi claim.uid others).1 = .ok () := by
  rw [prepare_of_absent hread hnone] at hok
  obtain ⟨_, hspec, _⟩ := prepareNew_ok_iff.1 hok
  exact Host.writeClaimSpec_ok_of_sameDirectories hspec (fun _ => Iff.rfl) n.host.store others

theorem prepareNew_of_refused {e : GrantError} (hg : (n.granting claim).1 = .error e) :
    (n.prepareNew claim c).1 = .error (.grant e) := by
  unfold prepareNew
  rw [show grantClaim n.cdi.driverName (n.cdi.deviceIds claim.uid) n.claims.sources claim
    ⟨n.engine, n.inventory, []⟩ = (.error e, (n.granting claim).2) from Prod.ext hg rfl]

def disturbed (n : Node) (files : FileTree) (faults : Faults) : Node :=
  { n with host := { n.host with files, faults } }

/-- Whether a claim cannot be prepared, though the record can be read and other files and faults would
let it be prepared with certain devices. -/
structure StorageFails (n : Node) (claim : ResourceClaim) (files : FileTree) (faults : Faults)
    (devices : List PreparedDevice) : Prop where
  read : ∃ c, n.host.readCheckpoint = .ok c
  fails : ∃ e, (n.prepare claim).1 = .error e
  would : ((n.disturbed files faults).prepare claim).1 = .ok devices

namespace StorageFails

variable (h : n.StorageFails claim files faults devices)

include h

theorem absent : ∃ c, n.host.readCheckpoint = .ok c ∧ c.find? claim.uid = none := by
  obtain ⟨e, herr⟩ := h.fails
  rcases n.prepare_cases claim with ⟨e', hr, _⟩ | ⟨_, _, _, _, hp⟩ | ⟨c, hr, hf, _⟩
  · obtain ⟨c, hread⟩ := h.read
    cases hr.symm.trans hread
  · rw [hp] at herr
    cases herr
  · exact ⟨c, hr, hf⟩

theorem served : (n.granting claim).1 = .ok devices ∧
    ((n.disturbed files faults).host.writeClaimSpec n.cdi claim.uid devices).1 = .ok () ∧
    faults.writeCheckpoint = none ∧ faults.readCheckpoint = none ∧ faults.corruptCheckpoint = false := by
  obtain ⟨c, hread, hnone⟩ := h.absent
  have hstored : n.host.stored? = some c := Host.stored?_of_read hread
  have hwould := h.would
  rcases (n.disturbed files faults).prepare_cases claim with
    ⟨_, _, hp⟩ | ⟨c', ds, hr, hf, _⟩ | ⟨c', hr, _, hp⟩
  · rw [hp] at hwould
    cases hwould
  · cases (Host.stored?_of_read hr).symm.trans hstored
    cases hf.symm.trans hnone
  · rw [hp] at hwould
    obtain ⟨hgrant, hspec, hwrite⟩ := prepareNew_ok_iff.1 hwould
    obtain ⟨hreadable, hwhole⟩ := faults_of_read hr
    exact ⟨hgrant, hspec, hwrite, hreadable, hwhole⟩

theorem again (hdirs : files.SameDirectories files') :
    ∃ c, ((n.prepare claim).2.disturbed files' faults).host.readCheckpoint = .ok c ∧
      c.find? claim.uid = none ∧
      (∀ ds, ((n.prepare claim).2.granting claim).1 = .ok ds →
        ((n.prepare claim).2.disturbed files' faults).prepare claim =
          (.ok ds, ((n.prepare claim).2.disturbed files' faults).prepared claim c ds)) ∧
      ∀ e, ((n.prepare claim).2.granting claim).1 = .error e →
        (((n.prepare claim).2.disturbed files' faults).prepare claim).1 = .error (.grant e) := by
  obtain ⟨c, hread, hnone⟩ := h.absent
  obtain ⟨e, herr⟩ := h.fails
  obtain ⟨_, hspec, hwrite, hreadable, hwhole⟩ := h.served
  have hstore : (n.prepare claim).2.host.store = n.host.store := store_of_error herr
  have hcdi : (n.prepare claim).2.cdi = n.cdi := n.cdi_perform (.prepare claim)
  have hread' : ((n.prepare claim).2.disturbed files' faults).host.readCheckpoint = .ok c := by
    refine readCheckpoint_of_stored hreadable hwhole ?_
    rw [Host.stored?, disturbed, hstore]
    exact Host.stored?_of_read hread
  refine ⟨c, hread', hnone, fun ds hds => ?_, fun e he => ?_⟩
  · refine prepare_ok hread' hnone hds ?_ hwrite
    rw [disturbed, hcdi]
    exact Host.writeClaimSpec_ok_of_sameDirectories hspec hdirs _ ds
  · rw [prepare_of_absent hread' hnone]
    exact prepareNew_of_refused he

end StorageFails

theorem storageFails_of_unwritable (text : String) (hread : n.host.readCheckpoint = .ok c)
    (hnone : c.find? claim.uid = none) (hok : (n.prepare claim).1 = .ok devices) :
    let m := n.disturbed n.host.files { n.host.faults with writeCheckpoint := some text }
    m.StorageFails claim m.host.files n.host.faults devices := by
  intro m
  obtain ⟨hreadable, hwhole⟩ := faults_of_read hread
  have hread' : m.host.readCheckpoint = .ok c :=
    readCheckpoint_of_stored hreadable hwhole (Host.stored?_of_read hread)
  refine ⟨⟨c, hread'⟩, ?_, hok⟩
  rw [prepare_of_absent hread' hnone]
  exact prepareNew_of_write_fault rfl claim c

end Node

theorem NodeSetup.Starts.in_settings {s : NodeSetup} {host : Host} {n : Node} (h : s.Starts host n)
    (claims : ClaimSettings) : ({ s with claims } : NodeSetup).Starts host { n with claims } := by
  obtain ⟨inventory, engine, host', hdiscover, hstart⟩ := h
  refine ⟨inventory, engine, host', hdiscover, ?_⟩
  unfold Node.start at hstart ⊢
  split at hstart
  · cases hstart
  · rename_i hspec
    split at hstart
    · cases hstart
    · rename_i hkept
      cases hstart
      simp only [hspec, hkept]
    · rename_i hnone
      split at hstart
      · cases hstart
      · rename_i hwrite
        cases hstart
        simp only [hspec, hnone, hwrite]

section Sample

def sampleIn (mode : Persistence) : NodeSetup := { sampleSetup with claims := ⟨.classOnly, mode⟩ }

def samplePair : ResourceClaim :=
  ⟨"c-1", "default", "c-1", some ⟨["npu-0-0", "npu-0-1"].map (⟨"npu", "npu.example.com", "node-a", ·⟩),
    [⟨"FromClass", [], some ⟨"npu.example.com", (NpuConfig.ofTemplate "vir01").toRaw⟩⟩]⟩⟩

def samplePairDevices : List PreparedDevice :=
  ((sampleStart.granting samplePair).1.toOption).getD []

def sampleUnwritable (mode : Persistence) : Node :=
  { sampleStart with
    claims := ⟨.classOnly, mode⟩
    host := { sampleStart.host with faults := { Faults.none with writeCheckpoint := some "disk full" } } }

theorem sampleUnwritable_reached (mode : Persistence) :
    (sampleIn mode).Reaches sampleHost (sampleUnwritable mode) :=
  .start (sampleStart_starts.in_settings ⟨.classOnly, mode⟩) (.disturb _ _ .start)

theorem samplePair_granted : (sampleStart.granting samplePair).1 = .ok samplePairDevices ∧
    (sampleStart.granting samplePair).2.carved = ["npu-0-0", "npu-0-1"] ∧
    (sampleStart.granting samplePair).2.engine.allocatedIds = ["npu-0-0", "npu-0-1"] :=
  ⟨ok_of_isOk (by decide +kernel) [], by decide +kernel, by decide +kernel⟩

theorem sampleUnwritable_fails (mode : Persistence) : (sampleUnwritable mode).StorageFails samplePair
    (sampleUnwritable mode).host.files .none samplePairDevices := by
  have hread : ({ sampleStart with claims := ⟨.classOnly, mode⟩ } : Node).host.readCheckpoint = .ok .new :=
    sampleStart_read
  have hspec := Node.writeClaimSpec_ok_of_prepare sampleStart_read rfl
    (congrArg Prod.fst sampleStart_prepare) samplePairDevices
  exact Node.storageFails_of_unwritable _ hread rfl
    (congrArg Prod.fst (Node.prepare_ok hread rfl samplePair_granted.1 hspec rfl))

end Sample

end SliceAgent
