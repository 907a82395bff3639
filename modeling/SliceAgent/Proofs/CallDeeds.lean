import SliceAgent.Proofs.StorageFailures

/-!
Calls that report no failure of the checkpoint or of the specifications. Each of them comes to its outcome,
its engine calls, at most one entry of the checkpoint and what it does to the files
(`Node.Served.carries_out`).
-/
namespace SliceAgent

namespace Checkpoint

variable {c : Checkpoint} {uid other : String} {entry entry' : Option (List PreparedDevice)}

def amend (c : Checkpoint) (uid : String) : Option (List PreparedDevice) → Checkpoint
  | some devices => c.insert uid devices
  | none => c.erase uid

theorem find?_amend : (c.amend uid entry).find? other = if other = uid then entry else c.find? other := by
  cases entry with
  | some devices => exact Dict.find?_insert ..
  | none => exact Dict.find?_erase ..

theorem version_amend : (c.amend uid entry).version = c.version := by
  cases entry <;> rfl

theorem eq_of_claims {d : Checkpoint} (hversion : c.version = d.version) (hclaims : c.claims = d.claims) :
    c = d := by
  cases c
  cases d
  cases hversion
  cases hclaims
  rfl

theorem amend_comm (hne : uid ≠ other) :
    (c.amend uid entry).amend other entry' = (c.amend other entry').amend uid entry := by
  have hclaims : ((c.amend uid entry).amend other entry').claims =
      ((c.amend other entry').amend uid entry).claims := by
    refine Dict.ext_find? fun k => ?_
    show Checkpoint.find? _ k = Checkpoint.find? _ k
    rw [find?_amend, find?_amend, find?_amend, find?_amend]
    split
    · rename_i hk
      rw [if_neg (hk ▸ hne.symm)]
    · rfl
  have hversion : ((c.amend uid entry).amend other entry').version =
      ((c.amend other entry').amend uid entry).version := by
    simp only [version_amend]
  exact eq_of_claims hversion hclaims

end Checkpoint

theorem CheckpointStore.put_put (s : CheckpointStore) (name : String) (c d : Checkpoint) :
    (s.put name c).put name d = s.put name d := by
  refine congrArg CheckpointStore.mk (Dict.ext_find? fun k => ?_)
  simp only [put, putRecord, Dict.find?_insert]
  split <;> rfl

namespace Host

variable {h : Host} {es : List HostEffect} {store : CheckpointStore}

theorem faults_applyAll (es : List HostEffect) : (h.applyAll es).faults = h.faults := by
  induction es generalizing h with
  | nil => rfl
  | cons e es ih =>
    refine (ih (h := h.apply e)).trans ?_
    cases e <;> rfl

theorem applyAll_of_files (hes : ∀ e ∈ es, ¬ e.IsRecord) (store : CheckpointStore) :
    ({ h with store } : Host).applyAll es = { h.applyAll es with store } := by
  induction es generalizing h with
  | nil => rfl
  | cons e es ih =>
    obtain ⟨he, hes⟩ := List.forall_mem_cons.1 hes
    refine Eq.trans ?_ (ih (h := h.apply e) hes)
    cases e with
    | record c => exact absurd trivial he
    | _ => rfl

theorem files_applyAll (hes : ∀ e ∈ es, ¬ e.IsRecord) (store : CheckpointStore) :
    (({ h with store } : Host).applyAll es).files = (h.applyAll es).files := by
  rw [applyAll_of_files hes]

theorem applyAll_record_first (hes : ∀ e ∈ es, ¬ e.IsRecord) (c : Checkpoint) :
    h.applyAll (.record c :: es) =
      { h.applyAll es with store := h.store.put Checkpoint.storedName c } :=
  applyAll_of_files hes _

theorem applyAll_record_last (hes : ∀ e ∈ es, ¬ e.IsRecord) (c : Checkpoint) :
    h.applyAll (es ++ [.record c]) =
      { h.applyAll es with store := h.store.put Checkpoint.storedName c } := by
  rw [applyAll_append, ← h.applyAll_store hes]
  rfl

end Host

/-- What a call comes to where nothing fails that it needs of the host: its outcome, its engine calls, the
entry of its claim that it records, if it records one, and what it does to the files. -/
structure Deed where
  outcome : Except NodeError (List PreparedDevice)
  calls : List EngineCall
  entry : Option (Option (List PreparedDevice))
  effects : List HostEffect

namespace Deed

def idle (devices : List PreparedDevice) : Deed := ⟨.ok devices, [], none, []⟩

def recorded (d : Deed) (c : Checkpoint) (uid : String) : Checkpoint :=
  match d.entry with
  | none => c
  | some entry => c.amend uid entry

def stored (d : Deed) (store : CheckpointStore) (c : Checkpoint) (uid : String) : CheckpointStore :=
  match d.entry with
  | none => store
  | some entry => store.put Checkpoint.storedName (c.amend uid entry)

theorem stored_comm {d d' : Deed} {store : CheckpointStore} {c : Checkpoint} {uid other : String}
    (hne : uid ≠ other) : d'.stored (d.stored store c uid) (d.recorded c uid) other =
      d.stored (d'.stored store c other) (d'.recorded c other) uid := by
  unfold stored recorded
  cases d.entry with
  | none => rfl
  | some entry =>
    cases d'.entry with
    | none => rfl
    | some entry' =>
      simp only [CheckpointStore.put_put]
      rw [Checkpoint.amend_comm hne]

theorem get_stored {d : Deed} {store : CheckpointStore} {c : Checkpoint} {uid : String}
    (hget : store.get Checkpoint.storedName = .ok c) :
    (d.stored store c uid).get Checkpoint.storedName = .ok (d.recorded c uid) := by
  unfold stored recorded
  cases d.entry with
  | none => exact hget
  | some entry => exact CheckpointStore.get_put ..

theorem find?_recorded {d : Deed} {c : Checkpoint} {uid other : String} (hne : other ≠ uid) :
    (d.recorded c uid).find? other = c.find? other := by
  unfold recorded
  split
  · rfl
  · rw [Checkpoint.find?_amend, if_neg hne]

end Deed

namespace Node

variable {n m : Node} {call other : NodeCall} {claim : ResourceClaim} {c c' : Checkpoint}
  {uid : String} {d : Deed} {devices : List PreparedDevice}

def outcome (n : Node) : NodeCall → Except NodeError (List PreparedDevice)
  | .prepare claim => (n.prepare claim).1
  | .unprepare uid => (n.unprepare uid).1.map fun _ => []
  | .reconcile => .ok []

/-- Whether a call reports no failure of the checkpoint or of the specifications. -/
structure Served (n : Node) (call : NodeCall) : Prop where
  store : ∀ e, n.outcome call ≠ .error (.store e)
  cdi : ∀ e, n.outcome call ≠ .error (.cdi e)

def ServedThrough : Node → List NodeCall → Prop
  | _, [] => True
  | n, call :: calls => n.Served call ∧ ServedThrough (n.perform call) calls

def failureCalls (n : Node) (carved : List String) : List EngineCall :=
  match n.claims.persistence with
  | .legacy => []
  | .compensating => carved.reverse.map .release

def deed (n : Node) (c : Checkpoint) : NodeCall → Deed
  | .prepare claim =>
    match c.find? claim.uid with
    | some devices => .idle devices
    | none =>
      let calls := claimCalls n.cdi.driverName n.claims.sources claim ⟨n.engine, n.inventory, []⟩
      match n.granting claim with
      | (.error e, g) =>
        ⟨.error (.grant e), calls ++ n.failureCalls g.carved, none, n.failureEffects claim.uid⟩
      | (.ok devices, _) =>
        ⟨.ok devices, calls, some (some devices),
          n.cdi.writeEffects claim.uid (CdiRoot.claimEdits devices)⟩
  | .unprepare uid =>
    match c.find? uid with
    | some devices =>
      ⟨.ok [], (releaseOrder devices).map .release, some none, n.host.removalEffects n.cdi uid⟩
    | none => .idle []
  | .reconcile => .idle []

def carryOut (n : Node) (c : Checkpoint) (uid : String) (d : Deed) : Node :=
  { n.after d.calls with
    host := { n.host.applyAll d.effects with store := d.stored n.host.store c uid } }

theorem perform_eq (hcall : call ≠ .reconcile) : n.perform call =
    { n.after (n.engineCalls call) with host := n.host.applyAll (n.effects call) } := by
  obtain ⟨host, hp⟩ := n.perform_after hcall
  have hhost := n.perform_host call
  rw [hp] at hhost ⊢
  rw [← hhost]

theorem commit_fst_cases (n : Node) (c : Checkpoint) (uid : String) (devices : List PreparedDevice) :
    (n.commit c uid devices).1 = .ok () ∨ (∃ e, (n.commit c uid devices).1 = .error (.store e)) ∨
      ∃ e, (n.commit c uid devices).1 = .error (.cdi e) := by
  unfold commit
  split
  · exact .inr (.inr ⟨_, rfl⟩)
  · split
    · exact .inr (.inl ⟨_, rfl⟩)
    · exact .inl rfl

theorem prepareNew_of_granted (hg : (n.granting claim).1 = .ok devices) :
    (n.prepareNew claim c).1 = .ok devices ∨ (∃ e, (n.prepareNew claim c).1 = .error (.store e)) ∨
      ∃ e, (n.prepareNew claim c).1 = .error (.cdi e) := by
  have hgrant : grantClaim n.cdi.driverName (n.cdi.deviceIds claim.uid) n.claims.sources claim
      ⟨n.engine, n.inventory, []⟩ = (.ok devices, (n.granting claim).2) := Prod.ext hg rfl
  unfold prepareNew
  rw [hgrant]
  simp only
  have hcases := (n.adopt (n.granting claim).2).commit_fst_cases c claim.uid devices
  cases hc : (n.adopt (n.granting claim).2).commit c claim.uid devices with
  | mk result m =>
    rw [hc] at hcases
    rcases hcases with hok | ⟨e, he⟩ | ⟨e, he⟩
    · cases hok
      exact .inl rfl
    · cases he
      exact .inr (.inl ⟨e, rfl⟩)
    · cases he
      exact .inr (.inr ⟨e, rfl⟩)

theorem writeEffects_of_files (r : CdiRoot) (name : String) (edits : ContainerEdits) :
    ∀ e ∈ r.writeEffects name edits, ¬ e.IsRecord := by
  simp [CdiRoot.writeEffects, HostEffect.IsRecord]

theorem failureEffects_of_files (n : Node) (uid : String) :
    ∀ e ∈ n.failureEffects uid, ¬ e.IsRecord :=
  forall_failureEffects not_false

theorem commitEffects_of_ok (hspec : (n.host.writeClaimSpec n.cdi uid devices).1 = .ok ())
    (hwrite : n.host.faults.writeCheckpoint = none) : n.commitEffects c uid devices =
      n.cdi.writeEffects uid (CdiRoot.claimEdits devices) ++ [.record (c.insert uid devices)] := by
  have hfault := (Host.writeClaimSpec_ok_iff.1 hspec).1
  rw [commitEffects, hspec, Host.claimSpecEffects, Host.recordEffects, hfault, hwrite]
  rfl

theorem prepareEffects_of_ok (hg : (n.granting claim).1 = .ok devices)
    (hspec : (n.host.writeClaimSpec n.cdi claim.uid devices).1 = .ok ())
    (hwrite : n.host.faults.writeCheckpoint = none) : n.prepareEffects claim c =
      n.cdi.writeEffects claim.uid (CdiRoot.claimEdits devices) ++
        [.record (c.insert claim.uid devices)] := by
  have hcommit : ((n.adopt (n.granting claim).2).commit c claim.uid devices).1 = .ok () :=
    commit_ok_iff.2 ⟨hspec, hwrite⟩
  rw [prepareEffects, hg]
  simp only [hcommit, List.append_nil]
  exact commitEffects_of_ok hspec hwrite

theorem forgetEffects_of_writable (hwrite : n.host.faults.writeCheckpoint = none) :
    n.forgetEffects c uid = .record c :: n.host.removalEffects n.cdi uid := by
  rw [forgetEffects, Host.recordEffects, Host.writeCheckpoint, hwrite]
  rfl

section Served

theorem Served.reads (hserved : n.Served call) (huid : call.uid? = some uid) :
    ∃ c, n.host.readCheckpoint = .ok c := by
  cases hread : n.host.readCheckpoint with
  | ok c => exact ⟨c, rfl⟩
  | error e =>
    refine absurd ?_ (hserved.store e)
    cases call with
    | reconcile => cases huid
    | prepare claim => rw [outcome, prepare, hread]
    | unprepare uid => rw [outcome, unprepare, hread]; rfl

theorem served_of_ok (h : n.outcome call = .ok devices) : n.Served call := by
  refine ⟨fun e he => ?_, fun e he => ?_⟩ <;> cases h.symm.trans he

theorem Served.prepares (hserved : n.Served (.prepare claim)) (hread : n.host.readCheckpoint = .ok c)
    (hnone : c.find? claim.uid = none) (hg : (n.granting claim).1 = .ok devices) :
    (n.prepareNew claim c).1 = .ok devices := by
  have houtcome : n.outcome (.prepare claim) = (n.prepareNew claim c).1 := by
    rw [outcome, prepare_of_absent hread hnone]
  rcases prepareNew_of_granted (c := c) hg with hok | ⟨e, he⟩ | ⟨e, he⟩
  · exact hok
  · exact absurd (houtcome.trans he) (hserved.store e)
  · exact absurd (houtcome.trans he) (hserved.cdi e)

theorem Served.forgets (hserved : n.Served (.unprepare uid)) (hread : n.host.readCheckpoint = .ok c)
    (hfind : c.find? uid = some devices) :
    n.host.faults.writeCheckpoint = none ∧ n.outcome (.unprepare uid) = .ok [] := by
  rcases n.unprepare_cases uid with ⟨_, hr, _⟩ | ⟨_, hr, hf, _⟩ | ⟨c', ds, hr, hf, hp⟩
  · cases hr.symm.trans hread
  · cases hr.symm.trans hread
    cases hf.symm.trans hfind
  · cases hr.symm.trans hread
    cases hf.symm.trans hfind
    have houtcome : n.outcome (.unprepare uid) =
        ((n.after ((releaseOrder devices).map .release)).forget (c.erase uid) uid).1.map fun _ => [] := by
      rw [outcome, hp]
    cases hw : n.host.faults.writeCheckpoint with
    | some text =>
      have hforget := forget_of_fault (n := n.after ((releaseOrder devices).map .release)) hw
        (c.erase uid) uid
      rw [hforget] at houtcome
      exact absurd houtcome (hserved.store _)
    | none =>
      refine ⟨rfl, ?_⟩
      obtain ⟨files, hforget⟩ := forget_of_no_fault
        (n := n.after ((releaseOrder devices).map .release)) hw (c.erase uid) uid
      rw [hforget] at houtcome
      rw [houtcome]
      cases hrm : Host.removeClaimSpec ((n.after ((releaseOrder devices).map .release)).storing
          (c.erase uid)).host (n.after ((releaseOrder devices).map .release)).cdi uid with
      | mk result host =>
        rw [hrm] at houtcome
        cases result with
        | ok u => rfl
        | error e => exact absurd houtcome (hserved.cdi e)

theorem Served.carries_out (hserved : n.Served call) (hread : n.host.readCheckpoint = .ok c)
    (huid : call.uid? = some uid) :
    n.outcome call = (n.deed c call).outcome ∧ n.engineCalls call = (n.deed c call).calls ∧
      n.perform call = n.carryOut c uid (n.deed c call) := by
  have hcall : call ≠ .reconcile := by
    rintro rfl
    cases huid
  suffices h : n.outcome call = (n.deed c call).outcome ∧ n.engineCalls call = (n.deed c call).calls ∧
      n.host.applyAll (n.effects call) = { n.host.applyAll (n.deed c call).effects with
        store := (n.deed c call).stored n.host.store c uid } by
    obtain ⟨houtcome, hcalls, hhost⟩ := h
    refine ⟨houtcome, hcalls, ?_⟩
    rw [perform_eq hcall, hcalls, hhost, carryOut]
  cases call with
  | reconcile => exact absurd rfl hcall
  | prepare claim =>
    cases huid
    cases hf : c.find? claim.uid with
    | some devices =>
      simp only [outcome, prepare, engineCalls, effects, deed, hread, hf]
      exact ⟨rfl, rfl, rfl⟩
    | none =>
      rw [outcome, prepare_of_absent hread hf, engineCalls_prepare hread hf, prepareCalls]
      simp only [effects, deed, hread, hf]
      cases hg : n.granting claim with
      | mk result g =>
        cases result with
        | error e =>
          have herr := prepareNew_of_refused (c := c) (congrArg Prod.fst hg)
          have hroll := rollbackCalls_of_error herr
          rw [hg] at hroll
          refine ⟨herr, congrArg _ hroll, ?_⟩
          simp only [prepareEffects, hg]
          exact Host.applyAll_of_files (n.failureEffects_of_files claim.uid) n.host.store
        | ok devices =>
          have hok := hserved.prepares hread hf (congrArg Prod.fst hg)
          obtain ⟨_, hspec, hwrite⟩ := prepareNew_ok_iff.1 hok
          refine ⟨hok, ?_, ?_⟩
          · rw [rollbackCalls_of_ok hok, List.append_nil]
          · rw [prepareEffects_of_ok (congrArg Prod.fst hg) hspec hwrite]
            exact Host.applyAll_record_last (writeEffects_of_files _ _ _) _
  | unprepare name =>
    cases huid
    cases hf : c.find? uid with
    | none =>
      simp only [outcome, unprepare, engineCalls, effects, deed, hread, hf]
      exact ⟨rfl, rfl, rfl⟩
    | some devices =>
      obtain ⟨hwrite, houtcome⟩ := hserved.forgets hread hf
      rw [houtcome, engineCalls_unprepare hread hf]
      simp only [effects, deed, hread, hf, true_and]
      rw [forgetEffects_of_writable hwrite]
      exact Host.applyAll_record_first (forall_removalEffects not_false) _

end Served

end Node

end SliceAgent
