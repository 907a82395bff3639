import SliceAgent.Node.Basic
import SliceAgent.Proofs.CheckpointText
import SliceAgent.Proofs.GrantCalls

/-!
What the calls of a node come down to: calls of its engine, which the inventory follows, and at most one
write of the checkpoint.
-/
namespace SliceAgent

namespace Host

variable {h : Host} {c : Checkpoint} {refusal : Option String}
  {change : FileTree → Except CdiError Unit × FileTree}

theorem changeFiles_snd (h : Host) (refusal : Option String)
    (change : FileTree → Except CdiError Unit × FileTree) : (h.changeFiles refusal change).2 =
      { h with files := (h.changeFiles refusal change).2.files } := by
  cases refusal <;> rfl

theorem changeFiles_of_ok (hok : (h.changeFiles refusal change).1 = .ok ()) :
    (change h.files).1 = .ok () ∧
      (h.changeFiles refusal change).2.files = (change h.files).2 := by
  cases refusal with
  | some text => cases hok
  | none => exact ⟨hok, rfl⟩

theorem writeClaimSpec_host (h : Host) (r : CdiRoot) (uid : String) (devices : List PreparedDevice) :
    ∃ files, (h.writeClaimSpec r uid devices).2 = { h with files } :=
  ⟨_, h.changeFiles_snd ..⟩

theorem removeClaimSpec_host (h : Host) (r : CdiRoot) (uid : String) :
    ∃ files, (h.removeClaimSpec r uid).2 = { h with files } :=
  ⟨_, h.changeFiles_snd ..⟩

theorem writeCheckpoint_cases (h : Host) (c : Checkpoint) :
    (∃ text, h.faults.writeCheckpoint = some text ∧
      h.writeCheckpoint c = (.error (.writeFailed text), h)) ∨
    (h.faults.writeCheckpoint = none ∧
      h.writeCheckpoint c = (.ok (), { h with store := h.store.put Checkpoint.storedName c })) := by
  unfold writeCheckpoint
  cases hw : h.faults.writeCheckpoint with
  | some text => exact .inl ⟨text, rfl, rfl⟩
  | none => exact .inr ⟨rfl, rfl⟩

theorem readCheckpoint_of_readable (hread : h.faults.readCheckpoint = none)
    (hcorrupt : h.faults.corruptCheckpoint = false) :
    h.readCheckpoint = h.store.get Checkpoint.storedName := by
  rw [readCheckpoint, hread, hcorrupt]
  rfl

theorem readCheckpoint_of_no_faults (hf : h.faults = .none) :
    h.readCheckpoint = h.store.get Checkpoint.storedName :=
  readCheckpoint_of_readable (congrArg Faults.readCheckpoint hf) (congrArg Faults.corruptCheckpoint hf)

/-- The checkpoint that is kept, whether or not it can be read at present. -/
def stored? (h : Host) : Option Checkpoint := (h.store.get Checkpoint.storedName).toOption

theorem readCheckpoint_ok_iff : h.readCheckpoint = .ok c ↔ h.faults.readCheckpoint = none ∧
    h.faults.corruptCheckpoint = false ∧ h.stored? = some c := by
  cases hread : h.faults.readCheckpoint with
  | some text => simp [readCheckpoint, hread]
  | none =>
    cases hcorrupt : h.faults.corruptCheckpoint with
    | true => simp [readCheckpoint, hread, hcorrupt]
    | false =>
      rw [readCheckpoint_of_readable hread hcorrupt, stored?]
      cases h.store.get Checkpoint.storedName <;> simp [Except.toOption]

theorem stored?_of_read (hr : h.readCheckpoint = .ok c) : h.stored? = some c :=
  (readCheckpoint_ok_iff.1 hr).2.2

end Host

inductive NodeCall where
  | prepare (claim : ResourceClaim)
  | unprepare (uid : String)
  | reconcile

def NodeCall.uid? : NodeCall → Option String
  | .prepare claim => some claim.uid
  | .unprepare uid => some uid
  | .reconcile => none

namespace Node

variable {n : Node} {claim : ResourceClaim} {checkpoint : Checkpoint}

def perform (n : Node) : NodeCall → Node
  | .prepare claim => (n.prepare claim).2
  | .unprepare uid => (n.unprepare uid).2
  | .reconcile => n.reconcile.2

def granting (n : Node) (claim : ResourceClaim) :
    Except GrantError (List PreparedDevice) × Granting :=
  grantClaim n.cdi.driverName (n.cdi.deviceIds claim.uid) n.claims.sources claim
    ⟨n.engine, n.inventory, []⟩

def rollbackCalls (n : Node) (claim : ResourceClaim) (checkpoint : Checkpoint) : List EngineCall :=
  match (n.prepareNew claim checkpoint).1, n.claims.persistence with
  | .error _, .compensating => (n.granting claim).2.carved.reverse.map .release
  | _, _ => []

def prepareCalls (n : Node) (claim : ResourceClaim) (checkpoint : Checkpoint) : List EngineCall :=
  claimCalls n.cdi.driverName n.claims.sources claim ⟨n.engine, n.inventory, []⟩ ++
    n.rollbackCalls claim checkpoint

def releaseOrder (devices : List PreparedDevice) : List String :=
  devices.reverse.map (·.device.deviceName)

def engineCalls (n : Node) (call : NodeCall) : List EngineCall :=
  match call, n.host.readCheckpoint with
  | .prepare claim, .ok checkpoint =>
    match checkpoint.find? claim.uid with
    | some _ => []
    | none => n.prepareCalls claim checkpoint
  | .unprepare uid, .ok checkpoint =>
    match checkpoint.find? uid with
    | some devices => (releaseOrder devices).map .release
    | none => []
  | _, _ => []

/-- The node after calls of its engine, which the inventory follows. -/
def after (n : Node) (calls : List EngineCall) : Node :=
  { n with engine := n.engine.performAll calls, inventory := n.inventory.follow n.engine calls }

def withFiles (n : Node) (files : FileTree) : Node := { n with host := { n.host with files } }

def storing (n : Node) (c : Checkpoint) : Node :=
  { n with host := { n.host with store := n.host.store.put Checkpoint.storedName c } }

theorem after_append (calls more : List EngineCall) :
    n.after (calls ++ more) = (n.after calls).after more := by
  simp only [after, Engine.performAll_append, Inventory.follow_append]

theorem release_eq (id : String) : n.release id = n.after [.release id] := by
  unfold release
  simp only [after, Engine.performAll_cons, Engine.performAll_nil, Engine.perform, Inventory.follow,
    Engine.changeOf]
  cases n.engine.release id <;> rfl

theorem releaseAll_eq (ids : List String) : n.releaseAll ids = n.after (ids.map .release) := by
  induction ids generalizing n with
  | nil => rfl
  | cons id ids ih =>
    rw [releaseAll, List.foldl_cons, ← releaseAll, ih, release_eq, ← after_append]
    rfl

theorem adopt_granting : n.adopt (n.granting claim).2 =
    n.after (claimCalls n.cdi.driverName n.claims.sources claim ⟨n.engine, n.inventory, []⟩) := by
  have h := grantClaim_leads n.cdi.driverName (n.cdi.deviceIds claim.uid) n.claims.sources claim
    ⟨n.engine, n.inventory, []⟩
  rw [adopt, after, granting, h.engine, h.inventory]

@[simp] theorem stored?_withFiles (files : FileTree) :
    (n.withFiles files).host.stored? = n.host.stored? := rfl

@[simp] theorem stored?_storing (c : Checkpoint) : (n.storing c).host.stored? = some c := by
  rw [Host.stored?, storing, CheckpointStore.get_put]
  rfl

section Prepare

variable {uid : String} {devices : List PreparedDevice}

theorem commit_cases (n : Node) (checkpoint : Checkpoint) (uid : String)
    (devices : List PreparedDevice) : (∃ e files, n.commit checkpoint uid devices = (.error e, n.withFiles files)) ∨
    ∃ files, n.commit checkpoint uid devices =
      (.ok (), (n.withFiles files).storing (checkpoint.insert uid devices)) := by
  obtain ⟨files, hfiles⟩ := n.host.writeClaimSpec_host n.cdi uid devices
  unfold commit
  cases hw : n.host.writeClaimSpec n.cdi uid devices with
  | mk result host =>
    rw [hw] at hfiles
    obtain rfl : host = { n.host with files } := hfiles
    cases result with
    | error e => exact .inl ⟨.cdi e, files, rfl⟩
    | ok u =>
      simp only
      rcases Host.writeCheckpoint_cases { n.host with files }
        (checkpoint.insert uid devices) with ⟨_, _, hc⟩ | ⟨_, hc⟩
      · rw [hc]
        exact .inl ⟨_, files, rfl⟩
      · rw [hc]
        exact .inr ⟨files, rfl⟩

theorem afterFailure_eq (uid : String) (carved : List String) :
    ∃ files, n.afterFailure uid carved = (n.after
      (match n.claims.persistence with
        | .legacy => []
        | .compensating => carved.reverse.map .release)).withFiles files := by
  unfold afterFailure
  cases n.claims.persistence with
  | legacy => exact ⟨n.host.files, rfl⟩
  | compensating =>
    simp only [rollBack, releaseAll_eq]
    obtain ⟨files, hfiles⟩ := (n.after (carved.reverse.map .release)).host.removeClaimSpec_host
      (n.after (carved.reverse.map .release)).cdi uid
    refine ⟨files, ?_⟩
    rw [hfiles]
    rfl

theorem rollbackCalls_of_error {e : NodeError} (h : (n.prepareNew claim checkpoint).1 = .error e) :
    n.rollbackCalls claim checkpoint =
      match n.claims.persistence with
      | .legacy => []
      | .compensating => (n.granting claim).2.carved.reverse.map .release := by
  rw [rollbackCalls, h]
  cases n.claims.persistence <;> rfl

theorem rollbackCalls_of_ok (h : (n.prepareNew claim checkpoint).1 = .ok devices) :
    n.rollbackCalls claim checkpoint = [] := by
  rw [rollbackCalls, h]

theorem prepareNew_cases (n : Node) (claim : ResourceClaim) (checkpoint : Checkpoint) :
    (∃ e files, n.prepareNew claim checkpoint =
      (.error e, (n.after (n.prepareCalls claim checkpoint)).withFiles files)) ∨
    ∃ devices files, (n.granting claim).1 = .ok devices ∧ n.prepareNew claim checkpoint =
      (.ok devices, ((n.after (n.prepareCalls claim checkpoint)).withFiles files).storing
        (checkpoint.insert claim.uid devices)) := by
  cases hg : n.granting claim with
  | mk result g =>
    have hadopt : n.adopt g = n.after (claimCalls n.cdi.driverName n.claims.sources claim
        ⟨n.engine, n.inventory, []⟩) := by
      rw [← adopt_granting, hg]
    -- whether the granting fails or the writing, what follows is the same
    have hfail : ∀ {e : NodeError} {m : Node}, n.prepareNew claim checkpoint =
          (.error e, m.afterFailure claim.uid g.carved) →
        ∀ files, m = (n.adopt g).withFiles files → ∃ e files, n.prepareNew claim checkpoint =
          (.error e, (n.after (n.prepareCalls claim checkpoint)).withFiles files) := by
      intro e m hp files hm
      obtain ⟨files', hf⟩ := afterFailure_eq (n := m) claim.uid g.carved
      have hroll := rollbackCalls_of_error (congrArg Prod.fst hp)
      rw [hg] at hroll
      refine ⟨e, files', ?_⟩
      rw [hp, hf, hm, hadopt, prepareCalls, after_append, hroll]
      rfl
    cases result with
    | error e =>
      refine .inl (hfail (e := .grant e) (m := n.adopt g) ?_ n.host.files rfl)
      unfold prepareNew
      rw [show grantClaim _ _ _ _ _ = (.error e, g) from hg]
    | ok devices =>
      have hgrant : grantClaim n.cdi.driverName (n.cdi.deviceIds claim.uid) n.claims.sources claim
          ⟨n.engine, n.inventory, []⟩ = (.ok devices, g) := hg
      rcases (n.adopt g).commit_cases checkpoint claim.uid devices with
        ⟨e, files, hc⟩ | ⟨files, hc⟩
      · have hp : n.prepareNew claim checkpoint =
            (.error e, ((n.adopt g).withFiles files).afterFailure claim.uid g.carved) := by
          simp only [prepareNew, hgrant, hc]
        exact .inl (hfail hp files rfl)
      · have hp : n.prepareNew claim checkpoint = (.ok devices,
            ((n.adopt g).withFiles files).storing (checkpoint.insert claim.uid devices)) := by
          simp only [prepareNew, hgrant, hc]
        refine .inr ⟨devices, files, rfl, ?_⟩
        rw [hp, prepareCalls, rollbackCalls_of_ok (congrArg Prod.fst hp), List.append_nil, hadopt]

theorem prepare_cases (n : Node) (claim : ResourceClaim) :
    (∃ e, n.host.readCheckpoint = .error e ∧ n.prepare claim = (.error (.store e), n)) ∨
    (∃ c devices, n.host.readCheckpoint = .ok c ∧ c.find? claim.uid = some devices ∧
      n.prepare claim = (.ok devices, n)) ∨
    ∃ c, n.host.readCheckpoint = .ok c ∧ c.find? claim.uid = none ∧
      n.prepare claim = n.prepareNew claim c := by
  unfold prepare
  cases n.host.readCheckpoint with
  | error e => exact .inl ⟨e, rfl, rfl⟩
  | ok c =>
    simp only
    cases hf : c.find? claim.uid with
    | some devices => exact .inr (.inl ⟨c, devices, rfl, hf, rfl⟩)
    | none => exact .inr (.inr ⟨c, rfl, hf, rfl⟩)

/-- What is left to do for a claim whose slices are released: its record goes, and its specification. -/
def forget (n : Node) (c : Checkpoint) (uid : String) : Except NodeError Unit × Node :=
  match n.host.writeCheckpoint c with
  | (.error e, host) => (.error (.store e), { n with host })
  | (.ok (), host) =>
    match host.removeClaimSpec n.cdi uid with
    | (.error e, host) => (.error (.cdi e), { n with host })
    | (.ok (), host) => (.ok (), { n with host })

theorem forget_of_fault {text : String} (hw : n.host.faults.writeCheckpoint = some text)
    (c : Checkpoint) (uid : String) : n.forget c uid = (.error (.store (.writeFailed text)), n) := by
  simp only [forget, Host.writeCheckpoint, hw]

theorem forget_of_no_fault (hw : n.host.faults.writeCheckpoint = none) (c : Checkpoint)
    (uid : String) : ∃ files, n.forget c uid =
      (((n.storing c).host.removeClaimSpec n.cdi uid).1.mapError .cdi,
        (n.storing c).withFiles files) := by
  obtain ⟨files, hfiles⟩ := (n.storing c).host.removeClaimSpec_host n.cdi uid
  refine ⟨files, ?_⟩
  simp only [forget, Host.writeCheckpoint, hw]
  show (match (n.storing c).host.removeClaimSpec n.cdi uid with
    | (.error e, host) => (Except.error (NodeError.cdi e), { n with host })
    | (.ok (), host) => (.ok (), { n with host })) = _
  cases hrm : (n.storing c).host.removeClaimSpec n.cdi uid with
  | mk result host =>
    rw [hrm] at hfiles
    obtain rfl : host = { (n.storing c).host with files } := hfiles
    cases result <;> rfl

theorem unprepare_of_unread {e : StoreError} (hread : n.host.readCheckpoint = .error e) :
    n.unprepare uid = (.error (.store e), n) := by
  rw [unprepare, hread]

theorem unprepare_of_absent (hread : n.host.readCheckpoint = .ok c) (hfind : c.find? uid = none) :
    n.unprepare uid = (.ok (), n) := by
  rw [unprepare, hread]
  simp only [hfind]

theorem unprepare_of_recorded (hread : n.host.readCheckpoint = .ok c)
    (hfind : c.find? uid = some devices) : n.unprepare uid =
      (n.after ((releaseOrder devices).map .release)).forget (c.erase uid) uid := by
  rw [unprepare, hread, ← releaseAll_eq]
  simp only [hfind]
  rfl

theorem unprepare_cases (n : Node) (uid : String) :
    (∃ e, n.host.readCheckpoint = .error e ∧ n.unprepare uid = (.error (.store e), n)) ∨
    (∃ c, n.host.readCheckpoint = .ok c ∧ c.find? uid = none ∧ n.unprepare uid = (.ok (), n)) ∨
    ∃ c devices, n.host.readCheckpoint = .ok c ∧ c.find? uid = some devices ∧
      n.unprepare uid = (n.after ((releaseOrder devices).map .release)).forget (c.erase uid) uid := by
  cases hread : n.host.readCheckpoint with
  | error e => exact .inl ⟨e, rfl, unprepare_of_unread hread⟩
  | ok c =>
    cases hfind : c.find? uid with
    | none => exact .inr (.inl ⟨c, rfl, hfind, unprepare_of_absent hread hfind⟩)
    | some devices =>
      exact .inr (.inr ⟨c, devices, rfl, hfind, unprepare_of_recorded hread hfind⟩)

end Prepare

/-- No counter of a card passes the largest word in the course of a call. -/
def Fits (n : Node) (call : NodeCall) : Prop := n.engine.FitsThrough (n.engineCalls call)

theorem engineCalls_prepare {c : Checkpoint} (hr : n.host.readCheckpoint = .ok c)
    (hf : c.find? claim.uid = none) : n.engineCalls (.prepare claim) = n.prepareCalls claim c := by
  simp only [engineCalls, hr, hf]

theorem engineCalls_unprepare {c : Checkpoint} {uid : String} {devices : List PreparedDevice}
    (hr : n.host.readCheckpoint = .ok c) (hf : c.find? uid = some devices) :
    n.engineCalls (.unprepare uid) = (releaseOrder devices).map .release := by
  simp only [engineCalls, hr, hf]

theorem perform_after (n : Node) {call : NodeCall} (hcall : call ≠ .reconcile) :
    ∃ host, n.perform call = { n.after (n.engineCalls call) with host } := by
  cases call with
  | reconcile => exact absurd rfl hcall
  | prepare claim =>
    rw [perform]
    rcases n.prepare_cases claim with ⟨e, hr, hp⟩ | ⟨c, devices, hr, hf, hp⟩ | ⟨c, hr, hf, hp⟩
    · rw [hp]
      refine ⟨n.host, ?_⟩
      simp only [engineCalls, hr]
      rfl
    · rw [hp]
      refine ⟨n.host, ?_⟩
      simp only [engineCalls, hr, hf]
      rfl
    · rw [hp, engineCalls_prepare hr hf]
      rcases n.prepareNew_cases claim c with
        ⟨e, files, hnew⟩ | ⟨devices, files, _, hnew⟩
      · exact ⟨_, by rw [hnew]; rfl⟩
      · exact ⟨_, by rw [hnew]; rfl⟩
  | unprepare uid =>
    rw [perform]
    rcases n.unprepare_cases uid with ⟨e, hr, hp⟩ | ⟨c, hr, hf, hp⟩ | ⟨c, devices, hr, hf, hp⟩
    · rw [hp]
      refine ⟨n.host, ?_⟩
      simp only [engineCalls, hr]
      rfl
    · rw [hp]
      refine ⟨n.host, ?_⟩
      simp only [engineCalls, hr, hf]
      rfl
    · rw [hp, engineCalls_unprepare hr hf]
      cases hw : (n.after ((releaseOrder devices).map .release)).host.faults.writeCheckpoint with
      | some text => exact ⟨n.host, by rw [forget_of_fault hw]; rfl⟩
      | none =>
        obtain ⟨files, hforget⟩ := forget_of_no_fault hw (c.erase uid) uid
        exact ⟨_, congrArg Prod.snd hforget⟩

theorem engine_prepare (n : Node) (claim : ResourceClaim) :
    (n.prepare claim).2.engine = n.engine.performAll (n.engineCalls (.prepare claim)) := by
  have hcall : NodeCall.prepare claim ≠ .reconcile := NodeCall.noConfusion
  obtain ⟨_, hafter⟩ := n.perform_after hcall
  exact congrArg Node.engine hafter

section Use

theorem prepareCalls_isUse : ∀ call ∈ n.prepareCalls claim checkpoint, call.isUse = true := by
  refine List.forall_mem_append.2 ⟨?_, ?_⟩
  · exact claimCalls_isUse _
  · unfold rollbackCalls
    split
    · exact EngineCall.releases_isUse _
    · exact fun _ h => absurd h List.not_mem_nil

theorem engineCalls_isUse (n : Node) (call : NodeCall) :
    ∀ c ∈ n.engineCalls call, c.isUse = true := by
  unfold engineCalls
  split
  · split
    · exact fun _ h => absurd h List.not_mem_nil
    · exact prepareCalls_isUse
  · split
    · exact EngineCall.releases_isUse _
    · exact fun _ h => absurd h List.not_mem_nil
  · exact fun _ h => absurd h List.not_mem_nil

end Use

end Node

end SliceAgent
