import SliceAgent.Proofs.FilePlaces
import SliceAgent.Proofs.NodeRun

/-!
What the calls and starts of a node do to its host, one effect after another. A node that breaks off
leaves a host to which some of the effects have been applied, from the first on.
-/
namespace SliceAgent

/-- A change of the host that is made whole or not at all. -/
inductive HostEffect where
  | write (path : String) (content : ByteArray)
  | rename (source target : String)
  | remove (path : String)
  | record (c : Checkpoint)

namespace HostEffect

def Spares (t : FileTree) (path : String) : HostEffect → Prop
  | write p _ => t.Apart path p
  | rename p q => t.Apart path p ∧ t.Apart path q
  | remove p => t.Apart path p
  | record _ => True

def IsRecord : HostEffect → Prop
  | record _ => True
  | _ => False

end HostEffect

namespace Host

variable {h : Host} {p : Host → Prop} {es fs : List HostEffect}

def apply (h : Host) : HostEffect → Host
  | .write path content => { h with files := (h.files.write path content).toOption.getD h.files }
  | .rename source target => { h with files := (h.files.rename source target).toOption.getD h.files }
  | .remove path => { h with files := (h.files.remove path).toOption.getD h.files }
  | .record c => { h with store := h.store.put Checkpoint.storedName c }

theorem apply_store {e : HostEffect} (h : Host) (he : ¬ e.IsRecord) : (h.apply e).store = h.store := by
  cases e with
  | record c => exact absurd trivial he
  | _ => rfl

theorem apply_sameDirectories (h : Host) (e : HostEffect) :
    h.files.SameDirectories (h.apply e).files := by
  cases e with
  | write path content =>
    rw [apply]
    cases hw : h.files.write path content with
    | error err => exact fun _ => Iff.rfl
    | ok files => exact FileTree.write_sameDirectories hw
  | rename source target =>
    rw [apply]
    cases hr : h.files.rename source target with
    | error err => exact fun _ => Iff.rfl
    | ok files => exact FileTree.rename_sameDirectories hr
  | remove path =>
    rw [apply]
    cases hr : h.files.remove path with
    | error err => exact fun _ => Iff.rfl
    | ok files => exact FileTree.remove_sameDirectories hr
  | record c => exact fun _ => Iff.rfl

theorem apply_keepsFile {e : HostEffect} {path : String} (h : Host) (he : e.Spares h.files path) :
    h.files.KeepsFile path (h.apply e).files := by
  intro c hc
  cases e with
  | write p content =>
    rw [apply]
    cases hw : h.files.write p content with
    | error err => exact hc
    | ok files => exact (FileTree.read_write_other hw he).2 hc
  | rename p q =>
    rw [apply]
    cases hr : h.files.rename p q with
    | error err => exact hc
    | ok files => exact (FileTree.read_rename_other hr he.1 he.2).2 hc
  | remove p =>
    rw [apply]
    cases hr : h.files.remove p with
    | error err => exact hc
    | ok files => exact (FileTree.read_remove_other hr he).2 hc
  | record c => exact hc

def applyAll (h : Host) (es : List HostEffect) : Host := es.foldl apply h

theorem applyAll_append : h.applyAll (es ++ fs) = (h.applyAll es).applyAll fs :=
  List.foldl_append ..

theorem applyAll_store (h : Host) (hes : ∀ e ∈ es, ¬ e.IsRecord) : (h.applyAll es).store = h.store := by
  induction es generalizing h with
  | nil => rfl
  | cons e es ih =>
    obtain ⟨he, hes⟩ := List.forall_mem_cons.1 hes
    exact (ih (h.apply e) hes).trans (h.apply_store he)

theorem applyAll_sameDirectories (h : Host) (es : List HostEffect) :
    h.files.SameDirectories (h.applyAll es).files := by
  induction es generalizing h with
  | nil => exact .refl h.files
  | cons e es ih => exact (h.apply_sameDirectories e).trans (ih (h.apply e))

def Throughout (p : Host → Prop) : List HostEffect → Host → Prop
  | [], h => p h
  | e :: es, h => p h ∧ Throughout p es (h.apply e)

theorem Throughout.first (hes : Throughout p es h) : p h := by
  cases es with
  | nil => exact hes
  | cons e es => exact hes.1

theorem Throughout.upTo (hes : Throughout p es h) (hpre : fs <+: es) : p (h.applyAll fs) := by
  induction fs generalizing h es with
  | nil => exact hes.first
  | cons f fs ih =>
    obtain ⟨rest, rfl⟩ := hpre
    exact ih hes.2 (List.prefix_append fs rest)

theorem Throughout.last (hes : Throughout p es h) : p (h.applyAll es) :=
  hes.upTo (List.prefix_refl es)

theorem Throughout.append (hes : Throughout p es h) (hfs : Throughout p fs (h.applyAll es)) :
    Throughout p (es ++ fs) h := by
  induction es generalizing h with
  | nil => exact hfs
  | cons e es ih => exact ⟨hes.1, ih hes.2 hfs⟩

theorem throughout_of_upTo (hall : ∀ fs, fs <+: es → p (h.applyAll fs)) : Throughout p es h := by
  induction es generalizing h with
  | nil => exact hall [] List.nil_prefix
  | cons e es ih =>
    refine ⟨hall [] List.nil_prefix, ih fun fs hfs => ?_⟩
    exact hall (e :: fs) ((List.prefix_cons_inj e).2 hfs)

theorem throughout_of_mem (h₀ : p h) (hkeep : ∀ e ∈ es, ∀ h, p h → p (h.apply e)) :
    Throughout p es h := by
  induction es generalizing h with
  | nil => exact h₀
  | cons e es ih =>
    obtain ⟨he, hes⟩ := List.forall_mem_cons.1 hkeep
    exact ⟨h₀, ih (he h h₀) hes⟩

end Host

section Writes

variable {h : Host} {r : CdiRoot} {uid name : String} {devices : List PreparedDevice}
  {edits : ContainerEdits} {c : Checkpoint}

def CdiRoot.writeEffects (r : CdiRoot) (name : String) (edits : ContainerEdits) : List HostEffect :=
  [.write (r.specPath name ++ ".tmp") (r.spec name edits).content,
    .rename (r.specPath name ++ ".tmp") (r.specPath name)]

theorem FileTree.rename_of_write_error {t : FileTree} {source target : String} {content : ByteArray}
    {e : FileError} (hw : t.write source content = .error e) :
    (t.rename source target).toOption = none := by
  cases hr : t.rename source target with
  | error e' => rfl
  | ok t' =>
    obtain ⟨place, _, old, hplace, _, hnode, _, _⟩ := rename_ok_iff.1 hr
    have hfile : t.node? place ≠ some .directory := by simp [hnode]
    have hok : t.write source content = .ok _ := write_ok_iff.2 ⟨place, hplace, hfile, rfl⟩
    cases hw.symm.trans hok

theorem CdiRoot.write_effects (r : CdiRoot) (h : Host) (name : String) (edits : ContainerEdits) :
    { h with files := (r.write h.files name edits).2 } = h.applyAll (r.writeEffects name edits) := by
  unfold CdiRoot.write FileTree.replace writeEffects
  simp only [Host.applyAll, List.foldl_cons, List.foldl_nil, Host.apply]
  cases hw : h.files.write (r.specPath name ++ ".tmp") (r.spec name edits).content with
  | error e => rw [Except.toOption, Option.getD_none, FileTree.rename_of_write_error hw, Option.getD_none]
  | ok written =>
    simp only [Except.toOption, Option.getD_some]
    cases written.rename (r.specPath name ++ ".tmp") (r.specPath name) <;> rfl

namespace Host

def commonSpecEffects (h : Host) (r : CdiRoot) : List HostEffect :=
  if h.faults.writeCommonSpec.isSome then [] else r.writeEffects CdiRoot.common r.commonEdits

def claimSpecEffects (h : Host) (r : CdiRoot) (uid : String) (devices : List PreparedDevice) :
    List HostEffect :=
  if h.faults.writeClaimSpec.isSome then [] else r.writeEffects uid (CdiRoot.claimEdits devices)

def removalEffects (h : Host) (r : CdiRoot) (uid : String) : List HostEffect :=
  if h.faults.removeClaimSpec.isSome then [] else [.remove (r.specPath uid)]

def recordEffects (h : Host) (c : Checkpoint) : List HostEffect :=
  if h.faults.writeCheckpoint.isSome then [] else [.record c]

theorem changeFiles_effects {h : Host} {change : FileTree → Except CdiError Unit × FileTree}
    {effects : List HostEffect} (refusal : Option String)
    (heffects : { h with files := (change h.files).2 } = h.applyAll effects) :
    (h.changeFiles refusal change).2 = h.applyAll (if refusal.isSome then [] else effects) := by
  cases refusal with
  | some text => rfl
  | none => exact heffects

theorem writeCommonSpec_effects (h : Host) (r : CdiRoot) :
    (h.writeCommonSpec r).2 = h.applyAll (h.commonSpecEffects r) :=
  changeFiles_effects _ (r.write_effects h CdiRoot.common r.commonEdits)

theorem writeClaimSpec_effects (h : Host) (r : CdiRoot) (uid : String)
    (devices : List PreparedDevice) :
    (h.writeClaimSpec r uid devices).2 = h.applyAll (h.claimSpecEffects r uid devices) :=
  changeFiles_effects _ (r.write_effects h uid (CdiRoot.claimEdits devices))

theorem removeClaimSpec_effects (h : Host) (r : CdiRoot) (uid : String) :
    (h.removeClaimSpec r uid).2 = h.applyAll (h.removalEffects r uid) := by
  refine changeFiles_effects _ ?_
  unfold CdiRoot.removeClaim
  simp only [applyAll, List.foldl_cons, List.foldl_nil, apply]
  cases h.files.remove (r.specPath uid) with
  | ok files => rfl
  | error e => cases e <;> rfl

theorem writeCheckpoint_effects (h : Host) (c : Checkpoint) :
    (h.writeCheckpoint c).2 = h.applyAll (h.recordEffects c) := by
  unfold writeCheckpoint recordEffects
  cases h.faults.writeCheckpoint <;> rfl

end Host

end Writes

/-- What a call may record in place of what it has read. -/
inductive NodeCall.Rewrites : NodeCall → Checkpoint → Checkpoint → Prop
  | enter {claim : ResourceClaim} {c : Checkpoint} (devices : List PreparedDevice) :
      c.find? claim.uid = none → Rewrites (.prepare claim) c (c.insert claim.uid devices)
  | erase {uid : String} {c : Checkpoint} : Rewrites (.unprepare uid) c (c.erase uid)

namespace Node

variable {n : Node} {claim : ResourceClaim} {c : Checkpoint} {uid : String}

def failureEffects (n : Node) (uid : String) : List HostEffect :=
  match n.claims.persistence with
  | .legacy => []
  | .compensating => n.host.removalEffects n.cdi uid

def commitEffects (n : Node) (c : Checkpoint) (uid : String) (devices : List PreparedDevice) :
    List HostEffect :=
  n.host.claimSpecEffects n.cdi uid devices ++
    match (n.host.writeClaimSpec n.cdi uid devices).1 with
    | .error _ => []
    | .ok () => n.host.recordEffects (c.insert uid devices)

def prepareEffects (n : Node) (claim : ResourceClaim) (c : Checkpoint) : List HostEffect :=
  match (n.granting claim).1 with
  | .error _ => n.failureEffects claim.uid
  | .ok devices =>
    n.commitEffects c claim.uid devices ++
      match ((n.adopt (n.granting claim).2).commit c claim.uid devices).1 with
      | .error _ => n.failureEffects claim.uid
      | .ok () => []

def forgetEffects (n : Node) (c : Checkpoint) (uid : String) : List HostEffect :=
  n.host.recordEffects c ++
    match (n.host.writeCheckpoint c).1 with
    | .error _ => []
    | .ok () => n.host.removalEffects n.cdi uid

def effects (n : Node) (call : NodeCall) : List HostEffect :=
  match call, n.host.readCheckpoint with
  | .prepare claim, .ok c =>
    match c.find? claim.uid with
    | some _ => []
    | none => n.prepareEffects claim c
  | .unprepare uid, .ok c =>
    match c.find? uid with
    | some _ => n.forgetEffects (c.erase uid) uid
    | none => []
  | _, _ => []

section Shapes

variable {q : HostEffect → Prop} {host : Host} {r : CdiRoot}

theorem forall_removalEffects (hremove : q (.remove (r.specPath uid))) :
    ∀ e ∈ host.removalEffects r uid, q e := by
  unfold Host.removalEffects
  split
  · exact List.forall_mem_nil _
  · exact List.forall_mem_singleton.2 hremove

theorem forall_recordEffects (hrecord : q (.record c)) : ∀ e ∈ host.recordEffects c, q e := by
  unfold Host.recordEffects
  split
  · exact List.forall_mem_nil _
  · exact List.forall_mem_singleton.2 hrecord

theorem forall_failureEffects (hremove : q (.remove (n.cdi.specPath uid))) :
    ∀ e ∈ n.failureEffects uid, q e := by
  unfold failureEffects
  split
  · exact List.forall_mem_nil _
  · exact forall_removalEffects hremove

theorem forall_effects (n : Node) (call : NodeCall)
    (hwrite : ∀ uid edits, call.uid? = some uid → ∀ e ∈ n.cdi.writeEffects uid edits, q e)
    (hremove : ∀ uid, call.uid? = some uid → q (.remove (n.cdi.specPath uid)))
    (hrecord : ∀ old c, n.host.readCheckpoint = .ok old → call.Rewrites old c → q (.record c)) :
    ∀ e ∈ n.effects call, q e := by
  unfold effects
  split
  · rename_i claim old hread
    split
    · exact List.forall_mem_nil _
    · rename_i hnone
      unfold prepareEffects
      split
      · exact forall_failureEffects (hremove _ rfl)
      · rename_i devices _
        refine List.forall_mem_append.2 ⟨List.forall_mem_append.2 ⟨?_, ?_⟩, ?_⟩
        · unfold Host.claimSpecEffects
          split
          · exact List.forall_mem_nil _
          · exact hwrite _ _ rfl
        · split
          · exact List.forall_mem_nil _
          · exact forall_recordEffects (hrecord old _ hread (.enter devices hnone))
        · split
          · exact forall_failureEffects (hremove _ rfl)
          · exact List.forall_mem_nil _
  · rename_i uid old hread
    split
    · refine List.forall_mem_append.2 ⟨forall_recordEffects (hrecord old _ hread .erase), ?_⟩
      split
      · exact List.forall_mem_nil _
      · exact forall_removalEffects (hremove _ rfl)
    · exact List.forall_mem_nil _
  · exact List.forall_mem_nil _

end Shapes

theorem afterFailure_host (uid : String) (carved : List String) :
    (n.afterFailure uid carved).host = n.host.applyAll (n.failureEffects uid) := by
  unfold afterFailure failureEffects
  cases n.claims.persistence with
  | legacy => rfl
  | compensating =>
    simp only [rollBack, releaseAll_eq]
    exact Host.removeClaimSpec_effects ..

theorem commit_host (n : Node) (c : Checkpoint) (uid : String) (devices : List PreparedDevice) :
    (n.commit c uid devices).2.host = n.host.applyAll (n.commitEffects c uid devices) ∧
      (n.commit c uid devices).2.claims = n.claims ∧ (n.commit c uid devices).2.cdi = n.cdi ∧
      (n.commit c uid devices).2.host.faults = n.host.faults := by
  obtain ⟨files, hfiles⟩ := n.host.writeClaimSpec_host n.cdi uid devices
  have hspec := n.host.writeClaimSpec_effects n.cdi uid devices
  unfold commit commitEffects
  cases hw : n.host.writeClaimSpec n.cdi uid devices with
  | mk result host =>
    rw [hw] at hspec hfiles
    obtain rfl : host = { n.host with files } := hfiles
    cases result with
    | error e =>
      rw [List.append_nil]
      exact ⟨hspec, rfl, rfl, rfl⟩
    | ok u =>
      have hrecord := Host.writeCheckpoint_effects { n.host with files } (c.insert uid devices)
      simp only [Host.applyAll_append, ← hspec]
      rcases Host.writeCheckpoint_cases { n.host with files } (c.insert uid devices) with ⟨_, _, hc⟩ | ⟨_, hc⟩
      · rw [hc] at hrecord ⊢
        exact ⟨hrecord, rfl, rfl, rfl⟩
      · rw [hc] at hrecord ⊢
        exact ⟨hrecord, rfl, rfl, rfl⟩

theorem prepareNew_host (n : Node) (claim : ResourceClaim) (c : Checkpoint) :
    (n.prepareNew claim c).2.host = n.host.applyAll (n.prepareEffects claim c) := by
  unfold prepareNew prepareEffects
  rw [show grantClaim n.cdi.driverName (n.cdi.deviceIds claim.uid) n.claims.sources claim
    ⟨n.engine, n.inventory, []⟩ = n.granting claim from rfl]
  cases n.granting claim with
  | mk result g =>
    cases result with
    | error e => exact afterFailure_host (n := n.adopt g) claim.uid g.carved
    | ok devices =>
      obtain ⟨hhost, hclaims, hcdi, hfaults⟩ := (n.adopt g).commit_host c claim.uid devices
      simp only
      cases hc : (n.adopt g).commit c claim.uid devices with
      | mk result m =>
        rw [hc] at hhost hclaims hcdi hfaults
        have hall : m.host = n.host.applyAll (n.commitEffects c claim.uid devices) := hhost
        cases result with
        | ok u =>
          simp only [List.append_nil]
          exact hall
        | error e =>
          have hfailure : m.failureEffects claim.uid = n.failureEffects claim.uid := by
            rw [failureEffects, failureEffects, hclaims, hcdi, Host.removalEffects, hfaults]
            rfl
          simp only [afterFailure_host, Host.applyAll_append, hfailure, ← hall]

theorem forget_host (n : Node) (c : Checkpoint) (uid : String) :
    (n.forget c uid).2.host = n.host.applyAll (n.forgetEffects c uid) := by
  have hrecord := n.host.writeCheckpoint_effects c
  unfold forget forgetEffects
  rcases n.host.writeCheckpoint_cases c with ⟨_, _, hc⟩ | ⟨_, hc⟩
  · rw [hc] at hrecord ⊢
    simp only [List.append_nil]
    exact hrecord
  · rw [hc] at hrecord ⊢
    have hremove := Host.removeClaimSpec_effects
      { n.host with store := n.host.store.put Checkpoint.storedName c } n.cdi uid
    have hsame : Host.removalEffects
        { n.host with store := n.host.store.put Checkpoint.storedName c } n.cdi uid =
      n.host.removalEffects n.cdi uid := rfl
    simp only [Host.applyAll_append, ← hrecord]
    rw [hsame] at hremove
    rw [← hremove]
    cases Host.removeClaimSpec
      { n.host with store := n.host.store.put Checkpoint.storedName c } n.cdi uid with
    | mk result host => cases result <;> rfl

theorem perform_host (n : Node) (call : NodeCall) :
    (n.perform call).host = n.host.applyAll (n.effects call) := by
  cases call with
  | reconcile => rfl
  | prepare claim =>
    rw [perform]
    rcases n.prepare_cases claim with ⟨e, hr, hp⟩ | ⟨c, devices, hr, hf, hp⟩ | ⟨c, hr, hf, hp⟩
    · simp only [hp, effects, hr]
      rfl
    · simp only [hp, effects, hr, hf]
      rfl
    · simp only [hp, effects, hr, hf, prepareNew_host]
  | unprepare uid =>
    rw [perform]
    rcases n.unprepare_cases uid with ⟨e, hr, hp⟩ | ⟨c, hr, hf, hp⟩ | ⟨c, devices, hr, hf, hp⟩
    · simp only [hp, effects, hr]
      rfl
    · simp only [hp, effects, hr, hf]
      rfl
    · simp only [hp, effects, hr, hf, forget_host]
      rfl

def startEffects (cdi : CdiRoot) (host : Host) : List HostEffect :=
  host.commonSpecEffects cdi ++
    match (host.writeCommonSpec cdi).1, (host.writeCommonSpec cdi).2.hasCheckpoint with
    | .ok (), .ok false => (host.writeCommonSpec cdi).2.recordEffects .new
    | _, _ => []

theorem forall_startEffects {q : HostEffect → Prop} {cdi : CdiRoot} {host : Host}
    (hwrite : ∀ e ∈ cdi.writeEffects CdiRoot.common cdi.commonEdits, q e)
    (hrecord : host.store.names.contains Checkpoint.storedName = false → q (.record .new)) :
    ∀ e ∈ startEffects cdi host, q e := by
  refine List.forall_mem_append.2 ⟨?_, ?_⟩
  · unfold Host.commonSpecEffects
    split
    · exact List.forall_mem_nil _
    · exact hwrite
  · split
    · rename_i hhas
      refine forall_recordEffects (hrecord ?_)
      have hstore : (host.writeCommonSpec cdi).2.store = host.store := by
        rw [Host.writeCommonSpec, Host.changeFiles_snd]
      rw [Host.hasCheckpoint, hstore] at hhas
      split at hhas
      · cases hhas
      · exact Except.ok.inj hhas
    · exact List.forall_mem_nil _

theorem start_host (cdi : CdiRoot) (claims : ClaimSettings) (engine : Engine) (inventory : Inventory)
    (host : Host) : (start cdi claims engine inventory host).2 = host.applyAll (startEffects cdi host) := by
  have hcommon := host.writeCommonSpec_effects cdi
  unfold start startEffects
  cases hw : host.writeCommonSpec cdi with
  | mk result h =>
    rw [hw] at hcommon
    cases result with
    | error e =>
      simp only [List.append_nil]
      exact hcommon
    | ok u =>
      simp only
      cases hhas : h.hasCheckpoint with
      | error e =>
        simp only [List.append_nil]
        exact hcommon
      | ok has =>
        cases has with
        | true =>
          simp only [List.append_nil]
          exact hcommon
        | false =>
          have hrecord := h.writeCheckpoint_effects .new
          simp only [Host.applyAll_append, ← hcommon, ← hrecord]
          rcases h.writeCheckpoint_cases .new with ⟨_, _, hc⟩ | ⟨_, hc⟩ <;> rw [hc]

theorem start_ok_host {cdi : CdiRoot} {claims : ClaimSettings} {engine : Engine}
    {inventory : Inventory} {host host' : Host}
    (h : start cdi claims engine inventory host = (.ok n, host')) : n.host = host' := by
  unfold start at h
  split at h
  · cases h
  · split at h
    · cases h
    · cases h
      rfl
    · split at h
      · cases h
      · cases h
        rfl

end Node

end SliceAgent
