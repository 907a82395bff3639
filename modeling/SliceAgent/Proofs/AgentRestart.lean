import SliceAgent.Proofs.DatabaseFile
import SliceAgent.Proofs.NodeRecords

/-!
Restarts of an agent over the data directory that it left. The record of the prepared claims outlives
it, but what is allocated does not: an agent is built with free cards
(`Agent.Reached.free_after_restart`).
-/
namespace SliceAgent

namespace Agent

open Host

variable {settings : Settings} {a b : Agent} {h h' : Host} {engine : Engine} {inventory : Inventory}
  {node : Node}

section Build

def specRoot (settings : Settings) : CdiRoot :=
  ⟨settings.cdiRoot, settings.driverName, settings.nodeName⟩

theorem startNode_ok (hs : startNode settings engine inventory h = (.ok node, h')) :
    ∃ made opened files, h.files.createDirectory settings.dataDir = .ok made ∧
      { h with files := made }.openStore settings.dataDir = .ok opened ∧
      (specRoot settings).establish opened.files = .ok files ∧
      Node.start (specRoot settings) settings.claims engine inventory { opened with files } =
        (.ok node, h') := by
  unfold startNode at hs
  split at hs
  · cases hs
  · rename_i made hmade
    simp only at hs
    split at hs
    · cases hs
    · rename_i opened hopened
      split at hs
      · cases hs
      · rename_i files hfiles
        split at hs
        · cases hs
        · rename_i started host hstart
          cases hs
          exact ⟨made, opened, files, hmade, hopened, hfiles, hstart⟩

theorem build_ok (hb : build settings h = (.ok a, h')) :
    ∃ inventory engine node host files,
      discover (.ofDeclared settings.cards) (.new (catalog settings h.files) settings.eligibility)
        settings.nodeName = .ok (inventory, engine) ∧
      startNode settings engine inventory h = (.ok node, host) ∧
      prepareClassDir settings.classDir host.files = .ok files ∧ h' = { host with files } ∧
      a = ⟨settings.driverName, settings.classDir, { node with host := h' }⟩ := by
  unfold build at hb
  split at hb
  · cases hb
  · simp only at hb
    split at hb
    · cases hb
    · rename_i inventory engine hd
      split at hb
      · cases hb
      · rename_i node host hs
        split at hb
        · cases hb
        · rename_i files hfiles
          cases hb
          exact ⟨inventory, engine, node, host, files, hd, hs, hfiles, rfl, rfl⟩

theorem establish_grows {r : CdiRoot} {t t' : FileTree} (he : r.establish t = .ok t') : t.Grows t' := by
  unfold CdiRoot.establish at he
  split at he
  · cases he
  · rename_i hmade
    cases he
    exact FileTree.createDirectory_grows hmade

theorem prepareClassDir_grows {classDir : Option String} {t t' : FileTree}
    (hp : prepareClassDir classDir t = .ok t') : t.Grows t' := by
  unfold prepareClassDir at hp
  split at hp
  · cases hp
    exact fun _ _ hq => hq
  · split at hp
    · cases hp
    · rename_i hmade
      cases hp
      exact FileTree.createDirectory_grows hmade

theorem build_kept (hb : build settings h = (.ok a, h')) :
    a.node.host = h' ∧ h'.Kept settings.dataDir := by
  obtain ⟨inventory, engine, node, host, files, _, hs, hfiles, rfl, rfl⟩ := build_ok hb
  obtain ⟨_, opened, root, _, hopened, hroot, hstart⟩ := startNode_ok hs
  -- the database is there once it is opened, and what follows spares it
  have hdatabase := hasDatabase_of_openStore hopened
  have hrecord := Node.record_of_start hstart
  have hhost := Node.start_host (specRoot settings) settings.claims engine inventory
    { opened with files := root }
  rw [hstart] at hhost
  have hstarted : { opened with files := root }.files.KeepsFile (databasePath settings.dataDir)
      host.files := by
    rw [show host = _ from hhost]
    exact applyAll_keepsFile _ (Node.spares_startEffects _ _ _)
  refine ⟨rfl, hdatabase.of_keepsFile ?_, hrecord⟩
  exact (establish_grows hroot).keepsFile.trans
    (hstarted.trans (prepareClassDir_grows hfiles).keepsFile)

theorem build_spares (hk : h.Kept settings.dataDir) :
    h.Spared settings.dataDir (build settings h).2 := by
  have hnode : ∀ engine inventory,
      h.Spared settings.dataDir (startNode settings engine inventory h).2 := by
    intro engine inventory
    unfold startNode
    split
    · exact .refl h
    · rename_i made hmade
      have hs : h.Spared settings.dataDir { h with files := made } :=
        .withFiles (FileTree.createDirectory_grows hmade).keepsFile
      simp only [(hk.of_spared hs).database.openStore]
      split
      · exact hs
      · rename_i root hroot
        have hs' := hs.trans (.withFiles (establish_grows hroot).keepsFile)
        have hstart := Node.start_spares settings.dataDir (specRoot settings) settings.claims engine
          inventory (hk.of_spared hs').record
        unfold specRoot at hstart
        split <;> rename_i hresult <;> rw [hresult] at hstart <;> exact hs'.trans hstart
  unfold build
  split
  · exact .refl h
  · simp only
    split
    · exact .refl h
    · rename_i inventory engine _
      have hs := hnode engine inventory
      split
      · rename_i hresult
        rwa [hresult] at hs
      · rename_i hresult
        rw [hresult] at hs
        split
        · exact hs
        · rename_i hfiles
          exact hs.trans (.withFiles (prepareClassDir_grows hfiles).keepsFile)

theorem build_node (hb : build settings h = (.ok a, h')) :
    a.node.cdi = specRoot settings ∧ a.node.claims = settings.claims ∧
      discover (.ofDeclared settings.cards) (.new (catalog settings h.files) settings.eligibility)
        settings.nodeName = .ok (a.node.inventory, a.node.engine) := by
  obtain ⟨inventory, engine, node, host, files, hd, hs, _, rfl, rfl⟩ := build_ok hb
  obtain ⟨_, _, _, _, _, _, hstart⟩ := startNode_ok hs
  obtain ⟨hcdi, hclaims, rfl, rfl⟩ := Node.start_ok hstart
  exact ⟨hcdi, hclaims, hd⟩

end Build

section Restart

def perform (a : Agent) (call : NodeCall) : Agent := { a with node := a.node.perform call }

def disturb (a : Agent) (files : FileTree) (faults : Faults) : Agent :=
  { a with node := { a.node with host := { a.node.host with files, faults } } }

/-- The agents that settings lead to: built over any host, called, and left to publish classes. Others
may change any files but the database. -/
inductive Reached (settings : Settings) : Agent → Prop
  | build {a : Agent} {h h' : Host} : build settings h = (.ok a, h') → Reached settings a
  | call {a : Agent} (call : NodeCall) : Reached settings a → Reached settings (a.perform call)
  | publish {a : Agent} : Reached settings a → Reached settings a.publishClasses.2
  | disturb {a : Agent} (files : FileTree) (faults : Faults) : Reached settings a →
      a.node.host.files.KeepsFile (databasePath settings.dataDir) files →
      Reached settings (a.disturb files faults)

/-- The hosts that an agent leaves when it stops, between calls or in the middle of one. -/
inductive Stops (a : Agent) : Host → Prop
  | halt : Stops a a.node.host
  | crash (call : NodeCall) (done : List HostEffect) : done <+: a.node.effects call →
      Stops a (a.node.host.applyAll done)

inductive FailsToBuild (settings : Settings) (host : Host) : Host → Prop
  | start : FailsToBuild settings host host
  | disturb {h : Host} (files : FileTree) (faults : Faults) : FailsToBuild settings host h →
      h.files.KeepsFile (databasePath settings.dataDir) files →
      FailsToBuild settings host { h with files, faults }
  | fail {h h' : Host} {e : BuildError} : FailsToBuild settings host h →
      build settings h = (.error e, h') → FailsToBuild settings host h'

/-- A restart builds an agent of the same settings over a host, after any builds that fail. -/
def Restarts (settings : Settings) (host : Host) (b : Agent) : Prop :=
  ∃ h h', FailsToBuild settings host h ∧ build settings h = (.ok b, h')

theorem Reached.kept (hreach : Reached settings a) : a.node.host.Kept settings.dataDir := by
  induction hreach with
  | build hb =>
    obtain ⟨hhost, hkept⟩ := build_kept hb
    rw [hhost]
    exact hkept
  | @call a call _ ih =>
    rw [perform, Node.perform_host]
    exact ih.applyAll (a.node.spares_effects call _)
  | @publish a _ ih =>
    unfold publishClasses
    split
    · exact ih
    · rename_i dir _
      exact ih.of_spared (.withFiles (ManifestDirectory.publish_keepsFile _ ⟨dir, a.node.host.files⟩ _))
  | disturb files faults _ hfiles ih => exact ⟨ih.database.of_keepsFile hfiles, ih.record⟩

theorem Reached.kept_of_stops (hreach : Reached settings a) (hstop : a.Stops h) :
    h.Kept settings.dataDir := by
  cases hstop with
  | halt => exact hreach.kept
  | crash call done hdone =>
    refine hreach.kept.applyAll fun e he => a.node.spares_effects call _ e ?_
    exact hdone.subset he

theorem FailsToBuild.spares {host : Host} (hk : host.Kept settings.dataDir)
    (hf : FailsToBuild settings host h) : host.Spared settings.dataDir h := by
  induction hf with
  | start => exact .refl host
  | disturb files faults _ hfiles ih => exact ih.trans ⟨hfiles, rfl⟩
  | fail _ hb ih =>
    have hs := build_spares (hk.of_spared ih)
    rw [hb] at hs
    exact ih.trans hs

theorem Restarts.spares {host : Host} (hk : host.Kept settings.dataDir)
    (hr : Restarts settings host b) : host.Spared settings.dataDir b.node.host := by
  obtain ⟨h, h', hfails, hb⟩ := hr
  have hspared := hfails.spares hk
  have hbuild := build_spares (hk.of_spared hspared)
  obtain ⟨hhost, _⟩ := build_kept hb
  rw [hb] at hbuild
  rw [hhost]
  exact hspared.trans hbuild

/-- After a restart an agent has the record that the agent before it left, but all its cards are as they
were declared. So anything can be allocated that a template satisfies, and the whole of each card, also
where a claim on record has it; the pieces of cards do not exist. -/
theorem Reached.free_after_restart (hreach : Reached settings a) (hstop : a.Stops h)
    (hrestart : Restarts settings h b) :
    b.node.host.store = h.store ∧
    b.node.engine.allocatedIds = [] ∧
    (∀ key card, b.node.engine.device? key = some card →
      card = Card.new key card.logicalIndex card.model card.capacity b.node.engine.catalog) ∧
    ∀ name aiCore memoryGb, (b.node.engine.allocate name aiCore memoryGb).isOk = true ↔
      (∃ c ∈ settings.cards, name = SliceId.wholeCard c.logicalIndex) ∧
        (aiCore = 0 ∧ memoryGb = 0 ∨
          ∃ t ∈ b.node.engine.catalog.toList, t.satisfies aiCore memoryGb = true) := by
  have hspared := hrestart.spares (hreach.kept_of_stops hstop)
  obtain ⟨host, host', _, hb⟩ := hrestart
  obtain ⟨_, _, hd⟩ := build_node hb
  obtain ⟨hsound, hfree, _⟩ := discover_spec hd
  refine ⟨hspared.store, hfree.allocatedIds_eq, fun key card hcard => ?_,
    fun name aiCore memoryGb => ?_⟩
  · have hrestored := hfree key card hcard
    rw [Card.restored, (hsound key card hcard).1] at hrestored
    exact hrestored
  · rw [hsound.isOk_allocate_of_allFree hfree, discover_contains hd]

end Restart

section Sample

def sampleSettings : Settings :=
  { Settings.standard with
    nodeName := "node-a"
    dataDir := "/data"
    cdiRoot := "/cdi"
    claims := ⟨.classOnly, .compensating⟩
    cards := [⟨0, "Ascend310P", some 8, some 24⟩] }

def sampleFree (firstStart : Bool) (host : Host) : Agent :=
  ⟨sampleSettings.driverName, none,
    ⟨sampleSetup.cdi, sampleSetup.claims, sampleCards.2, sampleCards.1, firstStart, host⟩⟩

def sampleFirst : Agent :=
  sampleFree true
    ⟨CheckpointStore.empty.put Checkpoint.storedName .new, (build sampleSettings .empty).2.files, .none⟩

def sampleUsed : Agent :=
  { sampleFirst with
    node := sampleFirst.node.prepared (sampleClaim "c-1" "npu-0-0") .new sampleDevices }

def sampleAgain : Agent :=
  sampleFree false
    { sampleUsed.node.host with files := (build sampleSettings sampleUsed.node.host).2.files }

theorem sampleFirst_built :
    build sampleSettings .empty = (.ok sampleFirst, sampleFirst.node.host) := by
  rfl

theorem sampleFirst_read : sampleFirst.node.host.readCheckpoint = .ok .new :=
  (readCheckpoint_of_no_faults rfl).trans (CheckpointStore.get_put ..)

theorem sampleFirst_prepare : sampleFirst.node.prepare (sampleClaim "c-1" "npu-0-0") =
    (.ok sampleDevices, sampleUsed.node) :=
  Node.prepare_ok sampleFirst_read rfl (ok_of_toOption (by decide +kernel))
    (ok_of_toOption (by decide +kernel)) rfl

theorem sampleUsed_reached : Reached sampleSettings sampleUsed := by
  have hfirst : Reached sampleSettings sampleFirst := .build sampleFirst_built
  have hused := hfirst.call (.prepare (sampleClaim "c-1" "npu-0-0"))
  rwa [perform, Node.perform, sampleFirst_prepare] at hused

theorem sampleUsed_stored : sampleUsed.node.host.stored? = some sampleRecord :=
  stored?_of_read ((readCheckpoint_of_no_faults rfl).trans (CheckpointStore.get_put ..))

theorem sampleUsed_records : sampleUsed.node.Records "c-1" "npu-0-0" := by
  rw [Node.records_of_stored sampleUsed_stored, Checkpoint.records_of_find? sampleRecord_find?,
    sampleCarved_holds.1]
  exact List.mem_singleton_self _

theorem sampleAgain_built : build sampleSettings sampleUsed.node.host =
    (.ok sampleAgain, sampleAgain.node.host) := by
  rfl

theorem sampleAgain_restarts : Restarts sampleSettings sampleUsed.node.host sampleAgain :=
  ⟨_, _, .start, sampleAgain_built⟩

theorem sampleAgain_records : sampleAgain.node.Records "c-1" "npu-0-0" := by
  have hstore := (sampleAgain_restarts.spares sampleUsed_reached.kept).store
  obtain ⟨c, hstored, hrecords⟩ := sampleUsed_records
  refine ⟨c, ?_, hrecords⟩
  rw [stored?, hstore]
  exact hstored

end Sample

/-- A slice that a claim holds is not allocated any more after a restart, and may be allocated again
while the claim is still on record. -/
theorem Restarts.not_keeps_allocated :
    ¬ (∀ settings a b, Reached settings a → Restarts settings a.node.host b →
      ∀ uid name template, a.node.Records uid name →
        a.node.engine.templateOf name = .ok template →
        b.node.engine.templateOf name = .ok template) ∧
    ¬ (∀ settings a b, Reached settings a → Restarts settings a.node.host b →
      ∀ uid name aiCore memoryGb, b.node.Records uid name →
        (b.node.engine.allocate name aiCore memoryGb).isOk = false) := by
  constructor
  · intro h
    have hused : sampleUsed.node.engine.templateOf "npu-0-0" = .ok "vir01" :=
      ok_of_toOption (by decide +kernel)
    have hagain := congrArg Except.toOption
      (h _ _ _ sampleUsed_reached sampleAgain_restarts _ _ _ sampleUsed_records hused)
    exact absurd hagain (by decide +kernel)
  · intro h
    have hagain := h _ _ _ sampleUsed_reached sampleAgain_restarts _ _ 1 1 sampleAgain_records
    exact absurd hagain (by decide +kernel)

theorem Reached.free_after_restart_used :
    Reached sampleSettings sampleUsed ∧ sampleUsed.Stops sampleUsed.node.host ∧
    Restarts sampleSettings sampleUsed.node.host sampleAgain ∧
    sampleUsed.node.engine.allocatedIds = ["npu-0-0"] ∧
    sampleAgain.node.engine.allocatedIds = [] :=
  ⟨sampleUsed_reached, .halt, sampleAgain_restarts, by decide +kernel,
    (Reached.free_after_restart sampleUsed_reached .halt sampleAgain_restarts).2.1⟩

end Agent

end SliceAgent
