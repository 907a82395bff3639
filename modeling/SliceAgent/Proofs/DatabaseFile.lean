import SliceAgent.Agent
import SliceAgent.Proofs.HostEffects

/-!
The database of an agent, a file in its data directory that starts to exist with the first agent. What
an agent does to other files spares it, and to build an agent where it is leaves the record in it alone.
-/
namespace SliceAgent

theorem CheckpointStore.names_contains_put (s : CheckpointStore) (name : String) (c : Checkpoint) :
    (s.put name c).names.contains name = true := by
  rw [List.contains_iff_mem]
  refine Dict.contains_iff.1 ?_
  rw [put, putRecord, Dict.contains_insert]
  simp

namespace Host

variable {h h' : Host} {path dataDir : String} {es : List HostEffect} {files : FileTree}

theorem applyAll_keepsFile (h : Host) (hes : ∀ e ∈ es, ∀ t, e.Spares t path) :
    h.files.KeepsFile path (h.applyAll es).files := by
  induction es generalizing h with
  | nil => exact fun _ hc => hc
  | cons e es ih =>
    obtain ⟨he, hes⟩ := List.forall_mem_cons.1 hes
    exact (h.apply_keepsFile (he h.files)).trans (ih (h.apply e) hes)

theorem names_contains_applyAll (hn : h.store.names.contains Checkpoint.storedName = true) :
    (h.applyAll es).store.names.contains Checkpoint.storedName = true := by
  induction es generalizing h with
  | nil => exact hn
  | cons e es ih =>
    refine ih (h := h.apply e) ?_
    cases e with
    | record c => exact h.store.names_contains_put Checkpoint.storedName c
    | _ => exact hn

def databasePath (dataDir : String) : String := dataDir ++ "/" ++ databaseName

theorem apart_database {t : FileTree} {lead tail : String} (hfree : '/' ∉ tail.toList)
    (hlong : 2 < tail.length) (hend : tail.toList.getLast? ≠ databaseName.toList.getLast?) :
    t.Apart (databasePath dataDir) (lead ++ tail) :=
  FileTree.apart_of_getLast (by decide) hfree (by decide) hlong hend.symm

theorem apart_json (dataDir lead : String) (t : FileTree) :
    t.Apart (databasePath dataDir) (lead ++ ".json") :=
  apart_database (by decide) (by decide) (by decide)

theorem apart_beside (dataDir lead : String) (t : FileTree) :
    t.Apart (databasePath dataDir) (lead ++ ".tmp") :=
  apart_database (by decide) (by decide) (by decide)

def HasDatabase (dataDir : String) (h : Host) : Prop :=
  ∃ content, h.files.read (databasePath dataDir) = .ok content ∧
    (content.isEmpty || content == databaseMark) = true

structure Kept (dataDir : String) (h : Host) : Prop where
  database : h.HasDatabase dataDir
  record : h.store.names.contains Checkpoint.storedName = true

theorem HasDatabase.of_keepsFile (hd : h.HasDatabase dataDir)
    (hfiles : h.files.KeepsFile (databasePath dataDir) h'.files) : h'.HasDatabase dataDir := by
  obtain ⟨content, hread, hmark⟩ := hd
  exact ⟨content, hfiles _ hread, hmark⟩

/-- What is in the database stays, whatever becomes of other files. -/
structure Spared (dataDir : String) (h h' : Host) : Prop where
  files : h.files.KeepsFile (databasePath dataDir) h'.files
  store : h'.store = h.store

theorem Spared.refl (h : Host) : h.Spared dataDir h := ⟨fun _ hc => hc, rfl⟩

theorem Spared.trans {h'' : Host} (hs : h.Spared dataDir h') (hs' : h'.Spared dataDir h'') :
    h.Spared dataDir h'' := ⟨hs.files.trans hs'.files, hs'.store.trans hs.store⟩

theorem Spared.withFiles (hfiles : h.files.KeepsFile (databasePath dataDir) files) :
    h.Spared dataDir { h with files } := ⟨hfiles, rfl⟩

theorem Kept.of_spared (hk : h.Kept dataDir) (hs : h.Spared dataDir h') : h'.Kept dataDir := by
  refine ⟨hk.database.of_keepsFile hs.files, ?_⟩
  rw [hs.store]
  exact hk.record

theorem Kept.applyAll (hk : h.Kept dataDir) (hes : ∀ e ∈ es, ∀ t, e.Spares t (databasePath dataDir)) :
    (h.applyAll es).Kept dataDir :=
  ⟨hk.database.of_keepsFile (h.applyAll_keepsFile hes), names_contains_applyAll hk.record⟩

theorem HasDatabase.openStore (hd : h.HasDatabase dataDir) : h.openStore dataDir = .ok h := by
  obtain ⟨content, hread, hmark⟩ := hd
  rw [databasePath] at hread
  simp only [Host.openStore, hread, hmark, if_true]

theorem hasDatabase_of_openStore (ho : h.openStore dataDir = .ok h') : h'.HasDatabase dataDir := by
  unfold Host.openStore at ho
  simp only at ho
  split at ho
  · rename_i content hread
    split at ho
    · rename_i hmark
      cases ho
      exact ⟨content, hread, hmark⟩
    · cases ho
  · split at ho
    · cases ho
    · rename_i files hw
      cases ho
      exact ⟨databaseMark, FileTree.read_write hw, by decide⟩
  · cases ho

end Host

namespace Node

open Host

variable {n : Node} {cdi : CdiRoot} {h h' : Host} {dataDir : String}

theorem spares_writeEffects (cdi : CdiRoot) (name : String) (edits : ContainerEdits) :
    ∀ e ∈ cdi.writeEffects name edits, ∀ t, e.Spares t (databasePath dataDir) := by
  refine List.forall_mem_cons.2 ⟨?_, List.forall_mem_singleton.2 ?_⟩
  · exact apart_beside dataDir (cdi.specPath name)
  · exact fun t => ⟨apart_beside dataDir (cdi.specPath name) t, apart_json dataDir _ t⟩

theorem spares_effects (n : Node) (call : NodeCall) (dataDir : String) :
    ∀ e ∈ n.effects call, ∀ t, e.Spares t (databasePath dataDir) := by
  refine n.forall_effects call ?_ ?_ ?_
  · exact fun uid edits _ => spares_writeEffects n.cdi uid edits
  · exact fun _ _ => apart_json dataDir _
  · exact fun _ _ _ _ _ => trivial

theorem spares_startEffects (cdi : CdiRoot) (h : Host) (dataDir : String) :
    ∀ e ∈ startEffects cdi h, ∀ t, e.Spares t (databasePath dataDir) :=
  forall_startEffects (spares_writeEffects cdi _ _) fun _ _ => trivial

theorem start_spares (dataDir : String) (cdi : CdiRoot) (claims : ClaimSettings) (engine : Engine)
    (inventory : Inventory) (hn : h.store.names.contains Checkpoint.storedName = true) :
    h.Spared dataDir (start cdi claims engine inventory h).2 := by
  rw [start_host]
  refine ⟨h.applyAll_keepsFile (spares_startEffects cdi h dataDir), h.applyAll_store ?_⟩
  refine forall_startEffects (q := fun e => ¬ e.IsRecord) ?_ ?_
  · simp [CdiRoot.writeEffects, HostEffect.IsRecord]
  · intro hnone
    cases hnone.symm.trans hn

theorem record_of_start {claims : ClaimSettings} {engine : Engine} {inventory : Inventory}
    (hs : start cdi claims engine inventory h = (.ok n, h')) :
    h'.store.names.contains Checkpoint.storedName = true := by
  unfold start at hs
  split at hs
  · cases hs
  · split at hs
    · cases hs
    · rename_i hhas
      cases hs
      unfold hasCheckpoint at hhas
      split at hhas
      · cases hhas
      · exact Except.ok.inj hhas
    · split at hs
      · cases hs
      · rename_i hw
        cases hs
        unfold writeCheckpoint at hw
        split at hw
        · cases hw
        · cases hw
          exact CheckpointStore.names_contains_put _ Checkpoint.storedName .new

end Node

namespace ManifestDirectory

variable (dataDir : String)

theorem write_keepsFile (m : ManifestDirectory) (c : DeviceClass) :
    m.files.KeepsFile (Host.databasePath dataDir) (m.write c).2.files := by
  have hpath : ∃ lead, m.path c.name = lead ++ ".json" := by
    unfold path
    simp only
    split
    · exact ⟨c.name, rfl⟩
    · exact ⟨m.dir ++ "/" ++ c.name, String.append_assoc.symm⟩
  obtain ⟨lead, hlead⟩ := hpath
  have hreplace : m.files.KeepsFile (Host.databasePath dataDir)
      (m.files.replace (m.path c.name) (content c)).2 := by
    rw [hlead]
    exact FileTree.replace_keepsFile (Host.apart_json dataDir lead)
      (Host.apart_beside dataDir (lead ++ ".json"))
  unfold write
  cases hw : m.files.replace (m.path c.name) (content c) with
  | mk result files =>
    rw [hw] at hreplace
    cases result <;> exact hreplace

theorem upsert_keepsFile (m : ManifestDirectory) (c : DeviceClass) :
    m.files.KeepsFile (Host.databasePath dataDir) (upsert m c).2.files := by
  have hcreate : ∀ c, ClassStore.create m c = m.write c := fun _ => rfl
  have hupdate : ∀ c, ClassStore.update m c = m.write c := fun _ => rfl
  unfold upsert
  split
  · exact fun _ hc => hc
  · have hkeeps := m.write_keepsFile dataDir c
    rw [hcreate]
    cases hw : m.write c with
    | mk result m' => rwa [hw] at hkeeps
  · split
    · exact fun _ hc => hc
    · rename_i stored _ _
      have hkeeps := m.write_keepsFile dataDir
        { c with resourceVersion := stored.resourceVersion }
      rw [hupdate]
      cases hw : m.write { c with resourceVersion := stored.resourceVersion } with
      | mk result m' => rwa [hw] at hkeeps

theorem publish_keepsFile (m : ManifestDirectory) (cs : List DeviceClass) :
    m.files.KeepsFile (Host.databasePath dataDir) (publish m cs).2.files := by
  induction cs generalizing m with
  | nil => exact fun _ hc => hc
  | cons c cs ih =>
    have hfirst := m.upsert_keepsFile dataDir c
    unfold publish
    cases hu : upsert m c with
    | mk result m' =>
      rw [hu] at hfirst
      cases result <;> exact hfirst.trans (ih m')

end ManifestDirectory

end SliceAgent
