import SliceAgent.Proofs.DurableClaims
import SliceAgent.Proofs.NodeRecords
import SliceAgent.Proofs.SpecFiles

/-!
Every claim on record has its specification (`NodeSetup.Leads.specified`), whatever fails and wherever
a node breaks off: the specification is written before the record, and the record goes before the
specification does.
-/
namespace SliceAgent

variable {r : CdiRoot} {h : Host} {name uid : String} {content : ByteArray} {edits : ContainerEdits}
  {devices : List PreparedDevice} {c : Checkpoint}

def CdiRoot.claimContent (r : CdiRoot) (uid : String) (devices : List PreparedDevice) : ByteArray :=
  (r.spec uid (CdiRoot.claimEdits devices)).content

/-- The claims of a record have their specifications. The name of the common one is reserved. -/
def CdiRoot.Covers (r : CdiRoot) (c : Checkpoint) (t : FileTree) : Prop :=
  ∀ uid devices, c.find? uid = some devices → uid ≠ CdiRoot.common →
    t.read (r.specPath uid) = .ok (r.claimContent uid devices)

namespace Host

/-- What is on record is specified, whether or not the record can be read at present. -/
structure Specified (r : CdiRoot) (h : Host) : Prop where
  clear : r.IsClear h.files
  covers : ∀ c, h.stored? = some c → r.Covers c h.files

def Lacks (h : Host) (name : String) : Prop :=
  name = CdiRoot.common ∨ ∀ c, h.stored? = some c → c.find? name = none

theorem Specified.apply {e : HostEffect} (hs : h.Specified r) (hrecord : ¬ e.IsRecord)
    (hspares : ∀ name, ¬ h.Lacks name → e.Spares h.files (r.specPath name)) :
    (h.apply e).Specified r := by
  refine ⟨hs.clear.congr (h.apply_sameDirectories e), fun c hstored uid devices hfind hne => ?_⟩
  rw [stored?, h.apply_store hrecord] at hstored
  refine h.apply_keepsFile (hspares uid ?_) _ (hs.covers c hstored uid devices hfind hne)
  rintro (hcommon | hnone)
  · exact hne hcommon
  · cases (hnone c hstored).symm.trans hfind

theorem ne_of_not_lacks {other : String} (hlacks : h.Lacks name) (hother : ¬ h.Lacks other) :
    other ≠ name := by
  rintro rfl
  exact hother hlacks

theorem Specified.apply_write (hs : h.Specified r) (name : String) (content : ByteArray) :
    (h.apply (.write (r.specPath name ++ ".tmp") content)).Specified r :=
  hs.apply not_false fun _ _ => hs.clear.apart_beside

theorem Specified.apply_rename (hs : h.Specified r) (hlacks : h.Lacks name) :
    (h.apply (.rename (r.specPath name ++ ".tmp") (r.specPath name))).Specified r :=
  hs.apply not_false fun _ hother =>
    ⟨hs.clear.apart_beside, hs.clear.apart (ne_of_not_lacks hlacks hother)⟩

theorem Specified.apply_remove (hs : h.Specified r) (hlacks : h.Lacks name) :
    (h.apply (.remove (r.specPath name))).Specified r :=
  hs.apply not_false fun _ hother => hs.clear.apart (ne_of_not_lacks hlacks hother)

theorem Specified.apply_record (hs : h.Specified r) (hc : r.Covers c h.files) :
    (h.apply (.record c)).Specified r := by
  refine ⟨hs.clear, fun c' hstored => ?_⟩
  cases (h.stored?_apply_record c).symm.trans hstored
  exact hc

theorem Specified.writeEffects (hs : h.Specified r) (hlacks : h.Lacks name) :
    Throughout (Specified r) (r.writeEffects name edits) h :=
  have hwritten := hs.apply_write name (r.spec name edits).content
  ⟨hs, hwritten, hwritten.apply_rename hlacks⟩

theorem Specified.claimSpecEffects (hs : h.Specified r) (hlacks : h.Lacks uid)
    (devices : List PreparedDevice) :
    Throughout (Specified r) (h.claimSpecEffects r uid devices) h := by
  unfold Host.claimSpecEffects
  split
  · exact hs
  · exact hs.writeEffects hlacks

theorem Specified.removalEffects (hs : h.Specified r) (hlacks : h.Lacks uid) (h₀ : Host) :
    Throughout (Specified r) (h₀.removalEffects r uid) h := by
  unfold Host.removalEffects
  split
  · exact hs
  · exact ⟨hs, hs.apply_remove hlacks⟩

theorem Specified.recordEffects (hs : h.Specified r) (hc : r.Covers c h.files) (h₀ : Host) :
    Throughout (Specified r) (h₀.recordEffects c) h := by
  unfold Host.recordEffects
  split
  · exact hs
  · exact ⟨hs, hs.apply_record hc⟩

theorem read_of_writeClaimSpec (hok : (h.writeClaimSpec r uid devices).1 = .ok ()) :
    (h.writeClaimSpec r uid devices).2.files.read (r.specPath uid) =
      .ok (r.claimContent uid devices) := by
  obtain ⟨hwrite, hfiles⟩ := changeFiles_of_ok hok
  rw [writeClaimSpec, hfiles]
  exact CdiRoot.read_of_write hwrite

end Host

namespace Node

open Host

variable {n : Node} {claim : ResourceClaim} {call : NodeCall}

theorem specified_failureEffects (hs : h.Specified n.cdi) (hlacks : h.Lacks uid) :
    Throughout (Specified n.cdi) (n.failureEffects uid) h := by
  unfold failureEffects
  split
  · exact hs
  · exact hs.removalEffects hlacks n.host

theorem specified_commitEffects (hs : n.host.Specified n.cdi) (hstored : n.host.stored? = some c)
    (hnone : c.find? uid = none) (devices : List PreparedDevice) :
    Throughout (Specified n.cdi) (n.commitEffects c uid devices) n.host := by
  have hlacks : n.host.Lacks uid := by
    refine .inr fun c' hc' => ?_
    cases hstored.symm.trans hc'
    exact hnone
  have hspec := hs.claimSpecEffects hlacks devices
  refine hspec.append ?_
  have hwritten := hspec.last
  rw [← writeClaimSpec_effects] at hwritten ⊢
  split
  · exact hwritten
  · rename_i hok
    refine hwritten.recordEffects ?_ n.host
    intro uid' ds hfind hne
    rw [Checkpoint.find?, Checkpoint.insert, Dict.find?_insert] at hfind
    split at hfind
    · rename_i heq
      cases hfind
      rw [heq]
      exact read_of_writeClaimSpec hok
    · refine hwritten.covers c ?_ uid' ds hfind hne
      obtain ⟨files, hfiles⟩ := n.host.writeClaimSpec_host n.cdi uid devices
      rw [hfiles]
      exact hstored

theorem specified_prepareEffects (hs : n.host.Specified n.cdi) (hstored : n.host.stored? = some c)
    (hnone : c.find? claim.uid = none) :
    Throughout (Specified n.cdi) (n.prepareEffects claim c) n.host := by
  have hlacks : ∀ {h : Host}, h.stored? = some c → h.Lacks claim.uid := by
    intro h hc
    refine .inr fun c' hc' => ?_
    cases hc.symm.trans hc'
    exact hnone
  unfold prepareEffects
  split
  · exact specified_failureEffects hs (hlacks hstored)
  · rename_i devices _
    have hcommit := specified_commitEffects hs hstored hnone devices
    refine hcommit.append ?_
    have hhost := ((n.adopt (n.granting claim).2).commit_host c claim.uid devices).1
    split
    · rename_i e herror
      refine specified_failureEffects hcommit.last (hlacks ?_)
      rw [show n.host.applyAll (n.commitEffects c claim.uid devices) = _ from hhost.symm]
      rcases (n.adopt (n.granting claim).2).commit_cases c claim.uid devices with
        ⟨_, files, hc⟩ | ⟨files, hc⟩
      · rw [hc]
        exact hstored
      · rw [hc] at herror
        cases herror
    · exact hcommit.last

theorem specified_forgetEffects (hs : n.host.Specified n.cdi) (hstored : n.host.stored? = some c) :
    Throughout (Specified n.cdi) (n.forgetEffects (c.erase uid) uid) n.host := by
  have hcovers : n.cdi.Covers (c.erase uid) n.host.files := by
    intro uid' ds hfind hne
    rw [Checkpoint.find?, Checkpoint.erase, Dict.find?_erase] at hfind
    split at hfind
    · cases hfind
    · exact hs.covers c hstored uid' ds hfind hne
  have hrecord := hs.recordEffects hcovers n.host
  refine hrecord.append ?_
  have herased := hrecord.last
  rw [← writeCheckpoint_effects] at herased ⊢
  rcases n.host.writeCheckpoint_cases (c.erase uid) with ⟨_, _, hc⟩ | ⟨_, hc⟩
  · rw [hc] at herased ⊢
    exact herased
  · rw [hc] at herased ⊢
    refine herased.removalEffects (.inr fun c' hc' => ?_) n.host
    cases (stored?_apply_record n.host (c.erase uid)).symm.trans hc'
    rw [Checkpoint.find?, Checkpoint.erase, Dict.find?_erase, if_pos rfl]

theorem specified_effects (hs : n.host.Specified n.cdi) (call : NodeCall) :
    Throughout (Specified n.cdi) (n.effects call) n.host := by
  unfold effects
  split
  · rename_i claim c hread
    split
    · exact hs
    · rename_i hnone
      exact specified_prepareEffects hs (stored?_of_read hread) hnone
  · rename_i uid c hread
    split
    · exact specified_forgetEffects hs (stored?_of_read hread)
    · exact hs
  · exact hs

theorem specified_startEffects (hs : h.Specified r) :
    Throughout (Specified r) (startEffects r h) h := by
  have hcommon : Throughout (Specified r) (h.commonSpecEffects r) h := by
    unfold commonSpecEffects
    split
    · exact hs
    · exact hs.writeEffects (.inl rfl)
  refine hcommon.append ?_
  split
  · refine hcommon.last.recordEffects ?_ _
    intro uid devices hfind
    cases hfind
  · exact hcommon.last

end Node

/-- A change of files by others, who leave readable specifications as they are and make no directories
among them. -/
def CdiRoot.Respects (r : CdiRoot) (t t' : FileTree) : Prop :=
  (r.IsClear t → r.IsClear t') ∧ ∀ name content, t.read (r.specPath name) = .ok content →
    t'.read (r.specPath name) = .ok content

namespace NodeSetup

variable {s : NodeSetup} {calls : NodeCall → Prop} {a b : System} {host : Host}

theorem Leads.keeps_specified (hrun : s.Leads calls s.cdi.Respects a b)
    (ha : a.Under (· = s.cdi)) (hs : a.host.Specified s.cdi) : b.host.Specified s.cdi := by
  refine (hrun.keeps (q := (· = s.cdi)) rfl ?_ ?_ ?_ ha hs).2
  · rintro h files faults ⟨hclear, hspared⟩ hs
    refine ⟨hclear hs.clear, fun c hstored uid devices hfind hne => hspared _ _ ?_⟩
    exact hs.covers c hstored uid devices hfind hne
  · intro n call hcdi _ hs
    rw [← hcdi] at hs ⊢
    exact Node.specified_effects hs call
  · intro h hs
    exact Node.specified_startEffects hs

/-- From a host without a record, and without directories among its specifications, through any calls,
failures, starts and crashes: each claim on record but one named as the common specification has a
specification of its own, with one device under its name, whose edits are those of the claim's devices
in the order of the record. -/
theorem Leads.specified (hfresh : host.stored? = none) (hclear : s.cdi.IsClear host.files)
    (hrun : s.Leads (fun _ => True) s.cdi.Respects (.down host) a) (hstored : a.host.stored? = some c)
    (hfind : c.find? uid = some devices) (hcommon : uid ≠ CdiRoot.common) :
    s.cdi.read a.host.files uid = .ok ⟨CdiRoot.version, s.cdi.kind, [⟨uid,
      ⟨devices.flatMap (·.edits.env), devices.flatMap (·.edits.deviceNodes),
        devices.flatMap (·.edits.hooks), devices.flatMap (·.edits.mounts)⟩⟩]⟩ := by
  have hstart : host.Specified s.cdi := by
    refine ⟨hclear, fun c hc => ?_⟩
    cases hfresh.symm.trans hc
  have hs := hrun.keeps_specified trivial hstart
  have hread := CdiRoot.read_of_content (hs.covers c hstored uid devices hfind hcommon)
  rw [hread, CdiRoot.spec, CdiRoot.claimEdits, ContainerEdits.concat_eq]
  simp only [List.flatMap_map]

end NodeSetup

section Sample

theorem sampleHost_isClear : sampleSetup.cdi.IsClear sampleHost.files := by
  intro name place hname hplace hdir
  have hdir' : FileTree.empty.node? ["cdi"] ≠ some .directory := by decide
  obtain ⟨last, hlast, hlead⟩ := FileTree.locate_append
    (sampleSetup.cdi.root ++ "/" ++ sampleSetup.cdi.vendor)
  have hfree : '/' ∉ ("-npu_" ++ name).toList := by simpa using hname
  have hlong : 5 ≤ ("-npu_" ++ name).length := by
    rw [String.length_append]
    exact Nat.le_add_right _ _
  obtain ⟨outer, rfl⟩ := hlead _ _ place hfree (by omega) hplace
  rw [sampleHost, FileTree.node?_put (by simp)] at hdir
  split at hdir
  · rename_i hkey
    have hcdi : last ++ ("-npu_" ++ name) = "cdi" :=
      FileTree.name_eq_of_key_eq (by simpa using ⟨hlast, hname⟩) (by decide) hkey
    have hlength := congrArg String.length hcdi
    rw [String.length_append] at hlength
    have hthree : "cdi".length = 3 := by decide
    omega
  · cases hdir

theorem sampleCarved_leads : sampleSetup.Leads (fun _ => True) sampleSetup.cdi.Respects
    (.down sampleHost) (.up sampleCarved) := by
  have hstart : sampleSetup.Leads (fun _ => True) sampleSetup.cdi.Respects (.down sampleHost)
      (.up sampleStart) := .start .refl sampleStart_starts
  have hcall := hstart.call (.prepare (sampleClaim "c-1" "npu-0-0")) trivial
  rwa [Node.perform, sampleStart_prepare] at hcall

theorem NodeSetup.Leads.specified_carved :
    sampleSetup.Leads (fun _ => True) sampleSetup.cdi.Respects (.down sampleHost) (.up sampleCarved) ∧
      sampleCarved.host.stored? = some sampleRecord ∧ sampleRecord.find? "c-1" = some sampleDevices ∧
      ∃ edits, sampleSetup.cdi.read (System.up sampleCarved).host.files "c-1" =
        .ok ⟨CdiRoot.version, sampleSetup.cdi.kind, [⟨"c-1", edits⟩]⟩ := by
  have hfresh : sampleHost.stored? = none := rfl
  have hstored : (System.up sampleCarved).host.stored? = some sampleRecord :=
    Host.stored?_of_read sampleCarved_read
  have hcommon : "c-1" ≠ CdiRoot.common := by decide
  have hread := NodeSetup.Leads.specified hfresh sampleHost_isClear sampleCarved_leads hstored
    sampleRecord_find? hcommon
  exact ⟨sampleCarved_leads, hstored, sampleRecord_find?, _, hread⟩

end Sample

end SliceAgent
