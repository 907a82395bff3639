import SliceAgent.Proofs.FileLocality
import SliceAgent.Proofs.SpecifiedClaims
import SliceAgent.Proofs.StorageFailures

/-!
The specifications of other names. A call changes no file of a specification but that of its own claim,
and a start writes the common one as it was (`NodeSetup.Leads.spares_specs`). The common one goes by a
name that a claim may have too, and then the claim has it.
-/
namespace SliceAgent

open FileTree

theorem FileTree.AgreesOn.read_ok {t t' : FileTree} {K : Set String} {path : String}
    {content : ByteArray} (h : t.AgreesOn K t') (hK : t.keysAt path ⊆ K) :
    t'.read path = .ok content ↔ t.read path = .ok content := by
  simp only [read_ok_iff, h.directories.locate]
  refine exists_congr fun place => and_congr_right fun hplace => ?_
  rw [h.node?_eq (hK ⟨place, hplace, rfl⟩)]

section Effects

variable {r : CdiRoot} {h : Host} {n : Node} {call : NodeCall} {es : List HostEffect}
  {uid name : String} {content : ByteArray}

theorem CdiRoot.IsClear.read_applyAll (hclear : r.IsClear h.files)
    (hes : ∀ e ∈ es, e.keys h.files ⊆ r.specKeys h.files uid) (hne : name ≠ uid) :
    (h.applyAll es).files.read (r.specPath name) = .ok content ↔
      h.files.read (r.specPath name) = .ok content := by
  have hdisjoint := (hclear.isFlat name).disjoint_specKeys (hclear.isFlat uid) hne
  have hkeys : h.files.keysAt (r.specPath name) ⊆ (r.specKeys h.files uid)ᶜ :=
    Set.subset_union_right.trans hdisjoint.subset_compl_right
  exact (Host.applyAll_off hes).read_ok hkeys

namespace Node

theorem effects_keys (n : Node) (t : FileTree) (hcall : call.uid? = some uid) :
    ∀ e ∈ n.effects call, e.keys t ⊆ n.cdi.specKeys t uid := by
  refine n.forall_effects call ?_ ?_ ?_
  · intro other edits hother
    cases hcall.symm.trans hother
    exact CdiRoot.keys_writeEffects
  · intro other hother
    cases hcall.symm.trans hother
    exact Set.subset_union_right
  · exact fun _ _ _ _ => Set.empty_subset _

theorem read_of_effects (hclear : n.cdi.IsClear n.host.files) (hcall : call.uid? ≠ some name)
    {done : List HostEffect} (hdone : done <+: n.effects call) :
    (n.host.applyAll done).files.read (n.cdi.specPath name) = .ok content ↔
      n.host.files.read (n.cdi.specPath name) = .ok content := by
  cases huid : call.uid? with
  | some uid =>
    have hne : name ≠ uid := fun h => hcall (h ▸ huid)
    have hkeys := n.effects_keys n.host.files huid
    exact hclear.read_applyAll (fun e he => hkeys e (hdone.subset he)) hne
  | none =>
    cases call with
    | reconcile =>
      rw [List.prefix_nil.1 hdone]
      rfl
    | prepare claim => cases huid
    | unprepare uid => cases huid

end Node

end Effects

section Common

variable {r : CdiRoot} {h : Host} {n : Node} {call : NodeCall}

structure Host.HasCommon (r : CdiRoot) (h : Host) : Prop where
  clear : r.IsClear h.files
  read : h.files.read (r.specPath CdiRoot.common) = .ok (r.spec CdiRoot.common r.commonEdits).content

theorem Host.HasCommon.writeEffects (hs : h.HasCommon r) :
    Host.Throughout (Host.HasCommon r) (r.writeEffects CdiRoot.common r.commonEdits) h := by
  obtain ⟨hclear, hread⟩ := hs
  have hapart : h.files.Apart (r.specPath CdiRoot.common) (r.specPath CdiRoot.common ++ ".tmp") :=
    hclear.apart_beside
  have hkeep := h.apply_keepsFile (e := .write (r.specPath CdiRoot.common ++ ".tmp")
    (r.spec CdiRoot.common r.commonEdits).content) hapart
  have hwritten := hclear.congr (h.apply_sameDirectories (.write (r.specPath CdiRoot.common ++ ".tmp")
    (r.spec CdiRoot.common r.commonEdits).content))
  have hmoved := hwritten.congr (Host.apply_sameDirectories _ (.rename
    (r.specPath CdiRoot.common ++ ".tmp") (r.specPath CdiRoot.common)))
  refine ⟨⟨hclear, hread⟩, ⟨hwritten, hkeep _ hread⟩, hmoved, ?_⟩
  -- Either step may fail, and then the old file stays; the new one has the same content.
  simp only [Host.apply] at hkeep ⊢
  cases hw : h.files.write (r.specPath CdiRoot.common ++ ".tmp")
      (r.spec CdiRoot.common r.commonEdits).content with
  | error e =>
    rw [Except.toOption, Option.getD_none, rename_of_write_error hw, Option.getD_none]
    exact hread
  | ok written =>
    rw [hw] at hkeep
    simp only [Except.toOption, Option.getD_some] at hkeep ⊢
    cases hr : written.rename (r.specPath CdiRoot.common ++ ".tmp") (r.specPath CdiRoot.common) with
    | error e => exact hkeep _ hread
    | ok moved => exact read_rename hr (read_write hw)

theorem Host.HasCommon.startEffects (hs : h.HasCommon r) :
    Host.Throughout (Host.HasCommon r) (Node.startEffects r h) h := by
  have hcommon : Host.Throughout (Host.HasCommon r) (h.commonSpecEffects r) h := by
    unfold Host.commonSpecEffects
    split
    · exact hs
    · exact hs.writeEffects
  refine hcommon.append ?_
  have hlast := hcommon.last
  split
  · unfold Host.recordEffects
    split
    · exact hlast
    · exact ⟨hlast, hlast.clear, hlast.read⟩
  · exact hlast

theorem Node.hasCommon_effects (hs : n.host.HasCommon n.cdi) (hcall : call.uid? ≠ some CdiRoot.common) :
    Host.Throughout (Host.HasCommon n.cdi) (n.effects call) n.host := by
  refine Host.throughout_of_upTo fun done hdone => ⟨?_, ?_⟩
  · exact hs.clear.congr (n.host.applyAll_sameDirectories done)
  · exact (n.read_of_effects hs.clear hcall hdone).2 hs.read

theorem Host.read_of_writeCommonSpec (hok : (h.writeCommonSpec r).1 = .ok ()) :
    (h.writeCommonSpec r).2.files.read (r.specPath CdiRoot.common) =
      .ok (r.spec CdiRoot.common r.commonEdits).content := by
  obtain ⟨hwrite, hfiles⟩ := changeFiles_of_ok hok
  rw [writeCommonSpec, hfiles]
  exact CdiRoot.read_of_write hwrite

theorem Node.start_writes_common {cdi : CdiRoot} {claims : ClaimSettings} {engine : Engine}
    {inventory : Inventory} {host host' : Host}
    (hstart : start cdi claims engine inventory host = (.ok n, host')) :
    (host.writeCommonSpec cdi).1 = .ok () ∧ n.host.files = (host.writeCommonSpec cdi).2.files := by
  unfold start at hstart
  cases hw : host.writeCommonSpec cdi with
  | mk result written =>
    rw [hw] at hstart
    cases result with
    | error e => cases hstart
    | ok u =>
      refine ⟨rfl, ?_⟩
      simp only at hstart
      split at hstart
      · cases hstart
      · cases hstart
        rfl
      · rcases written.writeCheckpoint_cases .new with ⟨_, _, hc⟩ | ⟨_, hc⟩
        · rw [hc] at hstart
          cases hstart
        · rw [hc] at hstart
          cases hstart
          rfl

theorem NodeSetup.Starts.hasCommon {s : NodeSetup} {host : Host} (hstart : s.Starts host n)
    (hclear : s.cdi.IsClear host.files) : n.host.HasCommon s.cdi := by
  have hhost := hstart.host_eq.2
  obtain ⟨inventory, engine, host', _, hstarted⟩ := hstart
  obtain ⟨hok, hfiles⟩ := Node.start_writes_common hstarted
  refine ⟨?_, ?_⟩
  · rw [hhost]
    exact hclear.congr (host.applyAll_sameDirectories _)
  · rw [hfiles]
    exact Host.read_of_writeCommonSpec hok

end Common

theorem CdiRoot.nodup_deviceIds_iff {r : CdiRoot} {uid : String} :
    (r.deviceIds uid).Nodup ↔ uid ≠ CdiRoot.common := by
  have hinj : r.qualifiedName CdiRoot.common = r.qualifiedName uid ↔ CdiRoot.common = uid := by
    simp only [qualifiedName, ← String.toList_inj, String.toList_append, List.append_cancel_left_eq]
  rw [deviceIds, List.nodup_cons, List.mem_singleton, hinj, ne_comm]
  exact and_iff_left (List.nodup_singleton _)

theorem Node.read_of_prepare {n : Node} {claim : ResourceClaim} {c : Checkpoint}
    {devices : List PreparedDevice} (hread : n.host.readCheckpoint = .ok c)
    (hnone : c.find? claim.uid = none) (hok : (n.prepare claim).1 = .ok devices) :
    (n.prepare claim).2.host.files.read (n.cdi.specPath claim.uid) =
      .ok (n.cdi.claimContent claim.uid devices) := by
  have hnew := hok
  rw [prepare_of_absent hread hnone] at hnew
  obtain ⟨hg, hspec, hwrite⟩ := prepareNew_ok_iff.1 hnew
  rw [prepare_ok hread hnone hg hspec hwrite]
  exact Host.read_of_writeClaimSpec hspec

namespace NodeSetup

variable {s : NodeSetup} {calls : NodeCall → Prop} {b : System} {host : Host} {n n₀ : Node}

theorem Leads.keeps_clear {a : System} (hrun : s.Leads calls s.cdi.Respects a b)
    (hclear : s.cdi.IsClear a.host.files) : s.cdi.IsClear b.host.files := by
  refine (hrun.keeps (q := fun _ => True) (p := fun h => s.cdi.IsClear h.files) trivial ?_ ?_ ?_ ?_
    hclear).2
  · exact fun h files faults hothers hclear => hothers.1 hclear
  · exact fun n call _ _ hclear => Host.throughout_of_upTo fun done _ =>
      hclear.congr (n.host.applyAll_sameDirectories done)
  · exact fun h hclear => Host.throughout_of_upTo fun done _ =>
      hclear.congr (h.applyAll_sameDirectories done)
  · cases a <;> trivial

theorem Leads.keeps_cdi {a : System} (hrun : s.Leads calls s.cdi.Respects a b)
    (ha : a.Under (· = s.cdi)) : b.Under (· = s.cdi) :=
  (hrun.keeps (q := (· = s.cdi)) (p := fun _ => True) rfl (fun _ _ _ _ _ => trivial)
    (fun _ _ _ _ _ => Host.throughout_of_upTo fun _ _ => trivial)
    (fun _ _ => Host.throughout_of_upTo fun _ _ => trivial) ha trivial).1

theorem Leads.hasCommon (hrun : s.Leads calls s.cdi.Respects (.up n₀) b) (hcdi : n₀.cdi = s.cdi)
    (h₀ : n₀.host.HasCommon s.cdi) (hcalls : ∀ call, calls call → call.uid? ≠ some CdiRoot.common) :
    b.host.HasCommon s.cdi := by
  refine (hrun.keeps (q := (· = s.cdi)) rfl ?_ ?_ ?_ hcdi h₀).2
  · exact fun h files faults hothers hs => ⟨hothers.1 hs.clear, hothers.2 _ _ hs.read⟩
  · intro n call hsame hallowed hs
    rw [← hsame] at hs ⊢
    exact Node.hasCommon_effects hs (hcalls call hallowed)
  · exact fun h hs => hs.startEffects

/-- From a start, through any calls, failures, restarts and crashes: the common specification is that of
the node and its driver as long as no call is about a claim of its name. A call changes no specification
but that of its claim, also where it breaks off. The names that a container of a claim refers to are two
unless the claim has the name of the common one; and once such a claim is prepared, its edits are the
common ones. -/
theorem Leads.spares_specs (hclear : s.cdi.IsClear host.files) (hstart : s.Starts host n₀)
    (hrun : s.Leads calls s.cdi.Respects (.up n₀) b) :
    ((∀ call, calls call → call.uid? ≠ some CdiRoot.common) →
      s.cdi.read b.host.files CdiRoot.common = .ok (s.cdi.spec CdiRoot.common s.cdi.commonEdits)) ∧
    (∀ n call uid done name content, b = .up n → call.uid? = some uid → done <+: n.effects call →
      name ≠ uid → ((n.host.applyAll done).files.read (s.cdi.specPath name) = .ok content ↔
        n.host.files.read (s.cdi.specPath name) = .ok content)) ∧
    (∀ uid, (s.cdi.deviceIds uid).Nodup ↔ uid ≠ CdiRoot.common) ∧
    ∀ n claim c devices, b = .up n → claim.uid = CdiRoot.common → n.host.readCheckpoint = .ok c →
      c.find? claim.uid = none → (n.prepare claim).1 = .ok devices →
        s.cdi.read (n.prepare claim).2.host.files CdiRoot.common =
          .ok (s.cdi.spec CdiRoot.common (CdiRoot.claimEdits devices)) := by
  have hcdi₀ := hstart.host_eq.1
  have hcommon₀ := hstart.hasCommon hclear
  have hcdi := hrun.keeps_cdi hcdi₀
  refine ⟨fun hcalls => ?_, ?_, fun uid => CdiRoot.nodup_deviceIds_iff, ?_⟩
  · exact CdiRoot.read_of_content (hrun.hasCommon hcdi₀ hcommon₀ hcalls).read
  · rintro n call uid done name content rfl hcall hdone hne
    have hclear' := hrun.keeps_clear hcommon₀.clear
    have hsame : n.cdi = s.cdi := hcdi
    have hother : call.uid? ≠ some name := fun h => hne (Option.some.inj (h.symm.trans hcall))
    rw [← hsame] at hclear' ⊢
    exact n.read_of_effects hclear' hother hdone
  · rintro n claim c devices rfl hname hread hnone hok
    have hsame : n.cdi = s.cdi := hcdi
    have hspec := Node.read_of_prepare hread hnone hok
    rw [hsame, hname] at hspec
    exact CdiRoot.read_of_content hspec

end NodeSetup

section Sample

theorem sampleCarved_leads_apart :
    sampleSetup.Leads (fun call => call.uid? ≠ some CdiRoot.common) sampleSetup.cdi.Respects
      (.up sampleStart) (.up sampleCarved) := by
  have hcall : sampleSetup.Leads (fun call => call.uid? ≠ some CdiRoot.common)
      sampleSetup.cdi.Respects (.up sampleStart) (.up sampleStart) := .refl
  have hprepared := hcall.call (.prepare (sampleClaim "c-1" "npu-0-0")) (by decide)
  rwa [Node.perform, sampleStart_prepare] at hprepared

theorem NodeSetup.Leads.spares_specs_carved : sampleSetup.cdi.IsClear sampleHost.files ∧
    sampleSetup.Starts sampleHost sampleStart ∧
    sampleSetup.Leads (fun call => call.uid? ≠ some CdiRoot.common) sampleSetup.cdi.Respects
      (.up sampleStart) (.up sampleCarved) ∧
    sampleSetup.cdi.read sampleCarved.host.files CdiRoot.common =
      .ok (sampleSetup.cdi.spec CdiRoot.common sampleSetup.cdi.commonEdits) := by
  have hspares := NodeSetup.Leads.spares_specs sampleHost_isClear sampleStart_starts
    sampleCarved_leads_apart
  exact ⟨sampleHost_isClear, sampleStart_starts, sampleCarved_leads_apart,
    hspares.1 fun _ hcall => hcall⟩

def sampleReserved : ResourceClaim := ⟨CdiRoot.common, "default", CdiRoot.common, none⟩

theorem sampleReserved_removes : (sampleStart.prepare sampleReserved).2.host.files.read
    (sampleSetup.cdi.specPath CdiRoot.common) = .error .missing := by
  have hrefused : (sampleStart.granting sampleReserved).1 =
      .error (.notAllocated CdiRoot.common) := rfl
  have herr := Node.prepareNew_of_refused (c := .new) hrefused
  rw [← Node.prepare_of_absent sampleStart_read rfl] at herr
  exact Node.unspecified_of_error rfl herr sampleStart_read (ok_of_toOption (by decide +kernel))

/-- A claim under the name of the common specification has it removed when it fails to be prepared, and
its two qualified names are the same. -/
theorem NodeSetup.Leads.not_spares_common :
    ¬ (∀ (s : NodeSetup) (host : Host) (n₀ n : Node), s.cdi.IsClear host.files → s.Starts host n₀ →
      s.Leads (fun _ => True) s.cdi.Respects (.up n₀) (.up n) →
        s.cdi.read n.host.files CdiRoot.common =
          .ok (s.cdi.spec CdiRoot.common s.cdi.commonEdits)) ∧
    ¬ ∀ (r : CdiRoot) (uid : String), (r.deviceIds uid).Nodup := by
  constructor
  · intro h
    have hrun : sampleSetup.Leads (fun _ => True) sampleSetup.cdi.Respects (.up sampleStart)
        (.up (sampleStart.perform (.prepare sampleReserved))) := Leads.refl.call _ trivial
    have hread := h sampleSetup sampleHost _ _ sampleHost_isClear sampleStart_starts hrun
    rw [CdiRoot.read, Node.perform, sampleReserved_removes] at hread
    cases hread
  · intro h
    exact CdiRoot.nodup_deviceIds_iff.1 (h sampleSetup.cdi CdiRoot.common) rfl

end Sample

end SliceAgent
