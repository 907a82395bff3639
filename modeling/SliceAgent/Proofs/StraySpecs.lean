import SliceAgent.Proofs.RolledBack
import SliceAgent.Proofs.SparedSpecs

/-!
A claim that is unprepared by one attempt after another. Its record goes before its specification does,
and an attempt finds nothing to do once the record is gone; so a specification that could not be removed
then is left for good (`NodeSetup.Unprepares.spec_left_iff`).
-/
namespace SliceAgent

open Host

variable {r : CdiRoot} {h h' : Host} {uid : String} {devices : List PreparedDevice} {n n₀ m : Node}
  {result : Except NodeError Unit} {results : List (Except NodeError Unit)}

/-- A change of files by others, who leave a specification as it is. -/
def CdiRoot.LeavesSpec (r : CdiRoot) (name : String) (t t' : FileTree) : Prop :=
  (r.IsClear t → r.IsClear t') ∧
    ∀ content, t'.read (r.specPath name) = .ok content ↔ t.read (r.specPath name) = .ok content

/-- What becomes of a node by attempts to unprepare a claim, with what each of them reports. Between
them, accesses may begin or cease to fail, other claims come and go, and the node may be started
again. -/
inductive NodeSetup.Unprepares (s : NodeSetup) (uid : String) (n₀ : Node) :
    List (Except NodeError Unit) → Node → Prop
  | start : Unprepares s uid n₀ [] n₀
  | disturb {results : List (Except NodeError Unit)} {n : Node} (files : FileTree) (faults : Faults) :
      Unprepares s uid n₀ results n → s.cdi.LeavesSpec uid n.host.files files →
      Unprepares s uid n₀ results (n.disturbed files faults)
  | call {results : List (Except NodeError Unit)} {n : Node} (call : NodeCall) :
      Unprepares s uid n₀ results n → call.uid? ≠ some uid →
      Unprepares s uid n₀ results (n.perform call)
  | unprepare {results : List (Except NodeError Unit)} {n : Node} : Unprepares s uid n₀ results n →
      Unprepares s uid n₀ (results ++ [(n.unprepare uid).1]) (n.perform (.unprepare uid))
  | restart {results : List (Except NodeError Unit)} {n m : Node} : Unprepares s uid n₀ results n →
      s.Starts n.host m → Unprepares s uid n₀ results m

def RemovalFailed (results : List (Except NodeError Unit)) : Prop := ∃ e, .error (.cdi e) ∈ results

theorem removalFailed_snoc : RemovalFailed (results ++ [result]) ↔
    RemovalFailed results ∨ ∃ e, result = .error (.cdi e) := by
  simp only [RemovalFailed, List.mem_append, List.mem_singleton, exists_or, eq_comm]

/-- How far attempts with certain results have brought a claim: it is on record and specified, and no
removal has failed, or it is on record no more and its specification is left if a removal failed. -/
inductive CdiRoot.Progress (r : CdiRoot) (uid : String) (devices : List PreparedDevice)
    (results : List (Except NodeError Unit)) (h : Host) : Prop
  | recorded : h.HasEntry uid (some devices) →
      h.files.read (r.specPath uid) = .ok (r.claimContent uid devices) →
      ¬ RemovalFailed results → Progress r uid devices results h
  | forgotten : h.HasEntry uid none →
      (∀ content, h.files.read (r.specPath uid) = .ok content ↔
        content = r.claimContent uid devices ∧ RemovalFailed results) →
      Progress r uid devices results h

namespace CdiRoot.Progress

theorem of_same (hp : r.Progress uid devices results h)
    (hentry : ∀ entry, h.HasEntry uid entry → h'.HasEntry uid entry)
    (hread : ∀ content, h'.files.read (r.specPath uid) = .ok content ↔
      h.files.read (r.specPath uid) = .ok content) : r.Progress uid devices results h' := by
  cases hp with
  | recorded hrecorded hspec hclean =>
    exact .recorded (hentry _ hrecorded) ((hread _).2 hspec) hclean
  | forgotten hnone hspec =>
    exact .forgotten (hentry _ hnone) fun content => (hread content).trans (hspec content)

theorem entry_of_stored {entry entry' : Option (List PreparedDevice)} (he : h.HasEntry uid entry)
    (he' : h.HasEntry uid entry') : entry = entry' := by
  obtain ⟨c, hstored, rfl⟩ := he
  obtain ⟨c', hstored', rfl⟩ := he'
  cases hstored.symm.trans hstored'
  rfl

theorem snoc_of_same (hp : r.Progress uid devices results h)
    (hresult : ∀ e, result ≠ .error (.cdi e)) : r.Progress uid devices (results ++ [result]) h := by
  have hsame : RemovalFailed (results ++ [result]) ↔ RemovalFailed results := by
    rw [removalFailed_snoc]
    exact or_iff_left fun ⟨e, he⟩ => hresult e he
  cases hp with
  | recorded hrecorded hspec hclean => exact .recorded hrecorded hspec (hsame.not.2 hclean)
  | forgotten hnone hspec =>
    refine .forgotten hnone fun content => (hspec content).trans ?_
    rw [hsame]

end CdiRoot.Progress

section Removal

theorem Host.removeClaimSpec_of_ne_ok (hne : (h.removeClaimSpec r uid).1 ≠ .ok ()) :
    (h.removeClaimSpec r uid).2 = h := by
  unfold removeClaimSpec at hne ⊢
  cases hfault : h.faults.removeClaimSpec with
  | some text => rfl
  | none =>
    simp only [hfault, changeFiles] at hne ⊢
    unfold CdiRoot.removeClaim at hne ⊢
    cases hr : h.files.remove (r.specPath uid) with
    | ok files =>
      rw [hr] at hne
      exact absurd rfl hne
    | error e =>
      rw [hr] at hne
      cases e with
      | missing => exact absurd rfl hne
      | _ => rfl

theorem Node.forget_host_cases (n : Node) (c : Checkpoint) (uid : String) :
    ((∃ e, (n.forget c uid).1 = .error (.store e)) ∧ (n.forget c uid).2.host = n.host) ∨
    (n.forget c uid).2.host.stored? = some c ∧
      ((n.forget c uid).1 = .ok () ∧
          (n.forget c uid).2.host.files.read (n.cdi.specPath uid) = .error .missing ∨
        (∃ e, (n.forget c uid).1 = .error (.cdi e)) ∧
          (n.forget c uid).2.host.files = n.host.files) := by
  unfold forget
  rcases n.host.writeCheckpoint_cases c with ⟨_, _, hc⟩ | ⟨_, hc⟩
  · rw [hc]
    exact .inl ⟨⟨_, rfl⟩, rfl⟩
  · rw [hc]
    have hstored : (n.storing c).host.stored? = some c := stored?_storing c
    have hmissing : ((n.storing c).host.removeClaimSpec n.cdi uid).1 = .ok () →
        ((n.storing c).host.removeClaimSpec n.cdi uid).2.files.read (n.cdi.specPath uid) =
          .error .missing := read_of_removeClaimSpec
    have hsame : ((n.storing c).host.removeClaimSpec n.cdi uid).1 ≠ .ok () →
        ((n.storing c).host.removeClaimSpec n.cdi uid).2 = (n.storing c).host :=
      removeClaimSpec_of_ne_ok
    obtain ⟨files, hfiles⟩ := (n.storing c).host.removeClaimSpec_host n.cdi uid
    simp only [storing] at hstored hmissing hsame hfiles ⊢
    cases hrm : removeClaimSpec { n.host with store := n.host.store.put Checkpoint.storedName c } n.cdi
        uid with
    | mk result host =>
      rw [hrm] at hmissing hsame hfiles
      cases result with
      | ok u =>
        obtain rfl : host = _ := hfiles
        exact .inr ⟨hstored, .inl ⟨rfl, hmissing rfl⟩⟩
      | error e =>
        have hfailed : (Except.error e, host).1 ≠ .ok () := fun hok => by cases hok
        obtain rfl := hsame hfailed
        exact .inr ⟨hstored, .inr ⟨⟨e, rfl⟩, rfl⟩⟩

theorem Node.unprepare_host (hentry : n.host.HasEntry uid (some devices)) :
    ((∃ e, (n.unprepare uid).1 = .error (.store e)) ∧ (n.unprepare uid).2.host = n.host) ∨
    (n.unprepare uid).2.host.HasEntry uid none ∧
      ((n.unprepare uid).1 = .ok () ∧
          (n.unprepare uid).2.host.files.read (n.cdi.specPath uid) = .error .missing ∨
        (∃ e, (n.unprepare uid).1 = .error (.cdi e)) ∧
          (n.unprepare uid).2.host.files = n.host.files) := by
  obtain ⟨c, hstored, hfind⟩ := hentry
  cases hread : n.host.readCheckpoint with
  | error e =>
    rw [unprepare_of_unread hread]
    exact .inl ⟨⟨e, rfl⟩, rfl⟩
  | ok c' =>
    cases (stored?_of_read hread).symm.trans hstored
    rw [unprepare_of_recorded hread hfind]
    have herased : (c.erase uid).find? uid = none := (Dict.find?_erase ..).trans (if_pos rfl)
    rcases forget_host_cases (n.after ((releaseOrder devices).map .release)) (c.erase uid) uid with
      hfail | ⟨hstored, hremoved⟩
    · exact .inl hfail
    · exact .inr ⟨⟨_, hstored, herased⟩, hremoved⟩

theorem Node.unprepare_forgotten (hentry : n.host.HasEntry uid none) :
    (∀ e, (n.unprepare uid).1 ≠ .error (.cdi e)) ∧ (n.unprepare uid).2 = n := by
  obtain ⟨c, hstored, hfind⟩ := hentry
  cases hread : n.host.readCheckpoint with
  | error e =>
    rw [unprepare_of_unread hread]
    exact ⟨fun _ => nofun, rfl⟩
  | ok c' =>
    cases (stored?_of_read hread).symm.trans hstored
    rw [unprepare_of_absent hread hfind]
    exact ⟨fun _ => nofun, rfl⟩

theorem CdiRoot.Progress.unprepare (hp : n.cdi.Progress uid devices results n.host) :
    n.cdi.Progress uid devices (results ++ [(n.unprepare uid).1]) (n.unprepare uid).2.host := by
  cases hp with
  | forgotten hnone hspec =>
    obtain ⟨hresult, hsame⟩ := Node.unprepare_forgotten hnone
    rw [hsame]
    exact (Progress.forgotten hnone hspec).snoc_of_same hresult
  | recorded hrecorded hspec hclean =>
    rcases Node.unprepare_host hrecorded with
      ⟨⟨e, he⟩, hhost⟩ | ⟨hnone, ⟨hok, hmissing⟩ | ⟨⟨e, he⟩, hfiles⟩⟩
    · rw [hhost, he]
      exact (Progress.recorded hrecorded hspec hclean).snoc_of_same fun _ => nofun
    · refine .forgotten hnone fun content => ?_
      rw [hmissing, hok, removalFailed_snoc]
      simp [hclean]
    -- From here on the claim is off the record, and no later attempt gets to the specification.
    · refine .forgotten hnone fun content => ?_
      rw [hfiles, hspec, he, removalFailed_snoc]
      simp [eq_comm]

theorem CdiRoot.Progress.forgotten_of_ok (hp : n.cdi.Progress uid devices results n.host)
    (hok : (n.unprepare uid).1 = .ok ()) : (n.unprepare uid).2.host.HasEntry uid none := by
  cases hp with
  | forgotten hnone _ =>
    rw [(Node.unprepare_forgotten hnone).2]
    exact hnone
  | recorded hrecorded _ _ =>
    rcases Node.unprepare_host hrecorded with ⟨⟨e, he⟩, _⟩ | ⟨hnone, _⟩
    · cases he.symm.trans hok
    · exact hnone

end Removal

namespace NodeSetup

variable {s : NodeSetup} {host : Host} {claim : ResourceClaim}

theorem Starts.keeps_entry {entry : Option (List PreparedDevice)} (hstart : s.Starts n.host m)
    (hentry : n.host.HasEntry uid entry) : m.host.HasEntry uid entry := by
  rw [hstart.host_eq.2]
  exact (Node.hasEntry_startEffects s.cdi hentry).last

theorem startEffects_keys (r : CdiRoot) (h : Host) (t : FileTree) :
    ∀ e ∈ Node.startEffects r h, e.keys t ⊆ r.specKeys t CdiRoot.common :=
  Node.forall_startEffects CdiRoot.keys_writeEffects fun _ => Set.empty_subset _

theorem Unprepares.progress (hrun : s.Unprepares uid n₀ results n) (hcommon : uid ≠ CdiRoot.common)
    (hcdi : n₀.cdi = s.cdi) (hclear : s.cdi.IsClear n₀.host.files)
    (h₀ : s.cdi.Progress uid devices [] n₀.host) :
    n.cdi = s.cdi ∧ s.cdi.IsClear n.host.files ∧ s.cdi.Progress uid devices results n.host := by
  induction hrun with
  | start => exact ⟨hcdi, hclear, h₀⟩
  | disturb files faults _ hleaves ih =>
    obtain ⟨hsame, hclear', hp⟩ := ih
    exact ⟨hsame, hleaves.1 hclear', hp.of_same (fun _ hentry => hentry) hleaves.2⟩
  | @call results n call _ hcall ih =>
    obtain ⟨hsame, hclear', hp⟩ := ih
    have hdirs := n.sameDirectories_perform call
    refine ⟨(n.cdi_perform call).trans hsame, hclear'.congr hdirs, hp.of_same ?_ ?_⟩
    · exact fun _ hentry => Node.hasEntry_perform hentry hcall
    · intro content
      rw [← hsame] at hclear' ⊢
      rw [n.perform_host]
      exact n.read_of_effects hclear' hcall (List.prefix_refl _)
  | @unprepare results n _ ih =>
    obtain ⟨hsame, hclear', hp⟩ := ih
    have hdirs := n.sameDirectories_perform (.unprepare uid)
    refine ⟨(n.cdi_perform _).trans hsame, hclear'.congr hdirs, ?_⟩
    rw [← hsame] at hp ⊢
    exact hp.unprepare
  | @restart results n m _ hstart ih =>
    obtain ⟨_, hclear', hp⟩ := ih
    obtain ⟨hsame, hhost⟩ := hstart.host_eq
    refine ⟨hsame, ?_, hp.of_same (fun _ => hstart.keeps_entry) fun content => ?_⟩
    · rw [hhost]
      exact hclear'.congr (n.host.applyAll_sameDirectories _)
    · rw [hhost]
      exact hclear'.read_applyAll (startEffects_keys s.cdi n.host n.host.files) hcommon

/-- From a host without a record and without directories among its specifications, through any calls,
failures, starts and crashes, to a claim being prepared, and from there through any attempts to unprepare
it: once an attempt succeeds the claim is not on record, and its specification is left exactly if an
attempt failed at its removal. So to try again after such a failure does not help. -/
theorem Unprepares.spec_left_iff (hfresh : host.stored? = none) (hclear : s.cdi.IsClear host.files)
    (hrun : s.Leads (fun _ => True) s.cdi.Respects (.down host) (.up n))
    (hok : (n.prepare claim).1 = .ok devices) (hcommon : claim.uid ≠ CdiRoot.common)
    (hattempts : s.Unprepares claim.uid (n.perform (.prepare claim)) results m)
    (hdone : (m.unprepare claim.uid).1 = .ok ()) :
    (∃ c, (m.unprepare claim.uid).2.host.stored? = some c ∧ c.find? claim.uid = none) ∧
    ∀ content, (m.unprepare claim.uid).2.host.files.read (s.cdi.specPath claim.uid) = .ok content ↔
      content = s.cdi.claimContent claim.uid devices ∧ ∃ e, .error (.cdi e) ∈ results := by
  have hprepared := hrun.call (.prepare claim) trivial
  have hstart : host.Specified s.cdi := by
    refine ⟨hclear, fun c hc => ?_⟩
    cases hfresh.symm.trans hc
  have hspecified := hprepared.keeps_specified trivial hstart
  have hcdi : (n.perform (.prepare claim)).cdi = s.cdi := hprepared.keeps_cdi trivial
  obtain ⟨c, hstored, hfind⟩ := Node.keeps_of_prepare hok
  have h₀ : s.cdi.Progress claim.uid devices [] (n.perform (.prepare claim)).host := by
    refine .recorded ⟨c, hstored, hfind⟩ (hspecified.covers c hstored _ _ hfind hcommon) ?_
    rintro ⟨e, he⟩
    cases he
  obtain ⟨hsame, _, hp⟩ := hattempts.progress hcommon hcdi hspecified.clear h₀
  rw [← hsame] at hp ⊢
  have hgone := hp.forgotten_of_ok hdone
  refine ⟨hgone, fun content => ?_⟩
  have hlast := hp.unprepare
  rw [hdone] at hlast
  cases hlast with
  | recorded hrecorded _ _ => cases CdiRoot.Progress.entry_of_stored hgone hrecorded
  | forgotten _ hspec =>
    rw [hspec, removalFailed_snoc]
    simp [RemovalFailed]

end NodeSetup

section Sample

namespace Node

def refusing (n : Node) : Node :=
  n.disturbed n.host.files { Faults.none with removeClaimSpec := some "read-only" }

def forgetful (n : Node) (uid : String) : Node :=
  (n.refusing.perform (.unprepare uid)).disturbed (n.refusing.perform (.unprepare uid)).host.files .none

variable (s : NodeSetup) (hentry : n.host.HasEntry uid (some devices))

include hentry

theorem unprepare_refusing : (n.refusing.unprepare uid).1 = .error (.cdi (.refused "read-only")) := by
  obtain ⟨c, hstored, hfind⟩ := hentry
  have hread : n.refusing.host.readCheckpoint = .ok c := readCheckpoint_of_stored rfl rfl hstored
  obtain ⟨files, hforget⟩ := forget_of_no_fault
    (n := n.refusing.after ((releaseOrder devices).map .release)) rfl (c.erase uid) uid
  rw [unprepare_of_recorded hread hfind, hforget]
  rfl

theorem forgetful_unprepares :
    s.Unprepares uid n [.error (.cdi (.refused "read-only"))] (n.forgetful uid) := by
  have hsame : ∀ t : FileTree, s.cdi.LeavesSpec uid t t := fun _ => ⟨id, fun _ => Iff.rfl⟩
  have hstart : s.Unprepares uid n [] n := .start
  have hrefusing : s.Unprepares uid n [] n.refusing := hstart.disturb _ _ (hsame _)
  have hattempt := hrefusing.unprepare
  rw [List.nil_append, unprepare_refusing hentry] at hattempt
  exact hattempt.disturb _ _ (hsame _)

theorem forgetful_host : (n.forgetful uid).host.HasEntry uid none ∧
    (n.forgetful uid).host.files = n.host.files := by
  rcases unprepare_host (n := n.refusing) hentry with ⟨⟨e, he⟩, _⟩ | ⟨hnone, ⟨hok, _⟩ | ⟨_, hfiles⟩⟩
  · cases he.symm.trans (unprepare_refusing hentry)
  · cases hok.symm.trans (unprepare_refusing hentry)
  · exact ⟨hnone, hfiles⟩

theorem forgetful_unprepare : (n.forgetful uid).unprepare uid = (.ok (), n.forgetful uid) := by
  obtain ⟨⟨c, hstored, hfind⟩, _⟩ := forgetful_host hentry
  have hread : (n.forgetful uid).host.readCheckpoint = .ok c :=
    readCheckpoint_of_stored rfl rfl hstored
  exact unprepare_of_absent hread hfind

end Node

theorem sampleStart_leads : sampleSetup.Leads (fun _ => True) sampleSetup.cdi.Respects
    (.down sampleHost) (.up sampleStart) := .start .refl sampleStart_starts

theorem sampleStart_perform :
    sampleStart.perform (.prepare (sampleClaim "c-1" "npu-0-0")) = sampleCarved := by
  rw [Node.perform, sampleStart_prepare]

theorem sampleCarved_entry : sampleCarved.host.HasEntry "c-1" (some sampleDevices) :=
  ⟨sampleRecord, stored?_of_read sampleCarved_read, sampleRecord_find?⟩

theorem sampleCarved_unprepares :
    sampleSetup.Unprepares "c-1" (sampleStart.perform (.prepare (sampleClaim "c-1" "npu-0-0")))
      [.error (.cdi (.refused "read-only"))] (sampleCarved.forgetful "c-1") := by
  rw [sampleStart_perform]
  exact Node.forgetful_unprepares sampleSetup sampleCarved_entry

theorem NodeSetup.Unprepares.spec_left_iff_forgetful :
    sampleSetup.Unprepares "c-1" (sampleStart.perform (.prepare (sampleClaim "c-1" "npu-0-0")))
      [.error (.cdi (.refused "read-only"))] (sampleCarved.forgetful "c-1") ∧
    ((sampleCarved.forgetful "c-1").unprepare "c-1").1 = .ok () ∧
    ((sampleCarved.forgetful "c-1").unprepare "c-1").2.host.files.read
      (sampleSetup.cdi.specPath "c-1") = .ok (sampleSetup.cdi.claimContent "c-1" sampleDevices) := by
  have hok := congrArg Prod.fst sampleStart_prepare
  have hdone := congrArg Prod.fst (Node.forgetful_unprepare sampleCarved_entry)
  have hleft := NodeSetup.Unprepares.spec_left_iff rfl sampleHost_isClear sampleStart_leads hok
    (by decide) sampleCarved_unprepares hdone
  exact ⟨sampleCarved_unprepares, hdone, (hleft.2 _).2 ⟨rfl, _, List.mem_singleton_self _⟩⟩

/-- An attempt may succeed and leave the specification of the claim. -/
theorem NodeSetup.Unprepares.not_removes : ¬ ∀ (s : NodeSetup) (host : Host) (n m : Node)
    (claim : ResourceClaim) (devices : List PreparedDevice) (results : List (Except NodeError Unit))
    (content : ByteArray), host.stored? = none → s.cdi.IsClear host.files →
      s.Leads (fun _ => True) s.cdi.Respects (.down host) (.up n) →
      (n.prepare claim).1 = .ok devices → claim.uid ≠ CdiRoot.common →
      s.Unprepares claim.uid (n.perform (.prepare claim)) results m →
      (m.unprepare claim.uid).1 = .ok () →
      (m.unprepare claim.uid).2.host.files.read (s.cdi.specPath claim.uid) ≠ .ok content := by
  intro h
  have hok := congrArg Prod.fst sampleStart_prepare
  have hdone := congrArg Prod.fst (Node.forgetful_unprepare sampleCarved_entry)
  have hread := Node.read_of_prepare sampleStart_read rfl hok
  rw [sampleStart_prepare] at hread
  have hnone := h sampleSetup sampleHost sampleStart _ (sampleClaim "c-1" "npu-0-0") sampleDevices _
    (sampleSetup.cdi.claimContent "c-1" sampleDevices) rfl sampleHost_isClear sampleStart_leads hok
    (by decide) sampleCarved_unprepares hdone
  rw [show (sampleClaim "c-1" "npu-0-0").uid = "c-1" from rfl,
    Node.forgetful_unprepare sampleCarved_entry] at hnone
  exact hnone ((congrArg (FileTree.read · _) (Node.forgetful_host sampleCarved_entry).2).trans hread)

end Sample

end SliceAgent
