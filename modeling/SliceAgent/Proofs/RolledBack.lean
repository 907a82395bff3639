import SliceAgent.Proofs.FilePlaces
import SliceAgent.Proofs.NodeOwnership
import SliceAgent.Proofs.TakenBack

/-!
A claim that cannot be prepared, in compensating mode: whichever step fails, what was carved for it is
given back, and nothing of it is left (`NodeSetup.Reaches.gives_back`).
-/
namespace SliceAgent

theorem Host.read_of_removeClaimSpec {h : Host} {r : CdiRoot} {uid : String}
    (hok : (h.removeClaimSpec r uid).1 = .ok ()) :
    (h.removeClaimSpec r uid).2.files.read (r.specPath uid) = .error .missing := by
  obtain ⟨hremove, hfiles⟩ := changeFiles_of_ok hok
  rw [removeClaimSpec, hfiles]
  unfold CdiRoot.removeClaim at hremove ⊢
  cases hrm : h.files.remove (r.specPath uid) with
  | ok files => exact FileTree.read_remove hrm
  | error e =>
    rw [hrm] at hremove
    cases e with
    | missing => exact FileTree.read_of_remove_missing hrm
    | _ => cases hremove

namespace Node

variable {n : Node} {claim : ResourceClaim} {c : Checkpoint} {e : NodeError}

def attempted (n : Node) (claim : ResourceClaim) (c : Checkpoint) : Node :=
  match (n.granting claim).1 with
  | .error _ => n.adopt (n.granting claim).2
  | .ok devices => ((n.adopt (n.granting claim).2).commit c claim.uid devices).2

theorem prepareNew_eq_afterFailure (herr : (n.prepareNew claim c).1 = .error e) :
    (n.prepareNew claim c).2 =
      (n.attempted claim c).afterFailure claim.uid (n.granting claim).2.carved := by
  unfold prepareNew at herr ⊢
  unfold attempted
  rw [show grantClaim n.cdi.driverName (n.cdi.deviceIds claim.uid) n.claims.sources claim
    ⟨n.engine, n.inventory, []⟩ = n.granting claim from rfl] at herr ⊢
  cases hg : n.granting claim with
  | mk result g =>
    rw [hg] at herr
    cases result with
    | error e => rfl
    | ok devices =>
      simp only at herr ⊢
      cases hc : (n.adopt g).commit c claim.uid devices with
      | mk result m =>
        rw [hc] at herr
        cases result with
        | error e => rfl
        | ok u => cases herr

theorem attempted_same (n : Node) (claim : ResourceClaim) (c : Checkpoint) :
    (n.attempted claim c).claims = n.claims ∧ (n.attempted claim c).cdi = n.cdi := by
  unfold attempted
  split
  · exact ⟨rfl, rfl⟩
  · rename_i devices _
    rcases (n.adopt (n.granting claim).2).commit_cases c claim.uid devices with
      ⟨e, files, hc⟩ | ⟨files, hc⟩ <;> rw [hc] <;> exact ⟨rfl, rfl⟩

theorem prepareNew_host_of_error (hmode : n.claims.persistence = .compensating)
    (herr : (n.prepareNew claim c).1 = .error e) : (n.prepareNew claim c).2.host =
      ((n.attempted claim c).host.removeClaimSpec n.cdi claim.uid).2 := by
  obtain ⟨hclaims, hcdi⟩ := n.attempted_same claim c
  rw [prepareNew_eq_afterFailure herr, afterFailure, hclaims, hmode]
  simp only [rollBack, releaseAll_eq]
  rw [← hcdi]
  rfl

theorem engineCalls_of_error (hmode : n.claims.persistence = .compensating)
    (hr : n.host.readCheckpoint = .ok c) (hf : c.find? claim.uid = none)
    (herr : (n.prepareNew claim c).1 = .error e) : n.engineCalls (.prepare claim) =
      claimCalls n.cdi.driverName n.claims.sources claim ⟨n.engine, n.inventory, []⟩ ++
        (n.granting claim).2.carved.reverse.map .release := by
  have hroll := rollbackCalls_of_error herr
  rw [hmode] at hroll
  rw [engineCalls_prepare hr hf, prepareCalls, hroll]

theorem alike_of_error (h : n.engine.Sound) (hmode : n.claims.persistence = .compensating)
    (hfit : n.Fits (.prepare claim)) (hr : n.host.readCheckpoint = .ok c)
    (hf : c.find? claim.uid = none) (herr : (n.prepareNew claim c).1 = .error e) :
    n.engine.ReleasesSucceed (n.engineCalls (.prepare claim)) ∧
      n.engine.Alike (n.engine.performAll (n.engineCalls (.prepare claim))) := by
  have hcalls := engineCalls_of_error hmode hr hf herr
  rw [Fits, hcalls] at hfit
  rw [hcalls]
  obtain ⟨hgrant, hback⟩ := Engine.fitsThrough_append.1 hfit
  have hundoes : (n.granting claim).2.Undoes n.engine := (Granting.undoes_start h).grantClaim hgrant
  rw [← granting_engine] at hback
  obtain ⟨hreleased, halike⟩ := hundoes.undo _ hundoes.sound (Engine.Alike.refl _) hback
  rw [Engine.performAll_append, ← granting_engine]
  refine ⟨(Engine.releasesSucceed_of_none (claimCalls_not_release _)).append ?_, halike⟩
  rw [← granting_engine]
  exact hreleased

theorem store_of_error (herr : (n.prepare claim).1 = .error e) :
    (n.prepare claim).2.host.store = n.host.store := by
  rcases n.prepare_cases claim with ⟨_, _, hp⟩ | ⟨_, _, _, _, hp⟩ | ⟨c, _, _, hp⟩
  · rw [hp]
  · rw [hp] at herr
    cases herr
  · rcases n.prepareNew_cases claim c with ⟨_, files, hfail⟩ | ⟨_, _, _, hok⟩
    · rw [hp, hfail]
      rfl
    · rw [hp, hok] at herr
      cases herr

theorem alike_of_prepare_error (h : n.engine.Sound) (hmode : n.claims.persistence = .compensating)
    (hfit : n.Fits (.prepare claim)) (herr : (n.prepare claim).1 = .error e) :
    n.engine.ReleasesSucceed (n.engineCalls (.prepare claim)) ∧
      n.engine.Alike (n.engine.performAll (n.engineCalls (.prepare claim))) := by
  rcases n.prepare_cases claim with ⟨_, hr, _⟩ | ⟨_, _, _, _, hp⟩ | ⟨c, hr, hf, hp⟩
  · have hnone : n.engineCalls (.prepare claim) = [] := by
      simp only [engineCalls, hr]
    rw [hnone]
    exact ⟨trivial, Engine.Alike.refl _⟩
  · rw [hp] at herr
    cases herr
  · rw [hp] at herr
    exact alike_of_error h hmode hfit hr hf herr

theorem unspecified_of_error (hmode : n.claims.persistence = .compensating)
    (herr : (n.prepare claim).1 = .error e) (hread : n.host.readCheckpoint = .ok c)
    (hremoved : ((n.attempted claim c).host.removeClaimSpec n.cdi claim.uid).1 = .ok ()) :
    (n.prepare claim).2.host.files.read (n.cdi.specPath claim.uid) = .error .missing := by
  rcases n.prepare_cases claim with ⟨_, hr, _⟩ | ⟨_, _, _, _, hp⟩ | ⟨c', hr, hf, hp⟩
  · cases hr.symm.trans hread
  · rw [hp] at herr
    cases herr
  · cases hr.symm.trans hread
    rw [hp] at herr ⊢
    rw [prepareNew_host_of_error hmode herr]
    exact Host.read_of_removeClaimSpec hremoved

end Node

/-- What is the same about a card before and after a claim that could not be prepared. Only a carved
card may have changed, in the number of its remainder and in what it offers. -/
structure Card.Unharmed (catalog : Catalog) (c d : Card) : Prop where
  identity : d.identity = c.identity
  allocated : d.allocated = c.allocated
  whole : c.isWhole = true ∨ c.IsTaken → d = c
  carved : c.HasShape catalog .carved → ∃ id, d.available = [Slice.free id .partition]

theorem Card.Alike.unharmed {catalog : Catalog} {c d : Card} (h : c.Alike catalog d) :
    c.Unharmed catalog d := by
  refine ⟨h.identity, h.allocated, ?_, fun hcarved => ?_⟩
  · rintro (hwhole | htaken)
    · refine h.eq_of_not_carved ?_
      rintro ⟨pieces, hpieces⟩
      exact hpieces.allocated_ne_nil (List.isEmpty_iff.1 hwhole)
    · exact h.eq_of_not_carved htaken.not_carved
  · obtain ⟨pieces, hpieces⟩ := h.carved hcarved
    exact ⟨_, hpieces.available⟩

theorem Engine.Alike.unharmed {e f : Engine} {key : String} {card : Card} (h : e.Alike f)
    (hcard : e.device? key = some card) :
    ∃ left, f.device? key = some left ∧ card.Unharmed e.catalog left := by
  obtain ⟨left, hleft, hsame⟩ := h.cards key card hcard
  exact ⟨left, hleft, hsame.unharmed⟩

theorem Engine.SameCards.device?_none {e f : Engine} {key : String} (h : e.SameCards f)
    (hnone : e.device? key = none) : f.device? key = none := by
  have hsame := h.cards key
  rw [show e.cards.find? key = none from hnone] at hsame
  exact Option.map_eq_none_iff.1 hsame

section GivesBack

variable {s : NodeSetup} {host : Host} {n : Node} {claim : ResourceClaim} {e : NodeError}

/-- A claim that cannot be prepared, whatever the reason, and so is not on record: the record stays,
every release succeeds, no card is harmed and none is added, and the specification of the claim is gone
if its removal succeeds. -/
theorem NodeSetup.Reaches.gives_back (hreach : s.Reaches host n)
    (hmode : s.claims.persistence = .compensating) (hfit : n.Fits (.prepare claim))
    (herr : (n.prepare claim).1 = .error e) :
    (n.prepare claim).2.host.store = n.host.store ∧
    n.engine.ReleasesSucceed (n.engineCalls (.prepare claim)) ∧
    (∀ key, n.engine.device? key = none → (n.prepare claim).2.engine.device? key = none) ∧
    (∀ key card, n.engine.device? key = some card → ∃ left,
      (n.prepare claim).2.engine.device? key = some left ∧ card.Unharmed s.catalog left) ∧
    ∀ c, n.host.readCheckpoint = .ok c →
      ((n.attempted claim c).host.removeClaimSpec n.cdi claim.uid).1 = .ok () →
      (n.prepare claim).2.host.files.read (n.cdi.specPath claim.uid) = .error .missing := by
  obtain ⟨host', n₀, hstart, hrun⟩ := hreach.run
  obtain ⟨h₀, _, _, hcatalog, hclaims⟩ := hstart.holds
  have h := hrun.holds h₀
  have hmode' : n.claims.persistence = .compensating := by rw [h.claims, hclaims, hmode]
  have hcat : n.engine.catalog = s.catalog := h.cards.catalog.trans hcatalog
  have hcall : NodeCall.prepare claim ≠ .reconcile := NodeCall.noConfusion
  obtain ⟨_, hafter⟩ := n.perform_after hcall
  have hengine : (n.prepare claim).2.engine =
      n.engine.performAll (n.engineCalls (.prepare claim)) := congrArg Node.engine hafter
  have hcards := h.sound.sameCards_performAll (n.engineCalls_isUse (.prepare claim)) hfit
  obtain ⟨hreleased, halike⟩ := Node.alike_of_prepare_error h.sound hmode' hfit herr
  rw [← hengine] at hcards halike
  refine ⟨Node.store_of_error herr, hreleased, fun key => hcards.device?_none, fun key card hcard => ?_,
    fun c hread hremoved => Node.unspecified_of_error hmode' herr hread hremoved⟩
  rw [← hcat]
  exact halike.unharmed hcard

end GivesBack

section Sample

namespace Node

variable {n : Node} {claim : ResourceClaim} {c : Checkpoint}

theorem prepare_of_absent (hr : n.host.readCheckpoint = .ok c) (hf : c.find? claim.uid = none) :
    n.prepare claim = n.prepareNew claim c := by
  simp only [prepare, hr, hf]

theorem commit_of_write_fault {text : String} (hw : n.host.faults.writeCheckpoint = some text)
    (c : Checkpoint) (uid : String) (devices : List PreparedDevice) :
    ∃ e, (n.commit c uid devices).1 = .error e := by
  obtain ⟨files, hfiles⟩ := n.host.writeClaimSpec_host n.cdi uid devices
  unfold commit
  cases hspec : n.host.writeClaimSpec n.cdi uid devices with
  | mk result host =>
    rw [hspec] at hfiles
    obtain rfl : host = { n.host with files } := hfiles
    cases result with
    | error e => exact ⟨_, rfl⟩
    | ok u =>
      simp only [Host.writeCheckpoint, hw]
      exact ⟨_, rfl⟩

theorem prepareNew_of_write_fault {text : String} (hw : n.host.faults.writeCheckpoint = some text)
    (claim : ResourceClaim) (c : Checkpoint) : ∃ e, (n.prepareNew claim c).1 = .error e := by
  unfold prepareNew
  split
  · exact ⟨_, rfl⟩
  · rename_i devices g _
    obtain ⟨e, he⟩ := commit_of_write_fault (n := n.adopt g) hw c claim.uid devices
    cases hc : (n.adopt g).commit c claim.uid devices with
    | mk result m =>
      rw [hc] at he
      cases he
      exact ⟨e, rfl⟩

end Node

def sampleFaulty : Node :=
  { sampleCarved with
    host := { sampleCarved.host with faults := { Faults.none with writeCheckpoint := some "disk full" } } }

theorem sampleFaulty_read : sampleFaulty.host.readCheckpoint = .ok sampleRecord :=
  (Host.readCheckpoint_of_readable rfl rfl).trans (CheckpointStore.get_put ..)

theorem sampleFaulty_reached : sampleSetup.Reaches sampleHost sampleFaulty :=
  .start sampleStart_starts (sampleCarved_run.disturb _ _)

theorem sampleFaulty_prepareNew :
    ∃ e, (sampleFaulty.prepareNew (sampleClaim "c-2" "npu-0-1") sampleRecord).1 = .error e :=
  Node.prepareNew_of_write_fault rfl _ _

theorem sampleFaulty_prepare :
    ∃ e, (sampleFaulty.prepare (sampleClaim "c-2" "npu-0-1")).1 = .error e := by
  obtain ⟨e, he⟩ := sampleFaulty_prepareNew
  have hnew : sampleFaulty.prepare (sampleClaim "c-2" "npu-0-1") = _ :=
    Node.prepare_of_absent sampleFaulty_read Node.sampleRecord_rest
  exact ⟨e, (congrArg Prod.fst hnew).trans he⟩

theorem sampleFaulty_fits : sampleFaulty.Fits (.prepare (sampleClaim "c-2" "npu-0-1")) := by
  obtain ⟨e, he⟩ := sampleFaulty_prepareNew
  rw [Node.Fits, Node.engineCalls_of_error rfl sampleFaulty_read Node.sampleRecord_rest he]
  decide +kernel

theorem NodeSetup.Reaches.gives_back_carved :
    sampleFaulty.Fits (.prepare (sampleClaim "c-2" "npu-0-1")) ∧
      (∃ e, (sampleFaulty.prepare (sampleClaim "c-2" "npu-0-1")).1 = .error e) ∧
      sampleFaulty.engine.ReleasesSucceed
        (sampleFaulty.engineCalls (.prepare (sampleClaim "c-2" "npu-0-1"))) := by
  obtain ⟨e, he⟩ := sampleFaulty_prepare
  have h := NodeSetup.Reaches.gives_back sampleFaulty_reached rfl sampleFaulty_fits he
  exact ⟨sampleFaulty_fits, ⟨e, he⟩, h.2.1⟩

end Sample

end SliceAgent
