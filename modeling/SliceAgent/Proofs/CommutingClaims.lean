import SliceAgent.Proofs.CallDeeds
import SliceAgent.Proofs.ClaimLocality
import SliceAgent.Proofs.FileLocality

/-!
Calls for different claims on different cards. In either order they report the same and leave the same
node (`NodeSetup.Reaches.calls_commute`): each stays on the cards and in the files of its own claim, and
goes the same way whatever the other has done elsewhere.
-/
namespace SliceAgent

section Apart

/-- Two changes, each of which stays in its own part and comes to the same there whether it is made first
or second, can be made in either order. -/
theorem eq_of_apart {ι : Type*} {α : Type*} {S T : Set ι} {x a b ab ba : ι → α} (hST : Disjoint S T)
    (ha : Set.EqOn a x Sᶜ) (hb : Set.EqOn b x Tᶜ) (hab : Set.EqOn ab a Tᶜ) (hba : Set.EqOn ba b Sᶜ)
    (hsecond : Set.EqOn ab b T) (hfirst : Set.EqOn ba a S) : ab = ba := by
  funext i
  by_cases hS : i ∈ S
  · have hT : i ∉ T := Set.disjoint_left.1 hST hS
    rw [hab hT, hfirst hS]
  · by_cases hT : i ∈ T
    · rw [hsecond hT, hba hS]
    · rw [hab hT, ha hS, hba hS, hb hT]

variable {e : Engine} {i : Inventory} {h : Host} {S T : Set UInt32} {calls more : List EngineCall}

theorem Engine.Sound.fitsThrough_after (he : e.Sound) (hST : Disjoint S T)
    (hcalls : ∀ call ∈ calls, call.PointsTo S) (hmore : ∀ call ∈ more, call.PointsTo T)
    (hfit : e.FitsThrough calls) (hfit' : e.FitsThrough more) :
    (e.performAll calls).FitsThrough more := by
  have hoff := (he.performAll_off hcalls hfit).mono hST.subset_compl_left
  exact (hoff.performAll he (he.performAll hfit) hmore hfit').1

theorem Engine.Sound.performAll_comm (he : e.Sound) (hST : Disjoint S T)
    (hcalls : ∀ call ∈ calls, call.PointsTo S) (hmore : ∀ call ∈ more, call.PointsTo T)
    (hfit : e.FitsThrough calls) (hfit' : e.FitsThrough more) :
    (e.performAll calls).performAll more = (e.performAll more).performAll calls := by
  have ha := he.performAll hfit
  have hb := he.performAll hfit'
  have hafit := he.fitsThrough_after hST hcalls hmore hfit hfit'
  have hbfit := he.fitsThrough_after hST.symm hmore hcalls hfit' hfit
  have hoff := he.performAll_off hcalls hfit
  have hoff' := he.performAll_off hmore hfit'
  have hab := ha.performAll_off hmore hafit
  have hba := hb.performAll_off hcalls hbfit
  have hsecond := (hoff.mono hST.subset_compl_left).performAll he ha hmore hfit'
  have hfirst := (hoff'.mono hST.subset_compl_right).performAll he hb hcalls hfit
  refine (hb.performAll hbfit).eq_of_agreesOn (ha.performAll hafit) ⟨?_, ?_, ?_⟩
  · rw [hab.catalog, hoff.catalog, hba.catalog, hoff'.catalog]
  · rw [hab.eligibility, hoff.eligibility, hba.eligibility, hoff'.eligibility]
  · exact (Set.eqOn_univ _ _).2 (eq_of_apart hST hoff.cards hoff'.cards hab.cards hba.cards
      hsecond.2.cards hfirst.2.cards)

theorem Inventory.Mirrors.follow_comm (hi : i.Mirrors e) (he : e.Sound) (hST : Disjoint S T)
    (hcalls : ∀ call ∈ calls, call.PointsTo S) (hmore : ∀ call ∈ more, call.PointsTo T)
    (hfit : e.FitsThrough calls) (hfit' : e.FitsThrough more) :
    (i.follow e calls).follow (e.performAll calls) more =
      (i.follow e more).follow (e.performAll more) calls := by
  have ha := he.performAll hfit
  have hb := he.performAll hfit'
  have hafit := he.fitsThrough_after hST hcalls hmore hfit hfit'
  have hbfit := he.fitsThrough_after hST.symm hmore hcalls hfit' hfit
  have hmirrors := (hi.follow he hfit).follow ha hafit
  have hmirrors' := (hi.follow he hfit').follow hb hbfit
  rw [← he.performAll_comm hST hcalls hmore hfit hfit'] at hmirrors'
  have hoff := follow_off (i := i) he hcalls hfit
  have hoff' := follow_off (i := i) he hmore hfit'
  have hab := follow_off (i := i.follow e calls) ha hmore hafit
  have hba := follow_off (i := i.follow e more) hb hcalls hbfit
  have hsecond := (hoff.mono hST.subset_compl_left).follow
    ((he.performAll_off hcalls hfit).mono hST.subset_compl_left) he ha hmore hfit'
  have hfirst := (hoff'.mono hST.subset_compl_right).follow
    ((he.performAll_off hmore hfit').mono hST.subset_compl_right) he hb hcalls hfit
  refine hmirrors'.eq_of_agreesOn hmirrors (ha.performAll hafit) ⟨?_, ?_⟩
  · rw [hab.nodeName, hoff.nodeName, hba.nodeName, hoff'.nodeName]
  · exact (Set.eqOn_univ _ _).2 (eq_of_apart (hST.preimage SliceId.card) hoff.entries hoff'.entries
      hab.entries hba.entries hsecond.entries hfirst.entries)

theorem Host.applyAll_files_comm {K L : Set String} {es fs : List HostEffect} (hKL : Disjoint K L)
    (hes : ∀ e ∈ es, e.keys h.files ⊆ K) (hfs : ∀ e ∈ fs, e.keys h.files ⊆ L) :
    ((h.applyAll es).applyAll fs).files = ((h.applyAll fs).applyAll es).files := by
  have hoff := applyAll_off hes
  have hoff' := applyAll_off hfs
  have hfs' : ∀ e ∈ fs, e.keys (h.applyAll es).files ⊆ L := fun e he =>
    (e.keys_of_sameDirectories hoff.directories).trans_subset (hfs e he)
  have hes' : ∀ e ∈ es, e.keys (h.applyAll fs).files ⊆ K := fun e he =>
    (e.keys_of_sameDirectories hoff'.directories).trans_subset (hes e he)
  have hab := applyAll_off hfs'
  have hba := applyAll_off hes'
  have hsecond := applyAll_agreesOn (hoff.mono hKL.subset_compl_left) hfs
  have hfirst := applyAll_agreesOn (hoff'.mono hKL.subset_compl_right) hes
  have hnodes := eq_of_apart hKL hoff.nodes hoff'.nodes hab.nodes hba.nodes hsecond.nodes hfirst.nodes
  exact congrArg FileTree.mk (Dict.ext_find? fun key => congrFun hnodes key)

end Apart

namespace Node

variable {n m : Node} {call other : NodeCall} {claim : ResourceClaim} {c c' : Checkpoint}
  {uid : String} {d : Deed} {devices : List PreparedDevice}

section Touched

def touched (n : Node) : NodeCall → List String
  | .prepare claim => (claim.assigned n.cdi.driverName).map (·.device)
  | .unprepare uid => ((n.host.stored?.bind (·.find? uid)).map deviceNames).getD []
  | .reconcile => []

def cards (n : Node) (call : NodeCall) : Set UInt32 := SliceId.cardsOf (n.touched call)

theorem assigned_pointsTo (n : Node) (claim : ResourceClaim) :
    claim.PointsTo (n.cards (.prepare claim)) n.cdi.driverName :=
  fun _ hr => SliceId.pointsTo_cardsOf (List.mem_map_of_mem hr)

theorem recorded_pointsTo (hread : n.host.readCheckpoint = .ok c) (hfind : c.find? uid = some devices) :
    ∀ name ∈ deviceNames devices, SliceId.PointsTo (n.cards (.unprepare uid)) name := by
  have htouched : n.touched (.unprepare uid) = deviceNames devices := by
    rw [touched, Host.stored?_of_read hread, Option.bind_some, hfind]
    rfl
  intro name hname
  exact SliceId.pointsTo_cardsOf (htouched ▸ hname)

theorem deed_calls_pointTo (hg : Granting.Current ⟨n.engine, n.inventory, []⟩)
    (hread : n.host.readCheckpoint = .ok c) (hfit : n.Fits call) :
    ∀ ec ∈ (n.deed c call).calls, ec.PointsTo (n.cards call) := by
  cases call with
  | reconcile => exact List.forall_mem_nil _
  | unprepare uid =>
    rw [deed]
    cases hf : c.find? uid with
    | none => exact List.forall_mem_nil _
    | some devices =>
      refine List.forall_mem_map.2 fun name hname => ?_
      exact recorded_pointsTo hread hf name (mem_releaseOrder.1 hname)
  | prepare claim =>
    have hclaim := n.assigned_pointsTo claim
    rw [deed]
    cases hf : c.find? claim.uid with
    | some devices => exact List.forall_mem_nil _
    | none =>
      rw [Fits, engineCalls_prepare hread hf] at hfit
      have hgrant := (Engine.fitsThrough_append.1 hfit).1
      have hcalls : ∀ ec ∈ claimCalls n.cdi.driverName n.claims.sources claim
          ⟨n.engine, n.inventory, []⟩, ec.PointsTo _ := claimCalls_pointTo hclaim _
      have hcarved : ∀ id ∈ (n.granting claim).2.carved, SliceId.PointsTo _ id :=
        hg.carved_grantClaim_pointTo rfl hclaim hgrant
      simp only
      cases hgranting : n.granting claim with
      | mk result g =>
        cases result with
        | ok devices => exact hcalls
        | error e =>
          rw [hgranting] at hcarved
          refine List.forall_mem_append.2 ⟨hcalls, ?_⟩
          unfold failureCalls
          split
          · exact List.forall_mem_nil _
          · exact List.forall_mem_map.2 fun id hid => hcarved id (List.mem_reverse.1 hid)

theorem deed_eq_of_agreesOn (hcdi : m.cdi = n.cdi) (hclaims : m.claims = n.claims)
    (hfaults : m.host.faults = n.host.faults) (huid : call.uid? = some uid)
    (hfind : c'.find? uid = c.find? uid) (hagree : n.engine.AgreesOn (n.cards call) m.engine)
    (hg : Granting.Current ⟨n.engine, n.inventory, []⟩)
    (hk : Granting.Current ⟨m.engine, m.inventory, []⟩)
    (hread : n.host.readCheckpoint = .ok c) (hfit : n.Fits call) : m.deed c' call = n.deed c call := by
  cases call with
  | reconcile => cases huid
  | unprepare uid =>
    cases huid
    simp only [deed, hfind, Host.removalEffects, hfaults, hcdi]
  | prepare claim =>
    cases huid
    simp only [deed, hfind]
    cases hf : c.find? claim.uid with
    | some devices => rfl
    | none =>
      rw [Fits, engineCalls_prepare hread hf] at hfit
      obtain ⟨hsame, hcalls, hend⟩ := granting_of_agreesOn hcdi hclaims hagree hg hk
        (n.assigned_pointsTo claim) (Engine.fitsThrough_append.1 hfit).1
      cases hn : n.granting claim with
      | mk result g =>
        cases hm : m.granting claim with
        | mk result' g' =>
          rw [hn, hm] at hsame hend
          obtain rfl : result' = result := hsame
          cases result' with
          | ok devices =>
            simp only
            rw [hcalls, hcdi]
          | error e =>
            have hcarved : g'.carved = g.carved := hend.carved
            simp only
            rw [hcalls, failureCalls, failureCalls, failureEffects, failureEffects, hclaims, hcarved,
              Host.removalEffects, Host.removalEffects, hfaults, hcdi]

theorem deed_effects_keys (n : Node) (c : Checkpoint) (t : FileTree) (huid : call.uid? = some uid) :
    ∀ e ∈ (n.deed c call).effects, e.keys t ⊆ n.cdi.specKeys t uid := by
  cases call with
  | reconcile => cases huid
  | unprepare uid =>
    cases huid
    rw [deed]
    cases c.find? uid with
    | none => exact List.forall_mem_nil _
    | some devices => exact CdiRoot.keys_removalEffects
  | prepare claim =>
    cases huid
    rw [deed]
    cases c.find? claim.uid with
    | some devices => exact List.forall_mem_nil _
    | none =>
      simp only
      cases n.granting claim with
      | mk result g =>
        cases result with
        | ok devices => exact CdiRoot.keys_writeEffects
        | error e =>
          simp only [failureEffects]
          split
          · exact List.forall_mem_nil _
          · exact CdiRoot.keys_removalEffects

theorem deed_effects_of_files (n : Node) (c : Checkpoint) (call : NodeCall) :
    ∀ e ∈ (n.deed c call).effects, ¬ e.IsRecord := by
  cases call with
  | reconcile => exact List.forall_mem_nil _
  | unprepare uid =>
    rw [deed]
    cases c.find? uid with
    | none => exact List.forall_mem_nil _
    | some devices => exact forall_removalEffects not_false
  | prepare claim =>
    rw [deed]
    cases c.find? claim.uid with
    | some devices => exact List.forall_mem_nil _
    | none =>
      simp only
      cases n.granting claim with
      | mk result g =>
        cases result with
        | ok devices => exact writeEffects_of_files _ _ _
        | error e => exact n.failureEffects_of_files claim.uid

end Touched

section Carried

theorem carryOut_faults (n : Node) (c : Checkpoint) (uid : String) (d : Deed) :
    (n.carryOut c uid d).host.faults = n.host.faults := Host.faults_applyAll d.effects

theorem carryOut_read (hread : n.host.readCheckpoint = .ok c) :
    (n.carryOut c uid d).host.readCheckpoint = .ok (d.recorded c uid) := by
  obtain ⟨hreadable, hwhole⟩ := faults_of_read hread
  rw [Host.readCheckpoint_of_readable hreadable hwhole] at hread
  rw [← n.carryOut_faults c uid d] at hreadable hwhole
  rw [Host.readCheckpoint_of_readable hreadable hwhole]
  exact Deed.get_stored hread

variable {d' : Deed} {name : String}

theorem carryOut_comm (h : n.engine.Sound) (hmirrors : n.inventory.Mirrors n.engine)
    {S T : Set UInt32} (hST : Disjoint S T) (hne : uid ≠ name)
    (hcalls : ∀ call ∈ d.calls, call.PointsTo S) (hcalls' : ∀ call ∈ d'.calls, call.PointsTo T)
    (hfit : n.engine.FitsThrough d.calls) (hfit' : n.engine.FitsThrough d'.calls)
    (hfiles : ∀ e ∈ d.effects, ¬ e.IsRecord) (hfiles' : ∀ e ∈ d'.effects, ¬ e.IsRecord) :
    let a := (n.carryOut c uid d).carryOut (d.recorded c uid) name d'
    let b := (n.carryOut c name d').carryOut (d'.recorded c name) uid d
    a.engine = b.engine ∧ a.inventory = b.inventory ∧ a.host.store = b.host.store ∧
      ∀ {K L : Set String}, Disjoint K L → (∀ e ∈ d.effects, e.keys n.host.files ⊆ K) →
        (∀ e ∈ d'.effects, e.keys n.host.files ⊆ L) → a.host.files = b.host.files := by
  refine ⟨h.performAll_comm hST hcalls hcalls' hfit hfit',
    hmirrors.follow_comm h hST hcalls hcalls' hfit hfit', ?_, fun hKL hK hL => ?_⟩
  · exact Deed.stored_comm hne
  · refine (Host.files_applyAll hfiles' _).trans (Eq.trans ?_ (Host.files_applyAll hfiles _).symm)
    exact Host.applyAll_files_comm hKL hK hL

end Carried

section Pair

variable {n₀ : Node} {name : String}

theorem deed_after (h : Holds n₀ n) (hread : n.host.readCheckpoint = .ok c) (hne : uid ≠ name)
    (hcall : call.uid? = some uid) (hother : other.uid? = some name)
    (hcards : Disjoint (n.cards call) (n.cards other)) (hserved : n.Served call)
    (hfit : n.Fits call) (hfit' : n.Fits other) :
    (n.perform call).deed ((n.deed c call).recorded c uid) other = n.deed c other := by
  obtain ⟨_, hcalls, hperform⟩ := hserved.carries_out hread hcall
  have hpoint := deed_calls_pointTo ⟨h.sound, h.mirrors⟩ hread hfit
  have hafter : Holds n₀ (n.perform call) := h.perform hfit
  have hoff : n.engine.AgreesOn (n.cards other) (n.perform call).engine := by
    rw [Fits, hcalls] at hfit
    rw [hperform]
    exact (h.sound.performAll_off hpoint hfit).mono hcards.subset_compl_left
  refine deed_eq_of_agreesOn ?_ ?_ ?_ hother ?_ hoff ⟨h.sound, h.mirrors⟩
    ⟨hafter.sound, hafter.mirrors⟩ hread hfit'
  · exact n.cdi_perform call
  · rw [hperform]
    rfl
  · rw [hperform, carryOut_faults]
  · exact Deed.find?_recorded hne.symm

theorem perform_second (h : Holds n₀ n) (hread : n.host.readCheckpoint = .ok c) (hne : uid ≠ name)
    (hcall : call.uid? = some uid) (hother : other.uid? = some name)
    (hcards : Disjoint (n.cards call) (n.cards other)) (hserved : n.ServedThrough [call, other])
    (hserved' : n.Served other) (hfit : n.Fits call) (hfit' : n.Fits other) :
    (n.perform call).outcome other = n.outcome other ∧ (n.perform call).perform other =
      (n.carryOut c uid (n.deed c call)).carryOut ((n.deed c call).recorded c uid) name
        (n.deed c other) := by
  obtain ⟨hfirst, hsecond, _⟩ := hserved
  have hdeed := deed_after h hread hne hcall hother hcards hfirst hfit hfit'
  obtain ⟨_, _, hperform⟩ := hfirst.carries_out hread hcall
  have hread' : (n.perform call).host.readCheckpoint = .ok ((n.deed c call).recorded c uid) := by
    rw [hperform]
    exact carryOut_read hread
  obtain ⟨houtcome, _, hperform'⟩ := hsecond.carries_out hread' hother
  rw [hdeed] at houtcome hperform'
  refine ⟨houtcome.trans (hserved'.carries_out hread hother).1.symm, ?_⟩
  rw [hperform', hperform]

end Pair

end Node

/-- Two calls for different claims, each of which prepares or unprepares its claim, on cards of which none
is named by the devices of both, where the checkpoint and the specifications do not fail: in either order
both report the same, and the engine, the inventory and the checkpoint come to be the same. So do the
files, if there is no slash in the identifiers or no directory stands among the specifications: otherwise
two identifiers could lead to one file. -/
theorem NodeSetup.Reaches.calls_commute {s : NodeSetup} {host : Host} {n : Node} {call other : NodeCall}
    {uid name : String} (hreach : s.Reaches host n) (hcall : call.uid? = some uid)
    (hother : other.uid? = some name) (hne : uid ≠ name)
    (hcards : Disjoint (n.cards call) (n.cards other)) (hfit : n.Fits call) (hfit' : n.Fits other)
    (hserved : n.ServedThrough [call, other]) (hserved' : n.ServedThrough [other, call]) :
    (n.perform other).outcome call = n.outcome call ∧ (n.perform call).outcome other = n.outcome other ∧
    let m := (n.perform call).perform other
    let k := (n.perform other).perform call
    m.engine = k.engine ∧ m.inventory = k.inventory ∧ m.host.store = k.host.store ∧
      (n.cdi.IsClear n.host.files ∨ '/' ∉ uid.toList ∧ '/' ∉ name.toList →
        m.host.files = k.host.files) := by
  obtain ⟨n₀, h, _⟩ := hreach.holds
  obtain ⟨c, hread⟩ := hserved.1.reads hcall
  obtain ⟨houtcome, hm⟩ := Node.perform_second h hread hne hcall hother hcards hserved hserved'.1 hfit hfit'
  obtain ⟨houtcome', hk⟩ := Node.perform_second h hread hne.symm hother hcall hcards.symm hserved'
    hserved.1 hfit' hfit
  have hcalls := (hserved.1.carries_out hread hcall).2.1
  have hcalls' := (hserved'.1.carries_out hread hother).2.1
  have hpoint := Node.deed_calls_pointTo ⟨h.sound, h.mirrors⟩ hread hfit
  have hpoint' := Node.deed_calls_pointTo ⟨h.sound, h.mirrors⟩ hread hfit'
  rw [Node.Fits, hcalls] at hfit
  rw [Node.Fits, hcalls'] at hfit'
  obtain ⟨hengine, hinventory, hstore, hfiles⟩ := Node.carryOut_comm (c := c) h.sound h.mirrors hcards hne
    hpoint hpoint' hfit hfit' (n.deed_effects_of_files c call) (n.deed_effects_of_files c other)
  rw [hm, hk]
  refine ⟨houtcome', houtcome, hengine, hinventory, hstore, fun hflat => ?_⟩
  obtain ⟨huid, hname⟩ : n.cdi.IsFlat n.host.files uid ∧ n.cdi.IsFlat n.host.files name := by
    rcases hflat with hclear | ⟨huid, hname⟩
    · exact ⟨hclear.isFlat uid, hclear.isFlat name⟩
    · exact ⟨CdiRoot.isFlat_of_slash_free huid, CdiRoot.isFlat_of_slash_free hname⟩
  exact hfiles (huid.disjoint_specKeys hname hne) (n.deed_effects_keys c _ hcall)
    (n.deed_effects_keys c _ hother)

section Sample

def twoCardSetup : NodeSetup := { sampleSetup with
  provider := .ofDeclared [⟨0, "Ascend310P", some 8, some 24⟩, ⟨1, "Ascend310P", some 8, some 24⟩] }

def twoCards : Inventory × Engine :=
  [⟨0, "Ascend310P"⟩, ⟨1, "Ascend310P"⟩].foldl (discoverCard twoCardSetup.provider)
    (.new "node-a", .new .standard .standard)

def twoCardStart : Node := { sampleStart with engine := twoCards.2, inventory := twoCards.1 }

theorem twoCardStart_reached : twoCardSetup.Reaches sampleHost twoCardStart := by
  obtain ⟨host', hstart⟩ := Node.start_of_fresh twoCardSetup.cdi twoCardSetup.claims
    twoCards.2 twoCards.1 sampleHost (ok_of_toOption (by decide +kernel)) rfl (by decide +kernel)
  exact .start ⟨twoCards.1, twoCards.2, host', rfl, hstart⟩ .start

def Node.granted (n : Node) (claim : ResourceClaim) : List PreparedDevice :=
  ((n.granting claim).1.toOption).getD []

def Node.withFirst (n : Node) (claim : ResourceClaim) : Node :=
  n.prepared claim .new (n.granted claim)

theorem Node.servedThrough_of_granted {n : Node} {claim other : ResourceClaim}
    (hfaults : n.host.faults = .none) (hread : n.host.readCheckpoint = .ok .new)
    (hne : other.uid ≠ claim.uid) (hg : (n.granting claim).1.isOk = true)
    (hg' : ((n.withFirst claim).granting other).1.isOk = true)
    (hspecs : ∀ uid ∈ [claim.uid, other.uid], (n.host.writeClaimSpec n.cdi uid []).1 = .ok ()) :
    (n.prepare claim).1 = .ok (n.granted claim) ∧
      n.ServedThrough [.prepare claim, .prepare other] := by
  have hfaults' : (n.withFirst claim).host.faults = .none := hfaults
  have hwrite : n.host.faults.writeCheckpoint = none := by
    rw [hfaults]
    rfl
  obtain ⟨hspec, hspec'⟩ := List.forall_mem_cons.1 hspecs
  have hp := prepare_ok hread rfl (ok_of_isOk hg [])
    (Host.writeClaimSpec_ok_of_sameDirectories hspec (.refl _) n.host.store _) hwrite
  have hdirs := n.sameDirectories_prepare claim
  rw [hp] at hdirs
  have hread' : (n.withFirst claim).host.readCheckpoint =
      .ok (Checkpoint.new.insert claim.uid (n.granted claim)) :=
    (Host.readCheckpoint_of_no_faults hfaults').trans (CheckpointStore.get_put ..)
  have hnone : (Checkpoint.new.insert claim.uid (n.granted claim)).find? other.uid = none :=
    (Dict.find?_insert ..).trans (if_neg hne)
  have hp' := prepare_ok hread' hnone (ok_of_isOk hg' []) (Host.writeClaimSpec_ok_of_sameDirectories
    (hspec' other.uid List.mem_cons_self) hdirs (n.withFirst claim).host.store _) hwrite
  have hfirst : n.outcome (.prepare claim) = .ok (n.granted claim) := congrArg Prod.fst hp
  have hperform : n.perform (.prepare claim) = n.withFirst claim := congrArg Prod.snd hp
  refine ⟨congrArg Prod.fst hp, served_of_ok hfirst, ?_, trivial⟩
  rw [hperform]
  exact served_of_ok (congrArg Prod.fst hp')

theorem twoCardStart_writable : ∀ uid ∈ ["c-1", "c-2"],
    (twoCardStart.host.writeClaimSpec twoCardStart.cdi uid []).1 = .ok () := by
  refine List.forall_mem_cons.2 ⟨?_, List.forall_mem_singleton.2 ?_⟩
  · exact Node.writeClaimSpec_ok_of_prepare sampleStart_read rfl
      (congrArg Prod.fst sampleStart_prepare) []
  · exact ok_of_toOption (by decide +kernel)

theorem twoCardStart_first :
    (twoCardStart.prepare (sampleClaim "c-1" "npu-0-0")).1 =
      .ok (twoCardStart.granted (sampleClaim "c-1" "npu-0-0")) ∧
    twoCardStart.ServedThrough
      [.prepare (sampleClaim "c-1" "npu-0-0"), .prepare (sampleClaim "c-2" "npu-1-0")] :=
  Node.servedThrough_of_granted rfl sampleStart_read (by decide) (by decide +kernel) (by decide +kernel)
    twoCardStart_writable

theorem twoCardStart_second :
    (twoCardStart.prepare (sampleClaim "c-2" "npu-1-0")).1 =
      .ok (twoCardStart.granted (sampleClaim "c-2" "npu-1-0")) ∧
    twoCardStart.ServedThrough
      [.prepare (sampleClaim "c-2" "npu-1-0"), .prepare (sampleClaim "c-1" "npu-0-0")] :=
  Node.servedThrough_of_granted rfl sampleStart_read (by decide) (by decide +kernel) (by decide +kernel)
    fun uid huid => twoCardStart_writable uid (List.mem_reverse.1 huid)

theorem twoCardStart_apart : Disjoint
    (twoCardStart.cards (.prepare (sampleClaim "c-1" "npu-0-0")))
    (twoCardStart.cards (.prepare (sampleClaim "c-2" "npu-1-0"))) := by
  rw [Set.disjoint_left]
  have hfirst : twoCardStart.touched (.prepare (sampleClaim "c-1" "npu-0-0")) = ["npu-0-0"] := by
    decide +kernel
  have hsecond : twoCardStart.touched (.prepare (sampleClaim "c-2" "npu-1-0")) = ["npu-1-0"] := by
    decide +kernel
  rw [Node.cards, Node.cards, hfirst, hsecond]
  rintro _ ⟨name, hname, id, hid, rfl⟩ ⟨name', hname', id', hid', hcard⟩
  rw [List.mem_singleton.1 hname] at hid
  rw [List.mem_singleton.1 hname'] at hid'
  have hzero : SliceId.parse? "npu-0-0" = some ⟨0, 0⟩ := by decide +kernel
  have hone : SliceId.parse? "npu-1-0" = some ⟨1, 0⟩ := by decide +kernel
  cases hzero.symm.trans hid
  cases hone.symm.trans hid'
  exact absurd hcard (by decide)

theorem twoCardStart_fits :
    twoCardStart.Fits (.prepare (sampleClaim "c-1" "npu-0-0")) ∧
      twoCardStart.Fits (.prepare (sampleClaim "c-2" "npu-1-0")) :=
  ⟨Node.fits_prepare sampleStart_read rfl twoCardStart_first.1 (by decide +kernel),
    Node.fits_prepare sampleStart_read rfl twoCardStart_second.1 (by decide +kernel)⟩

theorem NodeSetup.Reaches.calls_commute_two_cards :
    twoCardSetup.Reaches sampleHost twoCardStart ∧
    Disjoint (twoCardStart.cards (.prepare (sampleClaim "c-1" "npu-0-0")))
      (twoCardStart.cards (.prepare (sampleClaim "c-2" "npu-1-0"))) ∧
    ((twoCardStart.perform (.prepare (sampleClaim "c-1" "npu-0-0"))).perform
      (.prepare (sampleClaim "c-2" "npu-1-0"))).engine =
    ((twoCardStart.perform (.prepare (sampleClaim "c-2" "npu-1-0"))).perform
      (.prepare (sampleClaim "c-1" "npu-0-0"))).engine := by
  have hne : "c-1" ≠ "c-2" := by decide
  have h := NodeSetup.Reaches.calls_commute twoCardStart_reached rfl rfl hne twoCardStart_apart
    twoCardStart_fits.1 twoCardStart_fits.2 twoCardStart_first.2 twoCardStart_second.2
  exact ⟨twoCardStart_reached, twoCardStart_apart, h.2.2.1⟩

end Sample

end SliceAgent
