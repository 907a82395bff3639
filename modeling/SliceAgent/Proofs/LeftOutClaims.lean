import SliceAgent.Proofs.ClaimLocality
import SliceAgent.Proofs.PreparedBatches

/-!
What a claim that fails leaves on the cards, and what becomes of the claims after it. They do not tell
whether it was prepared if they are about other cards than those that it has changed
(`Node.Twin.prepare_after`).
-/
namespace SliceAgent

section Carved

variable {driver : String} {cdiIds : List String} {sources : ConfigSources} {claim : ResourceClaim}
  {e : Engine} {i : Inventory}

theorem agreesOn_carved (hs : e.Sound)
    (hfit : e.FitsThrough (claimCalls driver sources claim ⟨e, i, []⟩)) :
    e.AgreesOn (SliceId.cardsOf (grantClaim driver cdiIds sources claim ⟨e, i, []⟩).2.carved)ᶜ
      (grantClaim driver cdiIds sources claim ⟨e, i, []⟩).2.engine := by
  refine (grantClaim_keeps (p := fun g => g.engine.Sound ∧
    e.AgreesOn (SliceId.cardsOf g.carved)ᶜ g.engine) (fun configs g r hfit hg => ?_) hfit
    ⟨hs, .refl _ e⟩).2
  obtain ⟨hs, hagree⟩ := hg
  rcases g.take_cases configs r with ⟨ht, _⟩ | ⟨a, engine, ha, ht⟩
  · rw [ht]
    exact ⟨hs, hagree⟩
  · have hengine : g.engine.perform (g.request configs r) = engine := by
      rw [Granting.request, Engine.perform, ha]
    have hname := hs.slice_id_of_allocate ha
    have hcall : (g.request configs r).PointsTo (SliceId.cardsOf (g.carved ++ [a.slice.id])) :=
      SliceId.pointsTo_cardsOf (by simp [hname])
    have hoff := hs.perform_off hcall
    rw [hengine] at hoff hfit
    rw [ht]
    refine ⟨hs.allocate ha hfit, ?_⟩
    exact (hagree.mono (Set.compl_subset_compl.2
      (SliceId.cardsOf_mono (List.subset_append_left _ _)))).trans hoff

end Carved

namespace Node

variable {n m n₀ m₀ : Node} {claim : ResourceClaim} {claims : List ResourceClaim} {c : Checkpoint}
  {devices : List PreparedDevice} {S : Set UInt32} {kept : ResourceClaim → Bool}

/-- The slices by which a claim changes the cards though it fails: in legacy mode all that were carved for
it, which stay allocated; in compensating mode the remainders of carved cards among them, which are free
again under other numbers. -/
def leftovers (n : Node) (claim : ResourceClaim) : List String :=
  match n.claims.persistence with
  | .legacy => (n.granting claim).2.carved
  | .compensating => (n.granting claim).2.carved.filter (n.CarvesRemainder claim ·)

theorem agreesOn_leftovers {e : NodeError} (hs : n.engine.Sound) (hfit : n.Fits (.prepare claim))
    (herr : (n.prepare claim).1 = .error e) :
    n.engine.AgreesOn (SliceId.cardsOf (n.leftovers claim))ᶜ (n.prepare claim).2.engine := by
  rcases prepare_engine_cases hfit with
    hsame | ⟨hgrant, hengine, ⟨_, hok⟩ | hmode⟩ | ⟨c, e, hread, hnone, hmode, herr⟩
  · rw [hsame]
    exact .refl _ _
  · cases hok.symm.trans herr
  · rw [hengine, leftovers, hmode]
    exact agreesOn_carved hs hgrant
  · obtain ⟨hren, hgone⟩ := renumbered_of_error hs hmode hfit hread hnone herr
    refine ⟨hren.catalog, hren.eligibility, fun index hindex => ?_⟩
    rcases hren.cards (SliceId.wholeCard index) with hsame | ⟨c, d, hc, hd, hcard⟩
    · exact hsame
    · obtain ⟨pieces, hpieces⟩ := hcard.before
      have hcarves := (hgone _).1 ⟨_, c, d, hc, hd, hcard, hpieces.hasFree_iff.2 rfl⟩
      refine absurd ⟨c.pieceId (c.nextSliceIndex - 1), ?_, ⟨_, _⟩, SliceId.parse?_text _, ?_⟩ hindex
      · rw [leftovers, hmode]
        exact List.mem_filter.2 ⟨hcarves.1, decide_eq_true hcarves⟩
      · exact (congrArg SliceId.card (SliceId.text_injective (hs.key_eq hc))).symm

theorem prepareCalls_pointTo (hn : Holds n₀ n) (hclaim : claim.PointsTo S n.cdi.driverName)
    (hfit : n.engine.FitsThrough (n.prepareCalls claim c)) :
    ∀ call ∈ n.prepareCalls claim c, call.PointsTo S := by
  have hg : Granting.Current ⟨n.engine, n.inventory, []⟩ := ⟨hn.sound, hn.mirrors⟩
  have hgrant := (Engine.fitsThrough_append.1 hfit).1
  refine List.forall_mem_append.2 ⟨claimCalls_pointTo hclaim _, ?_⟩
  unfold rollbackCalls
  split
  · refine List.forall_mem_map.2 fun id hid => ?_
    exact hg.carved_grantClaim_pointTo rfl hclaim hgrant id (List.mem_reverse.1 hid)
  · exact List.forall_mem_nil _

theorem store_of_ok (hread : n.host.readCheckpoint = .ok c) (hnone : c.find? claim.uid = none)
    (hok : (n.prepare claim).1 = .ok devices) : (n.prepare claim).2.host.store =
      n.host.store.put Checkpoint.storedName (c.insert claim.uid devices) := by
  rw [prepare_of_absent hread hnone] at hok ⊢
  rcases n.prepareNew_cases claim c with ⟨_, _, hnew⟩ | ⟨ds, files, _, hnew⟩
  · rw [hnew] at hok
    cases hok
  · rw [hnew] at hok ⊢
    cases hok
    rfl

/-- Nodes that have the record, the settings and certain cards in common. -/
structure Twin (S : Set UInt32) (n m : Node) : Prop where
  cdi : m.cdi = n.cdi
  claims : m.claims = n.claims
  faults : m.host.faults = n.host.faults
  store : m.host.store = n.host.store
  directories : n.host.files.SameDirectories m.host.files
  engine : n.engine.AgreesOn S m.engine

namespace Twin

theorem refl (S : Set UInt32) (n : Node) : Twin S n n := ⟨rfl, rfl, rfl, rfl, .refl _, .refl _ _⟩

theorem readCheckpoint_eq (h : Twin S n m) : m.host.readCheckpoint = n.host.readCheckpoint := by
  rw [Host.readCheckpoint, Host.readCheckpoint, h.faults, h.store]

theorem left_out {e : NodeError} (h : Twin S n m) (hs : n.engine.Sound) (hfit : n.Fits (.prepare claim))
    (herr : (n.prepare claim).1 = .error e) :
    Twin (S \ SliceId.cardsOf (n.leftovers claim)) (n.prepare claim).2 m := by
  obtain ⟨hcdi, hclaims, hfaults⟩ := n.settings_prepare claim
  refine ⟨h.cdi.trans hcdi.symm, h.claims.trans hclaims.symm, h.faults.trans hfaults.symm,
    h.store.trans (store_of_error herr).symm, (n.sameDirectories_prepare claim).symm.trans h.directories, ?_⟩
  exact ((agreesOn_leftovers hs hfit herr).symm.mono (Set.sdiff_subset_compl _ _)).trans
    (h.engine.mono Set.sdiff_subset)

theorem writes (h : Twin S n m) {uid : String}
    (hok : (n.host.writeClaimSpec n.cdi uid devices).1 = .ok ()) (others : List PreparedDevice) :
    (m.host.writeClaimSpec m.cdi uid others).1 = .ok () := by
  have hok' := Host.writeClaimSpec_ok_of_sameDirectories hok h.directories m.host.store others
  rwa [← h.faults, ← h.cdi] at hok'

theorem prepareNew_ok_iff (h : Twin S n m) (hsame : (m.granting claim).1 = (n.granting claim).1) :
    (m.prepareNew claim c).1 = .ok devices ↔ (n.prepareNew claim c).1 = .ok devices := by
  rw [Node.prepareNew_ok_iff, Node.prepareNew_ok_iff, hsame, h.faults]
  refine and_congr_right fun _ => and_congr_left fun _ => ⟨fun hok => ?_, fun hok => h.writes hok _⟩
  have hok' := Host.writeClaimSpec_ok_of_sameDirectories hok h.directories.symm n.host.store devices
  rwa [h.faults, h.cdi] at hok'

theorem rollbackCalls_eq (h : Twin S n m) (hsame : (m.granting claim).1 = (n.granting claim).1)
    (hcarved : (m.granting claim).2.carved = (n.granting claim).2.carved) :
    m.rollbackCalls claim c = n.rollbackCalls claim c := by
  cases hresult : (n.prepareNew claim c).1 with
  | ok devices =>
    have hresult' := (h.prepareNew_ok_iff (c := c) hsame).2 hresult
    rw [rollbackCalls_of_ok hresult, rollbackCalls_of_ok hresult']
  | error e =>
    cases hresult' : (m.prepareNew claim c).1 with
    | ok devices => cases hresult.symm.trans ((h.prepareNew_ok_iff hsame).1 hresult')
    | error e' => rw [rollbackCalls_of_error hresult, rollbackCalls_of_error hresult', h.claims, hcarved]

theorem prepare (h : Twin S n m) (hn : Holds n₀ n) (hm : Holds m₀ m)
    (hclaim : claim.PointsTo S n.cdi.driverName) (hfit : n.Fits (.prepare claim)) :
    (∀ devices, (m.prepare claim).1 = .ok devices ↔ (n.prepare claim).1 = .ok devices) ∧
      Twin S (n.prepare claim).2 (m.prepare claim).2 := by
  rcases n.prepare_cases claim with ⟨e, hread, hp⟩ | ⟨c, ds, hread, hfind, hp⟩ | ⟨c, hread, hnone, hp⟩
  · have hp' : m.prepare claim = (.error (.store e), m) := by
      simp only [Node.prepare, h.readCheckpoint_eq, hread]
    rw [hp, hp']
    exact ⟨fun _ => Iff.rfl, h⟩
  · have hp' : m.prepare claim = (.ok ds, m) := by
      simp only [Node.prepare, h.readCheckpoint_eq, hread, hfind]
    rw [hp, hp']
    exact ⟨fun _ => Iff.rfl, h⟩
  · have hread' := h.readCheckpoint_eq.trans hread
    obtain ⟨hsame, hgranted, hend⟩ := granting_of_agreesOn h.cdi h.claims h.engine
      ⟨hn.sound, hn.mirrors⟩ ⟨hm.sound, hm.mirrors⟩ hclaim (fits_granting hfit hread hnone)
    have hcalls : m.prepareCalls claim c = n.prepareCalls claim c := by
      rw [prepareCalls, prepareCalls, hgranted, h.rollbackCalls_eq hsame hend.carved]
    have hok : ∀ devices, (m.prepare claim).1 = .ok devices ↔ (n.prepare claim).1 = .ok devices := by
      intro devices
      rw [prepare_of_absent hread' hnone, hp]
      exact h.prepareNew_ok_iff hsame
    obtain ⟨hcdi, hclaims, hfaults⟩ := n.settings_prepare claim
    obtain ⟨hcdi', hclaims', hfaults'⟩ := m.settings_prepare claim
    refine ⟨hok, ⟨?_, ?_, ?_, ?_, ?_, ?_⟩⟩
    · rw [hcdi, hcdi', h.cdi]
    · rw [hclaims, hclaims', h.claims]
    · rw [hfaults, hfaults', h.faults]
    · cases hresult : (n.prepare claim).1 with
      | ok devices =>
        rw [store_of_ok hread hnone hresult, store_of_ok hread' hnone ((hok devices).2 hresult), h.store]
      | error e =>
        cases hresult' : (m.prepare claim).1 with
        | ok devices => cases hresult.symm.trans ((hok devices).1 hresult')
        | error e' => rw [store_of_error hresult, store_of_error hresult', h.store]
    · exact (n.sameDirectories_prepare claim).symm.trans
        (h.directories.trans (m.sameDirectories_prepare claim))
    · rw [Fits, engineCalls_prepare hread hnone] at hfit
      rw [engine_prepare, engine_prepare, engineCalls_prepare hread hnone,
        engineCalls_prepare hread' hnone, hcalls]
      exact (h.engine.performAll hn.sound hm.sound (prepareCalls_pointTo hn hclaim hfit) hfit).2

end Twin

/-- Whether no claim that is kept is assigned a device on a card that has changed for a claim before it
that is left out. Some cards may have changed already. -/
def Clear (kept : ResourceClaim → Bool) : Node → Set UInt32 → List ResourceClaim → Prop
  | _, _, [] => True
  | n, S, claim :: claims =>
    if kept claim then claim.PointsTo Sᶜ n.cdi.driverName ∧ Clear kept (n.prepare claim).2 S claims
    else Clear kept (n.prepare claim).2 (S ∪ SliceId.cardsOf (n.leftovers claim)) claims

theorem Twin.prepare_after (h : Twin Sᶜ n m) (hn : Holds n₀ n) (hm : Holds m₀ m)
    (hfit : n.FitsThrough ((claims ++ [claim]).map .prepare))
    (hfit' : m.FitsThrough ((claims.filter kept).map .prepare))
    (hfail : ∀ before c after, claims = before ++ c :: after → kept c = false →
      ∃ e, ((n.performAll (before.map .prepare)).prepare c).1 = .error e)
    (hkept : kept claim = true) (hclear : n.Clear kept S (claims ++ [claim])) :
    ((m.performAll ((claims.filter kept).map .prepare)).prepare claim).1 = .ok devices ↔
      ((n.performAll (claims.map .prepare)).prepare claim).1 = .ok devices := by
  induction claims generalizing n m S with
  | nil =>
    rw [List.nil_append, Clear, if_pos hkept] at hclear
    exact (h.prepare hn hm hclear.1 hfit.1).1 devices
  | cons c claims ih =>
    have hnext : Holds n₀ (n.prepare c).2 := hn.perform hfit.1
    have hrest : ∀ before c' after, claims = before ++ c' :: after → kept c' = false →
        ∃ e, (((n.prepare c).2.performAll (before.map .prepare)).prepare c').1 = .error e :=
      fun before c' after hlist => hfail (c :: before) c' after (congrArg (c :: ·) hlist)
    rw [List.cons_append, Clear] at hclear
    cases hc : kept c with
    | true =>
      rw [if_pos hc] at hclear
      rw [List.filter_cons_of_pos hc] at hfit' ⊢
      have hboth := h.prepare hn hm hclear.1 hfit.1
      exact ih hboth.2 hnext (hm.perform hfit'.1) hfit.2 hfit'.2 hrest hclear.2
    | false =>
      rw [if_neg (Bool.eq_false_iff.1 hc)] at hclear
      rw [List.filter_cons_of_neg (Bool.eq_false_iff.1 hc)] at hfit' ⊢
      obtain ⟨e, herr⟩ := hfail [] c claims rfl hc
      have hout := h.left_out hn.sound hfit.1 herr
      rw [Set.sdiff_eq, ← Set.compl_union] at hout
      exact ih hout hnext hm hfit.2 hfit' hrest hclear

end Node

end SliceAgent
