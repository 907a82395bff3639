import SliceAgent.Proofs.LeftOutClaims
import SliceAgent.Proofs.ReleasedNames

/-!
A batch of claims compared with the same batch without some that fail in it. What becomes of the others
depends on those only through the slices that are known when their turn comes
(`Node.reported_or_refused`): a failure takes a name away in one case (`Node.reported_iff_of_known`), and
takes away nothing from cards that it leaves alone (`Node.reported_of_clear`).
-/
namespace SliceAgent

namespace Granting

variable {g : Granting} {configs : List RankedConfig} {r : Assignment} {rs : List Assignment}
  {id : String} {e : GrantError}

theorem knows_take (hs : g.engine.Sound) (hknown : g.engine.Knows id) :
    (g.take configs r).2.engine.Knows id := by
  rcases g.take_cases configs r with ⟨ht, _⟩ | ⟨a, engine, ha, ht⟩
  · rw [ht]
    exact hknown
  · rw [ht]
    exact hs.knows_allocate ha hknown

theorem unknown_of_refused (hg : g.Current) (hfit : g.engine.FitsThrough (calls configs rs g))
    (herr : (grantAll configs rs g).1 = .error e) :
    ∃ r ∈ rs, e = .notAllocatable r.device ∧ ¬ g.engine.Knows r.device := by
  induction rs generalizing g with
  | nil => cases herr
  | cons r rs ih =>
    rw [calls] at hfit
    have hnext := hg.take hfit.1
    have hfst : (g.grant configs r).1 = _ := grant_fst hg.sound
    have hsnd := grant_snd configs g r
    rw [grantAll] at herr
    cases hgrant : g.grant configs r with
    | mk result g' =>
      rw [hgrant] at hfst hsnd herr hfit
      obtain rfl : g' = (g.take configs r).2 := hsnd
      cases result with
      | error err =>
        cases herr
        simp only at hfst
        split at hfst
        · cases hfst
        · rename_i hnot
          refine ⟨r, List.mem_cons_self, Except.error.inj hfst, fun hknown => hnot ?_⟩
          exact hnext.contains_iff.2 (knows_take hg.sound hknown)
      | ok d =>
        have hrest : (grantAll configs rs (g.take configs r).2).1 = .error e := by
          cases hall : grantAll configs rs (g.take configs r).2 with
          | mk result g'' =>
            simp only [hall] at herr
            cases result with
            | error err => exact herr
            | ok ds => cases herr
        obtain ⟨r', hr', he, hnot⟩ := ih hnext (g.take_engine configs r ▸ hfit.2) hrest
        exact ⟨r', List.mem_cons_of_mem _ hr', he, fun hknown => hnot (knows_take hg.sound hknown)⟩

end Granting

section Claim

variable {driver : String} {cdiIds : List String} {sources : ConfigSources} {claim : ResourceClaim}
  {g k : Granting} {devices : List PreparedDevice}

theorem grantClaim_elsewhere (hg : g.Current) (hk : k.Current)
    (hfit : g.engine.FitsThrough (claimCalls driver sources claim g))
    (hfit' : k.engine.FitsThrough (claimCalls driver sources claim k))
    (hok : (grantClaim driver cdiIds sources claim g).1 = .ok devices) :
    (∃ others, (grantClaim driver cdiIds sources claim k).1 = .ok others ∧
      others.map (·.device) = devices.map (·.device)) ∨
    ∃ r ∈ claim.assigned driver, ¬ k.engine.Knows r.device ∧
      (grantClaim driver cdiIds sources claim k).1 = .error (.notAllocatable r.device) := by
  have hgranted : grantClaim driver cdiIds sources claim g = (.ok devices, _) := Prod.ext hok rfl
  obtain ⟨allocation, configs, granted, ha, hr, hall, hcheck, rfl⟩ := grantClaim_ok_iff.1 hgranted
  rw [claimCalls_of_resolved g ha hr] at hfit
  rw [claimCalls_of_resolved k ha hr] at hfit'
  rw [ResourceClaim.assigned_of_allocation ha]
  obtain ⟨_, hnames, _⟩ := Granting.asIs_of_grantAll hg hfit hall
  cases hkall : Granting.grantAll configs (allocation.results.filter (·.driver = driver)) k with
  | mk result k' =>
    cases result with
    | ok others =>
      obtain ⟨_, hnames', _⟩ := Granting.asIs_of_grantAll hk hfit' hkall
      obtain rfl : others = granted := hnames'.trans hnames.symm
      refine .inl ⟨_, congrArg Prod.fst (grantClaim_ok_iff.2
        ⟨allocation, configs, others, ha, hr, hkall, hcheck, rfl⟩), ?_⟩
      rw [List.map_map, List.map_map]
      rfl
    | error e =>
      have herr := congrArg Prod.fst hkall
      obtain ⟨r, hmem, rfl, hnot⟩ := Granting.unknown_of_refused hk hfit' herr
      exact .inr ⟨r, hmem, hnot, grantClaim_of_refused ha hr herr⟩

theorem knows_of_granted (hg : g.Current)
    (hfit : g.engine.FitsThrough (claimCalls driver sources claim g))
    (hok : (grantClaim driver cdiIds sources claim g).1 = .ok devices) :
    ∀ r ∈ claim.assigned driver, (grantClaim driver cdiIds sources claim g).2.engine.Knows r.device := by
  have hgranted : grantClaim driver cdiIds sources claim g = (.ok devices, _) := Prod.ext hok rfl
  obtain ⟨allocation, configs, granted, ha, hr, hall, _⟩ := grantClaim_ok_iff.1 hgranted
  rw [claimCalls_of_resolved g ha hr] at hfit
  rw [ResourceClaim.assigned_of_allocation ha]
  obtain ⟨hcurrent, _, hasIs, _⟩ := Granting.asIs_of_grantAll hg hfit hall
  exact fun r hr => hcurrent.contains_iff.1 (hasIs r hr).known

end Claim

theorem BatchResult.ofPrepare_eq_iff {uid : String} {result : Except NodeError (List PreparedDevice)}
    {ds : List Device} : BatchResult.ofPrepare uid result = ⟨ds, none⟩ ↔
      ∃ devices, result = .ok devices ∧ devices.map (·.device) = ds := by
  cases result with
  | ok devices => simp [ofPrepare]
  | error e => simp [ofPrepare]

namespace Node

variable {n m n₀ m₀ : Node} {claim : ResourceClaim} {claims : List ResourceClaim} {key : String}
  {c : Checkpoint} {card : Card} {devices : List PreparedDevice}

section Again

theorem granting_of_settings (hcdi : m.cdi = n.cdi) (hclaims : m.claims = n.claims) :
    m.granting claim = grantClaim n.cdi.driverName (n.cdi.deviceIds claim.uid) n.claims.sources claim
      ⟨m.engine, m.inventory, []⟩ := by
  rw [granting, hcdi, hclaims]

theorem SameFor.prepare_elsewhere (h : n.SameFor claim.uid m) (hn : Holds n₀ n) (hm : Holds m₀ m)
    (hfit : n.Fits (.prepare claim)) (hfit' : m.Fits (.prepare claim))
    (hok : (n.prepare claim).1 = .ok devices) :
    (∃ others, (m.prepare claim).1 = .ok others ∧
      others.map (·.device) = devices.map (·.device)) ∨
    ∃ r ∈ claim.assigned n.cdi.driverName, ¬ m.engine.Knows r.device ∧
      (m.prepare claim).1 = .error (.grant (.notAllocatable r.device)) := by
  rcases n.prepare_cases claim with ⟨_, _, hp⟩ | ⟨c, ds, hread, hfind, hp⟩ | ⟨c, hread, hnone, hp⟩
  · rw [hp] at hok
    cases hok
  · obtain ⟨c', hread', hsame⟩ := h.read hread
    rw [hp] at hok
    cases hok
    refine .inl ⟨devices, ?_, rfl⟩
    simp only [prepare, hread', hsame, hfind]
  · obtain ⟨c', hread', hsame⟩ := h.read hread
    have hnone' : c'.find? claim.uid = none := hsame.trans hnone
    rw [hp] at hok
    obtain ⟨hgrant, hspec, hwrite⟩ := prepareNew_ok_iff.1 hok
    have hmfit := fits_granting hfit' hread' hnone'
    rw [h.cdi, h.claims] at hmfit
    rw [prepare_of_absent hread' hnone']
    rcases grantClaim_elsewhere (k := ⟨m.engine, m.inventory, []⟩) ⟨hn.sound, hn.mirrors⟩
      ⟨hm.sound, hm.mirrors⟩ (fits_granting hfit hread hnone) hmfit hgrant with
      ⟨others, hothers, hdevices⟩ | ⟨r, hr, hnot, herr⟩
    · rw [← granting_of_settings h.cdi h.claims] at hothers
      refine .inl ⟨others, prepareNew_ok_iff.2 ⟨hothers, ?_, ?_⟩, hdevices⟩
      · have hspec' := Host.writeClaimSpec_ok_of_sameDirectories hspec h.directories m.host.store others
        rw [← h.faults, ← h.cdi] at hspec'
        exact hspec'
      · rw [h.faults]
        exact hwrite
    · rw [← granting_of_settings h.cdi h.claims] at herr
      exact .inr ⟨r, hr, hnot, prepareNew_of_refused herr⟩

theorem refused_of_lacks {r : Assignment} (hm : Holds m₀ m) (hfit : m.Fits (.prepare claim))
    (hread : m.host.readCheckpoint = .ok c) (hnone : c.find? claim.uid = none)
    (hr : r ∈ claim.assigned m.cdi.driverName) (hlacks : m.engine.Lacks key card r.device) :
    (m.prepare claim).1 ≠ .ok devices := by
  intro hok
  rw [prepare_of_absent hread hnone] at hok
  have hgrantfit := fits_granting hfit hread hnone
  rw [Fits, engineCalls_prepare hread hnone] at hfit
  have hsound := (extends_granting hm.sound hfit).sound
  have hknown := knows_of_granted ⟨hm.sound, hm.mirrors⟩ hgrantfit (prepareNew_ok_iff.1 hok).1 r hr
  have hstill : (m.granting claim).2.engine.Lacks key card r.device :=
    Granting.engine_keeps (q := fun e => e.Lacks key card r.device) hm.sound
      (fun he h ha hfit => h.allocate he ha hfit) hgrantfit hlacks
  exact hstill.not_knows hsound hknown

end Again

section Reports

def reported (n : Node) (claims : List ResourceClaim) (uid : String) : Option BatchResult :=
  (n.prepareAll claims).1.find? uid

theorem prepareAll_snd (n : Node) (claims : List ResourceClaim) :
    (n.prepareAll claims).2 = n.performAll (claims.map .prepare) := by
  rw [Node.performAll, List.foldl_map]
  exact (List.foldl_hom Prod.snd fun _ _ => rfl).symm

theorem prepareAll_concat (n : Node) (claims : List ResourceClaim) (claim : ResourceClaim) :
    (n.prepareAll (claims ++ [claim])).1 = (n.prepareAll claims).1.insert claim.uid
      (.ofPrepare claim.uid ((n.performAll (claims.map .prepare)).prepare claim).1) := by
  rw [← prepareAll_snd, prepareAll, List.foldl_append]
  rfl

theorem reported_eq {before after : List ResourceClaim}
    (hdistinct : ((before ++ claim :: after).map (·.uid)).Nodup) :
    n.reported (before ++ claim :: after) claim.uid = some (.ofPrepare claim.uid
      ((n.performAll (before.map .prepare)).prepare claim).1) := by
  induction after using List.reverseRecOn with
  | nil => rw [reported, prepareAll_concat, Dict.find?_insert, if_pos rfl]
  | append_singleton after last ih =>
    have hlist : before ++ claim :: (after ++ [last]) = (before ++ claim :: after) ++ [last] := by simp
    rw [hlist] at hdistinct ⊢
    rw [List.map_append, List.nodup_append] at hdistinct
    obtain ⟨hrest, _, hlast⟩ := hdistinct
    have hne : claim.uid ≠ last.uid := hlast claim.uid (by simp) last.uid (by simp)
    rw [reported, prepareAll_concat, Dict.find?_insert, if_neg hne]
    exact ih hrest

end Reports

def IsRecorded (n : Node) (uid : String) : Prop :=
  ∃ c devices, n.host.readCheckpoint = .ok c ∧ c.find? uid = some devices

section Batch

variable {before after : List ResourceClaim} {kept : ResourceClaim → Bool} {ds : List Device}
  (h : Holds n₀ n) (hdistinct : ((before ++ claim :: after).map (·.uid)).Nodup)
  (hkept : kept claim = true) (hfit : n.FitsThrough ((before ++ claim :: after).map .prepare))
  (hfit' : n.FitsThrough (((before ++ claim :: after).filter kept).map .prepare))

include hdistinct

theorem sameFor_before : n.SameFor claim.uid (n.performAll (before.map .prepare)) := by
  refine n.sameFor_performAll fun c hc => ?_
  rw [List.map_append, List.nodup_append] at hdistinct
  exact (hdistinct.2.2 c.uid (List.mem_map_of_mem hc) claim.uid List.mem_cons_self).symm

include hkept

theorem distinct_kept : ((before.filter kept ++ claim :: after.filter kept).map (·.uid)).Nodup := by
  have hsub := ((before ++ claim :: after).filter_sublist (p := kept)).map (·.uid)
  rw [List.filter_append, List.filter_cons_of_pos hkept] at hsub
  exact hdistinct.sublist hsub

theorem reported_kept (halone : n.reported ((before ++ claim :: after).filter kept) claim.uid =
      some ⟨ds, none⟩) :
    ∃ devices, ((n.performAll ((before.filter kept).map .prepare)).prepare claim).1 = .ok devices ∧
      devices.map (·.device) = ds := by
  rw [List.filter_append, List.filter_cons_of_pos hkept, reported_eq (distinct_kept hdistinct hkept)]
    at halone
  exact BatchResult.ofPrepare_eq_iff.1 (Option.some.inj halone)

include h hfit hfit'

theorem reported_or_refused (halone : n.reported ((before ++ claim :: after).filter kept) claim.uid =
      some ⟨ds, none⟩) :
    n.reported (before ++ claim :: after) claim.uid = some ⟨ds, none⟩ ∨
    ∃ r ∈ claim.assigned n.cdi.driverName,
      ¬ (n.performAll (before.map .prepare)).engine.Knows r.device ∧
      n.reported (before ++ claim :: after) claim.uid =
        some (.ofPrepare claim.uid (.error (.grant (.notAllocatable r.device)))) := by
  obtain ⟨devices, hok, rfl⟩ := reported_kept hdistinct hkept halone
  rw [List.map_append, fitsThrough_append] at hfit
  rw [List.filter_append, List.filter_cons_of_pos hkept, List.map_append, fitsThrough_append] at hfit'
  have hall := sameFor_before (n := n) hdistinct
  have hsome := sameFor_before (n := n) (distinct_kept hdistinct hkept)
  rw [reported_eq hdistinct]
  rcases (hsome.symm.trans hall).prepare_elsewhere (h.performAll hfit'.1) (h.performAll hfit.1)
    hfit'.2.1 hfit.2.1 hok with ⟨others, hothers, hsame⟩ | ⟨r, hr, hnot, herr⟩
  · rw [hothers, ← hsame]
    exact .inl rfl
  · rw [herr]
    rw [hsome.cdi] at hr
    exact .inr ⟨r, hr, hnot, rfl⟩

theorem reported_iff_of_known (halone : n.reported ((before ++ claim :: after).filter kept) claim.uid =
      some ⟨ds, none⟩) (hknown : ∀ r ∈ claim.assigned n.cdi.driverName, n.engine.Knows r.device) :
    n.reported (before ++ claim :: after) claim.uid = some ⟨ds, none⟩ ↔
      n.IsRecorded claim.uid ∨ ∀ r ∈ claim.assigned n.cdi.driverName, ¬ n.Withdrawn before r.device := by
  have hcases := reported_or_refused h hdistinct hkept hfit hfit' halone
  obtain ⟨devices, hok, _⟩ := reported_kept hdistinct hkept halone
  obtain ⟨_, hread⟩ := reads_of_ok hok
  obtain ⟨c, hread, _⟩ := (sameFor_before (n := n) (distinct_kept hdistinct hkept)).symm.read hread
  have hall := sameFor_before (n := n) hdistinct
  obtain ⟨c', hread', hsame⟩ := hall.read hread
  rw [List.map_append, fitsThrough_append] at hfit
  have hm := h.performAll hfit.1
  rw [reported_eq hdistinct] at hcases ⊢
  constructor
  · intro hfull
    obtain ⟨others, hothers, _⟩ := BatchResult.ofPrepare_eq_iff.1 (Option.some.inj hfull)
    cases hfind : c.find? claim.uid with
    | some ds' => exact .inl ⟨c, ds', hread, hfind⟩
    | none =>
      refine .inr fun r hr hgone => ?_
      obtain ⟨key, card, hlacks⟩ := hgone.lacks h hfit.1 ⟨c, hread⟩
      rw [← hall.cdi] at hr
      exact refused_of_lacks hm hfit.2.1 hread' (hsame.trans hfind) hr hlacks hothers
  · intro hor
    rcases hcases with hfull | ⟨r, hr, hnot, herr⟩
    · exact hfull
    · exfalso
      rcases hor with ⟨c₀, ds', hread₀, hfind⟩ | hnone
      · cases hread₀.symm.trans hread
        have hagain : ((n.performAll (before.map .prepare)).prepare claim).1 = .ok ds' := by
          simp only [prepare, hread', hsame, hfind]
        rw [hagain] at herr
        cases congrArg BatchResult.error (Option.some.inj herr)
      · exact hnot ((knows_performAll_iff h hfit.1 ⟨c, hread⟩ (hknown r hr)).2 (hnone r hr))

theorem reported_of_clear (hfail : ∀ c ∈ before ++ claim :: after, kept c = false →
      ∃ r, n.reported (before ++ claim :: after) c.uid = some r ∧ r.error ≠ none)
    (hclear : n.Clear kept ∅ (before ++ [claim]))
    (halone : n.reported ((before ++ claim :: after).filter kept) claim.uid = some ⟨ds, none⟩) :
    n.reported (before ++ claim :: after) claim.uid = some ⟨ds, none⟩ := by
  obtain ⟨devices, hok, rfl⟩ := reported_kept hdistinct hkept halone
  have hfailed : ∀ first c rest, before = first ++ c :: rest → kept c = false →
      ∃ e, ((n.performAll (first.map .prepare)).prepare c).1 = .error e := by
    rintro first c rest rfl hc
    obtain ⟨r, hr, herr⟩ := hfail c (by simp) hc
    rw [List.append_assoc, List.cons_append] at hr hdistinct
    rw [reported_eq hdistinct] at hr
    cases hresult : ((n.performAll (first.map .prepare)).prepare c).1 with
    | error e => exact ⟨e, rfl⟩
    | ok ds =>
      rw [hresult] at hr
      obtain rfl := Option.some.inj hr
      exact absurd rfl herr
  have hsplit : before ++ claim :: after = (before ++ [claim]) ++ after := by simp
  rw [reported_eq hdistinct]
  rw [hsplit, List.map_append, fitsThrough_append] at hfit
  rw [List.filter_append, List.map_append, fitsThrough_append] at hfit'
  have htwin : Twin ∅ᶜ n n := .refl _ n
  rw [(htwin.prepare_after h h hfit.1 hfit'.1 hfailed hkept hclear).1 hok]
  rfl

end Batch

end Node

/-- A batch of claims with different identifiers, and the same batch without some claims that fail in it.
A claim that succeeds without them gets the same devices in the batch, or is refused there for one of its
devices, which is no slice at its turn. If its devices are all slices before the batch it is refused only
if one of them was withdrawn, as what was left of a carved card, by a claim before it that fails in
compensating mode. It is never refused if the claims left out before it, and before those that are kept
with it, have changed none of the cards that these are about. -/
theorem NodeSetup.Reaches.isolates {s : NodeSetup} {host : Host} {n : Node}
    {before after : List ResourceClaim} {claim : ResourceClaim} {kept : ResourceClaim → Bool}
    {ds : List Device} (hreach : s.Reaches host n)
    (hdistinct : ((before ++ claim :: after).map (·.uid)).Nodup)
    (hfit : n.FitsThrough ((before ++ claim :: after).map .prepare))
    (hfit' : n.FitsThrough (((before ++ claim :: after).filter kept).map .prepare))
    (hfail : ∀ c ∈ before ++ claim :: after, kept c = false →
      ∃ r, n.reported (before ++ claim :: after) c.uid = some r ∧ r.error ≠ none)
    (hkept : kept claim = true)
    (halone : n.reported ((before ++ claim :: after).filter kept) claim.uid = some ⟨ds, none⟩) :
    let succeeds := n.reported (before ++ claim :: after) claim.uid = some ⟨ds, none⟩
    let assigned := claim.assigned n.cdi.driverName
    (succeeds ∨ ∃ r ∈ assigned, ¬ (n.performAll (before.map .prepare)).engine.Knows r.device ∧
      n.reported (before ++ claim :: after) claim.uid =
        some (.ofPrepare claim.uid (.error (.grant (.notAllocatable r.device))))) ∧
    ((∀ r ∈ assigned, n.engine.Knows r.device) →
      (succeeds ↔ n.IsRecorded claim.uid ∨ ∀ r ∈ assigned, ¬ n.Withdrawn before r.device)) ∧
    (∀ id, n.Withdrawn before id → s.claims.persistence = .compensating) ∧
    (n.Clear kept ∅ (before ++ [claim]) → succeeds) := by
  obtain ⟨n₀, h, hclaims⟩ := hreach.holds
  refine ⟨?_, ?_, fun id hgone => hclaims ▸ hgone.compensating, fun hclear => ?_⟩
  · exact Node.reported_or_refused h hdistinct hkept hfit hfit' halone
  · exact Node.reported_iff_of_known h hdistinct hkept hfit hfit' halone
  · exact Node.reported_of_clear h hdistinct hkept hfit hfit' hfail hclear halone

section Sample

namespace Node

variable {n : Node} {first second : ResourceClaim} {calls : List EngineCall} {c : Checkpoint}
  {devices : List PreparedDevice}

theorem prepareNew_fails (c : Checkpoint) (h : (n.granting first).1.isOk = false) :
    ∃ e, (n.prepareNew first c).1 = .error e := by
  cases hg : (n.granting first).1 with
  | ok devices =>
    rw [hg] at h
    cases h
  | error e => exact ⟨_, prepareNew_of_refused hg⟩

theorem fits_of_granting
    (h : n.engine.FitsThrough (claimCalls n.cdi.driverName n.claims.sources second
      ⟨n.engine, n.inventory, []⟩ ++ (n.granting second).2.carved.reverse.map .release)) :
    n.Fits (.prepare second) := by
  unfold Fits engineCalls
  cases n.host.readCheckpoint with
  | error e => trivial
  | ok c =>
    simp only
    cases c.find? second.uid with
    | some devices => trivial
    | none =>
      simp only [prepareCalls, rollbackCalls]
      split
      · exact h
      · rw [List.append_nil]
        exact (Engine.fitsThrough_append.1 h).1

theorem fits_pair (hcalls : n.engineCalls (.prepare first) = calls) (hfirst : n.engine.FitsThrough calls)
    (hsecond : (n.after calls).engine.FitsThrough (claimCalls n.cdi.driverName n.claims.sources second
        ⟨(n.after calls).engine, (n.after calls).inventory, []⟩ ++
      ((n.after calls).granting second).2.carved.reverse.map .release)) :
    n.FitsThrough ([first, second].map .prepare) := by
  obtain ⟨host, hafter⟩ := n.perform_after (NodeCall.noConfusion : NodeCall.prepare first ≠ .reconcile)
  rw [hcalls] at hafter
  refine ⟨?_, ?_, trivial⟩
  · rw [Fits, hcalls]
    exact hfirst
  · rw [hafter]
    exact fits_of_granting hsecond

theorem reported_alone (hok : (n.prepare second).1 = .ok devices) :
    n.reported [second] second.uid = some ⟨devices.map (·.device), none⟩ := by
  have hreported : n.reported ([] ++ second :: []) second.uid = some _ := reported_eq (by simp)
  rw [show ((n.performAll ([].map .prepare)).prepare second).1 = _ from hok] at hreported
  exact hreported

section Pair

variable (hne : ([first, second].map (·.uid)).Nodup) (hread : n.host.readCheckpoint = .ok c)

include hne hread

theorem reported_first (hnone : c.find? first.uid = none) (hfail : (n.granting first).1.isOk = false)
    {kept : ResourceClaim → Bool} (hin : kept second = true) : ∀ claim ∈ [first, second],
      kept claim = false → ∃ r, n.reported [first, second] claim.uid = some r ∧ r.error ≠ none := by
  obtain ⟨e, herr⟩ := prepareNew_fails c hfail
  have hreported : n.reported ([] ++ first :: [second]) first.uid = some _ := reported_eq hne
  have hresult : ((n.performAll ([].map .prepare)).prepare first).1 = .error e :=
    (congrArg Prod.fst (prepare_of_absent hread hnone)).trans herr
  rw [hresult] at hreported
  refine List.forall_mem_cons.2 ⟨fun _ => ⟨_, hreported, Option.some_ne_none _⟩, fun c hc hleft => ?_⟩
  obtain rfl := List.mem_singleton.1 hc
  cases hin.symm.trans hleft

theorem not_reported_second {ds : List Device} (hnone : c.find? second.uid = none)
    (hcalls : n.engineCalls (.prepare first) = calls)
    (hrefused : ((n.after calls).granting second).1.isOk = false) :
    n.reported [first, second] second.uid ≠ some ⟨ds, none⟩ := by
  intro hreported
  have hlist : [first, second] = [first] ++ second :: [] := rfl
  rw [hlist] at hne hreported
  rw [reported_eq hne] at hreported
  obtain ⟨devices, hok, _⟩ := BatchResult.ofPrepare_eq_iff.1 (Option.some.inj hreported)
  obtain ⟨c', hread', hsame⟩ := (sameFor_before hne).read hread
  rw [prepare_of_absent hread' (hsame.trans hnone)] at hok
  obtain ⟨host, hafter⟩ := n.perform_after (NodeCall.noConfusion : NodeCall.prepare first ≠ .reconcile)
  rw [hcalls] at hafter
  have hgranted : ((n.performAll [.prepare first]).granting second).1 = .ok devices :=
    (prepareNew_ok_iff.1 hok).1
  rw [show n.performAll [.prepare first] = { n.after calls with host } from hafter] at hgranted
  rw [show ((n.after calls).granting second).1 = .ok devices from hgranted] at hrefused
  cases hrefused

end Pair

end Node

def sampleKept (claim : ResourceClaim) : Bool := claim.uid != "c-3"

def sampleFailing : ResourceClaim :=
  ⟨"c-3", "default", "c-3", some ⟨["npu-0-1", "npu-9-0"].map (⟨"npu", "npu.example.com", "node-a", ·⟩),
    [⟨"FromClass", [], some ⟨"npu.example.com", (NpuConfig.ofTemplate "vir01").toRaw⟩⟩]⟩⟩

theorem sampleFailing_refused : (sampleCarved.granting sampleFailing).1.isOk = false := by
  decide +kernel

theorem sampleFailing_absent : sampleRecord.find? sampleFailing.uid = none :=
  (Dict.find?_insert ..).trans (if_neg (by decide))

def sampleFailingCalls : List EngineCall :=
  claimCalls sampleCarved.cdi.driverName sampleCarved.claims.sources sampleFailing
      ⟨sampleCarved.engine, sampleCarved.inventory, []⟩ ++
    (sampleCarved.granting sampleFailing).2.carved.reverse.map .release

theorem sampleFailing_calls : sampleCarved.engineCalls (.prepare sampleFailing) = sampleFailingCalls := by
  obtain ⟨e, herr⟩ := Node.prepareNew_fails sampleRecord sampleFailing_refused
  exact Node.engineCalls_of_error rfl sampleCarved_read sampleFailing_absent herr

def sampleBatch (device : String) : List ResourceClaim := [sampleFailing, sampleClaim "c-2" device]

theorem sampleBatch_distinct (device : String) : ((sampleBatch device).map (·.uid)).Nodup := by
  show ["c-3", "c-2"].Nodup
  decide

theorem sampleBatch_fits : ∀ device ∈ ["npu-0-0", "npu-0-1"],
    sampleCarved.FitsThrough ((sampleBatch device).map .prepare) ∧
      sampleCarved.FitsThrough (((sampleBatch device).filter sampleKept).map .prepare) := by
  have hboth : ∀ device ∈ ["npu-0-0", "npu-0-1"],
      (sampleCarved.after sampleFailingCalls).engine.FitsThrough
        (claimCalls "npu.example.com" .classOnly (sampleClaim "c-2" device)
          ⟨(sampleCarved.after sampleFailingCalls).engine,
            (sampleCarved.after sampleFailingCalls).inventory, []⟩ ++
        ((sampleCarved.after sampleFailingCalls).granting
          (sampleClaim "c-2" device)).2.carved.reverse.map .release) := by
    decide +kernel
  have halone : ∀ device ∈ ["npu-0-0", "npu-0-1"], sampleCarved.engine.FitsThrough
      (claimCalls "npu.example.com" .classOnly (sampleClaim "c-2" device)
        ⟨sampleCarved.engine, sampleCarved.inventory, []⟩ ++
      (sampleCarved.granting (sampleClaim "c-2" device)).2.carved.reverse.map .release) := by
    decide +kernel
  exact fun device hdevice => ⟨Node.fits_pair sampleFailing_calls (by decide +kernel)
    (hboth device hdevice), Node.fits_of_granting (halone device hdevice), trivial⟩

theorem sampleBorrowed_known : ∀ r ∈ (sampleClaim "c-2" "npu-0-0").assigned sampleCarved.cdi.driverName,
    sampleCarved.engine.Knows r.device := by
  obtain ⟨n₀, h, _⟩ := sampleCarved_reached.holds
  have hlisted : ∀ r ∈ (sampleClaim "c-2" "npu-0-0").assigned sampleCarved.cdi.driverName,
      sampleCarved.inventory.contains r.device = true := by
    decide +kernel
  exact fun r hr => (h.mirrors.names _).1 (hlisted r hr)

theorem NodeSetup.Reaches.isolates_allocated :
    (sampleCarved.granting sampleFailing).1.isOk = false ∧
    (sampleCarved.granting sampleFailing).2.carved = ["npu-0-1"] ∧
    deviceNames sampleBorrowedDevices = ["npu-0-0"] ∧
    sampleCarved.reported (sampleBatch "npu-0-0") "c-2" =
      some ⟨sampleBorrowedDevices.map (·.device), none⟩ := by
  obtain ⟨hfit, hfit'⟩ := sampleBatch_fits "npu-0-0" List.mem_cons_self
  have hfailed := Node.reported_first (sampleBatch_distinct "npu-0-0") sampleCarved_read
    sampleFailing_absent sampleFailing_refused (rfl : sampleKept (sampleClaim "c-2" "npu-0-0") = true)
  obtain ⟨_, hiff, _⟩ := @NodeSetup.Reaches.isolates _ _ _ [sampleFailing] [] _ _ _ sampleCarved_reached
    (sampleBatch_distinct "npu-0-0") hfit hfit' hfailed rfl
    (Node.reported_alone (congrArg Prod.fst sampleCarved_prepare_borrowed))
  have hother : ∀ r ∈ (sampleClaim "c-2" "npu-0-0").assigned sampleCarved.cdi.driverName,
      ¬ sampleCarved.CarvesRemainder sampleFailing r.device := by
    decide +kernel
  refine ⟨sampleFailing_refused, by decide +kernel, by decide +kernel,
    (hiff sampleBorrowed_known).2 (.inr fun r hr hgone => ?_)⟩
  rcases hgone with hgone | hnone
  · exact hother r hr hgone.carves
  · exact hnone

section Refused

/-- Whether claims that fail in a batch never have a part in what becomes of the others. -/
def Isolates (mode : Persistence) : Prop :=
  ∀ (s : NodeSetup) (host : Host) (n : Node) (claims : List ResourceClaim) (kept : ResourceClaim → Bool)
    (claim : ResourceClaim) (ds : List Device), s.claims.persistence = mode → s.Reaches host n →
    (claims.map (·.uid)).Nodup → n.FitsThrough (claims.map .prepare) →
    n.FitsThrough ((claims.filter kept).map .prepare) →
    (∀ c ∈ claims, kept c = false → ∃ r, n.reported claims c.uid = some r ∧ r.error ≠ none) →
    claim ∈ claims → kept claim = true → n.reported (claims.filter kept) claim.uid = some ⟨ds, none⟩ →
    n.reported claims claim.uid = some ⟨ds, none⟩

theorem not_isolates_of_pair {s : NodeSetup} {host : Host} {n : Node} {first second : ResourceClaim}
    {calls : List EngineCall} {c : Checkpoint} {devices : List PreparedDevice}
    (hreach : s.Reaches host n) (hne : ([first, second].map (·.uid)).Nodup)
    (hread : n.host.readCheckpoint = .ok c) (hfirst : c.find? first.uid = none)
    (hsecond : c.find? second.uid = none) (hout : sampleKept first = false)
    (hin : sampleKept second = true) (hfail : (n.granting first).1.isOk = false)
    (hcalls : n.engineCalls (.prepare first) = calls)
    (hfit : n.FitsThrough ([first, second].map .prepare)) (hfit' : n.Fits (.prepare second))
    (halone : (n.prepare second).1 = .ok devices)
    (hrefused : ((n.after calls).granting second).1.isOk = false) :
    ¬ Isolates s.claims.persistence := by
  intro h
  have hkept : [first, second].filter sampleKept = [second] := by simp [hout, hin]
  have hrest : n.FitsThrough (([first, second].filter sampleKept).map .prepare) := by
    rw [hkept]
    exact ⟨hfit', trivial⟩
  have hreported : n.reported ([first, second].filter sampleKept) second.uid =
      some ⟨devices.map (·.device), none⟩ := by
    rw [hkept]
    exact Node.reported_alone halone
  exact Node.not_reported_second hne hread hsecond hcalls hrefused
    (h s host n _ sampleKept second _ rfl hreach hne hfit hrest
      (Node.reported_first hne hread hfirst hfail hin)
      (List.mem_cons_of_mem _ List.mem_cons_self) hin hreported)

theorem not_isolates_compensating : ¬ Isolates .compensating := by
  obtain ⟨hfit, hfit', _⟩ := sampleBatch_fits "npu-0-1" (by decide)
  exact not_isolates_of_pair sampleCarved_reached (sampleBatch_distinct "npu-0-1") sampleCarved_read
    sampleFailing_absent Node.sampleRecord_rest rfl rfl sampleFailing_refused sampleFailing_calls hfit hfit'
    (congrArg Prod.fst Node.sampleCarved_prepare) (by decide +kernel)

def sampleLegacy : Node := { sampleStart with claims := ⟨.classOnly, .legacy⟩ }

def sampleGreedy : ResourceClaim :=
  ⟨"c-3", "default", "c-3",
    some ⟨["npu-0-0", "npu-9-0"].map (⟨"npu", "npu.example.com", "node-a", ·⟩), []⟩⟩

theorem sampleGreedy_refused : (sampleLegacy.granting sampleGreedy).1.isOk = false := by
  decide +kernel

def sampleGreedyCalls : List EngineCall :=
  claimCalls sampleLegacy.cdi.driverName sampleLegacy.claims.sources sampleGreedy
    ⟨sampleLegacy.engine, sampleLegacy.inventory, []⟩

theorem sampleGreedy_calls : sampleLegacy.engineCalls (.prepare sampleGreedy) = sampleGreedyCalls := by
  obtain ⟨e, herr⟩ := Node.prepareNew_fails .new sampleGreedy_refused
  have hread : sampleLegacy.host.readCheckpoint = .ok .new := sampleStart_read
  rw [Node.engineCalls_prepare hread rfl, Node.prepareCalls, Node.rollbackCalls_of_error herr]
  exact List.append_nil _

theorem not_isolates_legacy : ¬ Isolates .legacy := by
  have hreach : (sampleIn .legacy).Reaches sampleHost sampleLegacy :=
    .start (sampleStart_starts.in_settings ⟨.classOnly, .legacy⟩) .start
  have hspec := Node.writeClaimSpec_ok_of_prepare sampleStart_read rfl
    (congrArg Prod.fst sampleStart_prepare) samplePairDevices
  have halone : sampleLegacy.prepare samplePair = (.ok samplePairDevices, _) :=
    Node.prepare_ok sampleStart_read rfl samplePair_granted.1 hspec rfl
  exact not_isolates_of_pair hreach (by decide) sampleStart_read rfl rfl rfl rfl sampleGreedy_refused
    sampleGreedy_calls (Node.fits_pair sampleGreedy_calls (by decide +kernel) (by decide +kernel))
    (Node.fits_of_granting (by decide +kernel)) (congrArg Prod.fst halone) (by decide +kernel)

/-- In either mode a claim that fails can have a part in what becomes of another. -/
theorem not_isolates : ¬ Isolates .legacy ∧ ¬ Isolates .compensating :=
  ⟨not_isolates_legacy, not_isolates_compensating⟩

end Refused

end Sample

end SliceAgent
