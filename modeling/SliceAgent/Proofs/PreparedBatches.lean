import SliceAgent.Proofs.EngineLocality
import SliceAgent.Proofs.RetriedClaims

/-!
Claims that are prepared one after another. They leave alone what is kept for other claims
(`Node.sameFor_performAll`). A name of a slice stays one, unless a claim that fails had carved the slice
from what was left of a card that was carved already: it is given back under another number, and no slice
has the name any more (`Node.knows_performAll_iff`).
-/
namespace SliceAgent

namespace Card

variable {catalog : Catalog} {c d : Card} {id : String}

theorem LaterThan.not_hasFree {spent : Prop} (h : c.LaterThan catalog d spent) (hspent : spent)
    (hc : c.Sound catalog) (hspare : c.HasRemainder id) : ¬ d.HasFree id := by
  obtain ⟨⟨pieces, hpieces⟩, hfree⟩ := hc.hasRemainder_iff.1 hspare
  obtain ⟨others, hothers⟩ := h.carved
  intro hfree'
  have hnumber := (hpieces.hasFree_iff.1 hfree).symm.trans (hothers.hasFree_iff.1 hfree')
  rw [pieceId_of_identity h.identity] at hnumber
  have hsame : c.nextSliceIndex = d.nextSliceIndex :=
    (UInt32.sub_left_inj _).1 (pieceId_injective hnumber)
  rcases h.number with ⟨hnot, _⟩ | ⟨_, hlt⟩
  · exact hnot hspent
  · exact UInt32.ne_of_lt hlt hsame

theorem LaterThan.trans {b : Card} {spent spent' : Prop} (h : c.LaterThan catalog d spent)
    (hspent : spent) (h' : d.LaterThan catalog b spent') : c.LaterThan catalog b True := by
  refine ⟨h'.identity.trans h.identity, h'.carved, .inr ⟨trivial, ?_⟩⟩
  obtain ⟨_, hlt⟩ := h.number.resolve_left fun hnot => hnot.1 hspent
  rcases h'.number with ⟨_, rfl⟩ | ⟨_, hlt'⟩
  · exact hlt
  · exact UInt32.lt_trans hlt hlt'

end Card

namespace Engine

variable {e e' : Engine} {a : Allocation} {c : Card} {key id other : String} {aiCore memoryGb : UInt32}

/-- Whether what was left of a card had a certain name, and no slice has the name any more. -/
structure Lacks (e : Engine) (key : String) (c : Card) (id : String) : Prop where
  before : c.Sound e.catalog
  remainder : c.HasRemainder id
  card : ∃ d, e.cards.find? key = some d ∧ c.LaterThan e.catalog d True
  held : id ∉ e.allocatedIds

theorem Lacks.not_knows (h : e.Lacks key c id) (he : e.Sound) : ¬ e.Knows id := by
  obtain ⟨d, hd, hlater⟩ := h.card
  obtain ⟨⟨pieces, hpieces⟩, hfree⟩ := h.before.hasRemainder_iff.1 h.remainder
  rintro ⟨k, d', hd', hmem⟩
  have hk : k = key := by
    have hname := hpieces.hasFree_iff.1 hfree
    rw [hname] at hmem
    rw [he.key_eq hd, Card.logicalIndex_of_identity hlater.identity]
    exact (he.key_of_slice hd' hmem).1
  subst hk
  cases hd.symm.trans hd'
  rcases (he k d hd).2.mem_sliceIds_iff.1 hmem with hnew | hheld
  · exact hlater.not_hasFree trivial h.before h.remainder hnew
  · exact h.held (mem_allocatedIds.2 ⟨k, d, hd, hheld⟩)

theorem Lacks.allocate (h : e.Lacks key c id) (he : e.Sound)
    (ha : e.allocate other aiCore memoryGb = .ok (a, e')) (hfit : e'.CountersFit) :
    e'.Lacks key c id := by
  obtain ⟨d, hd, hlater⟩ := h.card
  have hlater' : c.LaterThan e.catalog d (id ∈ [id]) := by simpa using hlater
  obtain ⟨d', hd', hnext⟩ := he.laterThan_allocate h.before h.remainder hd hlater' ha hfit
  have hcat := allocate_catalog ha
  refine ⟨hcat ▸ h.before, h.remainder, ⟨d', hd', ?_⟩, fun hid => ?_⟩
  · rw [hcat]
    simpa using hnext
  · rcases (he.mem_allocate ha).1 hid with hold | hnew
    · exact h.held hold
    · rw [he.slice_id_of_allocate ha] at hnew
      exact h.not_knows he (hnew ▸ he.knows_of_offers (he.offers_of_ok ha))

end Engine

section Grants

variable {driver : String} {cdiIds : List String} {sources : ConfigSources} {claim : ResourceClaim}
  {g : Granting} {q : Engine → Prop}

theorem Granting.engine_keeps (hs : g.engine.Sound)
    (hallocate : ∀ {e e' : Engine} {id aiCore memoryGb a}, e.Sound → q e →
      e.allocate id aiCore memoryGb = .ok (a, e') → e'.CountersFit → q e')
    (hfit : g.engine.FitsThrough (claimCalls driver sources claim g)) (h : q g.engine) :
    q (grantClaim driver cdiIds sources claim g).2.engine := by
  refine (grantClaim_keeps (p := fun g => g.engine.Sound ∧ q g.engine) (fun configs g r hfit hg => ?_)
    hfit ⟨hs, h⟩).2
  rcases g.take_cases configs r with ⟨ht, _⟩ | ⟨a, engine, ha, ht⟩
  · rw [ht]
    exact hg
  · rw [Granting.request, Engine.perform, ha] at hfit
    rw [ht]
    exact ⟨hg.1.allocate ha hfit, hallocate hg.1 hg.2 ha hfit⟩

end Grants

namespace Node

variable {n m k n₀ : Node} {claim : ResourceClaim} {claims : List ResourceClaim} {uid id key : String}
  {c : Checkpoint} {card : Card}

theorem Holds.performAll {calls : List NodeCall} (h : Holds n₀ n) (hfit : n.FitsThrough calls) :
    Holds n₀ (n.performAll calls) := by
  induction calls generalizing n with
  | nil => exact h
  | cons call calls ih => exact ih (h.perform hfit.1) hfit.2

theorem fitsThrough_append {calls more : List NodeCall} : n.FitsThrough (calls ++ more) ↔
    n.FitsThrough calls ∧ (n.performAll calls).FitsThrough more := by
  induction calls generalizing n with
  | nil => exact (true_and _).symm.to_iff
  | cons call calls ih =>
    rw [List.cons_append, FitsThrough, FitsThrough, ih, and_assoc]
    rfl

theorem fits_granting (hfit : n.Fits (.prepare claim)) (hread : n.host.readCheckpoint = .ok c)
    (hnone : c.find? claim.uid = none) : n.engine.FitsThrough
      (claimCalls n.cdi.driverName n.claims.sources claim ⟨n.engine, n.inventory, []⟩) := by
  rw [Fits, engineCalls_prepare hread hnone] at hfit
  exact (Engine.fitsThrough_append.1 hfit).1

section SameFor

/-- What is the same on a node after claims other than a certain one were prepared. -/
structure SameFor (uid : String) (n m : Node) : Prop where
  cdi : m.cdi = n.cdi
  claims : m.claims = n.claims
  faults : m.host.faults = n.host.faults
  directories : n.host.files.SameDirectories m.host.files
  record : m.host.readCheckpoint.map (·.find? uid) = n.host.readCheckpoint.map (·.find? uid)

namespace SameFor

theorem refl (uid : String) (n : Node) : n.SameFor uid n := ⟨rfl, rfl, rfl, .refl _, rfl⟩

theorem symm (h : n.SameFor uid m) : m.SameFor uid n :=
  ⟨h.cdi.symm, h.claims.symm, h.faults.symm, h.directories.symm, h.record.symm⟩

theorem trans (h : n.SameFor uid m) (h' : m.SameFor uid k) : n.SameFor uid k :=
  ⟨h'.cdi.trans h.cdi, h'.claims.trans h.claims, h'.faults.trans h.faults,
    h.directories.trans h'.directories, h'.record.trans h.record⟩

theorem read (h : n.SameFor uid m) (hread : n.host.readCheckpoint = .ok c) :
    ∃ c', m.host.readCheckpoint = .ok c' ∧ c'.find? uid = c.find? uid := by
  have hrecord := h.record
  rw [hread] at hrecord
  cases hm : m.host.readCheckpoint with
  | error e =>
    rw [hm] at hrecord
    cases hrecord
  | ok c' =>
    rw [hm] at hrecord
    exact ⟨c', rfl, Except.ok.inj hrecord⟩

end SameFor

theorem settings_prepare (n : Node) (claim : ResourceClaim) :
    (n.prepare claim).2.cdi = n.cdi ∧ (n.prepare claim).2.claims = n.claims ∧
      (n.prepare claim).2.host.faults = n.host.faults := by
  rcases n.prepare_cases claim with ⟨_, _, hp⟩ | ⟨_, _, _, _, hp⟩ | ⟨c, _, _, hp⟩
  · rw [hp]
    exact ⟨rfl, rfl, rfl⟩
  · rw [hp]
    exact ⟨rfl, rfl, rfl⟩
  · rcases n.prepareNew_cases claim c with ⟨_, _, hnew⟩ | ⟨_, _, _, hnew⟩ <;> rw [hp, hnew] <;>
      exact ⟨rfl, rfl, rfl⟩

theorem sameFor_prepare (n : Node) (hne : uid ≠ claim.uid) : n.SameFor uid (n.prepare claim).2 := by
  obtain ⟨hcdi, hclaims, hfaults⟩ := n.settings_prepare claim
  refine ⟨hcdi, hclaims, hfaults, n.sameDirectories_prepare claim, ?_⟩
  rcases n.prepare_cases claim with ⟨_, _, hp⟩ | ⟨_, _, _, _, hp⟩ | ⟨c, hread, _, hp⟩
  · rw [hp]
  · rw [hp]
  · rcases n.prepareNew_cases claim c with ⟨_, files, hnew⟩ | ⟨devices, files, _, hnew⟩
    · rw [hp, hnew]
      rfl
    · obtain ⟨hreadable, hwhole⟩ := faults_of_read hread
      have hread' : (((n.after (n.prepareCalls claim c)).withFiles files).storing
          (c.insert claim.uid devices)).host.readCheckpoint = .ok (c.insert claim.uid devices) :=
        readCheckpoint_of_stored hreadable hwhole (stored?_storing _)
      rw [hp, hnew, hread', hread]
      exact congrArg Except.ok ((Dict.find?_insert ..).trans (if_neg hne))

theorem sameFor_performAll (n : Node) (hne : ∀ claim ∈ claims, uid ≠ claim.uid) :
    n.SameFor uid (n.performAll (claims.map .prepare)) := by
  induction claims generalizing n with
  | nil => exact .refl uid n
  | cons claim claims ih =>
    obtain ⟨hclaim, hclaims⟩ := List.forall_mem_cons.1 hne
    exact (n.sameFor_prepare hclaim).trans (ih (n.prepare claim).2 hclaims)

theorem reads_of_ok {devices : List PreparedDevice} (hok : (n.prepare claim).1 = .ok devices) :
    ∃ c, n.host.readCheckpoint = .ok c := by
  rcases n.prepare_cases claim with ⟨_, _, hp⟩ | ⟨c, _, hread, _⟩ | ⟨c, hread, _⟩
  · rw [hp] at hok
    cases hok
  · exact ⟨c, hread⟩
  · exact ⟨c, hread⟩

theorem reads_prepare (h : ∃ c, n.host.readCheckpoint = .ok c) (claim : ResourceClaim) :
    ∃ c, (n.prepare claim).2.host.readCheckpoint = .ok c := by
  obtain ⟨c, hread⟩ := h
  rcases n.prepare_cases claim with ⟨_, _, hp⟩ | ⟨_, _, _, _, hp⟩ | ⟨_, _, _, hp⟩
  · rw [hp]
    exact ⟨c, hread⟩
  · rw [hp]
    exact ⟨c, hread⟩
  · obtain ⟨hreadable, hwhole⟩ := faults_of_read hread
    rw [hp]
    rcases n.prepareNew_cases claim _ with ⟨_, _, hnew⟩ | ⟨_, _, _, hnew⟩
    · rw [hnew]
      exact ⟨c, hread⟩
    · rw [hnew]
      exact ⟨_, readCheckpoint_of_stored hreadable hwhole (stored?_storing _)⟩

end SameFor

section Names

theorem prepare_engine_cases (hfit : n.Fits (.prepare claim)) :
    (n.prepare claim).2.engine = n.engine ∨
    (n.engine.FitsThrough (claimCalls n.cdi.driverName n.claims.sources claim
        ⟨n.engine, n.inventory, []⟩) ∧ (n.prepare claim).2.engine = (n.granting claim).2.engine ∧
      ((∃ devices, (n.prepare claim).1 = .ok devices) ∨ n.claims.persistence = .legacy)) ∨
    ∃ c e, n.host.readCheckpoint = .ok c ∧ c.find? claim.uid = none ∧
      n.claims.persistence = .compensating ∧ (n.prepare claim).1 = .error e := by
  rcases n.prepare_cases claim with ⟨_, _, hp⟩ | ⟨_, _, _, _, hp⟩ | ⟨c, hread, hnone, hp⟩
  · exact .inl (congrArg (fun r => r.2.engine) hp)
  · exact .inl (congrArg (fun r => r.2.engine) hp)
  · have hengine := n.engine_prepare claim
    rw [Fits, engineCalls_prepare hread hnone] at hfit
    rw [engineCalls_prepare hread hnone] at hengine
    have hgranted : n.rollbackCalls claim c = [] → n.engine.FitsThrough (claimCalls n.cdi.driverName
        n.claims.sources claim ⟨n.engine, n.inventory, []⟩) ∧
        (n.prepare claim).2.engine = (n.granting claim).2.engine := by
      intro hback
      rw [prepareCalls, hback, List.append_nil] at hfit hengine
      exact ⟨hfit, hengine.trans granting_engine.symm⟩
    cases hnew : (n.prepareNew claim c).1 with
    | ok devices =>
      obtain ⟨hgrant, hall⟩ := hgranted (rollbackCalls_of_ok hnew)
      exact .inr (.inl ⟨hgrant, hall, .inl ⟨devices, (congrArg Prod.fst hp).trans hnew⟩⟩)
    | error e =>
      have hback := rollbackCalls_of_error hnew
      cases hmode : n.claims.persistence with
      | legacy =>
        rw [hmode] at hback
        obtain ⟨hgrant, hall⟩ := hgranted hback
        exact .inr (.inl ⟨hgrant, hall, .inr rfl⟩)
      | compensating =>
        exact .inr (.inr ⟨c, e, hread, hnone, rfl, (congrArg Prod.fst hp).trans hnew⟩)

/-- Whether a claim fails and gives back the remainder of a card that was carved already. -/
structure Withdraws (n : Node) (claim : ResourceClaim) (id : String) : Prop where
  mode : n.claims.persistence = .compensating
  fails : ∃ e, (n.prepare claim).1 = .error e
  carves : n.CarvesRemainder claim id

def Withdrawn : Node → List ResourceClaim → String → Prop
  | _, [], _ => False
  | n, claim :: claims, id => n.Withdraws claim id ∨ Withdrawn (n.prepare claim).2 claims id

theorem Withdrawn.compensating (hgone : n.Withdrawn claims id) :
    n.claims.persistence = .compensating := by
  induction claims generalizing n with
  | nil => exact hgone.elim
  | cons claim claims ih =>
    rcases hgone with hfirst | hrest
    · exact hfirst.mode
    · have hmode := ih hrest
      rwa [(n.settings_prepare claim).2.1] at hmode

theorem knows_prepare (hs : n.engine.Sound) (hfit : n.Fits (.prepare claim))
    (hknown : n.engine.Knows id) (hkept : ¬ n.Withdraws claim id) :
    (n.prepare claim).2.engine.Knows id := by
  rcases prepare_engine_cases hfit with hsame | ⟨hgrant, hengine, _⟩ | ⟨c, e, hread, hnone, hmode, herr⟩
  · exact hsame ▸ hknown
  · rw [hengine]
    exact Granting.engine_keeps (q := fun e => e.Knows id) hs
      (fun he hknown ha _ => he.knows_allocate ha hknown) hgrant hknown
  · obtain ⟨hren, hgone⟩ := renumbered_of_error hs hmode hfit hread hnone herr
    exact hren.knows hs hknown fun hid => hkept ⟨hmode, ⟨e, herr⟩, (hgone id).1 hid⟩

theorem Withdraws.lacks (h : n.Withdraws claim id) (hs : n.engine.Sound)
    (hfit : n.Fits (.prepare claim)) (hread : n.host.readCheckpoint = .ok c) :
    ∃ key card, (n.prepare claim).2.engine.Lacks key card id := by
  obtain ⟨hmode, ⟨e, herr⟩, hcarved, card, hcard, hspare⟩ := h
  obtain ⟨key, hkey⟩ := Dict.mem_values.1 hcard
  rcases n.prepare_cases claim with ⟨_, hr, _⟩ | ⟨_, _, _, _, hp⟩ | ⟨c', hr, hnone, hp⟩
  · cases hr.symm.trans hread
  · rw [hp] at herr
    cases herr
  · obtain ⟨left, hleft, hlater⟩ := laterThan_of_error hs hmode hfit hr hnone herr hkey hspare
    have hsound := (hs key card hkey).2
    have hfree := (hsound.hasRemainder_iff.1 hspare).2
    have hcat := n.engine.performAll_catalog (n.engineCalls (.prepare claim))
    rw [← engine_prepare] at hcat
    refine ⟨key, card, hcat ▸ hsound, hspare, ⟨left, hleft, ?_⟩, fun hid => ?_⟩
    · rw [hcat]
      simpa [hcarved] using hlater
    · rw [hp] at herr
      rw [Fits, engineCalls_prepare hr hnone] at hfit
      rw [engine_prepare, engineCalls_prepare hr hnone, mem_allocatedIds_of_error hs hmode hfit herr]
        at hid
      obtain ⟨k, d, hd, hmem⟩ := Engine.mem_allocatedIds.1 hid
      obtain rfl := hs.key_unique hd hkey (Card.mem_sliceIds_of_allocated hmem)
        (hsound.mem_sliceIds_iff.2 (.inl hfree))
      cases hd.symm.trans hkey
      exact hsound.not_hasFree_of_allocated hmem hfree

theorem lacks_prepare (hs : n.engine.Sound) (hfit : n.Fits (.prepare claim))
    (h : n.engine.Lacks key card id) : (n.prepare claim).2.engine.Lacks key card id := by
  rcases prepare_engine_cases hfit with hsame | ⟨hgrant, hengine, _⟩ | ⟨c, e, hread, hnone, hmode, herr⟩
  · exact hsame ▸ h
  · rw [hengine]
    exact Granting.engine_keeps (q := fun e => e.Lacks key card id) hs
      (fun he h ha hfit => h.allocate he ha hfit) hgrant h
  · obtain ⟨d, hd, hlater⟩ := h.card
    have hcat := n.engine.performAll_catalog (n.engineCalls (.prepare claim))
    rw [← engine_prepare] at hcat
    obtain ⟨pieces, hpieces⟩ := hlater.carved
    have hspare := (hs key d hd).2.hasRemainder_iff.2 ⟨hlater.carved, hpieces.hasFree_iff.2 rfl⟩
    obtain ⟨left, hleft, hnext⟩ := laterThan_of_error hs hmode hfit hread hnone herr hd hspare
    refine ⟨hcat ▸ h.before, h.remainder, ⟨left, hleft, hcat ▸ hlater.trans trivial hnext⟩,
      fun hid => h.held ?_⟩
    rw [prepare_of_absent hread hnone] at herr
    rw [Fits, engineCalls_prepare hread hnone] at hfit
    rwa [engine_prepare, engineCalls_prepare hread hnone, mem_allocatedIds_of_error hs hmode hfit herr]
      at hid

theorem lacks_performAll (h : Holds n₀ n) (hfit : n.FitsThrough (claims.map .prepare))
    (hlacks : n.engine.Lacks key card id) :
    (n.performAll (claims.map .prepare)).engine.Lacks key card id := by
  induction claims generalizing n with
  | nil => exact hlacks
  | cons claim claims ih => exact ih (h.perform hfit.1) hfit.2 (lacks_prepare h.sound hfit.1 hlacks)

theorem Withdrawn.lacks (h : Holds n₀ n) (hfit : n.FitsThrough (claims.map .prepare))
    (hread : ∃ c, n.host.readCheckpoint = .ok c) (hgone : n.Withdrawn claims id) :
    ∃ key card, (n.performAll (claims.map .prepare)).engine.Lacks key card id := by
  induction claims generalizing n with
  | nil => exact hgone.elim
  | cons claim claims ih =>
    have hnext : Holds n₀ (n.prepare claim).2 := h.perform hfit.1
    rcases hgone with hfirst | hrest
    · obtain ⟨c, hread⟩ := hread
      obtain ⟨key, card, hlacks⟩ := hfirst.lacks h.sound hfit.1 hread
      exact ⟨key, card, lacks_performAll (n := (n.prepare claim).2) hnext hfit.2 hlacks⟩
    · exact ih hnext hfit.2 (reads_prepare hread claim) hrest

theorem knows_performAll_iff (h : Holds n₀ n) (hfit : n.FitsThrough (claims.map .prepare))
    (hread : ∃ c, n.host.readCheckpoint = .ok c) (hknown : n.engine.Knows id) :
    (n.performAll (claims.map .prepare)).engine.Knows id ↔ ¬ n.Withdrawn claims id := by
  induction claims generalizing n with
  | nil => exact ⟨fun _ => not_false, fun _ => hknown⟩
  | cons claim claims ih =>
    have hnext : Holds n₀ (n.prepare claim).2 := h.perform hfit.1
    have hread' := reads_prepare hread claim
    by_cases hgone : n.Withdraws claim id
    · refine ⟨fun hlast => absurd hlast ?_, fun hnot => absurd (.inl hgone) hnot⟩
      obtain ⟨key, card, hlacks⟩ := Withdrawn.lacks h hfit hread (.inl hgone)
      exact hlacks.not_knows (h.performAll hfit).sound
    · have hfirst := knows_prepare h.sound hfit.1 hknown hgone
      exact (ih (n := (n.prepare claim).2) hnext hfit.2 hread' hfirst).trans
        (not_congr (or_iff_right hgone).symm)

end Names

end Node

end SliceAgent
