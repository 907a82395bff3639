import SliceAgent.Proofs.RenumberedCards
import SliceAgent.Proofs.StorageFailures

/-!
A claim that is prepared again in compensating mode. The failure has given back all that was carved, but
what came from the remainder of a carved card is now part of a remainder with a new number. The claim
gets the same devices the second time if none of them was such a remainder, and is refused otherwise
(`NodeSetup.Reaches.retries_rolled_back`).
-/
namespace SliceAgent

namespace Card

variable {catalog : Catalog} {c d : Card} {id : String}

/-- Whether the free slice of a card is what is left of it after others were carved. -/
def HasRemainder (c : Card) (id : String) : Prop :=
  ∃ piece ∈ c.available, piece.kind = .partition ∧ piece.id = id

instance (c : Card) (id : String) : Decidable (c.HasRemainder id) :=
  inferInstanceAs (Decidable (∃ piece ∈ c.available, _))

theorem Sound.hasRemainder_iff (h : c.Sound catalog) :
    c.HasRemainder id ↔ c.HasShape catalog .carved ∧ c.HasFree id := by
  rw [h.hasFree_iff]
  constructor
  · rintro ⟨piece, hmem, hkind, rfl⟩
    refine ⟨?_, List.mem_map_of_mem hmem⟩
    rcases h.shape with hf | ht | hc
    · rw [hf.available] at hmem
      rw [List.mem_singleton.1 hmem] at hkind
      cases hkind
    · rw [ht.available] at hmem
      cases hmem
    · exact hc
  · rintro ⟨⟨pieces, hc⟩, hid⟩
    obtain ⟨piece, hmem, rfl⟩ := List.mem_map.1 hid
    refine ⟨piece, hmem, ?_, rfl⟩
    rw [hc.available] at hmem
    rw [List.mem_singleton.1 hmem]
    rfl

/-- What becomes of a carved card: it stays as it is until its remainder is carved, and is numbered on
from then on. -/
structure LaterThan (catalog : Catalog) (c d : Card) (spent : Prop) : Prop where
  identity : d.identity = c.identity
  carved : d.HasShape catalog .carved
  number : (¬ spent ∧ d = c) ∨ (spent ∧ c.nextSliceIndex < d.nextSliceIndex)

theorem Alike.renumbered (h : c.Alike catalog d) (hc : c.Sound catalog) (hd : d.Sound catalog)
    (hne : d ≠ c) (hlater : ∀ id, c.HasRemainder id → ∃ spent, c.LaterThan catalog d spent) :
    c.Renumbered catalog d := by
  rcases h with rfl | ⟨hidentity, hallocated, hbefore, hafter⟩
  · exact absurd rfl hne
  · obtain ⟨pieces, hpieces⟩ := hbefore
    have hspare := hc.hasRemainder_iff.2 ⟨⟨pieces, hpieces⟩, hpieces.hasFree_iff.2 rfl⟩
    obtain ⟨_, hlater⟩ := hlater _ hspare
    refine ⟨hidentity, hallocated, ⟨pieces, hpieces⟩, hafter, hd, ?_⟩
    rcases hlater.number with ⟨_, hsame⟩ | ⟨_, hlt⟩
    · exact absurd hsame hne
    · exact (UInt32.ne_of_lt hlt).symm

end Card

namespace Engine

variable {e e' : Engine} {a : Allocation} {c d : Card} {key id spare : String}
  {aiCore memoryGb : UInt32} {spent : Prop} {carved : List String}

theorem Sound.laterThan_allocate (h : e.Sound) (hc : c.Sound e.catalog) (hspare : c.HasRemainder spare)
    (hd : e.cards.find? key = some d) (hlater : c.LaterThan e.catalog d (spare ∈ carved))
    (ha : e.allocate id aiCore memoryGb = .ok (a, e')) (hfit : e'.CountersFit) :
    ∃ d', e'.cards.find? key = some d' ∧
      c.LaterThan e.catalog d' (spare ∈ carved ++ [a.slice.id]) := by
  obtain ⟨k, b, b', hb, _, hcard, rfl⟩ := allocate_ok ha
  obtain ⟨⟨pieces, hpieces⟩, hfree⟩ := hc.hasRemainder_iff.1 hspare
  have hname := hpieces.hasFree_iff.1 hfree
  by_cases hk : key = k
  · subst hk
    cases hd.symm.trans hb
    refine ⟨b', (Dict.find?_insert ..).trans (if_pos rfl), ?_⟩
    rcases (h key d hd).2.allocate_cases hcard with ⟨hf, _⟩ | ⟨kind, t, havail, ht, rfl, rfl⟩
    · exact absurd hlater.carved hf.not_carved
    · have hfit' := hfit.of_insert
      have hnext : d.nextSliceIndex < d.nextSliceIndex + 1 := by
        rw [Card.CounterFits, Card.carvedOff_nextSliceIndex] at hfit'
        exact word_lt_succ hfit'
      refine ⟨Card.carvedOff_identity.trans hlater.identity,
        (h key d hd).2.isCarvedInto_carvedOff havail ht hfit', .inr ?_⟩
      rw [Card.carvedOff_nextSliceIndex]
      rcases hlater.number with ⟨_, rfl⟩ | ⟨hspent, hlt⟩
      · have hsame : spare = id := by
          cases havail.symm.trans hpieces.available
          exact hname
        exact ⟨List.mem_append_right _ (List.mem_singleton.2 hsame), hnext⟩
      · exact ⟨List.mem_append_left _ hspent, UInt32.lt_trans hlt hnext⟩
  · have hne : spare ≠ a.slice.id := by
      have hmem := ((h k b hb).2.allocate_allocatedIds hcard).2.1
      rintro rfl
      rw [hname] at hmem
      have hcard' : k = SliceId.wholeCard c.logicalIndex := (h.key_of_slice hb hmem).1
      obtain ⟨hkey, hs⟩ := h key d hd
      rw [← Card.logicalIndex_of_identity hlater.identity, ← hs.named, hkey] at hcard'
      exact hk hcard'.symm
    refine ⟨d, (Dict.find?_insert ..).trans ((if_neg hk).trans hd), hlater.identity, hlater.carved, ?_⟩
    rw [List.mem_append, List.mem_singleton, or_iff_left hne]
    exact hlater.number

theorem Sound.laterThan_release (h : e.Sound) (hc : c.Sound e.catalog) (hspare : c.HasRemainder spare)
    (hd : e.cards.find? key = some d) (hlater : c.LaterThan e.catalog d spent)
    (hid : id ∉ c.allocatedIds) (hfit : (e.perform (.release id)).CountersFit) :
    ∃ d', (e.perform (.release id)).cards.find? key = some d' ∧ c.LaterThan e.catalog d' spent := by
  cases hr : e.release id with
  | error err =>
    rw [Engine.perform, hr]
    exact ⟨d, hd, hlater⟩
  | ok released =>
    obtain ⟨change, e'⟩ := released
    rw [Engine.perform, hr] at hfit ⊢
    obtain ⟨k, b, place, s, hb, hs, rfl, hcases⟩ := h.release_cases hr
    by_cases hk : key = k
    · subst hk
      cases hd.symm.trans hb
      rcases hcases with ⟨hkind, _, rfl⟩ | ⟨hkind, _, rfl⟩
      · obtain ⟨⟨pieces, hpieces⟩, _⟩ := hc.hasRemainder_iff.1 hspare
        have hwhole := ((h key d hd).2.kind_iff (List.mem_of_getElem? hs)).1 hkind
        rw [Card.deviceId_of_identity hlater.identity] at hwhole
        exact absurd (hwhole ▸ hc.deviceId_mem_allocatedIds hpieces.allocated_ne_nil) hid
      · refine ⟨_, (Dict.find?_insert ..).trans (if_pos rfl), ?_⟩
        have hfit' := hfit.of_insert
        have hnext : d.nextSliceIndex < d.nextSliceIndex + 1 := word_lt_succ hfit'
        obtain ⟨pieces, hpieces, hplace⟩ := (h key d hd).2.partition_cases hs hkind
        refine ⟨hlater.identity, ⟨_, hpieces.coalesced hplace hfit'⟩, ?_⟩
        rcases hlater.number with ⟨_, rfl⟩ | ⟨hspent, hlt⟩
        · exact absurd (List.mem_map.2 ⟨s, List.mem_of_getElem? hs, rfl⟩) hid
        · exact .inr ⟨hspent, UInt32.lt_trans hlt hnext⟩
    · have hkept : ∀ b' : Card, (e.cards.insert k b').find? key = some d := fun b' =>
        (Dict.find?_insert ..).trans ((if_neg hk).trans hd)
      rcases hcases with ⟨_, _, rfl⟩ | ⟨_, _, rfl⟩
      · exact ⟨d, hkept _, hlater⟩
      · exact ⟨d, hkept _, hlater⟩

theorem Sound.laterThan_releaseAll (h : e.Sound) (hc : c.Sound e.catalog)
    (hspare : c.HasRemainder spare) (hd : e.cards.find? key = some d)
    (hlater : c.LaterThan e.catalog d spent) {ids : List String} (hids : ∀ id ∈ ids, id ∉ c.allocatedIds)
    (hfit : e.FitsThrough (ids.map .release)) :
    ∃ d', (e.performAll (ids.map .release)).cards.find? key = some d' ∧
      c.LaterThan e.catalog d' spent := by
  induction ids generalizing e d with
  | nil => exact ⟨d, hd, hlater⟩
  | cons id ids ih =>
    obtain ⟨hid, hids⟩ := List.forall_mem_cons.1 hids
    obtain ⟨hfirst, hrest⟩ := hfit
    obtain ⟨d₁, hd₁, hlater₁⟩ := h.laterThan_release hc hspare hd hlater hid hfirst
    have hcat := e.perform_catalog (.release id)
    rw [← hcat] at hlater₁ hc
    rw [← hcat]
    exact ih (h.perform _ hfirst) hc hd₁ hlater₁ hids hrest

section Alike

variable {f : Engine} {spent : String → Prop} (h : e.Alike f) (he : e.Sound) (hf : f.Sound)
  (hlater : ∀ {key c id}, e.cards.find? key = some c → c.HasRemainder id →
    ∃ d, f.cards.find? key = some d ∧ c.LaterThan e.catalog d (spent id))

include h he hf hlater

theorem Alike.renumbered_card (hc : e.cards.find? key = some c) (hd : f.cards.find? key = some d)
    (hne : d ≠ c) : c.Renumbered e.catalog d := by
  obtain ⟨d', hd', hsame⟩ := h.cards key c hc
  cases hd.symm.trans hd'
  refine hsame.renumbered (he key c hc).2 (h.catalog ▸ (hf key d hd).2) hne fun id hspare => ?_
  obtain ⟨d', hd', hnumber⟩ := hlater hc hspare
  cases hd.symm.trans hd'
  exact ⟨_, hnumber⟩

theorem Alike.renumbered (hcards : e.SameCards f) : e.Renumbered f := by
  refine ⟨h.catalog, h.eligibility, fun key => ?_⟩
  cases hc : e.cards.find? key with
  | none => exact .inl (hcards.device?_none hc)
  | some c =>
    obtain ⟨d, hd, _⟩ := h.cards key c hc
    by_cases hsame : d = c
    · exact .inl (hsame ▸ hd)
    · exact .inr ⟨c, d, rfl, hd, h.renumbered_card he hf hlater hc hd hsame⟩

theorem Alike.gone_iff : e.Gone f id ↔ spent id ∧ ∃ c ∈ e.devices, c.HasRemainder id := by
  constructor
  · rintro ⟨key, c, d, hc, hd, hren, hfree⟩
    have hspare := (he key c hc).2.hasRemainder_iff.2 ⟨hren.before, hfree⟩
    obtain ⟨d', hd', hnumber⟩ := hlater hc hspare
    cases hd.symm.trans hd'
    rcases hnumber.number with ⟨_, rfl⟩ | ⟨hspent, _⟩
    · exact absurd rfl hren.counter
    · exact ⟨hspent, c, Dict.mem_values.2 ⟨key, hc⟩, hspare⟩
  · rintro ⟨hspent, c, hmem, hspare⟩
    obtain ⟨key, hc⟩ := Dict.mem_values.1 hmem
    obtain ⟨d, hd, hnumber⟩ := hlater hc hspare
    rcases hnumber.number with ⟨hnot, _⟩ | ⟨_, hlt⟩
    · exact absurd hspent hnot
    · refine ⟨key, c, d, hc, hd, h.renumbered_card he hf hlater hc hd ?_,
        ((he key c hc).2.hasRemainder_iff.1 hspare).2⟩
      rintro rfl
      exact UInt32.lt_irrefl _ hlt

end Alike

end Engine

namespace Granting

variable {e : Engine} {g g' k : Granting} {c : Card} {catalog : Catalog} {key spare : String}
  {driver : String} {cdiIds : List String} {sources : ConfigSources} {claim : ResourceClaim}

/-- Where a card with a remainder is while devices are granted. -/
structure Tracks (catalog : Catalog) (key : String) (c : Card) (spare : String) (g : Granting) :
    Prop where
  before : c.Sound catalog
  remainder : c.HasRemainder spare
  sound : g.engine.Sound
  offered : g.engine.catalog = catalog
  card : ∃ d, g.engine.cards.find? key = some d ∧ c.LaterThan catalog d (spare ∈ g.carved)

theorem tracks_start {i : Inventory} (h : e.Sound) (hc : e.cards.find? key = some c)
    (hspare : c.HasRemainder spare) : Tracks e.catalog key c spare ⟨e, i, []⟩ := by
  have hs := (h key c hc).2
  have hcarved := (hs.hasRemainder_iff.1 hspare).1
  exact ⟨hs, hspare, h, rfl, c, hc, rfl, hcarved, .inl ⟨List.not_mem_nil, rfl⟩⟩

theorem Tracks.take {configs : List RankedConfig} {r : Assignment} (h : Tracks catalog key c spare g)
    (hfit : (g.engine.perform (g.request configs r)).CountersFit) :
    Tracks catalog key c spare (g.take configs r).2 := by
  obtain ⟨hbefore, hspare, hs, rfl, d, hd, hlater⟩ := h
  rcases g.take_cases configs r with ⟨ht, _⟩ | ⟨a, engine, ha, ht⟩
  · rw [ht]
    exact ⟨hbefore, hspare, hs, rfl, d, hd, hlater⟩
  · rw [request, Engine.perform, ha] at hfit
    rw [ht]
    exact ⟨hbefore, hspare, hs.allocate ha hfit, Engine.allocate_catalog ha,
      hs.laterThan_allocate hbefore hspare hd hlater ha hfit⟩

/-- Once all that was carved for a claim is taken back, a card with a remainder is as it was, or its
remainder was carved and it is numbered on. -/
theorem laterThan_takenBack {i : Inventory} (he : e.Sound) (hc : e.cards.find? key = some c)
    (hspare : c.HasRemainder spare) (hfit : e.FitsThrough (claimCalls driver sources claim ⟨e, i, []⟩))
    (hg : (grantClaim driver cdiIds sources claim ⟨e, i, []⟩).2 = g)
    (hback : g.engine.FitsThrough (g.carved.reverse.map .release)) :
    ∃ d, (g.engine.performAll (g.carved.reverse.map .release)).cards.find? key = some d ∧
      c.LaterThan e.catalog d (spare ∈ g.carved) := by
  have hext : g.Extends e := hg ▸ (extends_start he).grantClaim hfit
  have htracks : Tracks e.catalog key c spare g := by
    rw [← hg]
    exact grantClaim_keeps (fun _ _ _ hfit h => h.take hfit) hfit (tracks_start he hc hspare)
  have hapart : ∀ id ∈ g.carved.reverse, id ∉ c.allocatedIds := fun id hid hmem =>
    hext.apart id (List.mem_reverse.1 hid) id (Engine.mem_allocatedIds.2 ⟨key, c, hc, hmem⟩)
      (SliceId.covers_self id)
  obtain ⟨hbefore, _, hs, hcat, d, hd, hlater⟩ := htracks
  rw [← hcat] at hlater hbefore ⊢
  exact hs.laterThan_releaseAll hbefore hspare hd hlater hapart hback

end Granting

section Renumbered

variable {driver : String} {cdiIds : List String} {sources : ConfigSources} {claim : ResourceClaim}
  {g g' k : Granting} {devices : List PreparedDevice}

theorem grantClaim_of_refused {allocation : DeviceAllocation} {configs : List RankedConfig}
    {e : GrantError} (ha : claim.allocation = some allocation)
    (hr : resolveConfigs driver sources allocation.config = .ok configs)
    (hall : (Granting.grantAll configs (allocation.results.filter (·.driver = driver)) g).1 = .error e) :
    (grantClaim driver cdiIds sources claim g).1 = .error e := by
  unfold grantClaim
  rw [ha]
  simp only [hr]
  cases hg : Granting.grantAll configs (allocation.results.filter (·.driver = driver)) g with
  | mk result g₁ =>
    rw [hg] at hall
    cases hall
    rfl

theorem grantClaim_of_renumbered (hg : g.Current) (hk : k.Current)
    (h : g.engine.Renumbered k.engine)
    (hfit : g.engine.FitsThrough (claimCalls driver sources claim g))
    (hgranted : grantClaim driver cdiIds sources claim g = (.ok devices, g')) :
    ((∀ id, ¬ g.engine.Gone k.engine id) →
      (grantClaim driver cdiIds sources claim k).1 = .ok devices) ∧
    ((∃ id ∈ deviceNames devices, g.engine.Gone k.engine id) → ∃ id, g.engine.Gone k.engine id ∧
      (grantClaim driver cdiIds sources claim k).1 = .error (.notAllocatable id)) := by
  obtain ⟨allocation, configs, granted, ha, hr, hall, hcheck, rfl⟩ := grantClaim_ok_iff.1 hgranted
  rw [claimCalls_of_resolved g ha hr] at hfit
  rcases Granting.grantAll_of_renumbered hg hk h hfit hall with
    ⟨hnone, k', hagain, hren, hsame⟩ | ⟨id, hgone, herr⟩
  · refine ⟨fun hkept => ?_, fun ⟨id, hid, hgone⟩ => ?_⟩
    · have hengine := hren.eq_of_none_gone fun id hgone => hkept id ((hsame id).1 hgone)
      refine congrArg Prod.fst (grantClaim_ok_iff.2 ⟨allocation, configs, granted, ha, hr, hagain,
        hcheck, ?_⟩)
      rw [hengine]
    · rw [deviceNames, List.map_map] at hid
      obtain ⟨d, hd, rfl⟩ := List.mem_map.1 hid
      exact absurd hgone (hnone d hd)
  · exact ⟨fun hkept => absurd hgone (hkept id), fun _ => ⟨id, hgone, grantClaim_of_refused ha hr herr⟩⟩

end Renumbered

namespace Node

variable {n n₀ : Node} {claim : ResourceClaim} {files files' : FileTree} {faults : Faults}
  {devices : List PreparedDevice} {id : String}

def CarvesRemainder (n : Node) (claim : ResourceClaim) (id : String) : Prop :=
  id ∈ (n.granting claim).2.carved ∧ ∃ card ∈ n.engine.devices, card.HasRemainder id

instance (n : Node) (claim : ResourceClaim) (id : String) : Decidable (n.CarvesRemainder claim id) :=
  inferInstanceAs (Decidable (_ ∧ _))

theorem not_carvesRemainder_of_allFree (hfree : n.engine.AllFree) (claim : ResourceClaim) (id : String) :
    ¬ n.CarvesRemainder claim id := by
  rintro ⟨_, card, hcard, piece, hpiece, hkind, _⟩
  obtain ⟨key, hkey⟩ := Dict.mem_values.1 hcard
  rw [hfree key card hkey] at hpiece
  obtain rfl := List.mem_singleton.1 hpiece
  cases hkind

theorem laterThan_of_error {key spare : String} {card : Card} {c : Checkpoint} {e : NodeError}
    (hs : n.engine.Sound) (hmode : n.claims.persistence = .compensating) (hfit : n.Fits (.prepare claim))
    (hread : n.host.readCheckpoint = .ok c) (hnone : c.find? claim.uid = none)
    (herr : (n.prepare claim).1 = .error e) (hcard : n.engine.cards.find? key = some card)
    (hspare : card.HasRemainder spare) :
    ∃ left, (n.prepare claim).2.engine.cards.find? key = some left ∧
      card.LaterThan n.engine.catalog left (spare ∈ (n.granting claim).2.carved) := by
  have hengine := n.engine_prepare claim
  rw [prepare_of_absent hread hnone] at herr
  rw [Fits, engineCalls_of_error hmode hread hnone herr] at hfit
  rw [engineCalls_of_error hmode hread hnone herr, Engine.performAll_append, ← granting_engine]
    at hengine
  obtain ⟨hgrant, hback⟩ := Engine.fitsThrough_append.1 hfit
  rw [← granting_engine] at hback
  rw [hengine]
  exact Granting.laterThan_takenBack hs hcard hspare hgrant rfl hback

theorem renumbered_of_error {c : Checkpoint} {e : NodeError} (hs : n.engine.Sound)
    (hmode : n.claims.persistence = .compensating) (hfit : n.Fits (.prepare claim))
    (hread : n.host.readCheckpoint = .ok c) (hnone : c.find? claim.uid = none)
    (herr : (n.prepare claim).1 = .error e) :
    n.engine.Renumbered (n.prepare claim).2.engine ∧
      ∀ id, n.engine.Gone (n.prepare claim).2.engine id ↔ n.CarvesRemainder claim id := by
  have halike := (alike_of_prepare_error hs hmode hfit herr).2
  have hcards := hs.sameCards_performAll (n.engineCalls_isUse (.prepare claim)) hfit
  have hsound := hs.performAll hfit
  rw [← engine_prepare] at halike hcards hsound
  have hlater : ∀ {key card spare}, n.engine.cards.find? key = some card → card.HasRemainder spare →
      ∃ left, (n.prepare claim).2.engine.cards.find? key = some left ∧
        card.LaterThan n.engine.catalog left (spare ∈ (n.granting claim).2.carved) :=
    fun hcard hspare => laterThan_of_error hs hmode hfit hread hnone herr hcard hspare
  exact ⟨halike.renumbered hs hsound hlater hcards, fun id => halike.gone_iff hs hsound hlater⟩

theorem StorageFails.renumbered (h : n.StorageFails claim files faults devices)
    (hs : n.engine.Sound) (hmode : n.claims.persistence = .compensating)
    (hfit : n.Fits (.prepare claim)) :
    n.engine.Renumbered (n.prepare claim).2.engine ∧
      ∀ id, n.engine.Gone (n.prepare claim).2.engine id ↔ n.CarvesRemainder claim id := by
  obtain ⟨c, hread, hnone⟩ := h.absent
  obtain ⟨e, herr⟩ := h.fails
  exact renumbered_of_error hs hmode hfit hread hnone herr

theorem StorageFails.retry (h : n.StorageFails claim files faults devices) (hn : Holds n₀ n)
    (hmode : n.claims.persistence = .compensating) (hfit : n.Fits (.prepare claim))
    (hdirs : files.SameDirectories files') :
    ((∀ id, ¬ n.CarvesRemainder claim id) →
      (((n.prepare claim).2.disturbed files' faults).prepare claim).1 = .ok devices) ∧
    ∀ id, n.CarvesRemainder claim id → ∃ id, n.CarvesRemainder claim id ∧
      (((n.prepare claim).2.disturbed files' faults).prepare claim).1 =
        .error (.grant (.notAllocatable id)) := by
  have hm : Holds n₀ (n.prepare claim).2 := hn.perform hfit
  obtain ⟨hren, hgone⟩ := h.renumbered hn.sound hmode hfit
  have hcdi : (n.prepare claim).2.cdi = n.cdi := n.cdi_perform (.prepare claim)
  have hsame : (n.prepare claim).2.claims = n.claims := hm.claims.trans hn.claims.symm
  have hgrantfit : n.engine.FitsThrough
      (claimCalls n.cdi.driverName n.claims.sources claim ⟨n.engine, n.inventory, []⟩) := by
    obtain ⟨c, hread, hnone⟩ := h.absent
    rw [Fits, engineCalls_prepare hread hnone] at hfit
    exact (Engine.fitsThrough_append.1 hfit).1
  have hgranted : n.granting claim = (.ok devices, (n.granting claim).2) := Prod.ext h.served.1 rfl
  obtain ⟨hkept, hrefused⟩ := grantClaim_of_renumbered ⟨hn.sound, hn.mirrors⟩
    (k := ⟨(n.prepare claim).2.engine, (n.prepare claim).2.inventory, []⟩) ⟨hm.sound, hm.mirrors⟩
    hren hgrantfit hgranted
  rw [← hcdi, ← hsame] at hkept hrefused
  obtain ⟨c, _, _, hok, herr⟩ := h.again hdirs
  refine ⟨fun hnone => ?_, fun id hcarves => ?_⟩
  · exact congrArg Prod.fst (hok devices (hkept fun id hid => hnone id ((hgone id).1 hid)))
  · obtain ⟨id', hid', he⟩ := hrefused ⟨id, carved_subset h.served.1 hcarves.1, (hgone id).2 hcarves⟩
    exact ⟨id', (hgone id').1 hid', herr _ he⟩

end Node

section Retries

/-- A claim that fails in compensating mode, though its devices are granted, because its specification or
the record cannot be written. Once they can be, preparing it again returns what it would have returned
if it had nothing carved from the remainder of a card that was carved already. If it had, such a
remainder has another name by then, and the claim is refused for the lack of one. -/
theorem NodeSetup.Reaches.retries_rolled_back {s : NodeSetup} {host : Host} {n : Node}
    {claim : ResourceClaim} {devices : List PreparedDevice} {files files' : FileTree} {faults : Faults}
    (hreach : s.Reaches host n) (hmode : s.claims.persistence = .compensating)
    (hfit : n.Fits (.prepare claim)) (hfail : n.StorageFails claim files faults devices)
    (hdirs : files.SameDirectories files') :
    let m := (n.prepare claim).2.disturbed files' faults
    ((∀ id, ¬ n.CarvesRemainder claim id) → (m.prepare claim).1 = .ok devices) ∧
      ∀ id, n.CarvesRemainder claim id → ∃ id, n.CarvesRemainder claim id ∧
        (m.prepare claim).1 = .error (.grant (.notAllocatable id)) := by
  obtain ⟨n₀, hn, hclaims⟩ := hreach.holds
  have hmode' : n.claims.persistence = .compensating := by rw [hclaims, hmode]
  exact hfail.retry hn hmode' hfit hdirs

section Sample

theorem sampleUnwritable_fits_compensating :
    (sampleUnwritable .compensating).Fits (.prepare samplePair) := by
  have hfails := sampleUnwritable_fails .compensating
  obtain ⟨c, hread, hnone⟩ := hfails.absent
  obtain ⟨e, herr⟩ := hfails.fails
  rw [Node.prepare_of_absent hread hnone] at herr
  rw [Node.Fits, Node.engineCalls_of_error rfl hread hnone herr]
  decide +kernel

theorem NodeSetup.Reaches.retries_rolled_back_pair :
    (sampleUnwritable .compensating).StorageFails samplePair
        (sampleUnwritable .compensating).host.files .none samplePairDevices ∧
      ((sampleUnwritable .compensating).granting samplePair).2.carved = ["npu-0-0", "npu-0-1"] ∧
      ((((sampleUnwritable .compensating).prepare samplePair).2.disturbed
        ((sampleUnwritable .compensating).prepare samplePair).2.host.files .none).prepare samplePair).1 =
          .ok samplePairDevices := by
  have hfails := sampleUnwritable_fails .compensating
  have hdirs := (sampleUnwritable .compensating).sameDirectories_prepare samplePair
  obtain ⟨_, hfree, _⟩ := sampleStart_starts.holds
  have hwhole : ∀ id, ¬ (sampleUnwritable .compensating).CarvesRemainder samplePair id :=
    fun id => Node.not_carvesRemainder_of_allFree hfree samplePair id
  exact ⟨hfails, samplePair_granted.2.1, (NodeSetup.Reaches.retries_rolled_back
    (sampleUnwritable_reached .compensating) rfl sampleUnwritable_fits_compensating hfails hdirs).1 hwhole⟩

theorem sampleFaulty_fails : sampleFaulty.StorageFails (sampleClaim "c-2" "npu-0-1")
    sampleFaulty.host.files .none Node.sampleRestDevices :=
  Node.storageFails_of_unwritable _ sampleCarved_read Node.sampleRecord_rest
    (congrArg Prod.fst Node.sampleCarved_prepare)

/-- The claim for the remainder of a carved card is refused when it is prepared again. -/
theorem not_retries_of_remainder : ¬ ∀ (s : NodeSetup) (host : Host) (n : Node) (claim : ResourceClaim)
    (devices : List PreparedDevice), s.Reaches host n → s.claims.persistence = .compensating →
    n.Fits (.prepare claim) →
    n.StorageFails claim n.host.files { n.host.faults with writeCheckpoint := none } devices →
    ∃ again, (((n.prepare claim).2.disturbed (n.prepare claim).2.host.files
        { n.host.faults with writeCheckpoint := none }).prepare claim).1 = .ok again ∧
      deviceNames again = deviceNames devices := by
  intro h
  obtain ⟨again, hok, _⟩ := h sampleSetup sampleHost sampleFaulty _ _ sampleFaulty_reached rfl
    sampleFaulty_fits sampleFaulty_fails
  obtain ⟨n₀, hn, _⟩ := sampleFaulty_reached.holds
  have hcarves : sampleFaulty.CarvesRemainder (sampleClaim "c-2" "npu-0-1") "npu-0-1" := by
    decide +kernel
  obtain ⟨_, _, herr⟩ := (sampleFaulty_fails.retry hn rfl sampleFaulty_fits
    (sampleFaulty.sameDirectories_prepare _)).2 _ hcarves
  cases hok.symm.trans herr

end Sample

end Retries

end SliceAgent
