import SliceAgent.Proofs.FreeSlices
import SliceAgent.Proofs.TakenBack

/-!
Engines that differ in the numbers of some remainders. A slice that both know is allocated from both or
from neither, and the same devices are granted over both, up to the first that is a remainder under its
old number: one of these no longer exists (`Granting.grantAll_of_renumbered`).
-/
namespace SliceAgent

namespace Card

variable {catalog : Catalog} {c d : Card} {id : String}

/-- A carved card with the same pieces, and a remainder of another number. -/
structure Renumbered (catalog : Catalog) (c d : Card) : Prop where
  identity : d.identity = c.identity
  allocated : d.allocated = c.allocated
  before : c.HasShape catalog .carved
  after : d.HasShape catalog .carved
  sound : d.Sound catalog
  counter : d.nextSliceIndex ≠ c.nextSliceIndex

theorem Renumbered.allocatedIds_eq (h : c.Renumbered catalog d) : d.allocatedIds = c.allocatedIds := by
  rw [allocatedIds, allocatedIds, h.allocated]

theorem Renumbered.not_mem_of_hasFree (h : c.Renumbered catalog d) (hc : c.Sound catalog)
    (hfree : c.HasFree id) : id ∉ d.sliceIds := by
  obtain ⟨pieces, hpieces⟩ := h.before
  obtain ⟨others, hothers⟩ := h.after
  rw [h.sound.mem_sliceIds_iff, h.allocatedIds_eq]
  rintro (hnew | hheld)
  · have hnumber := (hpieces.hasFree_iff.1 hfree).symm.trans (hothers.hasFree_iff.1 hnew)
    rw [pieceId_of_identity h.identity] at hnumber
    exact h.counter ((UInt32.sub_left_inj _).1 (pieceId_injective hnumber)).symm
  · exact hc.not_hasFree_of_allocated hheld hfree

theorem Renumbered.mem_sliceIds (h : c.Renumbered catalog d) (hc : c.Sound catalog)
    (hid : id ∈ c.sliceIds) (hfree : ¬ c.HasFree id) : id ∈ d.allocatedIds := by
  rw [h.allocatedIds_eq]
  exact (hc.mem_sliceIds_iff.1 hid).resolve_left hfree

end Card

namespace Engine

variable {e e' f : Engine} {id key : String} {aiCore memoryGb : UInt32} {g : Allocation} {c : Card}

structure Renumbered (e f : Engine) : Prop where
  catalog : f.catalog = e.catalog
  eligibility : f.eligibility = e.eligibility
  cards : ∀ key, f.cards.find? key = e.cards.find? key ∨ ∃ c d, e.cards.find? key = some c ∧
    f.cards.find? key = some d ∧ c.Renumbered e.catalog d

/-- Whether a slice was the remainder of a card that is renumbered. -/
def Gone (e f : Engine) (id : String) : Prop :=
  ∃ key c d, e.cards.find? key = some c ∧ f.cards.find? key = some d ∧ c.Renumbered e.catalog d ∧
    c.HasFree id

theorem Sound.countersFit (h : e.Sound) : e.CountersFit := by
  intro c hc
  obtain ⟨key, hk⟩ := Dict.mem_values.1 hc
  rcases (h key c hk).2.shape with hf | ht | ⟨pieces, hp⟩
  · rw [Card.CounterFits, hf.counter]
    decide
  · rw [Card.CounterFits, ht.counter]
    decide
  · exact hp.counter

theorem Renumbered.sound (h : e.Renumbered f) (he : e.Sound) : f.Sound := by
  intro key d hd
  rw [h.catalog]
  rcases h.cards key with hsame | ⟨c, d', hc, hd', hcard⟩
  · exact he key d (hsame.symm.trans hd)
  · cases hd.symm.trans hd'
    exact ⟨(Card.deviceId_of_identity hcard.identity).trans (he key c hc).1, hcard.sound⟩

theorem Renumbered.eq_of_none_gone (h : e.Renumbered f) (hnone : ∀ id, ¬ e.Gone f id) : f = e := by
  have hcards : f.cards = e.cards := by
    refine Dict.ext_find? fun key => ?_
    rcases h.cards key with hsame | ⟨c, d, hc, hd, hcard⟩
    · exact hsame
    · obtain ⟨pieces, hpieces⟩ := hcard.before
      exact absurd ⟨key, c, d, hc, hd, hcard, hpieces.hasFree_iff.2 rfl⟩ (hnone _)
  obtain ⟨cards', catalog', policy'⟩ := f
  obtain ⟨cards, catalog, policy⟩ := e
  obtain ⟨hcat, hpol, _⟩ := h
  simp only at hcards hcat hpol
  rw [hcards, hcat, hpol]

theorem Renumbered.not_knows (h : e.Renumbered f) (he : e.Sound) (hgone : e.Gone f id) :
    ¬ f.Knows id := by
  obtain ⟨key, c, d, hc, hd, hcard, hfree⟩ := hgone
  have hf := h.sound he
  obtain ⟨hkey, hs⟩ := he key c hc
  rintro ⟨k, d', hd', hmem⟩
  obtain ⟨counter, rfl⟩ := hs.exists_counter (hs.mem_sliceIds_iff.2 (.inl hfree))
  have hcard' : k = SliceId.wholeCard c.logicalIndex := (hf.key_of_slice hd' hmem).1
  obtain rfl : k = key := hcard'.trans (hs.named.symm.trans hkey)
  cases hd.symm.trans hd'
  exact hcard.not_mem_of_hasFree hs hfree hmem

theorem Renumbered.knows (h : e.Renumbered f) (he : e.Sound) (hknown : e.Knows id)
    (hgone : ¬ e.Gone f id) : f.Knows id := by
  obtain ⟨key, c, hc, hid⟩ := hknown
  rcases h.cards key with hsame | ⟨c', d, hc', hd, hcard⟩
  · exact ⟨key, c, hsame.trans hc, hid⟩
  · cases hc.symm.trans hc'
    have hfree : ¬ c.HasFree id := fun hfree => hgone ⟨key, c, d, hc, hd, hcard, hfree⟩
    exact knows_of_allocated (mem_allocatedIds.2 ⟨key, d, hd, hcard.mem_sliceIds (he key c hc).2 hid hfree⟩)

theorem Renumbered.offers (h : e.Renumbered f) (he : e.Sound) (hknown : e.Knows id)
    (hgone : ¬ e.Gone f id) (hoffers : f.Offers id aiCore memoryGb) : e.Offers id aiCore memoryGb := by
  obtain ⟨key, c, hc, hid⟩ := hknown
  have hf := h.sound he
  rcases h.cards key with hsame | ⟨c', d, hc', hd, hcard⟩
  · obtain ⟨k, d, hd, hfree, hcard⟩ := hoffers
    obtain rfl := hf.key_unique (hsame.trans hc) hd hid ((hf k d hd).2.mem_sliceIds_iff.2 (.inl hfree))
    exact ⟨key, d, hsame.symm.trans hd, hfree, hcard⟩
  · cases hc.symm.trans hc'
    have hfree : ¬ c.HasFree id := fun hfree => hgone ⟨key, c, d, hc, hd, hcard, hfree⟩
    have hheld := hcard.mem_sliceIds (he key c hc).2 hid hfree
    exact absurd hoffers (hf.not_offers_of_allocated (mem_allocatedIds.2 ⟨key, d, hd, hheld⟩))

theorem Renumbered.allocate (h : e.Renumbered f) (he : e.Sound) (hgone : ¬ e.Gone f id)
    (ha : e.allocate id aiCore memoryGb = .ok (g, e')) :
    ∃ f', f.allocate id aiCore memoryGb = .ok (g, f') ∧ e'.Renumbered f' ∧
      ∀ x, e'.Gone f' x ↔ e.Gone f x := by
  obtain ⟨key, c, c', hc, hopen, hcard, rfl⟩ := allocate_ok ha
  obtain ⟨hkey, hs⟩ := he key c hc
  have hok : (c.allocate e.eligibility e.catalog id aiCore memoryGb).isOk = true := by
    rw [hcard]
    rfl
  have hfree : c.HasFree id := ((hs.isOk_allocate_iff (hopen.imp_left hkey.trans)).1 hok).1
  have hsame : f.cards.find? key = e.cards.find? key := by
    refine (h.cards key).resolve_right ?_
    rintro ⟨c₁, d, hc₁, hd, hren⟩
    cases hc.symm.trans hc₁
    exact hgone ⟨key, c, d, hc, hd, hren, hfree⟩
  have hlocate := (h.sound he).locate?_of_mem (hsame.trans hc) (hs.mem_sliceIds_iff.2 (.inl hfree))
    (.inr hfree)
  have hput : ∀ k, (f.cards.insert key c').find? k = (e.cards.insert key c').find? k ∨
      k ≠ key ∧ ∃ c d, e.cards.find? k = some c ∧ f.cards.find? k = some d ∧ c.Renumbered e.catalog d := by
    intro k
    rw [Dict.find?_insert, Dict.find?_insert]
    by_cases hk : k = key
    · rw [if_pos hk, if_pos hk]
      exact .inl rfl
    · rw [if_neg hk, if_neg hk]
      exact (h.cards k).imp_right fun hren => ⟨hk, hren⟩
  have hfind : ∀ {k} {cards : Dict Card}, k ≠ key → (cards.insert key c').find? k = cards.find? k :=
    fun hk => (Dict.find?_insert ..).trans (if_neg hk)
  refine ⟨{ f with cards := f.cards.insert key c' }, ?_, ⟨h.catalog, h.eligibility, fun k => ?_⟩,
    fun x => ⟨?_, ?_⟩⟩
  · rw [Engine.allocate, hlocate]
    simp only [h.catalog, h.eligibility, hcard]
  · rcases hput k with hk | ⟨hk, c₁, d, hc₁, hd, hren⟩
    · exact .inl hk
    · exact .inr ⟨c₁, d, (hfind hk).trans hc₁, (hfind hk).trans hd, hren⟩
  · rintro ⟨k, c₁, d, hc₁, hd, hren, hx⟩
    rcases hput k with hk | ⟨hk, _⟩
    · cases hc₁.symm.trans (hk.symm.trans hd)
      exact absurd rfl hren.counter
    · exact ⟨k, c₁, d, (hfind hk).symm.trans hc₁, (hfind hk).symm.trans hd, hren, hx⟩
  · rintro ⟨k, c₁, d, hc₁, hd, hren, hx⟩
    have hk : k ≠ key := by
      rintro rfl
      cases hc₁.symm.trans (hsame.symm.trans hd)
      exact absurd rfl hren.counter
    exact ⟨k, c₁, d, (hfind hk).trans hc₁, (hfind hk).trans hd, hren, hx⟩

end Engine

namespace Granting

variable {g g' k : Granting} {configs : List RankedConfig} {r : Assignment} {d : Granted}
  {rs : List Assignment} {ds : List Granted}

theorem Current.contains_iff (h : g.Current) {id : String} :
    g.inventory.contains id = true ↔ g.engine.Knows id := h.mirrors.names id

theorem knows_of_grant (hg : g.Current) (h : g.grant configs r = (.ok d, g')) :
    g.engine.Knows r.device := by
  obtain ⟨htake, _, hknown⟩ := grant_ok_iff.1 h
  rcases g.take_cases configs r with ⟨ht, _⟩ | ⟨a, engine, ha, _⟩
  · obtain ⟨hname, rfl⟩ := Prod.mk.inj (ht.symm.trans htake)
    exact hg.contains_iff.1 (hname ▸ hknown)
  · exact hg.sound.knows_of_offers (hg.sound.offers_of_ok ha)

theorem take_of_renumbered (hs : g.engine.Sound) (h : g.engine.Renumbered k.engine)
    (hknown : g.engine.Knows r.device) (hgone : ¬ g.engine.Gone k.engine r.device) :
    ∃ k', k.take configs r = (r.device, k') ∧ (g.take configs r).2.engine.Renumbered k'.engine ∧
      ∀ x, (g.take configs r).2.engine.Gone k'.engine x ↔ g.engine.Gone k.engine x := by
  rcases g.take_cases configs r with ⟨ht, err, ha⟩ | ⟨a, engine, ha, ht⟩
  · rw [ht]
    refine ⟨k, ?_, h, fun _ => Iff.rfl⟩
    rcases k.take_cases configs r with ⟨hkt, _⟩ | ⟨b, engine', hb, _⟩
    · exact hkt
    · rw [h.catalog] at hb
      have hoffers := h.offers hs hknown hgone ((h.sound hs).offers_of_ok hb)
      exact absurd hoffers (hs.not_offers_of_error ha)
  · obtain ⟨f', hf', hren, hsame⟩ := h.allocate hs hgone ha
    rw [ht]
    rcases k.take_cases configs r with ⟨_, err, hb⟩ | ⟨b, engine', hb, hkt⟩
    · rw [h.catalog] at hb
      cases hb.symm.trans hf'
    · rw [h.catalog] at hb
      cases hb.symm.trans hf'
      rw [hkt, hs.slice_id_of_allocate ha]
      exact ⟨_, rfl, hren, hsame⟩

theorem grant_of_renumbered (hg : g.Current) (hk : k.Current) (h : g.engine.Renumbered k.engine)
    (hfit : (g.engine.perform (g.request configs r)).CountersFit)
    (hgrant : g.grant configs r = (.ok d, g')) (hgone : ¬ g.engine.Gone k.engine r.device) :
    ∃ k', k.grant configs r = (.ok d, k') ∧ k'.Current ∧ g'.engine.Renumbered k'.engine ∧
      ∀ x, g'.engine.Gone k'.engine x ↔ g.engine.Gone k.engine x := by
  obtain ⟨k', hktake, hren, hsame⟩ := take_of_renumbered hg.sound h (knows_of_grant hg hgrant) hgone
  obtain ⟨htake, hassigned, hin⟩ := grant_ok_iff.1 hgrant
  have hname : d.deviceId = r.device := by
    rw [← take_fst hg.sound, htake]
  have hg' := hg.take hfit
  rw [htake] at hren hsame hg'
  rw [hname] at hin
  have hengine : k.engine.perform (k.request configs r) = k'.engine := by
    rw [← take_engine, hktake]
  have hkfit : (k.engine.perform (k.request configs r)).CountersFit := by
    rw [hengine]
    exact (hren.sound hg'.sound).countersFit
  have hk' := hk.take hkfit
  rw [hktake] at hk'
  have hknown : k'.engine.Knows r.device :=
    hren.knows hg'.sound (hg'.contains_iff.1 hin) fun hgone' => hgone ((hsame _).1 hgone')
  refine ⟨k', grant_ok_iff.2 ⟨?_, hassigned, ?_⟩, hk', hren, hsame⟩
  · rw [hname, hktake]
  · rw [hname]
    exact hk'.contains_iff.2 hknown

theorem grant_of_gone (hg : g.Current) (hk : k.Current) (h : g.engine.Renumbered k.engine)
    (hgone : g.engine.Gone k.engine r.device) :
    k.grant configs r = (.error (.notAllocatable r.device), k) := by
  have hunknown := h.not_knows hg.sound hgone
  have htake : k.take configs r = (r.device, k) := by
    rcases k.take_cases configs r with ⟨ht, _⟩ | ⟨b, engine', hb, _⟩
    · exact ht
    · exact absurd (hk.sound.knows_of_offers (hk.sound.offers_of_ok hb)) hunknown
  have hnot : ¬ k.inventory.contains r.device = true := fun hin => hunknown (hk.contains_iff.1 hin)
  unfold grant
  rw [htake]
  simp only [hnot, Bool.false_eq_true, if_false]

theorem grantAll_of_renumbered (hg : g.Current) (hk : k.Current) (h : g.engine.Renumbered k.engine)
    (hfit : g.engine.FitsThrough (calls configs rs g)) (hall : grantAll configs rs g = (.ok ds, g')) :
    ((∀ d ∈ ds, ¬ g.engine.Gone k.engine d.deviceId) ∧ ∃ k', grantAll configs rs k = (.ok ds, k') ∧
      g'.engine.Renumbered k'.engine ∧ ∀ x, g'.engine.Gone k'.engine x ↔ g.engine.Gone k.engine x) ∨
    ∃ id, g.engine.Gone k.engine id ∧ (grantAll configs rs k).1 = .error (.notAllocatable id) := by
  induction rs generalizing g k ds with
  | nil =>
    cases hall
    exact .inl ⟨List.forall_mem_nil _, k, rfl, h, fun _ => Iff.rfl⟩
  | cons r rs ih =>
    obtain ⟨ds', rfl, hgrant, hfirst, hnext, hfits, hrest⟩ := hg.grantAll_cons hfit hall
    -- which slices are gone stays the same, so that the others can be asked about at the start
    by_cases hgone : g.engine.Gone k.engine r.device
    · refine .inr ⟨r.device, hgone, ?_⟩
      rw [grantAll, grant_of_gone hg hk h hgone]
    · obtain ⟨k₁, hkgrant, hk₁, hren, hsame⟩ := grant_of_renumbered hg hk h hfirst hgrant hgone
      rcases ih hnext hk₁ hren hfits hrest with
        ⟨hnone, k', hkrest, hren', hsame'⟩ | ⟨id, hgone', herr⟩
      · refine .inl ⟨List.forall_mem_cons.2 ⟨hgone, fun d hd hgone' => ?_⟩, k', ?_, hren',
          fun x => (hsame' x).trans (hsame x)⟩
        · exact hnone d hd ((hsame _).2 hgone')
        · rw [grantAll, hkgrant]
          simp only [hkrest]
      · refine .inr ⟨id, (hsame id).1 hgone', ?_⟩
        rw [grantAll, hkgrant]
        simp only
        cases hk' : grantAll configs rs k₁ with
        | mk result k' =>
          rw [hk'] at herr
          simp only at herr ⊢
          rw [herr]

end Granting

end SliceAgent
