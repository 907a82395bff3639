import SliceAgent.Proofs.GrantedSlices

/-!
Which slices an engine can allocate. An allocation looks at the card of the slice only, and grants the
slice that was asked for; what it refuses for a slice that exists, it goes on refusing while other slices
are allocated.
-/
namespace SliceAgent

namespace Card

variable {policy : Eligibility} {catalog : Catalog} {c c' : Card} {id : String}
  {aiCore memoryGb : UInt32} {g : Allocation}

def HasFree (c : Card) (id : String) : Prop := (c.findAvailable? id).isSome = true

/-- Whether a card has what a request asks for, were the slice free: the whole of itself if nothing is
asked for, else a template that fits. -/
def Offers (c : Card) (aiCore memoryGb : UInt32) : Prop :=
  if aiCore = 0 ∧ memoryGb = 0 then c.allocated = []
  else (c.supported.bestFit aiCore memoryGb).isSome = true

theorem Sound.hasFree_iff (h : c.Sound catalog) : c.HasFree id ↔ id ∈ c.available.map (·.id) := by
  rcases h.available_cases with hnone | ⟨spare, kind, hspare⟩
  · simp [HasFree, findAvailable?_of_none hnone, hnone]
  · rw [HasFree, findAvailable?_of_spare hspare, hspare]
    by_cases hid : spare = id
    · simp [hid, Slice.free]
    · simp [hid, Slice.free, Ne.symm hid]

theorem Sound.mem_sliceIds_iff (h : c.Sound catalog) :
    id ∈ c.sliceIds ↔ c.HasFree id ∨ id ∈ c.allocatedIds := by
  rw [sliceIds_eq, List.mem_append, h.hasFree_iff]
  rfl

theorem Sound.not_hasFree_of_allocated (h : c.Sound catalog) (hid : id ∈ c.allocatedIds) :
    ¬ c.HasFree id := by
  have hnodup := h.sliceIds_nodup
  rw [sliceIds_eq] at hnodup
  intro hfree
  exact (List.nodup_append.1 hnodup).2.2 id (h.hasFree_iff.1 hfree) id hid rfl

theorem Sound.hasFree_deviceId (h : c.Sound catalog) : c.HasFree c.deviceId ↔ c.allocated = [] := by
  rw [HasFree, h.findAvailable?_deviceId]
  by_cases hnone : c.allocated = [] <;> simp [hnone]

theorem IsCarvedInto.hasFree_iff {pieces : List (UInt32 × Template)}
    (h : c.IsCarvedInto catalog pieces) : c.HasFree id ↔ id = c.pieceId (c.nextSliceIndex - 1) := by
  rw [HasFree, findAvailable?_of_spare h.available]
  by_cases hid : c.pieceId (c.nextSliceIndex - 1) = id
  · simp [hid]
  · simp [hid, Ne.symm hid]

theorem Sound.isOk_allocate_iff (h : c.Sound catalog) (hid : c.deviceId = id ∨ c.HasFree id) :
    (c.allocate policy catalog id aiCore memoryGb).isOk = true ↔
      c.HasFree id ∧ c.Offers aiCore memoryGb := by
  unfold allocate Offers
  by_cases hwhole : aiCore = 0 ∧ memoryGb = 0
  · rw [if_pos hwhole, if_pos hwhole]
    rcases h.shape with hf | ht | ⟨pieces, hc⟩
    · have hfree : c.HasFree id := by
        rcases hid with rfl | hfree
        · exact h.hasFree_deviceId.2 hf.allocated
        · exact hfree
      rw [takeWhole_of_free hf]
      exact ⟨fun _ => ⟨hfree, hf.allocated⟩, fun _ => rfl⟩
    · rw [takeWhole_of_none (findAvailable?_of_none ht.available), ht.allocated]
      simp [Except.isOk, Except.toBool]
    · rw [takeWhole_of_none (by rw [h.findAvailable?_deviceId, if_neg hc.allocated_ne_nil])]
      simp [Except.isOk, Except.toBool, hc.allocated_ne_nil]
  · rw [if_neg hwhole, if_neg hwhole]
    cases c.supported.bestFit aiCore memoryGb with
    | none => simp [Except.isOk, Except.toBool]
    | some t =>
      rcases h.available_cases with hnone | ⟨spare, kind, hspare⟩
      · have hnot : c.findAvailable? id = none := findAvailable?_of_none hnone
        simp only [carve_of_none hnot, HasFree, hnot]
        simp [Except.isOk, Except.toBool]
      · by_cases hsame : spare = id
        · subst hsame
          simp only [carve_of_spare hspare, HasFree, findAvailable?_of_spare hspare]
          simp [Except.isOk, Except.toBool]
        · have hnot : c.findAvailable? id = none := by
            rw [findAvailable?_of_spare hspare, if_neg hsame]
          simp only [carve_of_none hnot, HasFree, hnot]
          simp [Except.isOk, Except.toBool]

theorem Sound.slice_id_of_allocate (h : c.Sound catalog) (hid : c.deviceId = id ∨ c.HasFree id)
    (ha : c.allocate policy catalog id aiCore memoryGb = .ok (g, c')) : g.slice.id = id := by
  rcases h.allocate_cases ha with ⟨hf, rfl, _⟩ | ⟨kind, t, _, _, _, rfl⟩
  · rcases hid with hid | hfree
    · exact hid
    · have hmem := h.hasFree_iff.1 hfree
      rw [hf.available] at hmem
      exact (List.mem_singleton.1 hmem).symm
  · rfl

end Card

namespace Engine

variable {e e' : Engine} {id other key : String} {aiCore memoryGb : UInt32} {g : Allocation} {c : Card}

def Knows (e : Engine) (id : String) : Prop :=
  ∃ key c, e.cards.find? key = some c ∧ id ∈ c.sliceIds

/-- Whether a slice is free on a card that has what is asked for. -/
def Offers (e : Engine) (id : String) (aiCore memoryGb : UInt32) : Prop :=
  ∃ key c, e.cards.find? key = some c ∧ c.HasFree id ∧ c.Offers aiCore memoryGb

theorem knows_of_allocated (hid : id ∈ e.allocatedIds) : e.Knows id := by
  obtain ⟨key, c, hc, hmem⟩ := mem_allocatedIds.1 hid
  exact ⟨key, c, hc, Card.mem_sliceIds_of_allocated hmem⟩

theorem Sound.locate?_of_mem (h : e.Sound) (hc : e.cards.find? key = some c) (hid : id ∈ c.sliceIds)
    (hopen : key = id ∨ c.HasFree id) : e.locate? id = some (key, c) := by
  unfold locate?
  cases hfind : e.cards.find? id with
  | some d =>
    have hmem : id ∈ d.sliceIds := (h id d hfind).1 ▸ (h id d hfind).2.deviceId_mem_sliceIds
    obtain rfl := h.key_unique hc hfind hid hmem
    cases hc.symm.trans hfind
    rfl
  | none =>
    have hfree : c.HasFree id := by
      rcases hopen with rfl | hfree
      · cases hfind.symm.trans hc
      · exact hfree
    simp only
    cases hfirst : e.cards.entries.find? fun entry => (entry.2.findAvailable? id).isSome with
    | none =>
      have hnot := List.find?_eq_none.1 hfirst (key, c) (Dict.find?_eq_some_iff.1 hc)
      exact absurd hfree hnot
    | some entry =>
      obtain ⟨k, d⟩ := entry
      have hd := Dict.find?_eq_some_iff.2 (List.mem_of_find?_eq_some hfirst)
      have hdfree : d.HasFree id :=
        List.find?_some (p := fun entry : String × Card => (entry.2.findAvailable? id).isSome) hfirst
      obtain rfl := h.key_unique hd hc ((h k d hd).2.mem_sliceIds_iff.2 (.inl hdfree)) hid
      cases hd.symm.trans hc
      rfl

theorem Sound.isOk_allocate_iff (h : e.Sound) :
    (e.allocate id aiCore memoryGb).isOk = true ↔ e.Offers id aiCore memoryGb := by
  constructor
  · intro hok
    cases ha : e.allocate id aiCore memoryGb with
    | error err =>
      rw [ha] at hok
      cases hok
    | ok granted =>
      obtain ⟨key, c, c', hc, hopen, hcard, _⟩ := allocate_ok ha
      obtain ⟨hkey, hs⟩ := h key c hc
      have hcardok : (c.allocate e.eligibility e.catalog id aiCore memoryGb).isOk = true := by
        rw [hcard]
        rfl
      exact ⟨key, c, hc, (hs.isOk_allocate_iff (hopen.imp_left hkey.trans)).1 hcardok⟩
  · rintro ⟨key, c, hc, hfree, hoffers⟩
    have hs := (h key c hc).2
    have hcardok : (c.allocate e.eligibility e.catalog id aiCore memoryGb).isOk = true :=
      (hs.isOk_allocate_iff (.inr hfree)).2 ⟨hfree, hoffers⟩
    rw [Engine.allocate, h.locate?_of_mem hc (hs.mem_sliceIds_iff.2 (.inl hfree)) (.inr hfree)]
    simp only
    cases hcard : c.allocate e.eligibility e.catalog id aiCore memoryGb with
    | error err =>
      rw [hcard] at hcardok
      cases hcardok
    | ok granted => rfl

theorem Sound.offers_of_ok (h : e.Sound) (ha : e.allocate id aiCore memoryGb = .ok (g, e')) :
    e.Offers id aiCore memoryGb := by
  rw [← h.isOk_allocate_iff, ha]
  rfl

theorem Sound.not_offers_of_error (h : e.Sound) {err : EngineError}
    (ha : e.allocate id aiCore memoryGb = .error err) : ¬ e.Offers id aiCore memoryGb := by
  rw [← h.isOk_allocate_iff, ha]
  exact Bool.false_ne_true

theorem Sound.knows_of_offers (h : e.Sound) (hoffers : e.Offers id aiCore memoryGb) : e.Knows id := by
  obtain ⟨key, c, hc, hfree, _⟩ := hoffers
  exact ⟨key, c, hc, (h key c hc).2.mem_sliceIds_iff.2 (.inl hfree)⟩

theorem Sound.slice_id_of_allocate (h : e.Sound) (ha : e.allocate id aiCore memoryGb = .ok (g, e')) :
    g.slice.id = id := by
  obtain ⟨key, c, c', hc, hopen, hcard, _⟩ := allocate_ok ha
  obtain ⟨hkey, hs⟩ := h key c hc
  exact hs.slice_id_of_allocate (hopen.imp_left hkey.trans) hcard

theorem Sound.not_offers_of_allocated (h : e.Sound) (hid : id ∈ e.allocatedIds) :
    ¬ e.Offers id aiCore memoryGb := by
  obtain ⟨k, d, hd, hmem⟩ := mem_allocatedIds.1 hid
  rintro ⟨key, c, hc, hfree, _⟩
  have hfreemem := (h key c hc).2.mem_sliceIds_iff.2 (.inl hfree)
  obtain rfl := h.key_unique hc hd hfreemem (Card.mem_sliceIds_of_allocated hmem)
  cases hc.symm.trans hd
  exact (h _ _ hd).2.not_hasFree_of_allocated hmem hfree

theorem Sound.not_knows_remainder (h : e.Sound) (hc : e.cards.find? key = some c) :
    ¬ e.Knows c.remainder.id := by
  rintro ⟨k, d, hd, hmem⟩
  obtain ⟨hkey, hs⟩ := h key c hc
  have hcard : k = SliceId.wholeCard c.logicalIndex := (h.key_of_slice hd hmem).1
  obtain rfl : k = key := hcard.trans (hs.named.symm.trans hkey)
  cases hc.symm.trans hd
  exact Inventory.remainder_not_mem hs hmem

theorem Sound.follows_of_allocate (h : e.Sound) (ha : e.allocate id aiCore memoryGb = .ok (g, e')) :
    ∃ key c c', e.cards.find? key = some c ∧ e' = { e with cards := e.cards.insert key c' } ∧
      (∀ x, x ∈ c.sliceIds → x ∈ c'.sliceIds) ∧ ∀ x, c'.HasFree x → x = c.remainder.id := by
  obtain ⟨key, c, c', hc, _, hcard, he⟩ := allocate_ok ha
  have hs := (h key c hc).2
  refine ⟨key, c, c', hc, he, ?_⟩
  have hkept : ∀ {change : SliceChange}, Inventory.Follows c c' change → change.retired = [] →
      ∀ x, x ∈ c.sliceIds → x ∈ c'.sliceIds := by
    intro change hf hretired x hx
    refine Classical.not_not.1 fun hnot => ?_
    have hgone := (hf.retired x).2 ⟨hx, hnot⟩
    rw [hretired] at hgone
    cases hgone
  rcases hs.allocate_cases hcard with ⟨hf, _, hc'⟩ | ⟨kind, t, havail, _, hc', _⟩
  · rw [hc'] at hkept ⊢
    refine ⟨hkept (Inventory.follows_taken hf) rfl, fun x hx => ?_⟩
    rw [Card.HasFree, Card.findAvailable?_of_none (Card.isTaken_taken hf).available] at hx
    cases hx
  · refine ⟨hkept (Inventory.follows_carvedOff hs havail hc') rfl, fun x hx => ?_⟩
    have hleft : c'.available = [Slice.free c.remainder.id .partition] := by
      rw [hc', Card.carvedOff_available]
      rfl
    rw [Card.HasFree, Card.findAvailable?_of_spare hleft] at hx
    split at hx
    · rename_i hsame
      exact hsame.symm
    · cases hx

theorem Sound.knows_allocate (h : e.Sound) (ha : e.allocate id aiCore memoryGb = .ok (g, e'))
    (hknown : e.Knows other) : e'.Knows other := by
  obtain ⟨key, c, c', hc, rfl, hkept, _⟩ := h.follows_of_allocate ha
  obtain ⟨k, d, hd, hmem⟩ := hknown
  refine Dict.exists_find?_insert.2 ?_
  by_cases hk : k = key
  · subst hk
    cases hc.symm.trans hd
    exact .inl (hkept other hmem)
  · exact .inr ⟨k, d, hk, hd, hmem⟩

theorem Sound.offers_of_allocate (h : e.Sound) (ha : e.allocate id aiCore memoryGb = .ok (g, e'))
    (hknown : e.Knows other) {aiCore' memoryGb' : UInt32} (hoffers : e'.Offers other aiCore' memoryGb') :
    e.Offers other aiCore' memoryGb' := by
  obtain ⟨key, c, c', hc, rfl, _, hnew⟩ := h.follows_of_allocate ha
  obtain ⟨k, d, hd, hfree, hcard⟩ := hoffers
  rw [Dict.find?_insert] at hd
  split at hd
  -- the card that is carved has only its next remainder free, which no one knew before
  · cases hd
    exact absurd (hnew other hfree ▸ hknown) (h.not_knows_remainder hc)
  · exact ⟨k, d, hd, hfree, hcard⟩

end Engine

namespace Granting

variable {g g' : Granting} {configs : List RankedConfig} {r : Assignment} {d : Granted}

/-- What stays true of an engine and its inventory while devices are granted. -/
structure Current (g : Granting) : Prop where
  sound : g.engine.Sound
  mirrors : g.inventory.Mirrors g.engine

theorem Current.take (h : g.Current) (hfit : (g.engine.perform (g.request configs r)).CountersFit) :
    (g.take configs r).2.Current := by
  have hleads := take_leads configs g r
  refine ⟨?_, ?_⟩
  · rw [hleads.engine]
    exact h.sound.perform _ hfit
  · rw [hleads.engine, hleads.inventory]
    exact h.mirrors.follow h.sound ⟨hfit, trivial⟩

theorem take_fst (h : g.engine.Sound) : (g.take configs r).1 = r.device := by
  rcases g.take_cases configs r with ⟨ht, _⟩ | ⟨a, engine, ha, ht⟩
  · rw [ht]
  · rw [ht]
    exact h.slice_id_of_allocate ha

theorem grant_ok_iff : g.grant configs r = (.ok d, g') ↔
    g.take configs r = (d.deviceId, g') ∧ d.assignment = r ∧
      g'.inventory.contains d.deviceId = true := by
  unfold grant
  cases g.take configs r with
  | mk name left =>
    obtain ⟨assignment, deviceId⟩ := d
    by_cases hin : left.inventory.contains name = true
    · simp only [hin, if_true, Prod.mk.injEq, Except.ok.injEq, Granted.mk.injEq]
      constructor
      · rintro ⟨⟨rfl, rfl⟩, rfl⟩
        exact ⟨⟨rfl, rfl⟩, rfl, hin⟩
      · rintro ⟨⟨rfl, rfl⟩, rfl, _⟩
        exact ⟨⟨rfl, rfl⟩, rfl⟩
    · simp only [hin, Bool.false_eq_true, if_false, Prod.mk.injEq]
      constructor
      · rintro ⟨h, _⟩
        cases h
      · rintro ⟨⟨rfl, rfl⟩, _, h⟩
        exact absurd h hin

theorem calls_cons_of_grant {rs : List Assignment} (h : g.grant configs r = (.ok d, g')) :
    calls configs (r :: rs) g = g.request configs r :: calls configs rs g' := by
  rw [calls, h]

theorem Current.grantAll_cons {rs : List Assignment} {ds : List Granted} (hg : g.Current)
    (hfit : g.engine.FitsThrough (calls configs (r :: rs) g))
    (h : grantAll configs (r :: rs) g = (.ok ds, g')) :
    ∃ ds', ds = ⟨r, r.device⟩ :: ds' ∧ g.grant configs r = (.ok ⟨r, r.device⟩, (g.take configs r).2) ∧
      (g.engine.perform (g.request configs r)).CountersFit ∧ (g.take configs r).2.Current ∧
      (g.take configs r).2.engine.FitsThrough (calls configs rs (g.take configs r).2) ∧
      grantAll configs rs (g.take configs r).2 = (.ok ds', g') := by
  obtain ⟨d, g₁, ds', hgrant, rfl, hrest⟩ := grantAll_cons_inv h
  rw [calls_cons_of_grant hgrant] at hfit
  obtain ⟨hfirst, hfits⟩ := hfit
  obtain ⟨rfl, rfl⟩ := grant_ok hgrant
  rw [take_fst hg.sound] at hgrant ⊢
  rw [← take_engine] at hfits
  exact ⟨ds', rfl, hgrant, hfirst, hg.take hfirst, hfits, hrest⟩

end Granting

end SliceAgent
