import SliceAgent.Proofs.GrantedSlices

/-!
Allocations that are taken back, the last one first. Each release undoes the allocation that it belongs
to (`Engine.Alike.undo`), except that the remainder of a carved card gets a new number.
-/
namespace SliceAgent

namespace Card

variable {policy : Eligibility} {catalog : Catalog} {c c' d : Card} {s : Slice} {g : Allocation}
  {id : String} {aiCore memoryGb : UInt32} {place : Nat} {pieces others : List (UInt32 × Template)}

/-- The same card, but for the number of the remainder if it is carved. -/
def Alike (catalog : Catalog) (c d : Card) : Prop :=
  d = c ∨ (d.identity = c.identity ∧ d.allocated = c.allocated ∧ c.HasShape catalog .carved ∧
    d.HasShape catalog .carved)

theorem Alike.identity (h : c.Alike catalog d) : d.identity = c.identity := by
  rcases h with rfl | ⟨hi, _⟩
  · rfl
  · exact hi

theorem Alike.allocated (h : c.Alike catalog d) : d.allocated = c.allocated := by
  rcases h with rfl | ⟨_, ha, _⟩
  · rfl
  · exact ha

theorem Alike.carved (h : c.Alike catalog d) (hc : c.HasShape catalog .carved) :
    d.HasShape catalog .carved := by
  rcases h with rfl | ⟨_, _, _, hd⟩
  · exact hc
  · exact hd

theorem Alike.eq_of_not_carved (h : c.Alike catalog d) (hc : ¬ c.HasShape catalog .carved) : d = c := by
  rcases h with hsame | ⟨_, _, hcarved, _⟩
  · exact hsame
  · exact absurd hcarved hc

theorem IsFree.not_carved (h : c.IsFree catalog) : ¬ c.HasShape catalog .carved := by
  rintro ⟨pieces, hc⟩
  exact hc.allocated_ne_nil h.allocated

theorem IsTaken.not_carved (h : c.IsTaken) : ¬ c.HasShape catalog .carved := by
  rintro ⟨pieces, hc⟩
  exact absurd (h.available.symm.trans hc.available) (List.cons_ne_nil _ _).symm

theorem IsCarvedInto.of_allocated (h : c.IsCarvedInto catalog pieces)
    (hd : d.IsCarvedInto catalog others) (hi : d.identity = c.identity)
    (ha : d.allocated = c.allocated) : d.IsCarvedInto catalog pieces := by
  have hpieces : d.allocated = pieces.map d.piece := by
    rw [ha, h.allocated, piece_of_identity hi]
  refine ⟨hpieces, h.first, h.rising, fun p hp => ?_, h.shaped, hd.available, hd.counter⟩
  have hmem : d.piece p ∈ others.map d.piece := by
    rw [← hd.allocated, hpieces]
    exact List.mem_map_of_mem hp
  obtain ⟨q, hq, heq⟩ := List.mem_map.1 hmem
  have hnumber : q.1 = p.1 := pieceId_injective (congrArg Slice.id heq)
  rw [← hnumber]
  exact hd.numbered q hq

theorem restored_of_identity (h : d.identity = c.identity) : d.restored catalog = c.restored catalog := by
  have hmodel : d.model = c.model := congrArg (·.2.2.1) h
  have hcapacity : d.capacity = c.capacity := congrArg (·.2.2.2) h
  rw [restored, restored, deviceId_of_identity h, logicalIndex_of_identity h, hmodel, hcapacity]

theorem Sound.place_eq {i j : Nat} {t : Slice} (h : c.Sound catalog) (hs : c.allocated[i]? = some s)
    (ht : c.allocated[j]? = some t) (hid : s.id = t.id) : i = j := by
  have hi : c.allocatedIds[i]? = some s.id := by
    rw [allocatedIds, List.getElem?_map, hs]
    rfl
  have hj : c.allocatedIds[j]? = some s.id := by
    rw [allocatedIds, List.getElem?_map, ht, hid]
    rfl
  have hlt : i < c.allocatedIds.length := (List.getElem?_eq_some_iff.1 hi).1
  exact (List.getElem?_inj hlt h.allocatedIds_nodup).1 (hi.trans hj.symm)

theorem Sound.allocate_shapes (h : c.Sound catalog)
    (ha : c.allocate policy catalog id aiCore memoryGb = .ok (g, c')) (hfit : c'.CounterFits) :
    c'.identity = c.identity ∧
      ((c.IsFree catalog ∧ g.slice.id = c.deviceId) ∨
      ∃ pieces t, c.IsCarvedInto catalog pieces ∧ g.slice.id = c.pieceId (c.nextSliceIndex - 1) ∧
        c'.IsCarvedInto catalog (pieces ++ [(c.nextSliceIndex - 1, t)])) := by
  rcases h.allocate_cases ha with ⟨hf, rfl, rfl⟩ | ⟨kind, t, havail, ht, rfl, rfl⟩
  · exact ⟨taken_identity, .inl ⟨hf, rfl⟩⟩
  · refine ⟨carvedOff_identity, ?_⟩
    rcases h.shape with hf | htaken | ⟨pieces, hc⟩
    · cases havail.symm.trans hf.available
      exact .inl ⟨hf, rfl⟩
    · cases havail.symm.trans htaken.available
    · cases havail.symm.trans hc.available
      exact .inr ⟨pieces, t, hc, rfl, hc.carvedOff (h.offered t ht) rfl hfit⟩

theorem Alike.undo (h : c'.Alike catalog d) (hc : c.Sound catalog) (hd : d.Sound catalog)
    (ha : c.allocate policy catalog id aiCore memoryGb = .ok (g, c')) (hfit : c'.CounterFits)
    (hs : d.allocated[place]? = some s) (hid : s.id = g.slice.id) :
    (s.kind = .wholeCard → c.Alike catalog (d.restored catalog)) ∧
      (s.kind = .partition → (d.coalesced policy catalog place).CounterFits →
        c.Alike catalog (d.coalesced policy catalog place)) := by
  obtain ⟨hi, hshape⟩ := hc.allocate_shapes ha hfit
  have hdi : d.identity = c.identity := h.identity.trans hi
  have hkind := hd.kind_iff (List.mem_of_getElem? hs)
  rw [hid, deviceId_of_identity hdi] at hkind
  rcases hshape with ⟨hfree, hslice⟩ | ⟨pieces, t, hpieces, hslice, hcarved⟩
  · have hwhole : s.kind = .wholeCard := hkind.2 hslice
    refine ⟨fun _ => ?_, fun hpart => ?_⟩
    · rw [restored_of_identity hdi]
      exact .inl (isFree_iff.1 hfree).symm
    · cases hwhole.symm.trans hpart
  · have hne : g.slice.id ≠ c.deviceId := by
      rw [hslice, hc.deviceId_eq]
      intro heq
      have hzero := pieceId_injective heq
      exact absurd hpieces.pos (by rw [hzero]; decide)
    refine ⟨fun hwhole => absurd (hkind.1 hwhole) hne, fun _ hcounter => ?_⟩
    obtain ⟨_, hdc⟩ := h.carved ⟨_, hcarved⟩
    have hdpieces := hcarved.of_allocated hdc h.identity h.allocated
    have hlast : d.allocated[pieces.length]? = some (d.piece (c.nextSliceIndex - 1, t)) := by
      rw [hdpieces.allocated]
      simp
    have hplace : place = pieces.length := by
      refine hd.place_eq hs hlast ?_
      rw [hid, hslice, ← pieceId_of_identity hdi]
      rfl
    have hpos : place ≠ 0 := by
      obtain ⟨u, rest, hfirst⟩ := hpieces.first
      rw [hplace, hfirst]
      exact Nat.succ_ne_zero _
    have hback := hdpieces.coalesced hpos hcounter
    have herase : (pieces ++ [(c.nextSliceIndex - 1, t)]).eraseIdx place = pieces := by
      rw [hplace, List.eraseIdx_append_of_length_le (Nat.le_refl _)]
      simp
    rw [herase] at hback
    have hidentity : (d.coalesced policy catalog place).identity = c.identity := hdi
    refine .inr ⟨hidentity, ?_, ⟨pieces, hpieces⟩, ⟨pieces, hback⟩⟩
    rw [hback.allocated, hpieces.allocated, piece_of_identity hidentity]

end Card

namespace Engine

variable {e e' f : Engine} {a : Allocation} {id : String} {aiCore memoryGb : UInt32}
  {calls more : List EngineCall}

structure Alike (e f : Engine) : Prop where
  catalog : f.catalog = e.catalog
  eligibility : f.eligibility = e.eligibility
  cards : ∀ key c, e.cards.find? key = some c →
    ∃ d, f.cards.find? key = some d ∧ c.Alike e.catalog d

theorem Alike.refl (e : Engine) : e.Alike e := ⟨rfl, rfl, fun _ c hc => ⟨c, hc, .inl rfl⟩⟩

theorem Alike.undo (h : e'.Alike f) (he : e.Sound) (hf : f.Sound)
    (ha : e.allocate id aiCore memoryGb = .ok (a, e')) (hfit : e'.CountersFit)
    (hback : (f.perform (.release a.slice.id)).CountersFit) :
    (f.release a.slice.id).isOk = true ∧ e.Alike (f.perform (.release a.slice.id)) := by
  obtain ⟨key, c, c', hc, _, hcard, rfl⟩ := allocate_ok ha
  have hcs := (he key c hc).2
  obtain ⟨d, hd, halike⟩ := h.cards key c' ((Dict.find?_insert ..).trans (if_pos rfl))
  have hcatalog : f.catalog = e.catalog := h.catalog
  have hpolicy : f.eligibility = e.eligibility := h.eligibility
  have hds : d.Sound e.catalog := hcatalog ▸ (hf key d hd).2
  have hheld : a.slice.id ∈ d.allocatedIds := by
    rw [Card.allocatedIds, halike.allocated, ← Card.allocatedIds,
      (hcs.allocate_allocatedIds hcard).1]
    exact List.mem_append_right _ List.mem_cons_self
  cases hr : f.release a.slice.id with
  | error err => exact absurd (mem_allocatedIds.2 ⟨key, d, hd, hheld⟩) (release_error hr)
  | ok released =>
    obtain ⟨change, f'⟩ := released
    have hperform : f.perform (.release a.slice.id) = f' := by rw [perform, hr]
    rw [hperform] at hback ⊢
    refine ⟨rfl, ?_⟩
    obtain ⟨key', d', place, s, hd', hs, hid, hcases⟩ := hf.release_cases hr
    have hslice : a.slice.id ∈ d'.sliceIds := by
      refine Card.mem_sliceIds_of_allocated (List.mem_map.2 ⟨s, List.mem_of_getElem? hs, hid⟩)
    obtain rfl := hf.key_unique hd hd' (Card.mem_sliceIds_of_allocated hheld) hslice
    cases hd.symm.trans hd'
    obtain ⟨hwhole, hpart⟩ := halike.undo hcs hds hcard hfit.of_insert hs hid
    have hothers : ∀ d'' : Card, c.Alike e.catalog d'' →
        e.Alike { f with cards := f.cards.insert key d'' } := by
      intro d'' hd''
      refine ⟨hcatalog, hpolicy, fun k ck hck => ?_⟩
      by_cases hk : k = key
      · subst hk
        cases hc.symm.trans hck
        exact ⟨d'', (Dict.find?_insert ..).trans (if_pos rfl), hd''⟩
      · obtain ⟨dk, hdk, hkept⟩ := h.cards k ck ((Dict.find?_insert ..).trans ((if_neg hk).trans hck))
        exact ⟨dk, (Dict.find?_insert ..).trans ((if_neg hk).trans hdk), hkept⟩
    rcases hcases with ⟨hkind, _, rfl⟩ | ⟨hkind, _, rfl⟩
    · refine hothers _ ?_
      rw [hcatalog]
      exact hwhole hkind
    · refine hothers _ ?_
      have hcounter := hback.of_insert
      rw [hcatalog, hpolicy] at hcounter ⊢
      exact hpart hkind hcounter

def ReleasesSucceed : Engine → List EngineCall → Prop
  | _, [] => True
  | e, call :: calls => (∀ id, call = .release id → (e.release id).isOk = true) ∧
      ReleasesSucceed (e.perform call) calls

theorem ReleasesSucceed.append (h : e.ReleasesSucceed calls)
    (h' : (e.performAll calls).ReleasesSucceed more) : e.ReleasesSucceed (calls ++ more) := by
  induction calls generalizing e with
  | nil => exact h'
  | cons call calls ih => exact ⟨h.1, ih h.2 h'⟩

theorem releasesSucceed_of_none (h : ∀ call ∈ calls, ∀ id, call ≠ .release id) :
    e.ReleasesSucceed calls := by
  induction calls generalizing e with
  | nil => trivial
  | cons call calls ih =>
    obtain ⟨hcall, hcalls⟩ := List.forall_mem_cons.1 h
    exact ⟨fun id heq => absurd heq (hcall id), ih hcalls⟩

end Engine

namespace Granting

variable {e : Engine} {g : Granting} {configs : List RankedConfig} {r : Assignment}

/-- From an engine that is alike, what was carved can be taken back down to an engine that it was carved
from. -/
structure Undoes (g : Granting) (e : Engine) : Prop where
  sound : g.engine.Sound
  undo : ∀ f : Engine, f.Sound → g.engine.Alike f → f.FitsThrough (g.carved.reverse.map .release) →
    f.ReleasesSucceed (g.carved.reverse.map .release) ∧
      e.Alike (f.performAll (g.carved.reverse.map .release))

theorem undoes_start {i : Inventory} (h : e.Sound) : Undoes ⟨e, i, []⟩ e :=
  ⟨h, fun _ _ halike _ => ⟨trivial, halike⟩⟩

theorem Undoes.take (h : g.Undoes e)
    (hfit : (g.engine.perform (g.request configs r)).CountersFit) : (g.take configs r).2.Undoes e := by
  rcases g.take_cases configs r with ⟨ht, _⟩ | ⟨a, engine, ha, ht⟩
  · rw [ht]
    exact h
  · rw [ht]
    rw [request, Engine.perform, ha] at hfit
    refine ⟨h.sound.allocate ha hfit, fun f hf halike hback => ?_⟩
    have hcalls : ((g.carved ++ [a.slice.id]).reverse.map .release : List EngineCall) =
        .release a.slice.id :: g.carved.reverse.map .release := by
      simp
    simp only [hcalls] at hback ⊢
    obtain ⟨hok, hundone⟩ := halike.undo h.sound hf ha hfit hback.1
    obtain ⟨hrest, hend⟩ := h.undo _ (hf.perform _ hback.1) hundone hback.2
    refine ⟨⟨?_, hrest⟩, hend⟩
    rintro id heq
    cases heq
    exact hok

theorem Undoes.grantClaim {driver : String} {cdiIds : List String} {sources : ConfigSources}
    {claim : ResourceClaim} (h : g.Undoes e)
    (hfit : g.engine.FitsThrough (claimCalls driver sources claim g)) :
    (grantClaim driver cdiIds sources claim g).2.Undoes e :=
  grantClaim_keeps (p := (Undoes · e)) (fun _ _ _ hfit h => h.take hfit) hfit h

theorem calls_not_release (rs : List Assignment) (g : Granting) :
    ∀ call ∈ calls configs rs g, ∀ id, call ≠ .release id := by
  induction rs generalizing g with
  | nil => exact List.forall_mem_nil _
  | cons r rs ih =>
    rw [calls]
    refine List.forall_mem_cons.2 ⟨fun id => EngineCall.noConfusion, ?_⟩
    split
    · exact List.forall_mem_nil _
    · exact ih _

end Granting

theorem claimCalls_not_release {driver : String} {sources : ConfigSources} {claim : ResourceClaim}
    (g : Granting) : ∀ call ∈ claimCalls driver sources claim g, ∀ id, call ≠ .release id := by
  rcases grantClaim_cases driver [] sources claim g with ⟨_, hcalls⟩ | ⟨configs, rs, _, hcalls⟩
  · rw [hcalls]
    exact List.forall_mem_nil _
  · rw [hcalls]
    exact Granting.calls_not_release rs g

end SliceAgent
