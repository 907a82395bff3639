import Mathlib
import SliceAgent.Proofs.RenumberedCards

/-!
Calls stay on the cards that their slices are on. Two engines that have these cards in common answer a
call in the same way and change the same card to the same (`Engine.AgreesOn.perform_cases`); no other
card is changed, and no entry of the inventory for another card.
-/
namespace SliceAgent

/-- Whether the card that a name points to, if it points to any, is one of certain cards. -/
def SliceId.PointsTo (S : Set UInt32) (name : String) : Prop :=
  ∀ id, SliceId.parse? name = some id → id.card ∈ S

def SliceId.cardsOf (names : List String) : Set UInt32 :=
  {index | ∃ name ∈ names, ∃ id, SliceId.parse? name = some id ∧ id.card = index}

theorem SliceId.pointsTo_cardsOf {names : List String} {name : String} (hname : name ∈ names) :
    SliceId.PointsTo (SliceId.cardsOf names) name := fun id hid => ⟨name, hname, id, hid, rfl⟩

theorem SliceId.cardsOf_mono {names others : List String} (h : names ⊆ others) :
    SliceId.cardsOf names ⊆ SliceId.cardsOf others :=
  fun _ ⟨name, hname, id, hid, hcard⟩ => ⟨name, h hname, id, hid, hcard⟩

def EngineCall.PointsTo (S : Set UInt32) : EngineCall → Prop
  | .register _ _ _ => False
  | .allocate id _ _ => SliceId.PointsTo S id
  | .release id => SliceId.PointsTo S id

structure SliceChange.IsOn (index : UInt32) (change : SliceChange) : Prop where
  retired : ∀ name ∈ change.retired, ∃ k, name = SliceId.text ⟨index, k⟩
  advertised : ∀ s ∈ change.advertised, ∃ k, s.sliceId = SliceId.text ⟨index, k⟩

namespace Card

variable {policy : Eligibility} {catalog : Catalog} {c c' : Card} {id : String} {place : Nat}

theorem isOn_remainder {retired : List String}
    (hretired : ∀ name ∈ retired, ∃ k, name = SliceId.text ⟨c.logicalIndex, k⟩) :
    SliceChange.IsOn c.logicalIndex ⟨[.ofCard c' c.remainder], retired⟩ := by
  refine ⟨hretired, fun s hs => ?_⟩
  rw [List.mem_singleton.1 hs]
  exact ⟨c.nextSliceIndex, rfl⟩

theorem Sound.isOn_allocate {aiCore memoryGb : UInt32} {g : Allocation} (h : c.Sound catalog)
    (ha : c.allocate policy catalog id aiCore memoryGb = .ok (g, c')) :
    g.change.IsOn c.logicalIndex := by
  rcases h.allocate_cases ha with ⟨_, rfl, _⟩ | ⟨kind, t, _, _, _, rfl⟩
  · exact ⟨List.forall_mem_nil _, List.forall_mem_nil _⟩
  · exact isOn_remainder (List.forall_mem_nil _)

theorem Sound.isOn_release {s : Slice} (h : c.Sound catalog) (hs : c.allocated[place]? = some s) :
    (c.release policy catalog place).1.IsOn c.logicalIndex := by
  have hretired : ∀ d : Card, ∀ name ∈ c.retired d, ∃ k, name = SliceId.text ⟨c.logicalIndex, k⟩ :=
    fun d name hname => h.exists_counter (mem_retired.1 hname).1
  cases hk : s.kind with
  | wholeCard =>
    rw [release_of_whole hs hk]
    exact ⟨hretired _, List.forall_mem_nil _⟩
  | partition =>
    rw [h.release_of_partition hs hk]
    exact isOn_remainder (hretired _)

end Card

namespace Engine

variable {e e' f : Engine} {S T : Set UInt32} {key id : String} {c : Card} {call : EngineCall}
  {calls : List EngineCall}

def cardAt (e : Engine) (index : UInt32) : Option Card := e.cards.find? (SliceId.wholeCard index)

/-- Engines that have certain cards in common. -/
structure AgreesOn (S : Set UInt32) (e f : Engine) : Prop where
  catalog : f.catalog = e.catalog
  eligibility : f.eligibility = e.eligibility
  cards : S.EqOn f.cardAt e.cardAt

namespace AgreesOn

theorem refl (S : Set UInt32) (e : Engine) : e.AgreesOn S e := ⟨rfl, rfl, fun _ _ => rfl⟩

theorem symm (h : e.AgreesOn S f) : f.AgreesOn S e :=
  ⟨h.catalog.symm, h.eligibility.symm, h.cards.symm⟩

theorem trans {e₁ : Engine} (h : e.AgreesOn S f) (h' : f.AgreesOn S e₁) : e.AgreesOn S e₁ :=
  ⟨h'.catalog.trans h.catalog, h'.eligibility.trans h.eligibility, h'.cards.trans h.cards⟩

theorem mono (h : e.AgreesOn T f) (hST : S ⊆ T) : e.AgreesOn S f :=
  ⟨h.catalog, h.eligibility, h.cards.mono hST⟩

theorem insert (h : e.AgreesOn S f) (key : String) (c : Card) :
    AgreesOn S { e with cards := e.cards.insert key c } { f with cards := f.cards.insert key c } := by
  refine ⟨h.catalog, h.eligibility, fun index hindex => ?_⟩
  rw [cardAt, cardAt, Dict.find?_insert, Dict.find?_insert]
  split
  · rfl
  · exact h.cards hindex

end AgreesOn

theorem Sound.key_eq (h : e.Sound) (hc : e.cards.find? key = some c) :
    key = SliceId.wholeCard c.logicalIndex := (h key c hc).1.symm.trans (h key c hc).2.named

theorem Sound.eq_of_agreesOn (he : e.Sound) (hf : f.Sound) (h : e.AgreesOn Set.univ f) : f = e := by
  have hcards : f.cards = e.cards := by
    refine Dict.ext_find? fun key => Option.ext fun c => ⟨fun hc => ?_, fun hc => ?_⟩
    · have hkey := hf.key_eq hc
      rw [hkey] at hc ⊢
      exact (h.cards (Set.mem_univ _)).symm.trans hc
    · have hkey := he.key_eq hc
      rw [hkey] at hc ⊢
      exact (h.cards (Set.mem_univ _)).trans hc
  obtain ⟨cards', catalog', policy'⟩ := f
  obtain ⟨cards, catalog, policy⟩ := e
  obtain ⟨hcat, hpol, _⟩ := h
  simp only at hcards hcat hpol
  rw [hcards, hcat, hpol]

section Places

theorem Sound.index_mem (h : e.Sound) (hid : SliceId.PointsTo S id)
    (hc : e.cards.find? key = some c) (hmem : id ∈ c.sliceIds) : c.logicalIndex ∈ S := by
  obtain ⟨counter, rfl⟩ := (h key c hc).2.exists_counter hmem
  exact hid ⟨c.logicalIndex, counter⟩ (SliceId.parse?_text _)

theorem AgreesOn.find?_of_mem (h : e.AgreesOn S f) (he : e.Sound) (hid : SliceId.PointsTo S id)
    (hc : e.cards.find? key = some c) (hmem : id ∈ c.sliceIds) : f.cards.find? key = some c := by
  have hkey := he.key_eq hc
  rw [hkey] at hc ⊢
  exact (h.cards (he.index_mem hid (hkey ▸ hc) hmem)).trans hc

theorem Sound.locate?_iff (h : e.Sound) : e.locate? id = some (key, c) ↔
    e.cards.find? key = some c ∧ id ∈ c.sliceIds ∧ (key = id ∨ c.HasFree id) := by
  constructor
  · intro hl
    obtain ⟨hc, hopen⟩ := locate?_some hl
    refine ⟨hc, ?_, hopen⟩
    rcases hopen with rfl | hfree
    · exact (h _ c hc).1 ▸ (h _ c hc).2.deviceId_mem_sliceIds
    · exact (h key c hc).2.mem_sliceIds_iff.2 (.inl hfree)
  · rintro ⟨hc, hmem, hopen⟩
    exact h.locate?_of_mem hc hmem hopen

theorem mem_of_findAllocated? {place : Nat} (h : c.findAllocated? id = some place) :
    id ∈ c.sliceIds := by
  obtain ⟨s, hs, hid⟩ := findAllocated?_some h
  exact Card.mem_sliceIds_of_slice (List.mem_of_getElem? hs) hid

theorem Sound.holder?_iff {place : Nat} (h : e.Sound) : e.holder? id = some (key, c, place) ↔
    e.cards.find? key = some c ∧ c.findAllocated? id = some place := by
  have hfound : ∀ {k : String} {d : Card} {p : Nat}, e.holder? id = some (k, d, p) →
      e.cards.find? k = some d ∧ d.findAllocated? id = some p := by
    intro k d p hh
    obtain ⟨entry, hmem, hp⟩ := List.exists_of_findSome?_eq_some hh
    obtain ⟨p', hplace, he⟩ := Option.map_eq_some_iff.1 hp
    cases he
    exact ⟨Dict.find?_eq_some_iff.2 hmem, hplace⟩
  refine ⟨hfound, ?_⟩
  rintro ⟨hc, hplace⟩
  cases hh : e.holder? id with
  | none =>
    have hnone := List.findSome?_eq_none_iff.1 hh (key, c) (Dict.find?_eq_some_iff.1 hc)
    rw [hplace] at hnone
    cases hnone
  | some found =>
    obtain ⟨k, d, p⟩ := found
    obtain ⟨hd, hp⟩ := hfound hh
    obtain rfl := h.key_unique hd hc (mem_of_findAllocated? hp) (mem_of_findAllocated? hplace)
    cases hd.symm.trans hc
    cases hp.symm.trans hplace
    rfl

theorem AgreesOn.locate?_eq (h : e.AgreesOn S f) (he : e.Sound) (hf : f.Sound)
    (hid : SliceId.PointsTo S id) : f.locate? id = e.locate? id := by
  refine Option.ext fun entry => ?_
  obtain ⟨key, c⟩ := entry
  rw [he.locate?_iff, hf.locate?_iff]
  constructor
  · rintro ⟨hc, hmem, hopen⟩
    exact ⟨h.symm.find?_of_mem hf hid hc hmem, hmem, hopen⟩
  · rintro ⟨hc, hmem, hopen⟩
    exact ⟨h.find?_of_mem he hid hc hmem, hmem, hopen⟩

theorem AgreesOn.holder?_eq (h : e.AgreesOn S f) (he : e.Sound) (hf : f.Sound)
    (hid : SliceId.PointsTo S id) : f.holder? id = e.holder? id := by
  refine Option.ext fun found => ?_
  obtain ⟨key, c, place⟩ := found
  rw [he.holder?_iff, hf.holder?_iff]
  constructor
  · rintro ⟨hc, hplace⟩
    exact ⟨h.symm.find?_of_mem hf hid hc (mem_of_findAllocated? hplace), hplace⟩
  · rintro ⟨hc, hplace⟩
    exact ⟨h.find?_of_mem he hid hc (mem_of_findAllocated? hplace), hplace⟩

theorem AgreesOn.allocate_fst (h : e.AgreesOn S f) (he : e.Sound) (hf : f.Sound)
    (hid : SliceId.PointsTo S id) (aiCore memoryGb : UInt32) :
    (f.allocate id aiCore memoryGb).map Prod.fst = (e.allocate id aiCore memoryGb).map Prod.fst := by
  simp only [allocate, h.locate?_eq he hf hid, h.catalog, h.eligibility]
  cases e.locate? id with
  | none => rfl
  | some entry =>
    simp only
    cases entry.2.allocate e.eligibility e.catalog id aiCore memoryGb <;> rfl

theorem Sound.find?_allocatedSlices {s : Slice} (h : e.Sound) :
    e.allocatedSlices.find? (·.id == id) = some s ↔
      ∃ key c, e.cards.find? key = some c ∧ s ∈ c.allocated ∧ s.id = id := by
  have hfound : ∀ {t : Slice}, e.allocatedSlices.find? (·.id == id) = some t →
      ∃ key c, e.cards.find? key = some c ∧ t ∈ c.allocated ∧ t.id = id := by
    intro t ht
    obtain ⟨c, hc, hmem⟩ := List.mem_flatMap.1 (List.mem_of_find?_eq_some ht)
    obtain ⟨key, hkey⟩ := Dict.mem_values.1 hc
    exact ⟨key, c, hkey, hmem, beq_iff_eq.1 (List.find?_some (p := fun s : Slice => s.id == id) ht)⟩
  refine ⟨hfound, ?_⟩
  rintro ⟨key, c, hc, hmem, hid⟩
  cases ht : e.allocatedSlices.find? (·.id == id) with
  | none =>
    have hin : s ∈ e.allocatedSlices := List.mem_flatMap.2 ⟨c, Dict.mem_values.2 ⟨key, hc⟩, hmem⟩
    exact absurd (beq_iff_eq.2 hid) (List.find?_eq_none.1 ht s hin)
  | some t =>
    obtain ⟨k, d, hd, htmem, htid⟩ := hfound ht
    obtain rfl := h.key_unique hd hc (Card.mem_sliceIds_of_slice htmem htid)
      (Card.mem_sliceIds_of_slice hmem hid)
    cases hd.symm.trans hc
    obtain ⟨i, hi⟩ := List.mem_iff_getElem?.1 hmem
    obtain ⟨j, hj⟩ := List.mem_iff_getElem?.1 htmem
    obtain rfl := (h _ c hc).2.place_eq hi hj (hid.trans htid.symm)
    rw [← hi, hj]

theorem AgreesOn.templateOf_eq (h : e.AgreesOn S f) (he : e.Sound) (hf : f.Sound)
    (hid : SliceId.PointsTo S id) : f.templateOf id = e.templateOf id := by
  have hfind : f.allocatedSlices.find? (·.id == id) = e.allocatedSlices.find? (·.id == id) := by
    refine Option.ext fun s => ?_
    rw [he.find?_allocatedSlices, hf.find?_allocatedSlices]
    constructor
    · rintro ⟨key, c, hc, hmem, hs⟩
      exact ⟨key, c, h.symm.find?_of_mem hf hid hc (Card.mem_sliceIds_of_slice hmem hs),
        hmem, hs⟩
    · rintro ⟨key, c, hc, hmem, hs⟩
      exact ⟨key, c, h.find?_of_mem he hid hc (Card.mem_sliceIds_of_slice hmem hs),
        hmem, hs⟩
  rw [templateOf, templateOf, hfind]

theorem AgreesOn.knows_iff (h : e.AgreesOn S f) (he : e.Sound) (hf : f.Sound)
    (hid : SliceId.PointsTo S id) : f.Knows id ↔ e.Knows id := by
  constructor
  · rintro ⟨key, c, hc, hmem⟩
    exact ⟨key, c, h.symm.find?_of_mem hf hid hc hmem, hmem⟩
  · rintro ⟨key, c, hc, hmem⟩
    exact ⟨key, c, h.find?_of_mem he hid hc hmem, hmem⟩

end Places

section Calls

theorem AgreesOn.perform_cases (h : e.AgreesOn S f) (he : e.Sound) (hf : f.Sound)
    (hcall : call.PointsTo S) :
    (e.perform call = e ∧ f.perform call = f ∧ e.changeOf call = .none ∧ f.changeOf call = .none) ∨
    ∃ index c change, index ∈ S ∧ change.IsOn index ∧
      e.perform call = { e with cards := e.cards.insert (SliceId.wholeCard index) c } ∧
      f.perform call = { f with cards := f.cards.insert (SliceId.wholeCard index) c } ∧
      e.changeOf call = change ∧ f.changeOf call = change := by
  cases call with
  | register index model capacity => exact hcall.elim
  | allocate id aiCore memoryGb =>
    have hlocate := h.locate?_eq he hf hcall
    simp only [perform, changeOf, allocate, hlocate, h.catalog, h.eligibility]
    cases hl : e.locate? id with
    | none => exact .inl ⟨rfl, rfl, rfl, rfl⟩
    | some entry =>
      obtain ⟨key, c⟩ := entry
      obtain ⟨hc, hmem, _⟩ := he.locate?_iff.1 hl
      simp only
      cases ha : c.allocate e.eligibility e.catalog id aiCore memoryGb with
      | error err => exact .inl ⟨rfl, rfl, rfl, rfl⟩
      | ok granted =>
        obtain ⟨g, c'⟩ := granted
        rw [he.key_eq hc]
        exact .inr ⟨c.logicalIndex, c', g.change, he.index_mem hcall hc hmem,
          (he key c hc).2.isOn_allocate ha, rfl, rfl, rfl, rfl⟩
  | release id =>
    have hholder := h.holder?_eq he hf hcall
    simp only [perform, changeOf, release, hholder, h.catalog, h.eligibility]
    cases hh : e.holder? id with
    | none => exact .inl ⟨rfl, rfl, rfl, rfl⟩
    | some found =>
      obtain ⟨key, c, place⟩ := found
      obtain ⟨hc, hplace⟩ := he.holder?_iff.1 hh
      obtain ⟨s, hs, _⟩ := findAllocated?_some hplace
      simp only [he.key_eq hc]
      exact .inr ⟨c.logicalIndex, _, _, he.index_mem hcall hc (mem_of_findAllocated? hplace),
        (he key c hc).2.isOn_release hs, rfl, rfl, rfl, rfl⟩

theorem AgreesOn.perform (h : e.AgreesOn S f) (he : e.Sound) (hf : f.Sound)
    (hcall : call.PointsTo S) : (e.perform call).AgreesOn S (f.perform call) := by
  rcases h.perform_cases he hf hcall with ⟨hpe, hpf, _⟩ | ⟨index, c, _, _, _, hpe, hpf, _⟩
  · rw [hpe, hpf]
    exact h
  · rw [hpe, hpf]
    exact h.insert _ c

theorem AgreesOn.changeOf_eq (h : e.AgreesOn S f) (he : e.Sound) (hf : f.Sound)
    (hcall : call.PointsTo S) : f.changeOf call = e.changeOf call := by
  rcases h.perform_cases he hf hcall with ⟨_, _, hce, hcf⟩ | ⟨_, _, _, _, _, _, _, hce, hcf⟩
  · rw [hce, hcf]
  · rw [hce, hcf]

theorem AgreesOn.countersFit (h : e.AgreesOn S f) (he : e.Sound) (hf : f.Sound)
    (hcall : call.PointsTo S) (hfit : (e.perform call).CountersFit) :
    (f.perform call).CountersFit := by
  rcases h.perform_cases he hf hcall with ⟨_, hpf, _⟩ | ⟨index, c, _, _, _, hpe, hpf, _⟩
  · rw [hpf]
    exact hf.countersFit
  · rw [hpe] at hfit
    rw [hpf]
    intro d hd
    obtain ⟨key, hkey⟩ := Dict.mem_values.1 hd
    rw [Dict.find?_insert] at hkey
    split at hkey
    · cases hkey
      exact hfit.of_insert
    · exact hf.countersFit d (Dict.mem_values.2 ⟨key, hkey⟩)

theorem Sound.perform_off (h : e.Sound) (hcall : call.PointsTo S) : e.AgreesOn Sᶜ (e.perform call) := by
  rcases (AgreesOn.refl S e).perform_cases h h hcall with
    ⟨hp, _⟩ | ⟨index, c, _, hindex, _, hp, _⟩
  · rw [hp]
    exact .refl _ e
  · rw [hp]
    refine ⟨rfl, rfl, fun other hother => ?_⟩
    rw [cardAt, Dict.find?_insert, if_neg]
    · rfl
    · intro heq
      have hsame : other = index := congrArg SliceId.card (SliceId.text_injective heq)
      exact hother (hsame ▸ hindex)

theorem AgreesOn.performAll (h : e.AgreesOn S f) (he : e.Sound) (hf : f.Sound)
    (hcalls : ∀ call ∈ calls, call.PointsTo S) (hfit : e.FitsThrough calls) :
    f.FitsThrough calls ∧ (e.performAll calls).AgreesOn S (f.performAll calls) := by
  induction calls generalizing e f with
  | nil => exact ⟨trivial, h⟩
  | cons call calls ih =>
    obtain ⟨hcall, hcalls⟩ := List.forall_mem_cons.1 hcalls
    have hffit := h.countersFit he hf hcall hfit.1
    obtain ⟨hrest, hagree⟩ := ih (h.perform he hf hcall) (he.perform call hfit.1)
      (hf.perform call hffit) hcalls hfit.2
    exact ⟨⟨hffit, hrest⟩, hagree⟩

theorem Sound.performAll_off (h : e.Sound) (hcalls : ∀ call ∈ calls, call.PointsTo S)
    (hfit : e.FitsThrough calls) : e.AgreesOn Sᶜ (e.performAll calls) := by
  induction calls generalizing e with
  | nil => exact .refl _ e
  | cons call calls ih =>
    obtain ⟨hcall, hcalls⟩ := List.forall_mem_cons.1 hcalls
    exact (h.perform_off hcall).trans (ih (h.perform call hfit.1) hcalls hfit.2)

end Calls

end Engine

namespace Inventory

variable {i j : Inventory} {e f : Engine} {S T : Set UInt32} {change : SliceChange}
  {calls : List EngineCall} {name : String}

def entryAt (i : Inventory) (id : SliceId) : Option AllocatableDevice := i.find? id.text

structure AgreesOn (S : Set UInt32) (i j : Inventory) : Prop where
  nodeName : j.nodeName = i.nodeName
  entries : Set.EqOn j.entryAt i.entryAt {id | id.card ∈ S}

namespace AgreesOn

theorem refl (S : Set UInt32) (i : Inventory) : i.AgreesOn S i := ⟨rfl, fun _ _ => rfl⟩

theorem trans {k : Inventory} (h : i.AgreesOn S j) (h' : j.AgreesOn S k) : i.AgreesOn S k :=
  ⟨h'.nodeName.trans h.nodeName, h'.entries.trans h.entries⟩

theorem mono (h : i.AgreesOn T j) (hST : S ⊆ T) : i.AgreesOn S j :=
  ⟨h.nodeName, h.entries.mono fun _ hid => hST hid⟩

end AgreesOn

section Apply

theorem find?_insert (d : AllocatableDevice) :
    (i.insert d).find? name = if name = d.name then (i.find? name).or (some d) else i.find? name := by
  cases hfind : i.find? name with
  | some old =>
    rw [find?_insert_of_some hfind, Option.some_or, ite_self]
  | none =>
    split
    · rename_i hname
      subst hname
      have hnot : ¬ i.contains d.name = true := by
        rw [contains_iff]
        rintro ⟨old, hold⟩
        cases hfind.symm.trans hold
      exact find?_insert_self hnot
    · rename_i hname
      refine Option.eq_none_iff_forall_not_mem.2 fun old hold => ?_
      have hin : (i.insert d).contains name = true := contains_iff.2 ⟨old, hold⟩
      obtain ⟨old, hold⟩ := contains_iff.1 ((contains_insert.1 hin).resolve_left hname)
      cases hfind.symm.trans hold

theorem find?_foldl_insertSlice_congr (hname : j.nodeName = i.nodeName)
    (hfind : j.find? name = i.find? name) (ss : List AdvertisedSlice) :
    (ss.foldl insertSlice j).find? name = (ss.foldl insertSlice i).find? name := by
  induction ss generalizing i j with
  | nil => exact hfind
  | cons s ss ih =>
    refine ih ?_ ?_
    · rw [insertSlice, insertSlice, nodeName_insert, nodeName_insert, hname]
    · rw [insertSlice, insertSlice, find?_insert, find?_insert, hfind, hname]

theorem find?_foldl_insertSlice_of_not_mem (ss : List AdvertisedSlice)
    (hss : ∀ s ∈ ss, s.sliceId ≠ name) : (ss.foldl insertSlice i).find? name = i.find? name := by
  induction ss generalizing i with
  | nil => rfl
  | cons s ss ih =>
    obtain ⟨hs, hss⟩ := List.forall_mem_cons.1 hss
    rw [List.foldl_cons, ih hss, insertSlice, find?_insert, if_neg]
    exact fun heq => hs heq.symm

theorem AgreesOn.apply (h : i.AgreesOn S j) (change : SliceChange) :
    (i.apply change).AgreesOn S (j.apply change) := by
  refine ⟨by rw [nodeName_apply, nodeName_apply, h.nodeName], fun id hid => ?_⟩
  refine find?_foldl_insertSlice_congr ?_ ?_ change.advertised
  · rw [nodeName_foldl_erase, nodeName_foldl_erase, h.nodeName]
  · rw [find?_foldl_erase, find?_foldl_erase, show j.find? id.text = i.find? id.text from h.entries hid]

theorem apply_off {index : UInt32} (hchange : change.IsOn index) (hindex : index ∈ S) :
    i.AgreesOn Sᶜ (i.apply change) := by
  refine ⟨nodeName_apply change, fun id hid => ?_⟩
  have hother : ∀ k, id.text ≠ SliceId.text ⟨index, k⟩ := by
    intro k heq
    have hcard : id.card = index := congrArg SliceId.card (SliceId.text_injective heq)
    exact hid (show id.card ∈ S from hcard ▸ hindex)
  have hretired : id.text ∉ change.retired := by
    intro hmem
    obtain ⟨k, hk⟩ := hchange.retired _ hmem
    exact hother k hk
  refine (find?_foldl_insertSlice_of_not_mem _ fun s hs heq => ?_).trans ?_
  · obtain ⟨k, hk⟩ := hchange.advertised s hs
    exact hother k (heq.symm.trans hk)
  · rw [find?_foldl_erase, if_neg hretired]
    rfl

end Apply

theorem AgreesOn.follow (h : i.AgreesOn S j) (hef : e.AgreesOn S f) (he : e.Sound) (hf : f.Sound)
    (hcalls : ∀ call ∈ calls, call.PointsTo S) (hfit : e.FitsThrough calls) :
    (i.follow e calls).AgreesOn S (j.follow f calls) := by
  induction calls generalizing i j e f with
  | nil => exact h
  | cons call calls ih =>
    obtain ⟨hcall, hcalls⟩ := List.forall_mem_cons.1 hcalls
    have hffit := hef.countersFit he hf hcall hfit.1
    rw [Inventory.follow, Inventory.follow, hef.changeOf_eq he hf hcall]
    exact ih (h.apply _) (hef.perform he hf hcall) (he.perform call hfit.1) (hf.perform call hffit)
      hcalls hfit.2

theorem follow_off (he : e.Sound) (hcalls : ∀ call ∈ calls, call.PointsTo S)
    (hfit : e.FitsThrough calls) : i.AgreesOn Sᶜ (i.follow e calls) := by
  induction calls generalizing i e with
  | nil => exact .refl _ i
  | cons call calls ih =>
    obtain ⟨hcall, hcalls⟩ := List.forall_mem_cons.1 hcalls
    refine AgreesOn.trans ?_ (ih (he.perform call hfit.1) hcalls hfit.2)
    rcases (Engine.AgreesOn.refl S e).perform_cases he he hcall with
      ⟨_, _, hnone, _⟩ | ⟨index, _, change, hindex, hchange, _, _, hof, _⟩
    · rw [hnone]
      exact .refl _ i
    · rw [hof]
      exact apply_off hchange hindex

theorem Mirrors.eq_of_agreesOn (hi : i.Mirrors e) (hj : j.Mirrors e) (he : e.Sound)
    (h : i.AgreesOn Set.univ j) : j = i := by
  have hdevices : j.devices = i.devices := by
    refine Dict.ext_find? fun name => ?_
    by_cases hname : ∃ id : SliceId, name = id.text
    · obtain ⟨id, rfl⟩ := hname
      exact h.entries (Set.mem_univ id.card)
    · have hnone : ∀ {i : Inventory}, i.Mirrors e → i.devices.find? name = none := by
        intro i hi
        refine Option.eq_none_iff_forall_not_mem.2 fun d hd => hname ?_
        obtain ⟨key, c, hc, hmem⟩ := (hi.names name).1 (contains_iff.2 ⟨d, hd⟩)
        obtain ⟨counter, rfl⟩ := (he key c hc).2.exists_counter hmem
        exact ⟨_, rfl⟩
      rw [hnone hi, hnone hj]
  obtain ⟨nodeName', devices'⟩ := j
  obtain ⟨nodeName, devices⟩ := i
  obtain ⟨hnode, _⟩ := h
  simp only at hdevices hnode
  rw [hdevices, hnode]

end Inventory

end SliceAgent
