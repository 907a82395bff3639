import SliceAgent.Discovery
import SliceAgent.Proofs.AllocatedIds

/-!
An inventory that follows an engine call by call mirrors it: it names the slices of the engine and no
others, its entries of cards are those of registration, and a free piece is announced as it is now.
-/
namespace SliceAgent

namespace Inventory

variable {i : Inventory} {d : AllocatableDevice} {name : String}

theorem contains_iff : i.contains name = true ↔ ∃ d, i.find? name = some d :=
  Option.isSome_iff_exists

theorem find?_insert_of_some {e : AllocatableDevice} (h : i.find? name = some e) :
    (i.insert d).find? name = some e := by
  unfold insert
  split
  · exact h
  · rename_i hd
    have hne : name ≠ d.name := by
      rintro rfl
      exact hd (contains_iff.2 ⟨e, h⟩)
    exact (Dict.find?_insert ..).trans ((if_neg hne).trans h)

theorem find?_insert_self (h : ¬ i.contains d.name = true) : (i.insert d).find? d.name = some d := by
  rw [insert, if_neg h]
  exact (Dict.find?_insert ..).trans (if_pos rfl)

theorem contains_insert : (i.insert d).contains name = true ↔
    name = d.name ∨ i.contains name = true := by
  unfold insert
  split
  · rename_i hd
    constructor
    · exact .inr
    · rintro (rfl | h)
      · exact hd
      · exact h
  · show (i.devices.insert d.name d).contains name = true ↔ _
    rw [Dict.contains_insert, Bool.or_eq_true, beq_iff_eq]
    rfl

@[simp] theorem nodeName_insert : (i.insert d).nodeName = i.nodeName := by
  unfold insert
  split <;> rfl

@[simp] theorem nodeName_foldl_erase (names : List String) :
    (names.foldl erase i).nodeName = i.nodeName := by
  induction names generalizing i with
  | nil => rfl
  | cons name names ih => exact ih

theorem find?_foldl_erase (names : List String) :
    (names.foldl erase i).find? name = if name ∈ names then none else i.find? name := by
  induction names generalizing i with
  | nil => rfl
  | cons n names ih =>
    rw [List.foldl_cons, ih]
    by_cases hmem : name ∈ names
    · rw [if_pos hmem, if_pos (List.mem_cons_of_mem _ hmem)]
    · have herase : (i.erase n).find? name = if name = n then none else i.find? name :=
        Dict.find?_erase ..
      rw [if_neg hmem, herase]
      simp only [List.mem_cons, hmem, or_false]

theorem contains_foldl_erase {names : List String} : (names.foldl erase i).contains name = true ↔
    i.contains name = true ∧ name ∉ names := by
  simp only [contains_iff, find?_foldl_erase]
  by_cases hmem : name ∈ names <;> simp [hmem]

@[simp] theorem nodeName_apply (change : SliceChange) : (i.apply change).nodeName = i.nodeName := by
  have hfold : ∀ (ss : List AdvertisedSlice) (i : Inventory),
      (ss.foldl insertSlice i).nodeName = i.nodeName := by
    intro ss
    induction ss with
    | nil => exact fun _ => rfl
    | cons s ss ih => exact fun i => (ih _).trans nodeName_insert
  exact (hfold _ _).trans (nodeName_foldl_erase _)

end Inventory

def Card.entry (nodeName : String) (c : Card) : AllocatableDevice :=
  .ofSlice nodeName ⟨c.deviceId, c.logicalIndex, c.model, .wholeCard, c.capacity⟩

theorem Card.entry_of_identity {nodeName : String} {c c' : Card} (h : c'.identity = c.identity) :
    c'.entry nodeName = c.entry nodeName := by
  have hmodel : c'.model = c.model := congrArg (·.2.2.1) h
  have hcapacity : c'.capacity = c.capacity := congrArg (·.2.2.2) h
  rw [entry, entry, deviceId_of_identity h, logicalIndex_of_identity h, hmodel, hcapacity]

namespace Engine

/-- The change that a call reports. A card that is registered is announced as a whole; a call that
fails changes nothing. -/
def changeOf (e : Engine) : EngineCall → SliceChange
  | .register index model capacity =>
    ⟨[⟨SliceId.wholeCard index, index, model, .wholeCard, capacity⟩], []⟩
  | .allocate id aiCore memoryGb =>
    match e.allocate id aiCore memoryGb with
    | .ok (g, _) => g.change
    | .error _ => .none
  | .release id =>
    match e.release id with
    | .ok (change, _) => change
    | .error _ => .none

end Engine

namespace Inventory

variable {i : Inventory} {e e' : Engine} {id : String} {key : String} {c c' : Card}

def follow (i : Inventory) (e : Engine) : List EngineCall → Inventory
  | [] => i
  | call :: calls => (i.apply (e.changeOf call)).follow (e.perform call) calls

theorem follow_append (calls more : List EngineCall) : i.follow e (calls ++ more) =
    (i.follow e calls).follow (e.performAll calls) more := by
  induction calls generalizing i e with
  | nil => rfl
  | cons call calls ih => exact ih

@[simp] theorem nodeName_follow (calls : List EngineCall) :
    (i.follow e calls).nodeName = i.nodeName := by
  induction calls generalizing i e with
  | nil => rfl
  | cons call calls ih => exact ih.trans (nodeName_apply _)

structure Mirrors (i : Inventory) (e : Engine) : Prop where
  names : ∀ id, i.contains id = true ↔ ∃ key c, e.cards.find? key = some c ∧ id ∈ c.sliceIds
  cards : ∀ key c, e.cards.find? key = some c → i.find? key = some (c.entry i.nodeName)
  pieces : ∀ key c, e.cards.find? key = some c → ∀ s ∈ c.available, s.kind = .partition →
    i.find? s.id = some (.ofSlice i.nodeName (.ofCard c s))

theorem mirrors_new (nodeName : String) (catalog : Catalog) (policy : Eligibility) :
    (new nodeName).Mirrors (Engine.new catalog policy) := by
  refine ⟨fun id => ?_, fun key c hc => ?_, fun key c hc => ?_⟩
  · constructor
    · intro h
      cases h
    · rintro ⟨_, _, hc, _⟩
      cases hc
  · cases hc
  · cases hc

/-- What has to change in the inventory when one card does. -/
structure Follows (c c' : Card) (change : SliceChange) : Prop where
  identity : c'.identity = c.identity
  retired : ∀ id, id ∈ change.retired ↔ id ∈ c.sliceIds ∧ id ∉ c'.sliceIds
  advertised : (change.advertised = [] ∧ (∀ s ∈ c'.available, s.kind ≠ .partition) ∧
      ∀ id ∈ c'.sliceIds, id ∈ c.sliceIds) ∨
    ∃ r, change.advertised = [.ofCard c' r] ∧ c'.available = [r] ∧ r.id ∉ c.sliceIds ∧
      ∀ id ∈ c'.sliceIds, id = r.id ∨ id ∈ c.sliceIds

section OneCard

variable {change : SliceChange}

theorem Mirrors.not_retired (hs : e.Sound) (hc : e.cards.find? key = some c)
    (hf : Follows c c' change) {k : String} {d : Card} (hk : k ≠ key)
    (hd : e.cards.find? k = some d) (hid : id ∈ d.sliceIds) : id ∉ change.retired := by
  intro hr
  exact hk (hs.key_unique hd hc hid ((hf.retired id).1 hr).1)

theorem Mirrors.names_erased (h : i.Mirrors e) (hs : e.Sound) (hc : e.cards.find? key = some c)
    (hf : Follows c c' change) : (change.retired.foldl erase i).contains id = true ↔
      (id ∈ c.sliceIds ∧ id ∈ c'.sliceIds) ∨
        ∃ k d, k ≠ key ∧ e.cards.find? k = some d ∧ id ∈ d.sliceIds := by
  rw [contains_foldl_erase, h.names, hf.retired]
  constructor
  · rintro ⟨⟨k, d, hd, hid⟩, hr⟩
    by_cases hk : k = key
    · cases hk
      cases hc.symm.trans hd
      exact .inl ⟨hid, Classical.not_not.1 fun hn => hr ⟨hid, hn⟩⟩
    · exact .inr ⟨k, d, hk, hd, hid⟩
  · rintro (⟨hid, hid'⟩ | ⟨k, d, hk, hd, hid⟩)
    · exact ⟨⟨key, c, hc, hid⟩, fun hr => hr.2 hid'⟩
    · refine ⟨⟨k, d, hd, hid⟩, fun hr => ?_⟩
      exact Mirrors.not_retired hs hc hf hk hd hid ((hf.retired id).2 hr)

theorem Mirrors.not_contains_remainder (h : i.Mirrors e) (hs : e.Sound)
    (hc : e.cards.find? key = some c) {counter : UInt32}
    (hid : SliceId.text ⟨c.logicalIndex, counter⟩ ∉ c.sliceIds) :
    ¬ i.contains (SliceId.text ⟨c.logicalIndex, counter⟩) = true := by
  intro hcon
  obtain ⟨k, d, hd, hmem⟩ := (h.names _).1 hcon
  obtain ⟨hkey, hsound⟩ := hs key c hc
  have hk : k = key := (hs.key_of_slice hd hmem).1.trans (hsound.named.symm.trans hkey)
  cases hk
  cases hc.symm.trans hd
  exact hid hmem

theorem find?_apply_of_some {d : AllocatableDevice} {name : String} (hf : Follows c c' change)
    (hr : name ∉ change.retired) (h : i.find? name = some d) :
    (i.apply change).find? name = some d := by
  have herased : (change.retired.foldl erase i).find? name = some d := by
    rw [find?_foldl_erase, if_neg hr, h]
  rcases hf.advertised with ⟨hadv, _⟩ | ⟨r, hadv, _⟩
  · rw [apply, hadv]
    exact herased
  · rw [apply, hadv]
    exact find?_insert_of_some herased

theorem Mirrors.contains_apply (h : i.Mirrors e) (hs : e.Sound) (hc : e.cards.find? key = some c)
    (hf : Follows c c' change) : (i.apply change).contains id = true ↔
      id ∈ c'.sliceIds ∨ ∃ k d, k ≠ key ∧ e.cards.find? k = some d ∧ id ∈ d.sliceIds := by
  rcases hf.advertised with ⟨hadv, _, hsub⟩ | ⟨r, hadv, havail, hnew, hsub⟩
  · rw [apply, hadv]
    show (change.retired.foldl erase i).contains id = true ↔ _
    rw [h.names_erased hs hc hf, and_iff_right_of_imp (hsub id)]
  · rw [apply, hadv]
    show ((change.retired.foldl erase i).insert _).contains id = true ↔ _
    have hr : r.id ∈ c'.sliceIds := by
      rw [Card.sliceIds_eq, havail]
      exact List.mem_append_left _ List.mem_cons_self
    rw [contains_insert, h.names_erased hs hc hf]
    constructor
    · rintro (rfl | ⟨_, hid⟩ | hother)
      · exact .inl hr
      · exact .inl hid
      · exact .inr hother
    · rintro (hid | hother)
      · rcases hsub id hid with he | hold
        · exact .inl he
        · exact .inr (.inl ⟨hold, hid⟩)
      · exact .inr (.inr hother)

theorem Mirrors.find?_remainder (h : i.Mirrors e) (hs : e.Sound) (hc : e.cards.find? key = some c)
    (hs' : c'.Sound e.catalog) (hf : Follows c c' change) {r : Slice}
    (hadv : change.advertised = [.ofCard c' r]) (havail : c'.available = [r])
    (hnew : r.id ∉ c.sliceIds) :
    (i.apply change).find? r.id = some (.ofSlice i.nodeName (.ofCard c' r)) := by
  have hr : r.id ∈ c'.sliceIds := by
    rw [Card.sliceIds_eq, havail]
    exact List.mem_append_left _ List.mem_cons_self
  obtain ⟨counter, hcounter⟩ := hs'.exists_counter hr
  rw [Card.logicalIndex_of_identity hf.identity] at hcounter
  -- an entry of that name would be kept, and go stale
  have hcon : ¬ (change.retired.foldl erase i).contains r.id = true := by
    intro hcon
    rw [hcounter] at hnew hcon
    exact h.not_contains_remainder hs hc hnew (contains_foldl_erase.1 hcon).1
  have hself := find?_insert_self (i := change.retired.foldl erase i)
    (d := .ofSlice i.nodeName (.ofCard c' r)) hcon
  rw [apply, hadv]
  show ((change.retired.foldl erase i).insert
    (.ofSlice (change.retired.foldl erase i).nodeName (.ofCard c' r))).find? r.id = _
  rw [nodeName_foldl_erase]
  exact hself

theorem Mirrors.replace (h : i.Mirrors e) (hs : e.Sound) (hc : e.cards.find? key = some c)
    (hs' : c'.Sound e.catalog) (hf : Follows c c' change) :
    (i.apply change).Mirrors { e with cards := e.cards.insert key c' } := by
  obtain ⟨hkey, _⟩ := hs key c hc
  have hkeep : key ∉ change.retired := by
    intro hr
    refine ((hf.retired key).1 hr).2 ?_
    rw [← hkey, ← Card.deviceId_of_identity hf.identity]
    exact hs'.deviceId_mem_sliceIds
  refine ⟨fun id => ?_, fun k d hd => ?_, fun k d hd s hmem hkind => ?_⟩
  · rw [h.contains_apply hs hc hf, Dict.exists_find?_insert]
  · rw [Dict.find?_insert] at hd
    rw [nodeName_apply]
    split at hd
    · rename_i hk
      cases hd
      rw [hk, Card.entry_of_identity hf.identity]
      exact find?_apply_of_some hf hkeep (h.cards key c hc)
    · rename_i hk
      have hmem : k ∈ d.sliceIds := (hs k d hd).1 ▸ (hs k d hd).2.deviceId_mem_sliceIds
      exact find?_apply_of_some hf (Mirrors.not_retired hs hc hf hk hd hmem) (h.cards k d hd)
  · rw [Dict.find?_insert] at hd
    rw [nodeName_apply]
    split at hd
    · cases hd
      rcases hf.advertised with ⟨_, hnone, _⟩ | ⟨r, hadv, havail, hnew, _⟩
      · exact absurd hkind (hnone s hmem)
      · rw [havail] at hmem
        rw [List.mem_singleton.1 hmem]
        exact h.find?_remainder hs hc hs' hf hadv havail hnew
    · rename_i hk
      have hid : s.id ∈ d.sliceIds := by
        rw [Card.sliceIds_eq]
        exact List.mem_append_left _ (List.mem_map_of_mem hmem)
      exact find?_apply_of_some hf (Mirrors.not_retired hs hc hf hk hd hid) (h.pieces k d hd s hmem hkind)

end OneCard

section Steps

variable {policy : Eligibility} {catalog : Catalog} {kind : SliceKind} {t : Template} {place : Nat}
  {s : Slice}

theorem remainder_not_mem (h : c.Sound catalog) : c.remainder.id ∉ c.sliceIds := by
  intro hmem
  obtain ⟨k, hlt, hk⟩ := h.mem_sliceIds hmem
  have heq : c.nextSliceIndex = k := Card.pieceId_injective hk
  exact UInt32.lt_irrefl _ (heq ▸ hlt)

theorem follows_taken (h : c.IsFree catalog) : Follows c (c.taken policy catalog) .none := by
  have hids : (c.taken policy catalog).sliceIds = c.sliceIds := by
    rw [Card.sliceIds_eq, Card.sliceIds_eq, (Card.isTaken_taken h).available,
      (Card.isTaken_taken h).allocated, h.available, h.allocated]
    exact congrArg (fun id => [id]) (Card.deviceId_of_identity Card.taken_identity)
  refine ⟨Card.taken_identity, fun id => ?_, .inl ⟨rfl, fun s hs => ?_, fun id hid => hids ▸ hid⟩⟩
  · rw [hids, and_not_self_iff]
    exact ⟨fun h => absurd h List.not_mem_nil, False.elim⟩
  · rw [(Card.isTaken_taken h).available] at hs
    cases hs

theorem follows_carvedOff (h : c.Sound catalog) (hs : c.available = [Slice.free id kind])
    (hc : c' = c.carvedOff policy catalog ((Slice.free id kind).shapedBy t)) :
    Follows c c' ⟨[.ofCard c' c.remainder], []⟩ := by
  have havail : c'.available = [c.remainder] := by
    rw [hc, Card.carvedOff_available]
  have hmem : ∀ x, x ∈ c'.sliceIds ↔ x = c.remainder.id ∨ x ∈ c.sliceIds := by
    intro x
    rw [Card.sliceIds_eq, Card.sliceIds_eq, havail, hs, hc, Card.carvedOff_allocated,
      List.map_append]
    show x ∈ [_] ++ (_ ++ [id]) ↔ x = _ ∨ x ∈ [id] ++ _
    simp only [List.mem_append, List.mem_singleton, or_comm (b := x = id)]
  refine ⟨hc ▸ Card.carvedOff_identity, fun x => ?_, .inr ⟨c.remainder, rfl, havail,
    remainder_not_mem h, fun x => (hmem x).1⟩⟩
  constructor
  · exact fun hx => absurd hx List.not_mem_nil
  · rintro ⟨hx, hx'⟩
    exact absurd ((hmem x).2 (.inr hx)) hx'

theorem follows_restored (h : c.Sound catalog) :
    Follows c (c.restored catalog) ⟨[], c.retired (c.restored catalog)⟩ := by
  refine ⟨Card.restored_identity, fun id => Card.mem_retired, .inl ⟨rfl, fun s hs => ?_,
    fun id hid => ?_⟩⟩
  · rw [List.mem_singleton.1 (show s ∈ [Slice.free c.deviceId .wholeCard] from hs)]
    exact SliceKind.noConfusion
  · rw [List.mem_singleton.1 (show id ∈ [c.deviceId] from hid)]
    exact h.deviceId_mem_sliceIds

theorem follows_coalesced (h : c.Sound catalog) :
    Follows c (c.coalesced policy catalog place)
      ⟨[.ofCard (c.coalesced policy catalog place) c.remainder],
        c.retired (c.coalesced policy catalog place)⟩ := by
  refine ⟨Card.coalesced_identity, fun id => Card.mem_retired, .inr ⟨c.remainder, rfl, rfl,
    remainder_not_mem h, fun id hid => ?_⟩⟩
  have hids : (c.coalesced policy catalog place).sliceIds =
      c.remainder.id :: (c.allocated.eraseIdx place).map (·.id) := rfl
  rw [hids] at hid
  rcases List.mem_cons.1 hid with he | hid
  · exact .inl he
  · obtain ⟨s, hs, rfl⟩ := List.mem_map.1 hid
    exact .inr (Card.mem_sliceIds_of_allocated (List.mem_map_of_mem (List.mem_of_mem_eraseIdx hs)))

theorem Mirrors.register (h : i.Mirrors e) (hs : e.Sound) (index : UInt32) (model : String)
    (capacity : Capacity) :
    (i.insertSlice ⟨SliceId.wholeCard index, index, model, .wholeCard, capacity⟩).Mirrors
      (e.register (SliceId.wholeCard index) index model capacity) := by
  have hcon : i.contains (SliceId.wholeCard index) = true ↔
      e.cards.contains (SliceId.wholeCard index) = true := by
    rw [h.names, Dict.contains, Option.isSome_iff_exists]
    constructor
    · rintro ⟨k, c, hc, hid⟩
      exact ⟨c, (hs.key_of_slice hc hid).1 ▸ hc⟩
    · rintro ⟨c, hc⟩
      exact ⟨_, c, hc, (hs _ c hc).1 ▸ (hs _ c hc).2.deviceId_mem_sliceIds⟩
  unfold Engine.register
  split
  · rename_i hknown
    have hsame : i.insertSlice ⟨SliceId.wholeCard index, index, model, .wholeCard, capacity⟩ = i :=
      if_pos (hcon.2 hknown)
    rw [hsame]
    exact h
  · rename_i hknown
    refine ⟨fun id => ?_, fun k d hd => ?_, fun k d hd s hmem hkind => ?_⟩
    · rw [insertSlice, contains_insert, h.names, Dict.exists_find?_insert]
      refine or_congr List.mem_singleton.symm ?_
      refine exists_congr fun k => exists_congr fun d => (and_iff_right_of_imp ?_).symm
      rintro ⟨hd, _⟩ rfl
      exact hknown (Option.isSome_iff_exists.2 ⟨d, hd⟩)
    · rw [insertSlice, nodeName_insert]
      rw [Dict.find?_insert] at hd
      split at hd
      · rename_i hk
        cases hd
        rw [hk]
        exact find?_insert_self (fun hin => hknown (hcon.1 hin))
      · exact find?_insert_of_some (h.cards k d hd)
    · rw [insertSlice, nodeName_insert]
      rw [Dict.find?_insert] at hd
      split at hd
      · cases hd
        rw [List.mem_singleton.1 hmem] at hkind
        cases hkind
      · exact find?_insert_of_some (h.pieces k d hd s hmem hkind)

theorem Mirrors.perform (h : i.Mirrors e) (hs : e.Sound) (call : EngineCall)
    (hfit : (e.perform call).CountersFit) :
    (i.apply (e.changeOf call)).Mirrors (e.perform call) := by
  cases call with
  | register index model capacity => exact h.register hs index model capacity
  | allocate id aiCore memoryGb =>
    rw [Engine.changeOf]
    cases ha : e.allocate id aiCore memoryGb with
    | error err =>
      rw [Engine.perform, ha]
      exact h
    | ok granted =>
      obtain ⟨g, e'⟩ := granted
      rw [Engine.perform, ha] at hfit ⊢
      obtain ⟨key, c, c', hc, _, hcard, rfl⟩ := Engine.allocate_ok ha
      have hcs := (hs key c hc).2
      rcases hcs.allocate_cases hcard with ⟨hf, rfl, rfl⟩ | ⟨kind, t, havail, ht, hc', rfl⟩
      · exact h.replace hs hc (hcs.taken hf) (follows_taken hf)
      · refine h.replace hs hc ?_ (follows_carvedOff hcs havail hc')
        rw [hc'] at hfit ⊢
        exact hcs.carvedOff havail ht hfit.of_insert
  | release id =>
    rw [Engine.changeOf]
    cases hr : e.release id with
    | error err =>
      rw [Engine.perform, hr]
      exact h
    | ok released =>
      obtain ⟨change, e'⟩ := released
      rw [Engine.perform, hr] at hfit ⊢
      obtain ⟨key, c, place, s, hc, hplace, rfl, ⟨_, rfl, rfl⟩ | ⟨hk, rfl, rfl⟩⟩ := hs.release_cases hr
      · exact h.replace hs hc (hs key c hc).2.restored (follows_restored (hs key c hc).2)
      · exact h.replace hs hc ((hs key c hc).2.coalesced hplace hk hfit.of_insert)
          (follows_coalesced (hs key c hc).2)

theorem Mirrors.follow (h : i.Mirrors e) (hs : e.Sound) {calls : List EngineCall}
    (hfit : e.FitsThrough calls) : (i.follow e calls).Mirrors (e.performAll calls) := by
  induction calls generalizing i e with
  | nil => exact h
  | cons call calls ih => exact ih (h.perform hs call hfit.1) (hs.perform call hfit.1) hfit.2

end Steps

end Inventory

end SliceAgent
