import Mathlib.Data.List.InsertIdx
import SliceAgent.Engine.Basic
import SliceAgent.Proofs.BestFit

/-!
The shapes of a card: free, taken as a whole, or carved into pieces. The pieces are numbered in the
order in which they were carved, what was the whole card being number 0, and the one free slice of a
carved card has the newest number of all.
-/
namespace SliceAgent

theorem word_lt_succ {n : UInt32} (h : n + 1 ≠ 0) : n < n + 1 := by
  have hn : n.toNat < 2 ^ 32 := n.toNat_lt
  have h' : (n + 1).toNat ≠ 0 := fun h0 => h (UInt32.toNat_inj.1 h0)
  rw [UInt32.toNat_add] at h'
  rw [UInt32.lt_iff_toNat_lt, UInt32.toNat_add]
  simp only [UInt32.toNat_one] at *
  omega

theorem word_pred_lt {n : UInt32} (h : n ≠ 0) : n - 1 < n := by
  have h' := word_lt_succ (n := n - 1) (by rwa [UInt32.sub_add_cancel])
  rwa [UInt32.sub_add_cancel] at h'

namespace Eligibility

theorem mem_of_mem_eligible {policy : Eligibility} {catalog : Catalog} {c : Card} {t : Template}
    (h : t ∈ (policy.eligible catalog c).toList) : t ∈ catalog.toList := by
  unfold eligible at h
  split at h
  · exact h
  · cases policy with
    | all => exact h
    | leading text => exact Catalog.mem_of_mem_filter h
    | capacity => exact Catalog.mem_of_mem_filter h

theorem eligible_of_whole {policy : Eligibility} {catalog : Catalog} {c : Card}
    (h : c.allocated = []) : policy.eligible catalog c = catalog := by
  unfold eligible
  exact if_pos (by rw [Card.isWhole, h]; rfl)

end Eligibility

namespace Card

variable {policy : Eligibility} {catalog : Catalog} {c c' : Card}

/-- The counter has not passed the largest word, after which it starts again from nothing. -/
def CounterFits (c : Card) : Prop := c.nextSliceIndex ≠ 0

instance : Decidable c.CounterFits := inferInstanceAs (Decidable (c.nextSliceIndex ≠ 0))

def pieceId (c : Card) (k : UInt32) : String := SliceId.text ⟨c.logicalIndex, k⟩

def piece (c : Card) (p : UInt32 × Template) : Slice :=
  ⟨c.pieceId p.1, p.2.name, true, if p.1 = 0 then .wholeCard else .partition⟩

def wholeGrant (c : Card) : Slice := ⟨c.deviceId, "", true, .wholeCard⟩

structure IsFree (catalog : Catalog) (c : Card) : Prop where
  allocated : c.allocated = []
  available : c.available = [Slice.free c.deviceId .wholeCard]
  counter : c.nextSliceIndex = 1
  supported : c.supported = catalog

structure IsTaken (c : Card) : Prop where
  allocated : c.allocated = [c.wholeGrant]
  available : c.available = []
  counter : c.nextSliceIndex = 1

/-- Carved into numbered pieces; the numbers rise in the order of carving. -/
structure IsCarvedInto (catalog : Catalog) (c : Card) (pieces : List (UInt32 × Template)) : Prop where
  allocated : c.allocated = pieces.map c.piece
  first : ∃ t rest, pieces = (0, t) :: rest
  rising : pieces.Pairwise fun p q => p.1 < q.1
  numbered : ∀ p ∈ pieces, p.1 < c.nextSliceIndex - 1
  shaped : ∀ p ∈ pieces, p.2 ∈ catalog.toList
  available : c.available = [Slice.free (c.pieceId (c.nextSliceIndex - 1)) .partition]
  counter : c.CounterFits

/-- What holds of every card of an engine that was used in whatever way. -/
structure Sound (catalog : Catalog) (c : Card) : Prop where
  named : c.deviceId = SliceId.wholeCard c.logicalIndex
  offered : ∀ t ∈ c.supported.toList, t ∈ catalog.toList
  shape : c.IsFree catalog ∨ c.IsTaken ∨ ∃ pieces, c.IsCarvedInto catalog pieces

def identity (c : Card) : String × UInt32 × String × Capacity :=
  (c.deviceId, c.logicalIndex, c.model, c.capacity)

section Refresh

theorem refreshAllocated_eq (policy : Eligibility) (catalog : Catalog) (c : Card) :
    ∃ s, c.refreshAllocated policy catalog = { c with supported := s } ∧
      ∀ t ∈ s.toList, t ∈ c.supported.toList ∨ t ∈ catalog.toList := by
  unfold refreshAllocated
  split
  · exact ⟨_, rfl, fun t ht => .inr (Eligibility.mem_of_mem_eligible ht)⟩
  · exact ⟨_, rfl, fun t ht => .inl ht⟩

@[simp] theorem refreshAllocated_identity :
    (c.refreshAllocated policy catalog).identity = c.identity := by
  obtain ⟨s, hs, _⟩ := refreshAllocated_eq policy catalog c
  rw [hs]
  rfl

@[simp] theorem refreshAllocated_available :
    (c.refreshAllocated policy catalog).available = c.available := by
  obtain ⟨s, hs, _⟩ := refreshAllocated_eq policy catalog c
  rw [hs]

@[simp] theorem refreshAllocated_allocated :
    (c.refreshAllocated policy catalog).allocated = c.allocated := by
  obtain ⟨s, hs, _⟩ := refreshAllocated_eq policy catalog c
  rw [hs]

@[simp] theorem refreshAllocated_nextSliceIndex :
    (c.refreshAllocated policy catalog).nextSliceIndex = c.nextSliceIndex := by
  obtain ⟨s, hs, _⟩ := refreshAllocated_eq policy catalog c
  rw [hs]

theorem mem_refreshAllocated {t : Template}
    (ht : t ∈ (c.refreshAllocated policy catalog).supported.toList) :
    t ∈ c.supported.toList ∨ t ∈ catalog.toList := by
  obtain ⟨s, hs, hoff⟩ := refreshAllocated_eq policy catalog c
  rw [hs] at ht
  exact hoff t ht

end Refresh

section Spare

variable {id spare : String} {kind : SliceKind}

theorem findAvailable?_of_none (h : c.available = []) : c.findAvailable? id = none := by
  rw [findAvailable?, h]
  rfl

theorem findAvailable?_of_spare (h : c.available = [Slice.free spare kind]) :
    c.findAvailable? id = if spare = id then some 0 else none := by
  rw [findAvailable?, h, List.findIdx?_cons]
  by_cases hid : spare = id <;> simp [Slice.free, hid]

theorem Sound.available_cases (h : c.Sound catalog) :
    c.available = [] ∨ ∃ spare kind, c.available = [Slice.free spare kind] := by
  rcases h.shape with hf | ht | ⟨pieces, hc⟩
  · exact .inr ⟨_, _, hf.available⟩
  · exact .inl ht.available
  · exact .inr ⟨_, _, hc.available⟩

theorem pieceId_injective {k l : UInt32} (h : c.pieceId k = c.pieceId l) : k = l :=
  congrArg SliceId.counter (SliceId.text_injective h)

theorem Sound.deviceId_eq (h : c.Sound catalog) : c.deviceId = c.pieceId 0 := h.named

theorem IsCarvedInto.pos {pieces : List (UInt32 × Template)} (h : c.IsCarvedInto catalog pieces) :
    0 < c.nextSliceIndex - 1 := by
  obtain ⟨t, rest, rfl⟩ := h.first
  exact h.numbered (0, t) List.mem_cons_self

theorem IsCarvedInto.allocated_ne_nil {pieces : List (UInt32 × Template)}
    (h : c.IsCarvedInto catalog pieces) : c.allocated ≠ [] := by
  obtain ⟨t, rest, rfl⟩ := h.first
  rw [h.allocated]
  exact List.cons_ne_nil _ _

theorem Sound.findAvailable?_deviceId (h : c.Sound catalog) :
    c.findAvailable? c.deviceId = if c.allocated = [] then some 0 else none := by
  rcases h.shape with hf | ht | ⟨pieces, hc⟩
  · rw [findAvailable?_of_spare hf.available, if_pos rfl, if_pos hf.allocated]
  · rw [findAvailable?_of_none ht.available, ht.allocated]
    rfl
  · have hne : c.pieceId (c.nextSliceIndex - 1) ≠ c.deviceId := by
      intro he
      have hk := pieceId_injective (he.trans h.deviceId_eq)
      exact absurd hc.pos (by rw [hk]; decide)
    rw [findAvailable?_of_spare hc.available, if_neg hne, if_neg hc.allocated_ne_nil]

end Spare

end Card

def Slice.shapedBy (s : Slice) (t : Template) : Slice :=
  { s with templateName := t.name, allocated := true }

namespace Card

variable {policy : Eligibility} {catalog : Catalog} {c c' : Card}

section Allocate

variable {g : Allocation} {t : Template} {id : String} {aiCore memoryGb : UInt32} {kind : SliceKind}

def taken (policy : Eligibility) (catalog : Catalog) (c : Card) : Card :=
  { c with available := [], allocated := [c.wholeGrant] }.refreshAllocated policy catalog

def carvedOff (policy : Eligibility) (catalog : Catalog) (c : Card) (s : Slice) : Card :=
  { c with available := [c.remainder], allocated := c.allocated ++ [s],
           nextSliceIndex := c.nextSliceIndex + 1 }.refreshAllocated policy catalog

@[simp] theorem carvedOff_available {s : Slice} :
    (c.carvedOff policy catalog s).available = [c.remainder] := refreshAllocated_available

@[simp] theorem carvedOff_allocated {s : Slice} :
    (c.carvedOff policy catalog s).allocated = c.allocated ++ [s] := refreshAllocated_allocated

@[simp] theorem carvedOff_nextSliceIndex {s : Slice} :
    (c.carvedOff policy catalog s).nextSliceIndex = c.nextSliceIndex + 1 :=
  refreshAllocated_nextSliceIndex

theorem takeWhole_of_free (h : c.IsFree catalog) : c.takeWhole policy catalog =
    .ok (⟨c.wholeGrant, none, .none⟩, c.taken policy catalog) := by
  unfold takeWhole
  rw [findAvailable?_of_spare h.available, if_pos rfl]
  simp only [h.available, List.getElem?_cons_zero, move, h.allocated, List.eraseIdx_cons_zero]
  rfl

theorem takeWhole_of_none (h : c.findAvailable? c.deviceId = none) :
    c.takeWhole policy catalog = .error (.alreadyAllocated c.deviceId) := by
  unfold takeWhole
  rw [h]

theorem carve_of_spare (h : c.available = [Slice.free id kind]) :
    c.carve policy catalog id t =
      .ok (⟨(Slice.free id kind).shapedBy t, some t,
          ⟨[.ofCard (c.carvedOff policy catalog ((Slice.free id kind).shapedBy t)) c.remainder], []⟩⟩,
        c.carvedOff policy catalog ((Slice.free id kind).shapedBy t)) := by
  unfold carve
  rw [findAvailable?_of_spare h, if_pos rfl]
  simp only [h, List.getElem?_cons_zero, move, List.eraseIdx_cons_zero]
  rfl

theorem carve_of_none (h : c.findAvailable? id = none) :
    c.carve policy catalog id t = .error (.sliceUnavailable id) := by
  unfold carve
  rw [h]

theorem Sound.allocate_cases (h : c.Sound catalog)
    (hc : c.allocate policy catalog id aiCore memoryGb = .ok (g, c')) :
    (c.IsFree catalog ∧ g = ⟨c.wholeGrant, none, .none⟩ ∧ c' = c.taken policy catalog) ∨
    ∃ kind t, c.available = [Slice.free id kind] ∧ t ∈ c.supported.toList ∧
      c' = c.carvedOff policy catalog ((Slice.free id kind).shapedBy t) ∧
      g = ⟨(Slice.free id kind).shapedBy t, some t, ⟨[.ofCard c' c.remainder], []⟩⟩ := by
  unfold allocate at hc
  split at hc
  · have hf : c.IsFree catalog := by
      rcases h.shape with hf | ht | ⟨pieces, hp⟩
      · exact hf
      · rw [takeWhole_of_none (findAvailable?_of_none ht.available)] at hc
        cases hc
      · rw [takeWhole_of_none (by rw [h.findAvailable?_deviceId, if_neg hp.allocated_ne_nil])] at hc
        cases hc
    rw [takeWhole_of_free hf] at hc
    cases hc
    exact .inl ⟨hf, rfl, rfl⟩
  · split at hc
    · cases hc
    · rename_i t ht
      cases hfind : c.findAvailable? id with
      | none =>
        rw [carve_of_none hfind] at hc
        cases hc
      | some place =>
        rcases h.available_cases with hn | ⟨spare, kind, hs⟩
        · rw [findAvailable?_of_none hn] at hfind
          cases hfind
        · rw [findAvailable?_of_spare hs] at hfind
          obtain rfl : spare = id := by
            split at hfind
            · assumption
            · cases hfind
          rw [carve_of_spare hs] at hc
          cases hc
          exact .inr ⟨kind, t, hs, Catalog.bestFit_mem ht, rfl, rfl⟩

end Allocate

section Identity

variable {s : Slice} {place : Nat}

def restored (catalog : Catalog) (c : Card) : Card :=
  Card.new c.deviceId c.logicalIndex c.model c.capacity catalog

def coalesced (policy : Eligibility) (catalog : Catalog) (c : Card) (place : Nat) : Card :=
  { c with available := [c.remainder], allocated := c.allocated.eraseIdx place,
           nextSliceIndex := c.nextSliceIndex + 1 }.refresh policy catalog

@[simp] theorem taken_identity : (c.taken policy catalog).identity = c.identity :=
  refreshAllocated_identity

@[simp] theorem carvedOff_identity : (c.carvedOff policy catalog s).identity = c.identity :=
  refreshAllocated_identity

@[simp] theorem restored_identity : (c.restored catalog).identity = c.identity := rfl

@[simp] theorem coalesced_identity : (c.coalesced policy catalog place).identity = c.identity := rfl

theorem deviceId_of_identity (h : c'.identity = c.identity) : c'.deviceId = c.deviceId :=
  congrArg (·.1) h

theorem logicalIndex_of_identity (h : c'.identity = c.identity) :
    c'.logicalIndex = c.logicalIndex := congrArg (·.2.1) h

theorem pieceId_of_identity (h : c'.identity = c.identity) : c'.pieceId = c.pieceId := by
  funext k
  rw [pieceId, pieceId, logicalIndex_of_identity h]

theorem piece_of_identity (h : c'.identity = c.identity) : c'.piece = c.piece := by
  funext p
  rw [piece, piece, pieceId_of_identity h]

theorem named_of_identity (h : c'.identity = c.identity) (hc : c.Sound catalog) :
    c'.deviceId = SliceId.wholeCard c'.logicalIndex := by
  rw [deviceId_of_identity h, logicalIndex_of_identity h, hc.named]

theorem Sound.isFree_of_allocated (h : c.Sound catalog) (hnone : c.allocated = []) :
    c.IsFree catalog := by
  rcases h.shape with hf | ht | ⟨pieces, hc⟩
  · exact hf
  · exact absurd (ht.allocated.symm.trans hnone) (List.cons_ne_nil _ _)
  · exact absurd hnone hc.allocated_ne_nil

theorem isFree_restored : (c.restored catalog).IsFree catalog := ⟨rfl, rfl, rfl, rfl⟩

theorem isFree_iff : c.IsFree catalog ↔ c = c.restored catalog := by
  constructor
  · intro h
    obtain ⟨deviceId, index, model, capacity, available, allocated, supported, next⟩ := c
    obtain ⟨hl, ha, hn, hs⟩ := h
    simp only at hl ha hn hs
    rw [hl, ha, hn, hs]
    rfl
  · intro h
    rw [h]
    exact isFree_restored

end Identity

section Steps

variable {s : Slice} {t : Template} {id : String} {place : Nat} {kind : SliceKind}

theorem isTaken_taken (h : c.IsFree catalog) : (c.taken policy catalog).IsTaken := by
  refine ⟨?_, ?_, ?_⟩
  · rw [wholeGrant, deviceId_of_identity taken_identity]
    exact refreshAllocated_allocated
  · exact refreshAllocated_available
  · exact refreshAllocated_nextSliceIndex.trans h.counter

theorem Sound.taken (h : c.Sound catalog) (hf : c.IsFree catalog) :
    (c.taken policy catalog).Sound catalog := by
  refine ⟨named_of_identity taken_identity h, fun t ht => ?_, .inr (.inl (isTaken_taken hf))⟩
  rcases mem_refreshAllocated ht with hkept | hin
  · exact h.offered t hkept
  · exact hin

theorem IsFree.isCarvedInto_carvedOff (h : c.IsFree catalog) (hname : c.deviceId = c.pieceId 0)
    (ht : t ∈ catalog.toList)
    (hfit : (c.carvedOff policy catalog ((Slice.free c.deviceId .wholeCard).shapedBy t)).CounterFits) :
    (c.carvedOff policy catalog ((Slice.free c.deviceId .wholeCard).shapedBy t)).IsCarvedInto catalog
      [(0, t)] := by
  refine ⟨?_, ⟨t, [], rfl⟩, List.pairwise_singleton .., ?_, ?_, ?_, hfit⟩
  · rw [carvedOff_allocated, h.allocated, piece_of_identity carvedOff_identity, hname]
    rfl
  · intro p hp
    rw [List.mem_singleton.1 hp, carvedOff_nextSliceIndex, h.counter]
    show (0 : UInt32) < 1 + 1 - 1
    decide
  · intro p hp
    rw [List.mem_singleton.1 hp]
    exact ht
  · rw [carvedOff_available, pieceId_of_identity carvedOff_identity, carvedOff_nextSliceIndex,
      UInt32.add_sub_cancel]
    rfl

theorem IsCarvedInto.carvedOff {pieces : List (UInt32 × Template)}
    (h : c.IsCarvedInto catalog pieces) (ht : t ∈ catalog.toList)
    (hs : s = (Slice.free (c.pieceId (c.nextSliceIndex - 1)) .partition).shapedBy t)
    (hfit : (c.carvedOff policy catalog s).CounterFits) :
    (c.carvedOff policy catalog s).IsCarvedInto catalog
      (pieces ++ [(c.nextSliceIndex - 1, t)]) := by
  have hlast : c.nextSliceIndex - 1 < c.nextSliceIndex := word_pred_lt h.counter
  -- number 0 is taken by the whole card, the first of the pieces
  have hne : c.nextSliceIndex - 1 ≠ 0 := fun h0 => absurd h.pos (by rw [h0]; decide)
  refine ⟨?_, ?_, ?_, ?_, ?_, ?_, hfit⟩
  · rw [carvedOff_allocated, h.allocated, piece_of_identity carvedOff_identity, List.map_append, hs,
      List.map_singleton, piece, if_neg hne]
    rfl
  · obtain ⟨u, rest, hp⟩ := h.first
    exact ⟨u, rest ++ [(c.nextSliceIndex - 1, t)], by rw [hp, List.cons_append]⟩
  · refine List.pairwise_append.2 ⟨h.rising, List.pairwise_singleton .., fun p hp q hq => ?_⟩
    rw [List.mem_singleton.1 hq]
    exact h.numbered p hp
  · intro p hp
    rw [carvedOff_nextSliceIndex, UInt32.add_sub_cancel]
    rcases List.mem_append.1 hp with hp | hp
    · exact UInt32.lt_trans (h.numbered p hp) hlast
    · rw [List.mem_singleton.1 hp]
      exact hlast
  · intro p hp
    rcases List.mem_append.1 hp with hp | hp
    · exact h.shaped p hp
    · rw [List.mem_singleton.1 hp]
      exact ht
  · rw [carvedOff_available, pieceId_of_identity carvedOff_identity, carvedOff_nextSliceIndex,
      UInt32.add_sub_cancel]
    rfl

theorem Sound.isCarvedInto_carvedOff (h : c.Sound catalog) (hs : c.available = [Slice.free id kind])
    (ht : t ∈ c.supported.toList)
    (hfit : (c.carvedOff policy catalog ((Slice.free id kind).shapedBy t)).CounterFits) :
    ∃ pieces, (c.carvedOff policy catalog ((Slice.free id kind).shapedBy t)).IsCarvedInto catalog
      pieces := by
  rcases h.shape with hf | htk | ⟨pieces, hc⟩
  · cases hs.symm.trans hf.available
    exact ⟨_, hf.isCarvedInto_carvedOff h.deviceId_eq (h.offered t ht) hfit⟩
  · rw [htk.available] at hs
    cases hs
  · cases hs.symm.trans hc.available
    exact ⟨_, hc.carvedOff (h.offered t ht) rfl hfit⟩

theorem Sound.carvedOff (h : c.Sound catalog) (hs : c.available = [Slice.free id kind])
    (ht : t ∈ c.supported.toList)
    (hfit : (c.carvedOff policy catalog ((Slice.free id kind).shapedBy t)).CounterFits) :
    (c.carvedOff policy catalog ((Slice.free id kind).shapedBy t)).Sound catalog := by
  refine ⟨named_of_identity carvedOff_identity h, fun u hu => ?_,
    .inr (.inr (h.isCarvedInto_carvedOff hs ht hfit))⟩
  rcases mem_refreshAllocated hu with hkept | hin
  · exact h.offered u hkept
  · exact hin

theorem Sound.restored (h : c.Sound catalog) : (c.restored catalog).Sound catalog :=
  ⟨h.named, fun _ ht => ht, .inl isFree_restored⟩

theorem Sound.partition_cases (h : c.Sound catalog) (hs : c.allocated[place]? = some s)
    (hk : s.kind = .partition) : ∃ pieces, c.IsCarvedInto catalog pieces ∧ place ≠ 0 := by
  rcases h.shape with hf | ht | ⟨pieces, hc⟩
  · rw [hf.allocated] at hs
    cases hs
  · rw [ht.allocated] at hs
    rw [List.mem_singleton.1 (List.mem_of_getElem? hs)] at hk
    cases hk
  · refine ⟨pieces, hc, ?_⟩
    rintro rfl
    obtain ⟨t, rest, rfl⟩ := hc.first
    rw [hc.allocated] at hs
    cases hs
    cases hk

theorem release_of_whole (hs : c.allocated[place]? = some s) (hk : s.kind = .wholeCard) :
    c.release policy catalog place =
      (⟨[], c.retired (c.restored catalog)⟩, c.restored catalog) := by
  have hw : ((c.allocated[place]?.map (·.kind)) == some SliceKind.wholeCard) = true := by
    rw [hs, Option.map_some, hk]
    rfl
  have hr : (reset { c with allocated := c.allocated.eraseIdx place }).refresh policy catalog =
      c.restored catalog := by
    rw [refresh, Eligibility.eligible_of_whole rfl]
    rfl
  simp only [release, hw, Bool.true_or, if_true, hr]

theorem Sound.release_of_partition (h : c.Sound catalog) (hs : c.allocated[place]? = some s)
    (hk : s.kind = .partition) :
    c.release policy catalog place =
      (⟨[.ofCard (c.coalesced policy catalog place) c.remainder],
        c.retired (c.coalesced policy catalog place)⟩, c.coalesced policy catalog place) := by
  obtain ⟨pieces, hc, hp⟩ := h.partition_cases hs hk
  have hw : ((c.allocated[place]?.map (·.kind)) == some SliceKind.wholeCard) = false := by
    rw [hs, Option.map_some, hk]
    rfl
  -- the whole card stays, so that the card is not reset
  have hne : (c.allocated.eraseIdx place).isEmpty = false := by
    obtain ⟨t, rest, hpieces⟩ := hc.first
    rw [hc.allocated, hpieces, List.map_cons]
    cases place with
    | zero => exact absurd rfl hp
    | succ place => rfl
  simp only [release, hw, hne, Bool.or_false, Bool.false_eq_true, if_false]
  rfl

theorem IsCarvedInto.coalesced {pieces : List (UInt32 × Template)}
    (h : c.IsCarvedInto catalog pieces) (hp : place ≠ 0)
    (hfit : (c.coalesced policy catalog place).CounterFits) :
    (c.coalesced policy catalog place).IsCarvedInto catalog (pieces.eraseIdx place) := by
  have hlast : c.nextSliceIndex - 1 < c.nextSliceIndex := word_pred_lt h.counter
  have hnext : (c.coalesced policy catalog place).nextSliceIndex - 1 = c.nextSliceIndex :=
    UInt32.add_sub_cancel _ _
  refine ⟨?_, ?_, h.rising.eraseIdx place, ?_, ?_, ?_, hfit⟩
  · show c.allocated.eraseIdx place = _
    rw [h.allocated, ← List.eraseIdx_map]
    rfl
  · obtain ⟨t, rest, rfl⟩ := h.first
    cases place with
    | zero => exact absurd rfl hp
    | succ place => exact ⟨t, rest.eraseIdx place, rfl⟩
  · intro p hq
    rw [hnext]
    exact UInt32.lt_trans (h.numbered p (List.mem_of_mem_eraseIdx hq)) hlast
  · exact fun p hq => h.shaped p (List.mem_of_mem_eraseIdx hq)
  · rw [hnext]
    rfl

theorem Sound.coalesced (h : c.Sound catalog) (hs : c.allocated[place]? = some s)
    (hk : s.kind = .partition) (hfit : (c.coalesced policy catalog place).CounterFits) :
    (c.coalesced policy catalog place).Sound catalog := by
  obtain ⟨pieces, hc, hp⟩ := h.partition_cases hs hk
  exact ⟨named_of_identity coalesced_identity h, fun t ht => Eligibility.mem_of_mem_eligible ht,
    .inr (.inr ⟨_, hc.coalesced hp hfit⟩)⟩

end Steps

section Names

theorem mem_retired {id : String} : id ∈ c.retired c' ↔ id ∈ c.sliceIds ∧ id ∉ c'.sliceIds := by
  rw [retired, List.mem_filter, Dict.mem_keys_ofNames]
  simp

theorem sliceIds_eq : c.sliceIds = c.available.map (·.id) ++ c.allocated.map (·.id) :=
  List.map_append

theorem IsCarvedInto.sliceIds_eq {pieces : List (UInt32 × Template)}
    (h : c.IsCarvedInto catalog pieces) :
    c.sliceIds = ((c.nextSliceIndex - 1) :: pieces.map Prod.fst).map c.pieceId := by
  rw [Card.sliceIds_eq, h.available, h.allocated, List.map_map, List.map_cons, List.map_cons,
    List.map_map]
  rfl

theorem Sound.numbers (h : c.Sound catalog) : ∃ ks : List UInt32,
    c.sliceIds = ks.map c.pieceId ∧ ks.Nodup ∧ 0 ∈ ks ∧ ∀ k ∈ ks, k < c.nextSliceIndex := by
  rcases h.shape with hf | ht | ⟨pieces, hc⟩
  · refine ⟨[0], ?_, List.pairwise_singleton .., List.mem_cons_self, ?_⟩
    · rw [sliceIds_eq, hf.available, hf.allocated]
      exact congrArg (fun id => [id]) h.deviceId_eq
    · intro k hk
      rw [List.mem_singleton.1 hk, hf.counter]
      exact UInt32.lt_iff_toNat_lt.2 Nat.zero_lt_one
  · refine ⟨[0], ?_, List.pairwise_singleton .., List.mem_cons_self, ?_⟩
    · rw [sliceIds_eq, ht.available, ht.allocated]
      exact congrArg (fun id => [id]) h.deviceId_eq
    · intro k hk
      rw [List.mem_singleton.1 hk, ht.counter]
      exact UInt32.lt_iff_toNat_lt.2 Nat.zero_lt_one
  · refine ⟨_, hc.sliceIds_eq, ?_, ?_, ?_⟩
    · refine List.nodup_cons.2 ⟨fun hmem => ?_, ?_⟩
      · obtain ⟨p, hp, he⟩ := List.mem_map.1 hmem
        exact UInt32.lt_irrefl _ (he ▸ hc.numbered p hp)
      · refine List.pairwise_map.2 (hc.rising.imp fun hlt he => ?_)
        exact UInt32.lt_irrefl _ (he ▸ hlt)
    · obtain ⟨t, rest, rfl⟩ := hc.first
      exact List.mem_cons_of_mem _ List.mem_cons_self
    · intro k hk
      rcases List.mem_cons.1 hk with rfl | hk
      · exact word_pred_lt hc.counter
      · obtain ⟨p, hp, rfl⟩ := List.mem_map.1 hk
        exact UInt32.lt_trans (hc.numbered p hp) (word_pred_lt hc.counter)

theorem Sound.sliceIds_nodup (h : c.Sound catalog) : c.sliceIds.Nodup := by
  obtain ⟨ks, hks, hnd, _⟩ := h.numbers
  rw [hks]
  exact List.pairwise_map.2 (hnd.imp fun hne he => hne (pieceId_injective he))

theorem Sound.mem_sliceIds {id : String} (h : c.Sound catalog) (hid : id ∈ c.sliceIds) :
    ∃ k, k < c.nextSliceIndex ∧ id = c.pieceId k := by
  obtain ⟨ks, hks, _, _, hlt⟩ := h.numbers
  obtain ⟨k, hk, rfl⟩ := List.mem_map.1 (hks ▸ hid)
  exact ⟨k, hlt k hk, rfl⟩

theorem Sound.deviceId_mem_sliceIds (h : c.Sound catalog) : c.deviceId ∈ c.sliceIds := by
  obtain ⟨ks, hks, _, h0, _⟩ := h.numbers
  rw [hks, h.deviceId_eq]
  exact List.mem_map_of_mem h0

end Names

end Card

end SliceAgent
