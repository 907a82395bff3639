import SliceAgent.Card.Eligibility
import SliceAgent.Template.BestFit

/-!
The engine that divides the cards of a node. Allocation takes a whole card, or carves the addressed
slice with the best-fitting template and leaves a remainder; release puts what is free on the card
together again. Both report how the set of slices changed.
-/
namespace SliceAgent

/-- A slice as it is made known, with the largest shape that it can still be carved into. -/
structure AdvertisedSlice where
  sliceId : String
  logicalIndex : UInt32
  model : String
  kind : SliceKind
  capacity : Capacity
deriving DecidableEq, Repr

namespace AdvertisedSlice

def ofCard (c : Card) (s : Slice) : AdvertisedSlice :=
  ⟨s.id, c.logicalIndex, c.model, s.kind, c.maxSupported⟩

def encode (s : AdvertisedSlice) : Json :=
  .obj [("slice_id", .str s.sliceId), ("logical_index", .word s.logicalIndex), ("model", .str s.model),
    ("kind", s.kind.encode), ("capacity", s.capacity.encode)]

def fields : Fields AdvertisedSlice :=
  AdvertisedSlice.mk <$> .required "slice_id" Decoder.string
    <*> .required "logical_index" Decoder.uint32 <*> .required "model" Decoder.string
    <*> .required "kind" SliceKind.decode <*> .required "capacity" Capacity.decode

def decode : Decoder AdvertisedSlice := Decoder.record "AdvertisedSlice" fields

end AdvertisedSlice

/-- The slices that came into being and the names that went. -/
structure SliceChange where
  advertised : List AdvertisedSlice
  retired : List String
deriving DecidableEq, Repr

namespace SliceChange

def none : SliceChange := ⟨[], []⟩

def isEmpty (d : SliceChange) : Bool := d.advertised.isEmpty && d.retired.isEmpty

end SliceChange

inductive EngineError where
  | unknownCard (id : String)
  | unknownSlice (id : String)
  | alreadyAllocated (id : String)
  | sliceUnavailable (id : String)
  | resourceExhausted (aiCore memoryGb : UInt32)
deriving DecidableEq, Repr

def EngineError.message : EngineError → String
  | unknownCard id => "not found: physical NPU " ++ id
  | unknownSlice id => "not found: slice " ++ id
  | alreadyAllocated id => "slice " ++ id ++ " has already been allocated"
  | sliceUnavailable id => "no available slice " ++ id
  | resourceExhausted aiCore memoryGb =>
    "no template satisfies AICORE>=" ++ Text.decimal aiCore.toNat ++ ", Memory>="
      ++ Text.decimal memoryGb.toNat ++ "GB"

/-- A granted slice; a whole card is granted with no template. -/
structure Allocation where
  slice : Slice
  template : Option Template
  change : SliceChange
deriving DecidableEq, Repr

namespace Card

def move (c : Card) (place : Nat) (s : Slice) : Card :=
  { c with available := c.available.eraseIdx place, allocated := c.allocated ++ [s] }

def refresh (policy : Eligibility) (catalog : Catalog) (c : Card) : Card :=
  { c with supported := policy.eligible catalog c }

/-- An allocation changes the offer only where the policy looks at what is left. -/
def refreshAllocated (policy : Eligibility) (catalog : Catalog) (c : Card) : Card :=
  if policy = .capacity then c.refresh policy catalog else c

def takeWhole (policy : Eligibility) (catalog : Catalog) (c : Card) :
    Except EngineError (Allocation × Card) :=
  match c.findAvailable? c.deviceId with
  | none => .error (.alreadyAllocated c.deviceId)
  | some place =>
    match c.available[place]? with
    | none => .error (.alreadyAllocated c.deviceId)
    | some found =>
      let s := { found with allocated := true }
      .ok (⟨s, none, .none⟩, (c.move place s).refreshAllocated policy catalog)

/-- Carves a free slice with a template and puts a remainder in its place. -/
def carve (policy : Eligibility) (catalog : Catalog) (c : Card) (id : String) (t : Template) :
    Except EngineError (Allocation × Card) :=
  match c.findAvailable? id with
  | none => .error (.sliceUnavailable id)
  | some place =>
    match c.available[place]? with
    | none => .error (.sliceUnavailable id)
    | some found =>
      let s := { found with templateName := t.name, allocated := true }
      let left := c.remainder
      let moved := (c.move place s).advance
      let carved := { moved with available := moved.available ++ [left] }.refreshAllocated policy catalog
      .ok (⟨s, some t, ⟨[.ofCard carved left], []⟩⟩, carved)

/-- Grants a slice of the card with at least the given amounts; nothing asked for is the whole card. -/
def allocate (policy : Eligibility) (catalog : Catalog) (c : Card) (id : String)
    (aiCore memoryGb : UInt32) : Except EngineError (Allocation × Card) :=
  if aiCore = 0 ∧ memoryGb = 0 then c.takeWhole policy catalog
  else
    match c.supported.bestFit aiCore memoryGb with
    | none => .error (.resourceExhausted aiCore memoryGb)
    | some t => c.carve policy catalog id t

def retired (before after : Card) : List String :=
  (Dict.ofList (before.sliceIds.map fun id => (id, ()))).keys.filter fun id =>
    !after.sliceIds.contains id

/-- Takes back the slice at a place of the allocated pool. The card is whole again when nothing else
is allocated, or when the slice was the whole card; otherwise one new remainder holds what is free. -/
def release (policy : Eligibility) (catalog : Catalog) (c : Card) (place : Nat) : SliceChange × Card :=
  let rest := { c with allocated := c.allocated.eraseIdx place }
  let whole := (c.allocated[place]?.map (·.kind)) == some .wholeCard
  if whole || rest.allocated.isEmpty then
    let after := rest.reset.refresh policy catalog
    (⟨[], c.retired after⟩, after)
  else
    let left := rest.remainder
    let after := { rest.advance with available := [left] }.refresh policy catalog
    (⟨[.ofCard after left], c.retired after⟩, after)

end Card

structure Engine where
  cards : Dict Card
  catalog : Catalog
  eligibility : Eligibility
deriving DecidableEq, Repr

namespace Engine

def new (catalog : Catalog) (eligibility : Eligibility) : Engine := ⟨Dict.empty, catalog, eligibility⟩

instance : Inhabited Engine := ⟨new default default⟩

/-- Enters a card as one free slice. A card that is already known stays as it is. -/
def register (e : Engine) (deviceId : String) (logicalIndex : UInt32) (model : String)
    (capacity : Capacity) : Engine :=
  if e.cards.contains deviceId then e
  else { e with cards := e.cards.insert deviceId (Card.new deviceId logicalIndex model capacity e.catalog) }

/-- The card of a name, or the first that has a free slice of the name, with its own name. -/
def locate? (e : Engine) (id : String) : Option (String × Card) :=
  match e.cards.find? id with
  | some c => some (id, c)
  | none => e.cards.entries.find? fun entry => (entry.2.findAvailable? id).isSome

def allocate (e : Engine) (id : String) (aiCore memoryGb : UInt32) :
    Except EngineError (Allocation × Engine) :=
  match e.locate? id with
  | none => .error (.unknownCard id)
  | some (key, card) =>
    match card.allocate e.eligibility e.catalog id aiCore memoryGb with
    | .error err => .error err
    | .ok (granted, card) => .ok (granted, { e with cards := e.cards.insert key card })

/-- The first card that has an allocated slice of the name, and the place of the slice. -/
def holder? (e : Engine) (id : String) : Option (String × Card × Nat) :=
  e.cards.entries.findSome? fun entry => (entry.2.findAllocated? id).map fun place =>
    (entry.1, entry.2, place)

def release (e : Engine) (id : String) : Except EngineError (SliceChange × Engine) :=
  match e.holder? id with
  | none => .error (.unknownSlice id)
  | some (key, card, place) =>
    let (change, card) := card.release e.eligibility e.catalog place
    .ok (change, { e with cards := e.cards.insert key card })

def allocatedSlices (e : Engine) : List Slice := e.cards.values.flatMap (·.allocated)

/-- The name of the template that an allocated slice was carved with, empty for a whole card. -/
def templateOf (e : Engine) (id : String) : Except EngineError String :=
  match e.allocatedSlices.find? (·.id == id) with
  | some s => .ok s.templateName
  | none => .error (.unknownSlice id)

/-- The names of all slices, as the keys of a dictionary. -/
def knownIds (e : Engine) : Dict Unit :=
  Dict.ofList (e.cards.values.flatMap fun c => c.sliceIds.map fun id => (id, ()))

def devices (e : Engine) : List Card := e.cards.values

def device? (e : Engine) (id : String) : Option Card := e.cards.find? id

end Engine

end SliceAgent
