import SliceAgent.Engine.Basic

/-!
The devices that a node makes known, with the attributes that selectors look at. The inventory follows
the engine: what it divides is announced anew, and what it joins again is withdrawn.
-/
namespace SliceAgent

inductive Attribute where
  | int (i : Int64)
  | text (s : String)
deriving DecidableEq, Repr

structure AllocatableDevice where
  name : String
  attributes : Dict Attribute
deriving DecidableEq, Repr

namespace Attribute

def encode : Attribute → Json
  | int i => .int i.toInt
  | text s => .str s

def word (n : UInt32) : Attribute := int (Int64.ofNat n.toNat)

/-- A whole number of 64 bits with a sign, or a text. -/
def decode : Decoder Attribute := fun _ d =>
  match d with
  | .int i =>
    if Int64.minValue.toInt ≤ i ∧ i ≤ Int64.maxValue.toInt then .ok (int (Int64.ofInt i))
    else .error (.noForm "AttributeValue")
  | .str s => .ok (text s)
  | d => .error (if d.value?.isSome then .noForm "AttributeValue" else .malformed)

end Attribute

namespace AllocatableDevice

def typeName : SliceKind → String
  | .wholeCard => "NPU"
  | .partition => "vNPU"

def ofSlice (nodeName : String) (s : AdvertisedSlice) : AllocatableDevice :=
  ⟨s.sliceId, Dict.ofList [("index", .word s.logicalIndex),
    ("uuid", .text (nodeName ++ "-" ++ Text.decimal s.logicalIndex.toNat)), ("model", .text s.model),
    ("type", .text (typeName s.kind)), ("aicore", .word s.capacity.aiCore),
    ("memory", .word s.capacity.memoryGb)]⟩

def find? (d : AllocatableDevice) (name : String) : Option Attribute := d.attributes.find? name

def encode (d : AllocatableDevice) : Json :=
  .obj [("name", .str d.name), ("attributes", .ofDict Attribute.encode d.attributes)]

def fields : Fields AllocatableDevice :=
  AllocatableDevice.mk <$> .required "name" Decoder.string
    <*> .required "attributes" (Decoder.dict Attribute.decode)

def decode : Decoder AllocatableDevice := Decoder.record "AllocatableDevice" fields

end AllocatableDevice

structure Inventory where
  nodeName : String
  devices : Dict AllocatableDevice
deriving DecidableEq, Repr

namespace Inventory

def new (nodeName : String) : Inventory := ⟨nodeName, Dict.empty⟩

instance : Inhabited Inventory := ⟨new ""⟩

def contains (i : Inventory) (name : String) : Bool := i.devices.contains name

def find? (i : Inventory) (name : String) : Option AllocatableDevice := i.devices.find? name

def names (i : Inventory) : List String := i.devices.keys

def toList (i : Inventory) : List AllocatableDevice := i.devices.values

/-- Adds a device; one of the same name stays as it is. -/
def insert (i : Inventory) (d : AllocatableDevice) : Inventory :=
  if i.contains d.name then i else { i with devices := i.devices.insert d.name d }

def insertSlice (i : Inventory) (s : AdvertisedSlice) : Inventory :=
  i.insert (.ofSlice i.nodeName s)

def erase (i : Inventory) (name : String) : Inventory := { i with devices := i.devices.erase name }

/-- Follows a change of the engine: first the names that went, then the slices that came. -/
def apply (i : Inventory) (change : SliceChange) : Inventory :=
  change.advertised.foldl insertSlice (change.retired.foldl erase i)

def stale (i : Inventory) (known : Dict Unit) : List String :=
  i.names.filter fun name => !known.contains name

def reconcile (i : Inventory) (known : Dict Unit) : Inventory :=
  { i with devices := i.devices.filter fun name _ => known.contains name }

end Inventory

end SliceAgent
