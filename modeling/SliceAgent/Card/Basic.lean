import SliceAgent.SliceId
import SliceAgent.Template.Basic

/-!
Cards and the slices they are divided into. A card starts as one free slice, the whole card. What is
left of it after carving is again one free slice, the remainder.
-/
namespace SliceAgent

inductive SliceKind where
  | wholeCard
  | partition
deriving DecidableEq, Repr

/-- A unit that can be granted. `templateName` is empty while the slice was carved with none. -/
structure Slice where
  id : String
  templateName : String
  allocated : Bool
  kind : SliceKind
deriving DecidableEq, Repr

structure Capacity where
  aiCore : UInt32
  memoryGb : UInt32
deriving DecidableEq, Repr

namespace SliceKind

def name : SliceKind → String
  | wholeCard => "WholeCard"
  | partition => "Partition"

def encode (k : SliceKind) : Json := .str k.name

def decode : Decoder SliceKind :=
  Decoder.variant [("WholeCard", wholeCard), ("Partition", partition)]

end SliceKind

namespace Slice

def free (id : String) (kind : SliceKind) : Slice := ⟨id, "", false, kind⟩

def encode (s : Slice) : Json :=
  .obj [("id", .str s.id), ("template_name", .str s.templateName), ("allocated", .bool s.allocated),
    ("kind", s.kind.encode)]

def fields : Fields Slice :=
  Slice.mk <$> .required "id" Decoder.string <*> .required "template_name" Decoder.string
    <*> .required "allocated" Decoder.bool <*> .required "kind" SliceKind.decode

def decode : Decoder Slice := Decoder.record "Slice" fields

end Slice

namespace Capacity

def none : Capacity := ⟨0, 0⟩

def less (c : Capacity) (aiCore memoryGb : UInt32) : Capacity :=
  ⟨if aiCore ≤ c.aiCore then c.aiCore - aiCore else 0,
    if memoryGb ≤ c.memoryGb then c.memoryGb - memoryGb else 0⟩

def join (c d : Capacity) : Capacity := ⟨max c.aiCore d.aiCore, max c.memoryGb d.memoryGb⟩

def encode (c : Capacity) : Json :=
  .obj [("ai_core", .word c.aiCore), ("memory_gb", .word c.memoryGb)]

def fields : Fields Capacity :=
  Capacity.mk <$> .required "ai_core" Decoder.uint32 <*> .required "memory_gb" Decoder.uint32

def decode : Decoder Capacity := Decoder.record "Capacity" fields

end Capacity

def Template.capacity (t : Template) : Capacity := ⟨t.aiCore, t.memoryGb⟩

structure Card where
  /-- The name of the card, and of the slice that is the whole card. -/
  deviceId : String
  logicalIndex : UInt32
  model : String
  capacity : Capacity
  available : List Slice
  allocated : List Slice
  /-- The templates that the card offers in its present state. -/
  supported : Catalog
  /-- The counter of the next remainder. -/
  nextSliceIndex : UInt32
deriving DecidableEq, Repr

namespace Card

def reset (c : Card) : Card :=
  { c with allocated := [], nextSliceIndex := 1, available := [Slice.free c.deviceId .wholeCard] }

def new (deviceId : String) (logicalIndex : UInt32) (model : String) (capacity : Capacity)
    (templates : Catalog) : Card :=
  reset ⟨deviceId, logicalIndex, model, capacity, [], [], templates, 1⟩

def remainder (c : Card) : Slice := Slice.free (SliceId.text ⟨c.logicalIndex, c.nextSliceIndex⟩) .partition

def advance (c : Card) : Card := { c with nextSliceIndex := c.nextSliceIndex + 1 }

def isWhole (c : Card) : Bool := c.allocated.isEmpty

def findAvailable? (c : Card) (id : String) : Option Nat :=
  c.available.findIdx? fun s => s.id == id && !s.allocated

def findAllocated? (c : Card) (id : String) : Option Nat :=
  c.allocated.findIdx? fun s => s.id == id

def sliceIds (c : Card) : List String := (c.available ++ c.allocated).map (·.id)

/-- The most that supported templates offer, each amount by itself. -/
def maxSupported (c : Card) : Capacity :=
  c.supported.toList.foldl (fun acc t => acc.join t.capacity) Capacity.none

/-- What the allocated slices leave of the card; a slice that no catalog template has shaped takes
all of it. -/
def remaining (c : Card) (catalog : Catalog) : Capacity :=
  go c.capacity c.allocated
where
  go (left : Capacity) : List Slice → Capacity
    | [] => left
    | s :: ss =>
      match catalog.find? s.templateName with
      | some t => go (left.less t.aiCore t.memoryGb) ss
      | none => Capacity.none

def encode (c : Card) : Json :=
  .obj [("device_id", .str c.deviceId), ("logical_index", .word c.logicalIndex),
    ("model", .str c.model), ("capacity", c.capacity.encode),
    ("available", .arr (c.available.map Slice.encode)),
    ("allocated", .arr (c.allocated.map Slice.encode)),
    ("supported_templates", c.supported.encode), ("next_slice_index", .word c.nextSliceIndex)]

def fields : Fields Card :=
  Card.mk <$> .required "device_id" Decoder.string <*> .required "logical_index" Decoder.uint32
    <*> .required "model" Decoder.string <*> .required "capacity" Capacity.decode
    <*> .required "available" (Decoder.list Slice.decode)
    <*> .required "allocated" (Decoder.list Slice.decode)
    <*> .required "supported_templates" Catalog.decode
    <*> .required "next_slice_index" Decoder.uint32

def decode : Decoder Card := Decoder.record "PhysicalNpu" fields

end Card

end SliceAgent
