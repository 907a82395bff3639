import SliceAgent.Doc.Fields

/-!
Templates, the shapes that cards may be carved into, and catalogs of them by name.
-/
namespace SliceAgent

/-- A named shape: a number of AI cores and an amount of memory in gigabytes. -/
structure Template where
  name : String
  aiCore : UInt32
  memoryGb : UInt32
deriving DecidableEq, Repr

namespace Template

def satisfies (t : Template) (aiCore memoryGb : UInt32) : Bool :=
  aiCore ≤ t.aiCore && memoryGb ≤ t.memoryGb

/-- What a template has beyond the requested amounts, which it satisfies. -/
def surplus (t : Template) (aiCore memoryGb : UInt32) : Nat :=
  (t.aiCore.toNat - aiCore.toNat) + (t.memoryGb.toNat - memoryGb.toNat)

def encode (t : Template) : Json :=
  .obj [("name", .str t.name), ("ai_core", .word t.aiCore), ("memory_gb", .word t.memoryGb)]

def fields : Fields Template :=
  Template.mk <$> .required "name" Decoder.string <*> .required "ai_core" Decoder.uint32
    <*> .required "memory_gb" Decoder.uint32

def decode : Decoder Template := Decoder.record "Template" fields

end Template

structure Catalog where
  templates : Dict Template
deriving DecidableEq, Repr

namespace Catalog

def empty : Catalog := ⟨Dict.empty⟩

instance : Inhabited Catalog := ⟨empty⟩

def insert (c : Catalog) (t : Template) : Catalog := ⟨c.templates.insert t.name t⟩

def ofList (ts : List Template) : Catalog := ts.foldl insert empty

def find? (c : Catalog) (name : String) : Option Template := c.templates.find? name

def contains (c : Catalog) (name : String) : Bool := c.templates.contains name

def toList (c : Catalog) : List Template := c.templates.values

def size (c : Catalog) : Nat := c.templates.size

def isEmpty (c : Catalog) : Bool := c.templates.isEmpty

def filter (c : Catalog) (keep : Template → Bool) : Catalog :=
  ⟨c.templates.filter fun _ t => keep t⟩

/-- The templates of a node whose vendor table cannot be read. -/
def standard : Catalog := ofList [⟨"vir01", 4, 8⟩, ⟨"vir02", 8, 12⟩, ⟨"vir04", 16, 16⟩]

def encode (c : Catalog) : Json := .obj [("templates", .ofDict Template.encode c.templates)]

def fields : Fields Catalog := Catalog.mk <$> .required "templates" (Decoder.dict Template.decode)

def decode : Decoder Catalog := Decoder.record "TemplateCatalog" fields

end Catalog

end SliceAgent
