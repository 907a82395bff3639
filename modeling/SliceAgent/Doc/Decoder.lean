import SliceAgent.Doc.Error
import SliceAgent.Json.Canonical

/-!
Decoders of single values: texts, numbers, lists, dictionaries, and values taken as they are.
-/
namespace SliceAgent

/-- Reads a value out of a document. The dialect matters to few types. -/
abbrev Decoder (α : Type) := Dialect → Doc → Decoded α

namespace Decoder

def string : Decoder String := fun _ d =>
  match d with
  | .str s => .ok s
  | d => .error (d.mismatch "a string")

def path : Decoder String := fun _ d =>
  match d with
  | .str s => .ok s
  | d => .error (d.mismatch "path string")

def bool : Decoder Bool := fun _ d =>
  match d with
  | .bool b => .ok b
  | d => .error (d.mismatch "a boolean")

def integer (low high : Int) (wanted : String) : Decoder Int := fun _ d =>
  match d with
  | .int i => if low ≤ i ∧ i ≤ high then .ok i else .error (.outOfRange i wanted)
  | d => .error (d.mismatch wanted)

def uint32 : Decoder UInt32 := fun dialect d =>
  UInt32.ofInt <$> integer 0 (UInt32.size - 1) "u32" dialect d

def uint64 : Decoder UInt64 := fun dialect d =>
  UInt64.ofInt <$> integer 0 (UInt64.size - 1) "u64" dialect d

def int32 : Decoder Int32 := fun dialect d =>
  Int32.ofInt <$> integer Int32.minValue.toInt Int32.maxValue.toInt "i32" dialect d

/-- A value that may be absent, written as null. -/
def optional {α : Type} (dec : Decoder α) : Decoder (Option α) := fun dialect d =>
  match d with
  | .null => .ok none
  | d => some <$> dec dialect d

def list {α : Type} (dec : Decoder α) : Decoder (List α) := fun dialect d =>
  match d with
  | .arr items => items.mapM (dec dialect)
  | d => .error (d.mismatch "a sequence")

/-- An object's members as a dictionary; of equal keys the last wins. -/
def dict {α : Type} (dec : Decoder α) : Decoder (Dict α) := fun dialect d =>
  match d with
  | .obj members =>
    members.foldlM (fun entries (k, v) => do
      let k ← string dialect k
      let v ← dec dialect v
      pure (entries.insert k v)) Dict.empty
  | d => .error (d.mismatch "a map")

/-- One of several names, which may also stand as the only key of an object without content. -/
def variant {α : Type} (cases : List (String × α)) : Decoder α := fun dialect d =>
  match d with
  | .str s => pick s
  | .obj [(.str s, content)] => do
    let a ← pick s
    match dialect, content with
    | .json, .null => .ok a
    | .toml, .arr [] => .ok a
    | .toml, .obj [] => .ok a
    | _, _ => .error (.variantContent content)
  | .obj members => .error (.variantKeys members.length)
  | d =>
    match d.found? with
    | some f => .error (.notAVariant f)
    | none => .error .malformed
where
  pick (s : String) : Decoded α :=
    match cases.lookup s with
    | some a => .ok a
    | none => .error (.unknownVariant s (cases.map (·.1)))

end Decoder

namespace Doc

mutual

/-- The value of a document, if every part of it has one; the last of equal keys wins. -/
def value? : Doc → Option Json
  | null => some .null
  | bool b => some (.bool b)
  | int i => some (.int i)
  | float x => some (.float x)
  | str s => some (.str s)
  | moment => none
  | arr items => do
    let items ← valuesOf items
    pure (.arr items)
  | obj members => do
    let members ← membersOf [] members
    pure (.obj members)
  | unreadable => none
  | broken => none

def valuesOf : List Doc → Option (List Json)
  | [] => some []
  | d :: ds => do
    let j ← value? d
    let js ← valuesOf ds
    pure (j :: js)

def membersOf (sorted : List (String × Json)) : List (Doc × Doc) → Option (List (String × Json))
  | [] => some sorted
  | (k, d) :: ms =>
    match k with
    | .str k => do
      let j ← value? d
      membersOf (putEntry k j sorted) ms
    | _ => none

end

mutual

theorem value?_ofJson : ∀ j : Json, (ofJson j).value? = some j.canonical
  | .null | .bool _ | .int _ | .float _ | .str _ => rfl
  | .arr items => by rw [ofJson, value?, valuesOf_ofItems items]; rfl
  | .obj members => by rw [ofJson, value?, membersOf_ofMembers [] members]; rfl

theorem valuesOf_ofItems : ∀ js : List Json, valuesOf (ofItems js) = some (Json.canonicalItems js)
  | [] => rfl
  | j :: js => by rw [ofItems, valuesOf, value?_ofJson j, valuesOf_ofItems js]; rfl

theorem membersOf_ofMembers : ∀ (sorted : List (String × Json)) (ms : List (String × Json)),
    membersOf sorted (ofMembers ms) = some (Json.canonicalMembers sorted ms)
  | _, [] => rfl
  | sorted, (k, j) :: ms => by
    rw [ofMembers, membersOf, value?_ofJson j]
    exact membersOf_ofMembers (putEntry k j.canonical sorted) ms

end

end Doc

namespace Decoder

/-- A value taken as it is, in canonical form. -/
def value : Decoder CanonicalJson := fun _ d =>
  match d.value? with
  | some j => .ok (.ofJson j)
  | none => .error .malformed

@[simp] theorem value_ofJson (dialect : Dialect) (c : CanonicalJson) :
    value dialect (Doc.ofJson c.json) = .ok c := by
  rw [value, Doc.value?_ofJson, c.canonical]
  exact congrArg Except.ok c.ofJson_json

/-- Passes over a document that is not asked for; it need only be complete. -/
def skip (d : Doc) : Decoded Unit := if d.isComplete then .ok () else .error .malformed

end Decoder

end SliceAgent
