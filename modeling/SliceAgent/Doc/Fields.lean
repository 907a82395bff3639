import SliceAgent.Doc.Decoder

/-!
Records. A record is written as an object, whose members are taken in written order and may include
keys that name no field, or as a list of the fields in their own order. The first thing wrong is the
error; only then do missing fields count, in the order of the fields.
-/
namespace SliceAgent

structure Fields (α : Type) where
  /-- The fields met so far. -/
  Draft : Type
  blank : Draft
  /-- How a member is entered; `none` when its key names no field. -/
  enter? : String → Option (Dialect → Draft → Doc → Decoded Draft)
  /-- The record, with absent fields filled in where they may be. -/
  build : Draft → Decoded α
  size : Nat
  /-- Reads the fields off the front of a list, of which `position` is the place of the first. -/
  fromItems : (short : Nat → DecodeError) → Dialect → (position : Nat) → List Doc →
    Decoded (α × List Doc)

namespace Fields

def pure {α : Type} (a : α) : Fields α where
  Draft := Unit
  blank := ()
  enter? _ := none
  build _ := .ok a
  size := 0
  fromItems _ _ _ items := .ok (a, items)

/-- One field; `absent` stands for it when it is missing, if it may be. -/
def field {α : Type} (name : String) (dec : Decoder α) (absent : Option α) : Fields α where
  Draft := Option α
  blank := none
  enter? k :=
    if k = name then some fun dialect draft d =>
      match draft with
      | some _ => .error (.duplicateField name)
      | none => some <$> dec dialect d
    else none
  build
    | some a => .ok a
    | none =>
      match absent with
      | some a => .ok a
      | none => .error (.missingField name)
  size := 1
  fromItems short dialect position
    | d :: items => do
      let a ← dec dialect d
      .ok (a, items)
    | [] =>
      match absent with
      | some a => .ok (a, [])
      | none => .error (short position)

def seq {α β : Type} (f : Fields (α → β)) (x : Fields α) : Fields β where
  Draft := f.Draft × x.Draft
  blank := (f.blank, x.blank)
  enter? k :=
    match f.enter? k with
    | some enter => some fun dialect draft d => do
      let left ← enter dialect draft.1 d
      .ok (left, draft.2)
    | none =>
      match x.enter? k with
      | some enter => some fun dialect draft d => do
        let right ← enter dialect draft.2 d
        .ok (draft.1, right)
      | none => none
  build draft := do
    let g ← f.build draft.1
    let a ← x.build draft.2
    .ok (g a)
  size := f.size + x.size
  fromItems short dialect position items := do
    let (g, items) ← f.fromItems short dialect position items
    let (a, items) ← x.fromItems short dialect (position + f.size) items
    .ok (g a, items)

instance : Pure Fields := ⟨Fields.pure⟩
instance : Seq Fields := ⟨fun f x => Fields.seq f (x ())⟩
instance : Functor Fields := { map := fun g x => Fields.seq (Fields.pure g) x }

def required {α : Type} (name : String) (dec : Decoder α) : Fields α := field name dec none

def defaulted {α : Type} (name : String) (dec : Decoder α) (absent : α) : Fields α :=
  field name dec (some absent)

def optional {α : Type} (name : String) (dec : Decoder α) : Fields (Option α) :=
  field name dec.optional (some none)

def list {α : Type} (name : String) (dec : Decoder α) : Fields (List α) :=
  field name dec.list (some [])

def visit {α : Type} (fields : Fields α) (dialect : Dialect) (draft : fields.Draft) (m : Doc × Doc) :
    Decoded fields.Draft :=
  match m.1 with
  | .str k =>
    match fields.enter? k with
    | some enter => enter dialect draft m.2
    | none => do
      Decoder.skip m.2
      .ok draft
  | _ => .error .malformed

def fromMembers {α : Type} (fields : Fields α) (dialect : Dialect) (members : List (Doc × Doc)) :
    Decoded α := do
  let draft ← members.foldlM (fields.visit dialect) fields.blank
  fields.build draft

end Fields

def Decoder.record {α : Type} (name : String) (fields : Fields α) : Decoder α := fun dialect d =>
  match d with
  | .obj members => fields.fromMembers dialect members
  | .moment => fields.fromMembers dialect []
  | .arr items => do
    let (a, rest) ← fields.fromItems (.tooShort · name fields.size) dialect 0 items
    if rest.isEmpty ∨ dialect = .toml then .ok a else .error (.tooLong items.length)
  | d => .error (d.mismatch ("struct " ++ name))

end SliceAgent
