import SliceAgent.Doc.Basic

/-!
Tables of a TOML document. A table may be opened once by a header, and is then complete except for the
tables below it; one that dotted keys have made can only be added to by dotted keys.
-/
namespace SliceAgent.Toml

inductive Origin where
  /-- By a header of its own, or as the whole document. -/
  | defined
  /-- By the header of a table below it. -/
  | implied
  | dotted
deriving DecidableEq, Repr

inductive Entry where
  | value (d : Doc)
  | table (origin : Origin) (members : List (String × Entry))
  /-- Tables opened one after another by headers of the same name. -/
  | tables (items : List (List (String × Entry)))
deriving Inhabited

structure Table where
  origin : Origin
  members : List (String × Entry)

namespace Entry

mutual

def doc : Entry → Doc
  | value d => d
  | table _ members => .obj (docMembers members)
  | tables items => .arr (docItems items)

def docMembers : List (String × Entry) → List (Doc × Doc)
  | [] => []
  | (k, e) :: ms => (.str k, doc e) :: docMembers ms

def docItems : List (List (String × Entry)) → List Doc
  | [] => []
  | ms :: items => .obj (docMembers ms) :: docItems items

end

def replaceIn (k : String) (e : Entry) (ms : List (String × Entry)) : List (String × Entry) :=
  ms.map fun m => if m.1 = k then (k, e) else m

end Entry

namespace Table

def empty : Table := ⟨.defined, []⟩

def entry (t : Table) : Entry := .table t.origin t.members

def doc (t : Table) : Doc := t.entry.doc

def find? (t : Table) (k : String) : Option Entry := t.members.lookup k

def add (t : Table) (k : String) (e : Entry) : Table := { t with members := t.members ++ [(k, e)] }

def replace (t : Table) (k : String) (e : Entry) : Table :=
  { t with members := Entry.replaceIn k e t.members }

/-- Changes the table at the end of a path. Missing tables are made on the way; of several tables of one
name the last is meant. Dotted keys do not lead through tables that a header has opened. -/
def alter (made : Origin) (change : Table → Option Table) : List String → Table → Option Table
  | [], t => change t
  | k :: path, t =>
    match t.find? k with
    | none => do
      let inner ← alter made change path ⟨made, []⟩
      pure (t.add k inner.entry)
    | some (.table origin members) =>
      if made = .dotted ∧ origin = .defined then none
      else do
        let inner ← alter made change path ⟨origin, members⟩
        pure (t.replace k inner.entry)
    | some (.tables items) =>
      match items.getLast? with
      | none => none
      | some members => do
        let inner ← alter made change path ⟨.defined, members⟩
        pure (t.replace k (.tables (items.dropLast ++ [inner.members])))
    | some (.value _) => none

/-- Enters a value under a new key. A table made by dotted keys takes only dotted keys, and any other
only plain ones. -/
def enter (dotted : Bool) (k : String) (d : Doc) (t : Table) : Option Table :=
  if decide (t.origin = .dotted) != dotted then none
  else if (t.find? k).isSome then none
  else some (t.add k (.value d))

def assign (path : List String) (k : String) (d : Doc) (t : Table) : Option Table :=
  alter .dotted (enter (!path.isEmpty) k d) path t

/-- Opens the table of a header, which then stands after those that were there before. -/
def define (k : String) (t : Table) : Option Table :=
  match t.find? k with
  | none => some (t.add k (.table .defined []))
  | some (.table .implied members) =>
    some (add { t with members := t.members.filter (·.1 ≠ k) } k (.table .defined members))
  | some _ => none

def append (k : String) (t : Table) : Option Table :=
  match t.find? k with
  | none => some (t.add k (.tables [[]]))
  | some (.tables items) => some (t.replace k (.tables (items ++ [[]])))
  | some _ => none

end Table

/-- A line of a document that says something. The last key of a path stands by itself. -/
inductive Statement where
  | assign (path : List String) (key : String) (value : Doc)
  | define (path : List String) (key : String)
  | append (path : List String) (key : String)

/-- A document under construction, and the path of the table that was opened last. -/
structure Draft where
  root : Table
  here : List String

def Draft.empty : Draft := ⟨.empty, []⟩

def Draft.take (draft : Draft) : Statement → Option Draft
  | .assign path key value => do
    let root ← draft.root.alter .implied (Table.assign path key value) draft.here
    pure { draft with root }
  | .define path key => do
    let root ← draft.root.alter .implied (Table.define key) path
    pure ⟨root, path ++ [key]⟩
  | .append path key => do
    let root ← draft.root.alter .implied (Table.append key) path
    pure ⟨root, path ++ [key]⟩

end SliceAgent.Toml
