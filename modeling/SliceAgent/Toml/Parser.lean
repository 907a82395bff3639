import SliceAgent.Toml.Number
import SliceAgent.Toml.Quoted
import SliceAgent.Toml.Table

/-!
Reading TOML text. A document is a sequence of statements, which are taken one after another; a text
with a statement that cannot be taken is no document.
-/
namespace SliceAgent.Toml

/-- Values nest, and keys are dotted, less than this deep. -/
def depthLimit : Nat := 80

def isBareKey (c : Char) : Bool := c.isAlphanum || c == '-' || c == '_'

def keyAhead : List Char → Option (String × List Char)
  | '"' :: cs => (basicAhead cs).map fun (s, rest) => (String.ofList s, rest)
  | '\'' :: cs => (literalAhead cs).map fun (s, rest) => (String.ofList s, rest)
  | cs =>
    let key := cs.takeWhile isBareKey
    if key.isEmpty then none else some (String.ofList key, cs.dropWhile isBareKey)

def keysAhead : Nat → List Char → Option (List String × List Char)
  | 0, _ => none
  | fuel + 1, cs => do
    let (key, rest) ← keyAhead (skipBlank cs)
    match skipBlank rest with
    | '.' :: rest => do
      let (keys, rest) ← keysAhead fuel rest
      pure (key :: keys, rest)
    | rest => pure ([key], rest)

/-- A dotted key, its last part by itself. -/
def pathAhead (cs : List Char) : Option (List String × String × List Char) := do
  let (keys, rest) ← keysAhead (depthLimit - 1) cs
  let key ← keys.getLast?
  pure (keys.dropLast, key, rest)

mutual

def valueAhead (fuel depth : Nat) (cs : List Char) : Option (Doc × List Char) :=
  match fuel with
  | 0 => none
  | fuel + 1 =>
    match cs with
    | '[' :: cs =>
      if depthLimit ≤ depth + 1 then none
      else (itemsAhead fuel (depth + 1) cs).map fun (items, rest) => (.arr items, rest)
    | '\x7b' :: cs =>
      if depthLimit ≤ depth + 1 then none
      else
        match skipBlank cs with
        | '\x7d' :: rest => some (.obj [], rest)
        | cs => (pairsAhead fuel (depth + 1) .empty cs).map fun (t, rest) => (t.doc, rest)
    | 't' :: 'r' :: 'u' :: 'e' :: rest => some (.bool true, rest)
    | 'f' :: 'a' :: 'l' :: 's' :: 'e' :: rest => some (.bool false, rest)
    | c :: rest =>
      if c == '"' || c == '\'' then
        (quotedAhead (c :: rest)).map fun (s, rest) => (.str (String.ofList s), rest)
      else numberAhead (c :: rest)
    | [] => none

/-- The items of a list up to and with its closing bracket; a comma may follow the last. -/
def itemsAhead (fuel depth : Nat) (cs : List Char) : Option (List Doc × List Char) :=
  match fuel with
  | 0 => none
  | fuel + 1 =>
    match skipSpace cs.length cs with
    | ']' :: rest => some ([], rest)
    | cs => do
      let (d, rest) ← valueAhead fuel depth cs
      match skipSpace rest.length rest with
      | ']' :: rest => some ([d], rest)
      | ',' :: rest => do
        let (ds, rest) ← itemsAhead fuel depth rest
        pure (d :: ds, rest)
      | _ => none

def pairsAhead (fuel depth : Nat) (t : Table) (cs : List Char) : Option (Table × List Char) :=
  match fuel with
  | 0 => none
  | fuel + 1 => do
    let (path, key, rest) ← pathAhead cs
    let rest ← charAhead '=' rest
    let (d, rest) ← valueAhead fuel depth (skipBlank rest)
    let t ← t.assign path key d
    match skipBlank rest with
    | '\x7d' :: rest => some (t, rest)
    | ',' :: rest => pairsAhead fuel depth t rest
    | _ => none

end

def assignmentAhead (cs : List Char) : Option (Statement × List Char) := do
  let (path, key, rest) ← pathAhead cs
  let rest ← charAhead '=' rest
  let (d, rest) ← valueAhead (2 * rest.length + 2) 0 (skipBlank rest)
  pure (.assign path key d, rest)

def headerAhead (cs : List Char) : Option (Statement × List Char) :=
  match cs with
  | '[' :: '[' :: cs => do
    let (path, key, rest) ← pathAhead cs
    let rest ← charAhead ']' rest
    let rest ← charAhead ']' rest
    pure (.append path key, rest)
  | '[' :: cs => do
    let (path, key, rest) ← pathAhead cs
    let rest ← charAhead ']' rest
    pure (.define path key, rest)
  | _ => none

def statementAhead (cs : List Char) : Option (Statement × List Char) :=
  match cs with
  | '[' :: _ => headerAhead cs
  | _ => assignmentAhead cs

def takeLines : Nat → Draft → List Char → Option Draft
  | 0, _, _ => none
  | fuel + 1, draft, cs =>
    match skipBlank cs with
    | [] => some draft
    | cs =>
      match lineRest? cs with
      | some rest => takeLines fuel draft rest
      | none => do
        let (s, rest) ← statementAhead cs
        let rest ← lineRest? rest
        let draft ← draft.take s
        takeLines fuel draft rest

/-- The document of a text; a byte order mark may stand in front. -/
def parse? (text : String) : Option Doc :=
  let cs := match text.toList with
    | '\ufeff' :: cs => cs
    | cs => cs
  (takeLines (cs.length + 1) .empty cs).map fun draft => draft.root.doc

end SliceAgent.Toml
