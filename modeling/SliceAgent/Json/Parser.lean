import SliceAgent.Doc.Fields
import SliceAgent.Json.Number
import SliceAgent.Text.Bytes

/-!
Reading JSON text. The result is a document in written order that marks where the text breaks off,
so that a decoder meets the first fault of text or type in the order of the text.
-/
namespace SliceAgent.Json

/-- Containers nest at most this deep, less one. -/
def nestingLimit : Nat := 128

def skipBlank : Symbols → Symbols
  | some ' ' :: cs => skipBlank cs
  | some '\n' :: cs => skipBlank cs
  | some '\t' :: cs => skipBlank cs
  | some '\r' :: cs => skipBlank cs
  | cs => cs

/-- A part of a quoted text: a character, an escaped UTF-16 unit, or a byte that is no character. -/
inductive Piece where
  | char (c : Char)
  | unit (n : Nat)
  | gap

def unit? (a b c d : Option Char) : Option Nat := do
  let a ← Text.hexValue? (← a)
  let b ← Text.hexValue? (← b)
  let c ← Text.hexValue? (← c)
  let d ← Text.hexValue? (← d)
  pure (0x1000 * a + 0x100 * b + 0x10 * c + d)

def escape? : Char → Option Char
  | '"' => some '"'
  | '\\' => some '\\'
  | '/' => some '/'
  | 'b' => some '\x08'
  | 'f' => some '\x0c'
  | 'n' => some '\n'
  | 'r' => some '\r'
  | 't' => some '\t'
  | _ => none

/-- The parts of a quoted text up to its closing quote; `none` when it has none. -/
def pieces : Symbols → Option (List Piece × Symbols)
  | [] => none
  | some '"' :: cs => some ([], cs)
  | some '\\' :: some 'u' :: a :: b :: c :: d :: cs => do
    let n ← unit? a b c d
    let (ps, rest) ← pieces cs
    pure (.unit n :: ps, rest)
  | some '\\' :: some e :: cs => do
    let c ← escape? e
    let (ps, rest) ← pieces cs
    pure (.char c :: ps, rest)
  | some '\\' :: _ => none
  | some c :: cs =>
    if c.toNat < 0x20 then none
    else do
      let (ps, rest) ← pieces cs
      pure (.char c :: ps, rest)
  | none :: cs => do
    let (ps, rest) ← pieces cs
    pure (.gap :: ps, rest)

/-- Joins the parts; a half of a surrogate pair needs the other half. -/
def assemble : List Piece → Option (List Char)
  | [] => some []
  | .char c :: ps => (assemble ps).map (c :: ·)
  | .gap :: _ => none
  | .unit n :: ps =>
    if n < 0xD800 ∨ 0xDFFF < n then (assemble ps).map (Char.ofNat n :: ·)
    else
      match ps with
      | .unit m :: ps =>
        if n < 0xDC00 ∧ 0xDC00 ≤ m ∧ m ≤ 0xDFFF then
          (assemble ps).map (Char.ofNat (0x10000 + (n - 0xD800) * 0x400 + (m - 0xDC00)) :: ·)
        else none
      | _ => none

def stringAhead (cs : Symbols) : Doc × Option Symbols :=
  match pieces cs with
  | none => (.broken, none)
  | some (ps, rest) =>
    match assemble ps with
    | some s => (.str (String.ofList s), some rest)
    | none => (.unreadable, some rest)

def numberAhead (cs : Symbols) : Doc × Option Symbols :=
  match numeralAhead cs with
  | none => (.broken, none)
  | some (n, rest) => (n.value, some rest)

def literalAhead (word : String) (d : Doc) (cs : Symbols) : Doc × Option Symbols :=
  let symbols := Text.symbolsOf word
  if symbols.isPrefixOf cs then (d, some (cs.drop symbols.length)) else (.broken, none)

/-- A container that goes on to its end but is nested too deep has no value. -/
def bounded (depth : Nat) (d : Doc) (rest : Option Symbols) : Doc × Option Symbols :=
  if depth < nestingLimit then (d, rest)
  else if rest.isSome then (.unreadable, rest) else (.broken, none)

mutual

/-- The value that a text starts with, inside `depth - 1` containers; nothing follows where the text
breaks off. Each step takes at least one symbol, of which `fuel` bounds the number. -/
def valueAhead (fuel depth : Nat) (cs : Symbols) : Doc × Option Symbols :=
  match fuel with
  | 0 => (.broken, none)
  | fuel + 1 =>
    match skipBlank cs with
    | some '"' :: cs => stringAhead cs
    | some '[' :: cs =>
      match skipBlank cs with
      | some ']' :: cs => bounded depth (.arr []) (some cs)
      | cs =>
        let (items, rest) := itemsAhead fuel depth cs
        bounded depth (.arr items) rest
    | some '{' :: cs =>
      match skipBlank cs with
      | some '}' :: cs => bounded depth (.obj []) (some cs)
      | cs =>
        let (members, rest) := membersAhead fuel depth cs
        bounded depth (.obj members) rest
    | some 'n' :: cs => literalAhead "ull" .null cs
    | some 't' :: cs => literalAhead "rue" (.bool true) cs
    | some 'f' :: cs => literalAhead "alse" (.bool false) cs
    | cs => numberAhead cs

def itemsAhead (fuel depth : Nat) (cs : Symbols) : List Doc × Option Symbols :=
  match fuel with
  | 0 => ([.broken], none)
  | fuel + 1 =>
    match valueAhead fuel (depth + 1) cs with
    | (d, none) => ([d], none)
    | (d, some cs) =>
      match skipBlank cs with
      | some ']' :: cs => ([d], some cs)
      | some ',' :: cs =>
        let (ds, rest) := itemsAhead fuel depth cs
        (d :: ds, rest)
      | _ => ([d, .broken], none)

def membersAhead (fuel depth : Nat) (cs : Symbols) : List (Doc × Doc) × Option Symbols :=
  match fuel with
  | 0 => ([(.broken, .broken)], none)
  | fuel + 1 =>
    match skipBlank cs with
    | some '"' :: cs =>
      match stringAhead cs with
      | (k, none) => ([(k, .broken)], none)
      | (k, some cs) =>
        match skipBlank cs with
        | some ':' :: cs =>
          match valueAhead fuel (depth + 1) cs with
          | (d, none) => ([(k, d)], none)
          | (d, some cs) =>
            match skipBlank cs with
            | some '}' :: cs => ([(k, d)], some cs)
            | some ',' :: cs =>
              let (ms, rest) := membersAhead fuel depth cs
              ((k, d) :: ms, rest)
            | _ => ([(k, d), (.broken, .broken)], none)
        | _ => ([(k, .broken)], none)
    | _ => ([(.broken, .broken)], none)

end

/-- A text read as one document; `ended` tells whether nothing but blanks follows it. -/
structure Reading where
  doc : Doc
  ended : Bool

def read (cs : Symbols) : Reading :=
  match valueAhead (2 * cs.length + 2) 1 cs with
  | (d, none) => ⟨d, false⟩
  | (d, some rest) => ⟨d, (skipBlank rest).isEmpty⟩

/-- Decodes a text; what follows the document is looked at last. -/
def decodeSymbols {α : Type} (dec : Decoder α) (cs : Symbols) : Decoded α := do
  let r := read cs
  let a ← dec .json r.doc
  if r.ended then .ok a else .error .malformed

def decodeText {α : Type} (dec : Decoder α) (text : String) : Decoded α :=
  decodeSymbols dec (Text.symbolsOf text)

def decodeBytes {α : Type} (dec : Decoder α) (bytes : ByteArray) : Decoded α :=
  decodeSymbols dec (Text.symbols bytes)

def parse? (text : String) : Option Json := (decodeText Decoder.value text).toOption.map (·.json)

end SliceAgent.Json
