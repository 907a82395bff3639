import SliceAgent.Doc.Basic
import SliceAgent.Text.Quoted

/-!
Why a document does not hold what is asked of it.
-/
namespace SliceAgent

/-- The format a document was written in, where it matters to decoding. -/
inductive Dialect where
  | json
  | toml
deriving DecidableEq, Repr

/-- What was met where something else was wanted. -/
inductive Found where
  | null
  | bool (b : Bool)
  | int (i : Int)
  | float (x : Binary64)
  | str (s : String)
  | sequence
  | map
deriving DecidableEq, Repr

inductive DecodeError where
  /-- The text is no document, or has a part without a value. -/
  | malformed
  | wrongType (found : Found) (wanted : String)
  | outOfRange (i : Int) (wanted : String)
  | notAVariant (found : Found)
  /-- A variant written as an object of `keys` keys. -/
  | variantKeys (keys : Nat)
  /-- A variant without content has something beside its name. -/
  | variantContent (found : Doc)
  | unknownVariant (name : String) (known : List String)
  /-- None of the forms a value may take fits. -/
  | noForm (wanted : String)
  | missingField (name : String)
  | duplicateField (name : String)
  /-- A record written as a list ends before the field at position `at`. -/
  | tooShort (position : Nat) (wanted : String) (fields : Nat)
  /-- A record written as a list of `length` items has fewer fields. -/
  | tooLong (length : Nat)
  /-- A variant's content written as a list of `length` items has only `fields` fields. -/
  | contentTooLong (length fields : Nat)
deriving Inhabited

namespace Found

/-- Floating point numbers are compact in one format and positional in the other. -/
def text (dialect : Dialect) : Found → String
  | null => "null"
  | bool b => "boolean `" ++ (if b then "true" else "false") ++ "`"
  | int i => "integer `" ++ Text.decimalInt i ++ "`"
  | float x =>
    "floating point `" ++ (if dialect = .json then x.compactText else x.plainText) ++ "`"
  | str s => "string " ++ Text.quoted s
  | sequence => "sequence"
  | map => "map"

end Found

namespace Doc

/-- What a document is, seen from outside; `none` where its text has no value. -/
def found? : Doc → Option Found
  | null => some .null
  | bool b => some (.bool b)
  | int i => some (.int i)
  | float x => some (.float x)
  | str s => some (.str s)
  | moment => some .map
  | arr _ => some .sequence
  | obj _ => some .map
  | unreadable => none
  | broken => none

def mismatch (d : Doc) (wanted : String) : DecodeError :=
  match d.found? with
  | some f => .wrongType f wanted
  | none => .malformed

end Doc

/-- Alternatives in prose: one alone, two joined by "or", more as a list. -/
def alternatives : List String → String
  | [] => "there are no variants"
  | [a] => "expected `" ++ a ++ "`"
  | [a, b] => "expected `" ++ a ++ "` or `" ++ b ++ "`"
  | as => "expected one of " ++ ", ".intercalate (as.map fun a => "`" ++ a ++ "`")

def counted (n : Nat) (one many : String) : String :=
  Text.decimal n ++ " " ++ (if n = 1 then one else many)

namespace DecodeError

/-- What a TOML value is called when it stands where an empty table may stand. -/
def contentText : Doc → String
  | .arr _ => "expected empty table"
  | .obj _ => "expected empty table"
  | .str _ => "expected table, found string"
  | .int _ => "expected table, found integer"
  | .float _ => "expected table, found float"
  | .bool _ => "expected table, found boolean"
  | .moment => "expected table, found datetime"
  | _ => "expected table, found none"

def message (dialect : Dialect) : DecodeError → String
  | malformed => "malformed text"
  | wrongType found wanted => "invalid type: " ++ found.text dialect ++ ", expected " ++ wanted
  | outOfRange i wanted => "invalid value: integer `" ++ Text.decimalInt i ++ "`, expected " ++ wanted
  | notAVariant found =>
    match dialect with
    | .json => "invalid type: " ++ found.text dialect ++ ", expected string or map"
    | .toml => "wanted string or table"
  | variantKeys keys =>
    match dialect with
    | .json => "invalid value: map, expected map with a single key"
    | .toml =>
      "wanted exactly 1 element, " ++ (if keys = 0 then "found 0 elements" else "more than 1 element")
  | variantContent found =>
    match dialect with
    | .json =>
      match found.found? with
      | some f => "invalid type: " ++ f.text dialect ++ ", expected unit"
      | none => "malformed text"
    | .toml => contentText found
  | unknownVariant name known => "unknown variant `" ++ name ++ "`, " ++ alternatives known
  | noForm wanted => "data did not match any variant of untagged enum " ++ wanted
  | missingField name => "missing field `" ++ name ++ "`"
  | duplicateField name => "duplicate field `" ++ name ++ "`"
  | tooShort position wanted fields =>
    "invalid length " ++ Text.decimal position ++ ", expected struct " ++ wanted ++ " with "
      ++ counted fields "element" "elements"
  | tooLong length =>
    "invalid length " ++ Text.decimal length ++ ", expected fewer elements in array"
  | contentTooLong length fields =>
    "invalid length " ++ Text.decimal length ++ ", expected "
      ++ counted fields "element in sequence" "elements in sequence"

end DecodeError

/-- A decoded value, or the first thing wrong with the document. -/
abbrev Decoded (α : Type) := Except DecodeError α

end SliceAgent
