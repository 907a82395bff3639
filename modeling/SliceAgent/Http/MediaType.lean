/-!
Media types, as a header names the content of a message. Only their form and whether they stand for JSON
matter here.
-/
namespace SliceAgent

/-- A media type without its parameters, in small letters. -/
structure MediaType where
  type : String
  subtype : String
  suffix : Option String
deriving DecidableEq, Repr

namespace MediaType

def isTokenChar (c : Char) : Bool := c.isAlphanum || "!#$%&'*+-.^_|~\x60".toList.contains c

/-- Whether a character may stand between quotes: a blank or a visible ASCII character. -/
def isQuotedChar (c : Char) : Bool := 0x20 ≤ c.toNat && c.toNat < 0x7F

def small (cs : List Char) : String := String.ofList (cs.map Char.toLower)

def tokenAhead (cs : List Char) : Option (List Char × List Char) :=
  let token := cs.takeWhile isTokenChar
  if token.isEmpty then none else some (token, cs.dropWhile isTokenChar)

/-- What follows the value of a parameter: a token or a text between quotes. -/
def afterValue? (cs : List Char) : Option (List Char) :=
  match cs with
  | '"' :: cs =>
    let inner := cs.takeWhile fun c => c != '"' && isQuotedChar c
    match cs.dropWhile fun c => c != '"' && isQuotedChar c with
    | '"' :: rest => if inner.isEmpty then none else some (rest.dropWhile (· == ' '))
    | _ => none
  | cs => (tokenAhead cs).map (·.2)

/-- Whether a text is a sequence of parameters, each after a semicolon. At most `fuel` are read. -/
def areParameters : Nat → List Char → Bool
  | _, [] => true
  | 0, _ => false
  | fuel + 1, c :: cs =>
    let cs := cs.dropWhile (· == ' ')
    if c != ';' then false
    else if cs.isEmpty then true
    else
      match tokenAhead cs with
      | some (_, '=' :: value) =>
        match afterValue? value with
        | some rest => areParameters fuel rest
        | none => value.isEmpty
      | _ => false

/-- Splits a suffix off after the last plus sign; the subtype ends at that sign. -/
def splitSuffix (cs : List Char) : List Char × Option (List Char) :=
  match cs with
  | [] => ([], none)
  | c :: rest =>
    if rest.contains '+' then
      let suffix := (rest.reverse.takeWhile (· != '+')).reverse
      ((c :: rest).take (rest.length - suffix.length), some suffix)
    else (c :: rest, none)

def parse? (text : String) : Option MediaType := do
  let (type, rest) ← tokenAhead text.toList
  match rest with
  | '/' :: rest =>
    let (subtype, rest) ← tokenAhead rest
    if areParameters rest.length rest then
      let (name, suffix) := splitSuffix subtype
      pure ⟨small type, small name, suffix.map small⟩
    else none
  | _ => none

def isJson (m : MediaType) : Bool :=
  m.type == "application" && (m.subtype == "json" || m.suffix == some "json")

end MediaType

end SliceAgent
