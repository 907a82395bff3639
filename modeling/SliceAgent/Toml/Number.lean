import SliceAgent.Doc.Basic

/-!
Numbers and moments of a TOML document.
-/
namespace SliceAgent.Toml

/-- The digits at the front, where one underscore may stand between two of them. -/
def moreDigits (isDigit : Char → Bool) : List Char → List Char × List Char
  | '_' :: c :: cs =>
    if isDigit c then
      let (ds, rest) := moreDigits isDigit cs
      (c :: ds, rest)
    else ([], '_' :: c :: cs)
  | c :: cs =>
    if isDigit c then
      let (ds, rest) := moreDigits isDigit cs
      (c :: ds, rest)
    else ([], c :: cs)
  | [] => ([], [])

def digitsAhead (isDigit : Char → Bool) : List Char → Option (List Char × List Char)
  | c :: cs =>
    if isDigit c then
      let (ds, rest) := moreDigits isDigit cs
      some (c :: ds, rest)
    else none
  | [] => none

def signAhead : List Char → Bool × List Char
  | '+' :: cs => (false, cs)
  | '-' :: cs => (true, cs)
  | cs => (false, cs)

/-- The whole part of a decimal number: a zero alone, or digits of which the first is none. -/
def wholeAhead : List Char → Option (List Char × List Char)
  | '0' :: cs => some (['0'], cs)
  | cs => digitsAhead Char.isDigit cs

def maxInt : Int := Int64.maxValue.toInt

def minInt : Int := Int64.minValue.toInt

def boundedInt (i : Int) : Option Doc := if minInt ≤ i ∧ i ≤ maxInt then some (.int i) else none

def ofDigits (base : Nat) (ds : List Char) : Nat :=
  ds.foldl (fun n d => base * n + (Text.hexValue? d).getD 0) 0

def isHexDigit (c : Char) : Bool := (Text.hexValue? c).isSome

def isOctalDigit (c : Char) : Bool := '0' ≤ c && c ≤ '7'

def isBinaryDigit (c : Char) : Bool := c == '0' || c == '1'

def basedAhead (base : Nat) (isDigit : Char → Bool) (cs : List Char) : Option (Doc × List Char) := do
  let (ds, rest) ← digitsAhead isDigit cs
  let d ← boundedInt (ofDigits base ds)
  pure (d, rest)

def integerAhead (cs : List Char) : Option (Doc × List Char) :=
  match cs with
  | '0' :: 'x' :: cs => basedAhead 16 isHexDigit cs
  | '0' :: 'o' :: cs => basedAhead 8 isOctalDigit cs
  | '0' :: 'b' :: cs => basedAhead 2 isBinaryDigit cs
  | cs => do
    let (negative, cs) := signAhead cs
    let (ds, rest) ← wholeAhead cs
    let n := ofDigits 10 ds
    let d ← boundedInt (if negative then -(n : Int) else n)
    pure (d, rest)

/-- `m * 10 ^ e`, rounded to the nearest; beyond all numbers it is infinite, beneath all it is zero. -/
def scaled (m : Nat) (e : Int) : Float :=
  let size : Int := (Nat.toDigits 10 m).length + e
  if m = 0 ∨ size < -340 then 0
  else if 310 < size then 1 / 0
  else Float.ofScientific m (e < 0) e.natAbs

def powerAhead : List Char → Option (Option Int × List Char)
  | c :: cs =>
    if c == 'e' || c == 'E' then do
      let (negative, cs) := signAhead cs
      let (ds, rest) ← digitsAhead Char.isDigit cs
      let n := ofDigits 10 ds
      pure (some (if negative then -(n : Int) else n), rest)
    else some (none, c :: cs)
  | [] => some (none, [])

/-- A number with decimals or an exponent; a positive one has to be finite. -/
def decimalAhead (cs : List Char) : Option (Doc × List Char) := do
  let (negative, cs) := signAhead cs
  let (whole, cs) ← wholeAhead cs
  let (decimals, cs) ← match cs with
    | '.' :: cs => (digitsAhead Char.isDigit cs).map fun (ds, rest) => (some ds, rest)
    | cs => some (none, cs)
  let (power, rest) ← powerAhead cs
  if decimals.isNone && power.isNone then none
  else
    let ds := decimals.getD []
    let x := scaled (ofDigits 10 (whole ++ ds)) (power.getD 0 - (ds.length : Int))
    if x.isInf && !negative then none
    else some (.float (.ofFloat (if negative then -x else x)), rest)

def specialAhead (cs : List Char) : Option (Doc × List Char) :=
  let (negative, cs) := signAhead cs
  let signed (x : Float) : Doc := .float (.ofFloat (if negative then -x else x))
  match cs with
  | 'i' :: 'n' :: 'f' :: rest => some (signed (1 / 0), rest)
  | 'n' :: 'a' :: 'n' :: rest => some (signed (0 / 0), rest)
  | _ => none

def fixedAhead (count low high : Nat) (cs : List Char) : Option (Nat × List Char) :=
  let ds := cs.take count
  let n := ofDigits 10 ds
  if ds.length = count ∧ ds.all Char.isDigit ∧ low ≤ n ∧ n ≤ high then some (n, cs.drop count) else none

def charAhead (c : Char) : List Char → Option (List Char)
  | d :: cs => if d == c then some cs else none
  | [] => none

def daysIn (year month : Nat) : Nat :=
  if month = 2 then (if year % 4 = 0 ∧ (year % 100 ≠ 0 ∨ year % 400 = 0) then 29 else 28)
  else if [4, 6, 9, 11].contains month then 30 else 31

def dateAhead (cs : List Char) : Option (List Char) := do
  let (year, cs) ← fixedAhead 4 0 9999 cs
  let cs ← charAhead '-' cs
  let (month, cs) ← fixedAhead 2 1 12 cs
  let cs ← charAhead '-' cs
  let (_, cs) ← fixedAhead 2 1 (daysIn year month) cs
  pure cs

def timeAhead (cs : List Char) : Option (List Char) := do
  let (_, cs) ← fixedAhead 2 0 23 cs
  let cs ← charAhead ':' cs
  let (_, cs) ← fixedAhead 2 0 59 cs
  let cs ← charAhead ':' cs
  let (_, cs) ← fixedAhead 2 0 60 cs
  match cs with
  | '.' :: d :: rest => if d.isDigit then some (rest.dropWhile Char.isDigit) else some cs
  | cs => some cs

def skipOffset (cs : List Char) : List Char :=
  let distance (rest : List Char) : Option (List Char) := do
    let (_, rest) ← fixedAhead 2 0 23 rest
    let rest ← charAhead ':' rest
    let (_, rest) ← fixedAhead 2 0 59 rest
    pure rest
  match cs with
  | 'Z' :: rest => rest
  | 'z' :: rest => rest
  | '+' :: rest => (distance rest).getD cs
  | '-' :: rest => (distance rest).getD cs
  | _ => cs

def skipTime (cs : List Char) : List Char :=
  match cs with
  | c :: rest =>
    if c == 'T' || c == 't' || c == ' ' then
      match timeAhead rest with
      | some rest => skipOffset rest
      | none => cs
    else cs
  | [] => cs

def momentAhead (cs : List Char) : Option (Doc × List Char) :=
  match dateAhead cs with
  | some rest => some (.moment, skipTime rest)
  | none => (timeAhead cs).map fun rest => (.moment, rest)

def numberAhead (cs : List Char) : Option (Doc × List Char) :=
  momentAhead cs <|> decimalAhead cs <|> specialAhead cs <|> integerAhead cs

end SliceAgent.Toml
