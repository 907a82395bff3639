import SliceAgent.Doc.Basic

/-!
Numbers in JSON text. Whole numbers of at most 64 bits are read exactly. Others become a significand
of at most 64 bits, scaled by a power of ten in floating point arithmetic.
-/
namespace SliceAgent.Json

abbrev Symbols := List (Option Char)

def digitsAhead : Symbols → List Char × Symbols
  | some c :: cs =>
    if c.isDigit then
      let (ds, rest) := digitsAhead cs
      (c :: ds, rest)
    else ([], some c :: cs)
  | cs => ([], cs)

/-- The parts of a number as written. -/
structure Numeral where
  negative : Bool
  whole : List Char
  /-- The digits after the point, if there is one. -/
  decimals : Option (List Char)
  power : Option (Bool × List Char)

def decimalsAhead : Symbols → Option (Option (List Char) × Symbols)
  | some '.' :: cs =>
    let (ds, rest) := digitsAhead cs
    if ds.isEmpty then none else some (some ds, rest)
  | cs => some (none, cs)

def powerAhead (cs : Symbols) : Option (Option (Bool × List Char) × Symbols) :=
  let exponent (negative : Bool) (cs : Symbols) :=
    let (ds, rest) := digitsAhead cs
    if ds.isEmpty then none else some (some (negative, ds), rest)
  let signed (cs : Symbols) := match cs with
    | some '+' :: cs => exponent false cs
    | some '-' :: cs => exponent true cs
    | cs => exponent false cs
  match cs with
  | some 'e' :: cs => signed cs
  | some 'E' :: cs => signed cs
  | cs => some (none, cs)

/-- The number that a text starts with; a whole part of several digits has no leading zero. -/
def numeralAhead (cs : Symbols) : Option (Numeral × Symbols) :=
  let (negative, cs) := match cs with
    | some '-' :: cs => (true, cs)
    | cs => (false, cs)
  let (whole, cs) := digitsAhead cs
  if whole.isEmpty || (whole.head? == some '0' && whole.length != 1) then none
  else do
    let (decimals, cs) ← decimalsAhead cs
    let (power, cs) ← powerAhead cs
    pure (⟨negative, whole, decimals, power⟩, cs)

def maxSignificand : Nat := UInt64.size - 1

/-- Appends digits to a significand while it stays within 64 bits; the digits left over come back. -/
def extend (significand : Nat) : List Char → Nat × List Char
  | [] => (significand, [])
  | d :: ds =>
    let next := 10 * significand + (d.toNat - '0'.toNat)
    if maxSignificand < next then (significand, d :: ds) else extend next ds

/-- `x * 10 ^ e` in floating point: one product or quotient, and quotients by `10 ^ 308` before it for
very small exponents. `none` when the result is infinite. -/
def scale : Nat → Float → Int → Option Float
  | 0, x, _ => some x
  | fuel + 1, x, e =>
    if e.natAbs ≤ 308 then
      let p := Float.ofScientific 1 false e.natAbs
      if 0 ≤ e then
        let y := x * p
        if y.isInf then none else some y
      else some (x / p)
    else if x == 0 then some x
    else if 0 ≤ e then none
    else scale fuel (x / Float.ofScientific 1 false 308) (e + 308)

/-- Exponents saturate at the bounds of 32 bits. -/
def saturate (e : Int) : Int := max Int32.minValue.toInt (min Int32.maxValue.toInt e)

def Numeral.value (n : Numeral) : Doc :=
  let (whole, rest) := extend 0 n.whole
  match n.decimals, n.power, rest with
  | none, none, [] =>
    if !n.negative then .int whole
    else if whole = 0 ∨ Int64.size / 2 < whole then .float (.ofFloat (-(UInt64.ofNat whole).toFloat))
    else .int (-(whole : Int))
  | _, _, _ =>
    let decimals := n.decimals.getD []
    let (significand, unread) := extend whole decimals
    let point : Int := rest.length - (decimals.length - unread.length : Nat)
    let signed (x : Float) : Doc := .float (.ofFloat (if n.negative then -x else x))
    let scaled (e : Int) : Doc :=
      match scale (e.natAbs / 308 + 2) (UInt64.ofNat significand).toFloat e with
      | some x => signed x
      | none => .unreadable
    match n.power with
    | none => scaled point
    | some (negative, digits) =>
      let e := Nat.ofDigitChars 10 digits 0
      if Int32.maxValue.toInt < e then
        if significand ≠ 0 ∧ !negative then .unreadable else signed 0
      else scaled (saturate (if negative then point - e else point + e))

end SliceAgent.Json
