import SliceAgent.Text.Numeral

/-!
Binary floating point numbers of 64 bits, held as their bit patterns, and their text: the fewest
decimal digits that read back as the same number, of those the nearest.
-/
namespace SliceAgent

structure Binary64 where
  bits : UInt64
deriving DecidableEq, Repr

namespace Binary64

def ofFloat (x : Float) : Binary64 := ⟨x.toBits⟩

def isNegative (x : Binary64) : Bool := x.bits >>> 63 == 1

def exponentField (x : Binary64) : Nat := ((x.bits >>> 52) % 2048).toNat

def fraction (x : Binary64) : Nat := (x.bits % 0x10000000000000).toNat

def isFinite (x : Binary64) : Bool := x.exponentField != 2047

def isNaN (x : Binary64) : Bool := !x.isFinite && x.fraction != 0

/-- The significand `m` and exponent `q` of a finite number, whose size is `m * 2 ^ q`. -/
def significand (x : Binary64) : Nat :=
  if x.exponentField = 0 then x.fraction else 0x10000000000000 + x.fraction

def exponent (x : Binary64) : Int :=
  (if x.exponentField = 0 then 1 else (x.exponentField : Int)) - 1075

/-- A positive rational, as numerator and denominator. -/
structure Ratio where
  num : Nat
  den : Nat

def scaled (k : Nat) (q : Int) : Ratio :=
  if 0 ≤ q then ⟨k <<< q.toNat, 1⟩ else ⟨k, 1 <<< (-q).toNat⟩

def tenTo (n : Nat) : Nat := Nat.pow 10 n

def decimalPoint (d : Nat) (e : Int) : Ratio :=
  if 0 ≤ e then ⟨d * tenTo e.toNat, 1⟩ else ⟨d, tenTo (-e).toNat⟩

def Ratio.lt (a b : Ratio) : Bool := a.num * b.den < b.num * a.den

def Ratio.le (a b : Ratio) : Bool := !b.lt a

/-- The greatest `d` with `d * 10 ^ e` at most the given number. -/
def Ratio.floorAt (a : Ratio) (e : Int) : Nat :=
  if 0 ≤ e then a.num / (a.den * tenTo e.toNat) else a.num * tenTo (-e).toNat / a.den

def Ratio.firstExponent (a : Ratio) : Int :=
  if a.den ≤ a.num then ((Nat.toDigits 10 (a.num / a.den)).length : Int) - 1
  else match (List.range 400).find? (fun k => a.den ≤ a.num * tenTo k) with
    | some k => -(k : Int)
    | none => 0

/-- The reals that round to a number lie between the midpoints to its neighbours, which belong to it
when its significand is even. -/
structure Basin where
  value : Ratio
  low : Ratio
  high : Ratio
  closed : Bool

def basin (x : Binary64) : Basin :=
  let m := x.significand
  let q := x.exponent - 2
  let below := if x.fraction = 0 ∧ 1 < x.exponentField then 1 else 2
  { value := scaled (4 * m) q, low := scaled (4 * m - below) q, high := scaled (4 * m + 2) q,
    closed := m % 2 == 0 }

def Basin.contains (b : Basin) (r : Ratio) : Bool :=
  if b.closed then b.low.le r && r.le b.high else b.low.lt r && r.lt b.high

/-- The nearest point of the grid `10 ^ e` in the basin; a tie goes to the even digit. -/
def Basin.gridPoint? (b : Basin) (e : Int) : Option Nat :=
  let d := b.value.floorAt e
  match b.contains (decimalPoint d e), b.contains (decimalPoint (d + 1) e) with
  | true, false => some d
  | false, true => some (d + 1)
  | false, false => none
  | true, true =>
    let middle := decimalPoint (10 * d + 5) (e - 1)
    if b.value.lt middle then some d
    else if middle.lt b.value then some (d + 1)
    else if d % 2 = 0 then some d else some (d + 1)

/-- The fewest digits that read back as a positive finite number, and the exponent of the first. -/
def shortest (x : Binary64) : List Char × Int :=
  let b := x.basin
  let first := b.value.firstExponent
  let hit := (List.range 17).findSome? fun (n : Nat) =>
    let e := first - (n : Int)
    (b.gridPoint? e).map fun d => (d, e)
  match hit with
  | some (d, e) =>
    let digits := Nat.toDigits 10 d
    let significant := (digits.reverse.dropWhile (· == '0')).reverse
    (significant, e + (digits.length : Int) - 1)
  | none => (['0'], 0)

/-- Positional notation; a whole number keeps one zero after the point. -/
def positional (digits : List Char) (first : Int) : List Char :=
  if first < 0 then
    ['0', '.'] ++ List.replicate (-first - 1).toNat '0' ++ digits
  else
    let whole := first.toNat + 1
    if digits.length ≤ whole then
      digits ++ List.replicate (whole - digits.length) '0' ++ ['.', '0']
    else digits.take whole ++ ['.'] ++ digits.drop whole

def scientific (digits : List Char) (first : Int) : List Char :=
  let mantissa := match digits with
    | [] => []
    | [d] => [d]
    | d :: ds => d :: '.' :: ds
  mantissa ++ ['e', if first < 0 then '-' else '+'] ++ Nat.toDigits 10 first.natAbs

/-- The text of a number, where `fixed` tells which exponents are written positionally. -/
def text (fixed : Int → Bool) (x : Binary64) : String :=
  let sign := if x.isNegative then ['-'] else []
  let body :=
    if x.isNaN then ['N', 'a', 'N']
    else if !x.isFinite then ['i', 'n', 'f']
    else if x.significand = 0 then ['0', '.', '0']
    else
      let (digits, first) := x.shortest
      if fixed first then positional digits first else scientific digits first
  String.ofList (if x.isNaN then body else sign ++ body)

/-- Numbers from a hundred-thousandth up to below ten to the sixteenth are written positionally. -/
def compactText (x : Binary64) : String := x.text fun first => -5 ≤ first && first ≤ 15

def plainText (x : Binary64) : String := x.text fun _ => true

end Binary64

end SliceAgent
