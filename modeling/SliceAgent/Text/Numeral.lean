/-!
Numbers in decimal digits: the plain form, the plain form with a bound, and bytes as hexadecimal.
-/
namespace SliceAgent.Text

def decimal (n : Nat) : String := String.ofList (Nat.toDigits 10 n)

def decimalInt : Int → String
  | .ofNat n => decimal n
  | .negSucc n => "-" ++ decimal (n + 1)

/-- The value of a non-empty run of digits; leading zeros count for nothing. -/
def natOfDigits? (cs : List Char) : Option Nat :=
  if cs.isEmpty || !cs.all Char.isDigit then none else some (Nat.ofDigitChars 10 cs 0)

def wordOfDigits? (cs : List Char) : Option UInt32 :=
  match natOfDigits? cs with
  | some n => if h : n < UInt32.size then some (UInt32.ofNatLT n h) else none
  | none => none

/-- As `wordOfDigits?`, and one plus sign may stand in front. -/
def wordOfNumeral? : List Char → Option UInt32
  | '+' :: cs => wordOfDigits? cs
  | cs => wordOfDigits? cs

theorem natOfDigits?_decimal (n : Nat) : natOfDigits? (decimal n).toList = some n := by
  have hd : (Nat.toDigits 10 n).all Char.isDigit = true :=
    List.all_eq_true.2 fun c hc => Nat.isDigit_of_mem_toDigits (by omega) (by omega) hc
  have he : (Nat.toDigits 10 n).isEmpty = false := by
    cases h : Nat.toDigits 10 n with
    | nil => exact absurd h Nat.toDigits_ne_nil
    | cons => rfl
  rw [decimal, String.toList_ofList, natOfDigits?, he, hd]
  simp only [Bool.not_true, Bool.or_false, Bool.false_eq_true, if_false]
  rw [Nat.ofDigitChars_toDigits (by omega) (by omega)]

theorem wordOfDigits?_decimal (n : UInt32) : wordOfDigits? (decimal n.toNat).toList = some n := by
  rw [wordOfDigits?, natOfDigits?_decimal]
  simp [UInt32.toNat_lt_size]

def hexDigit (n : Nat) : Char := Nat.digitChar (n % 16)

def hexByte (b : UInt8) : List Char := [hexDigit (b.toNat / 16), hexDigit b.toNat]

def hexValue? (c : Char) : Option Nat :=
  if '0' ≤ c ∧ c ≤ '9' then some (c.toNat - '0'.toNat)
  else if 'a' ≤ c ∧ c ≤ 'f' then some (c.toNat - 'a'.toNat + 10)
  else if 'A' ≤ c ∧ c ≤ 'F' then some (c.toNat - 'A'.toNat + 10)
  else none

def bytesOfHex? : List Char → Option (List UInt8)
  | [] => some []
  | [_] => none
  | a :: b :: cs => do
    let hi ← hexValue? a
    let lo ← hexValue? b
    let rest ← bytesOfHex? cs
    pure (UInt8.ofNat (16 * hi + lo) :: rest)

end SliceAgent.Text
