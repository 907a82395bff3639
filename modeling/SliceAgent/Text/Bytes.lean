/-!
Text out of bytes. A byte that belongs to no well-formed character is kept as a gap, so that a reader
can skip over it where it need not be understood.
-/
namespace SliceAgent.Text

instance (priority := high) bytesDecidableEq : DecidableEq ByteArray := fun _ _ =>
  decidable_of_iff _ ByteArray.ext_iff.symm

def tailBits? (b : UInt8) : Option Nat :=
  if 0x80 ≤ b ∧ b ≤ 0xBF then some (b.toNat - 0x80) else none

def firstChar? : List UInt8 → Option (Char × List UInt8)
  | [] => none
  | a :: rest =>
    if a < 0x80 then some (Char.ofNat a.toNat, rest)
    else if 0xC2 ≤ a ∧ a ≤ 0xDF then
      match rest with
      | b :: rest => do
        let b ← tailBits? b
        pure (Char.ofNat ((a.toNat - 0xC0) * 0x40 + b), rest)
      | _ => none
    else if 0xE0 ≤ a ∧ a ≤ 0xEF then
      match rest with
      | b :: c :: rest => do
        let b ← tailBits? b
        let c ← tailBits? c
        let n := (a.toNat - 0xE0) * 0x1000 + b * 0x40 + c
        if 0x800 ≤ n ∧ ¬ (0xD800 ≤ n ∧ n ≤ 0xDFFF) then some (Char.ofNat n, rest) else none
      | _ => none
    else if 0xF0 ≤ a ∧ a ≤ 0xF4 then
      match rest with
      | b :: c :: d :: rest => do
        let b ← tailBits? b
        let c ← tailBits? c
        let d ← tailBits? d
        let n := (a.toNat - 0xF0) * 0x40000 + b * 0x1000 + c * 0x40 + d
        if 0x10000 ≤ n ∧ n ≤ 0x10FFFF then some (Char.ofNat n, rest) else none
      | _ => none
    else none

/-- The characters of a byte string, with a gap for each byte that starts none. At most `fuel` are
read. -/
def symbolsAux : Nat → List UInt8 → List (Option Char)
  | 0, _ => []
  | _, [] => []
  | fuel + 1, b :: rest =>
    match firstChar? (b :: rest) with
    | some (c, rest) => some c :: symbolsAux fuel rest
    | none => none :: symbolsAux fuel rest

def symbols (bytes : ByteArray) : List (Option Char) :=
  match String.fromUTF8? bytes with
  | some s => s.toList.map some
  | none => symbolsAux bytes.size bytes.toList

def symbolsOf (s : String) : List (Option Char) := s.toList.map some

end SliceAgent.Text
