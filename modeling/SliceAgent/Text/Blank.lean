/-!
Blank characters, and the cutting of text into lines and words.
-/
namespace SliceAgent.Text

/-- The white space characters of the character database. -/
def blanks : List Nat :=
  [0x9, 0xA, 0xB, 0xC, 0xD, 0x20, 0x85, 0xA0, 0x1680, 0x2000, 0x2001, 0x2002, 0x2003, 0x2004, 0x2005,
   0x2006, 0x2007, 0x2008, 0x2009, 0x200A, 0x2028, 0x2029, 0x202F, 0x205F, 0x3000]

def isBlank (c : Char) : Bool := blanks.contains c.toNat

def trim (p : Char → Bool) (cs : List Char) : List Char :=
  ((cs.dropWhile p).reverse.dropWhile p).reverse

/-- The pieces between the characters of a class; there is always one piece. -/
def split (p : Char → Bool) : List Char → List (List Char)
  | [] => [[]]
  | c :: cs => if p c then [] :: split p cs else (split p cs).modifyHead (c :: ·)

theorem split_ne_nil (p : Char → Bool) (cs : List Char) : split p cs ≠ [] := by
  cases cs with
  | nil => simp [split]
  | cons c cs =>
    have := split_ne_nil p cs
    rw [split]
    split <;> simp_all

def words (cs : List Char) : List (List Char) := (split isBlank cs).filter (fun w => !w.isEmpty)

def dropReturn (cs : List Char) : List Char :=
  if cs.getLast? = some '\r' then cs.dropLast else cs

/-- The lines of a text. A line ends with a line feed, before which a carriage return counts as part
of the ending; nothing follows a line feed that ends the text. -/
def lines (cs : List Char) : List (List Char) :=
  let pieces := split (· == '\n') cs
  pieces.dropLast.map dropReturn ++ (pieces.getLast?.toList.filter (fun l => !l.isEmpty))

def occursIn (needle : List Char) : List Char → Bool
  | [] => needle.isEmpty
  | c :: cs => needle.isPrefixOf (c :: cs) || occursIn needle cs

end SliceAgent.Text
