import SliceAgent.Text.Numeral

/-!
Texts as TOML values. Of the four ways to quote a text the plainest is taken that shows it as it is: on
one line in double or single quotes, over several lines in either; where none does, double quotes with
escapes are used.
-/
namespace SliceAgent.Toml

def needsEscape (c : Char) : Bool := c != '\t' && c != '\n' && (c.toNat < 0x20 || c.toNat == 0x7F)

/-- The length of the longest run of a character, after a run of `current` that comes before. -/
def longestRun (c : Char) (current : Nat) : List Char → Nat
  | [] => current
  | d :: ds => if d = c then longestRun c (current + 1) ds else max current (longestRun c 0 ds)

def codeDigits (c : Char) : List Char :=
  let digits := (Nat.toDigits 16 c.toNat).map Char.toUpper
  List.replicate (4 - digits.length) '0' ++ digits

/-- A character inside double quotes; line ends stay where several lines are allowed. -/
def escapedChar (long : Bool) (c : Char) : List Char :=
  match c with
  | '\x08' => ['\\', 'b']
  | '\t' => ['\\', 't']
  | '\n' => if long then ['\n'] else ['\\', 'n']
  | '\x0c' => ['\\', 'f']
  | '\r' => ['\\', 'r']
  | '\\' => ['\\', '\\']
  | c => if needsEscape c then ['\\', 'u'] ++ codeDigits c else [c]

/-- The inside of double quotes, after `quotes` quotes that were written as they are; `allowed` of them
may stand in a row. -/
def escaped (long : Bool) (allowed quotes : Nat) : List Char → List Char
  | [] => []
  | '"' :: cs =>
    if quotes < allowed then '"' :: escaped long allowed (quotes + 1) cs
    else '\\' :: '"' :: escaped long allowed 0 cs
  | c :: cs => escapedChar long c ++ escaped long allowed 0 cs

def basic (cs : List Char) : List Char := '"' :: escaped false 0 0 cs ++ ['"']

def literal (cs : List Char) : List Char := '\'' :: cs ++ ['\'']

/-- A text of several lines starts on a line of its own. -/
def lead (cs : List Char) : List Char := if cs.contains '\n' then ['\n'] else []

def longBasic (cs : List Char) : List Char :=
  ['"', '"', '"'] ++ lead cs ++ escaped true 2 0 cs ++ ['"', '"', '"']

def longLiteral (cs : List Char) : List Char :=
  ['\'', '\'', '\''] ++ lead cs ++ cs ++ ['\'', '\'', '\'']

def quotedChars (cs : List Char) : List Char :=
  let codes := cs.any needsEscape
  let slash := cs.contains '\\'
  let newline := cs.contains '\n'
  if !codes && !slash && !cs.contains '"' && !newline then basic cs
  else if !codes && !cs.contains '\'' && !newline then literal cs
  else if !codes && !slash && longestRun '"' 0 cs ≤ 2 then longBasic cs
  else if !codes && longestRun '\'' 0 cs ≤ 2 then longLiteral cs
  else if newline then longBasic cs
  else basic cs

def quoted (s : String) : String := String.ofList (quotedChars s.toList)

def line (key value : String) : String := key ++ " = " ++ value ++ "\n"

end SliceAgent.Toml
