import SliceAgent.Json.Basic

/-!
The two layouts of JSON text: without blanks, and one member a line with two blanks of indent for
each level.
-/
namespace SliceAgent.Json

/-- A character inside a quoted text: quotes, backslashes and control characters are escaped. -/
def escapedChar (c : Char) : List Char :=
  match c with
  | '"' => ['\\', '"']
  | '\\' => ['\\', '\\']
  | '\n' => ['\\', 'n']
  | '\t' => ['\\', 't']
  | '\r' => ['\\', 'r']
  | '\x08' => ['\\', 'b']
  | '\x0c' => ['\\', 'f']
  | c =>
    if c.toNat < 0x20 then ['\\', 'u', '0', '0', Text.hexDigit (c.toNat / 16), Text.hexDigit c.toNat]
    else [c]

def quoted (s : String) : List Char := '"' :: s.toList.flatMap escapedChar ++ ['"']

mutual

def compactChars : Json → List Char
  | null => "null".toList
  | bool b => (if b then "true" else "false").toList
  | int i => (Text.decimalInt i).toList
  | float x => x.compactText.toList
  | str s => quoted s
  | arr items => '[' :: compactItems items ++ [']']
  | obj members => '{' :: compactMembers members ++ ['}']

def compactItems : List Json → List Char
  | [] => []
  | [j] => compactChars j
  | j :: js => compactChars j ++ ',' :: compactItems js

def compactMembers : List (String × Json) → List Char
  | [] => []
  | [(k, j)] => quoted k ++ ':' :: compactChars j
  | (k, j) :: ms => quoted k ++ ':' :: compactChars j ++ ',' :: compactMembers ms

end

def compact (j : Json) : String := String.ofList (compactChars j)

def newLine (level : Nat) : List Char := '\n' :: List.replicate (2 * level) ' '

mutual

def prettyChars (level : Nat) : Json → List Char
  | arr [] => ['[', ']']
  | arr (j :: js) => '[' :: prettyItems (level + 1) (j :: js) ++ newLine level ++ [']']
  | obj [] => ['{', '}']
  | obj (m :: ms) => '{' :: prettyMembers (level + 1) (m :: ms) ++ newLine level ++ ['}']
  | j => compactChars j

def prettyItems (level : Nat) : List Json → List Char
  | [] => []
  | [j] => newLine level ++ prettyChars level j
  | j :: js => newLine level ++ prettyChars level j ++ ',' :: prettyItems level js

def prettyMembers (level : Nat) : List (String × Json) → List Char
  | [] => []
  | [(k, j)] => newLine level ++ quoted k ++ [':', ' '] ++ prettyChars level j
  | (k, j) :: ms =>
    newLine level ++ quoted k ++ [':', ' '] ++ prettyChars level j ++ ',' :: prettyMembers level ms

end

def pretty (j : Json) : String := String.ofList (prettyChars 0 j)

end SliceAgent.Json
