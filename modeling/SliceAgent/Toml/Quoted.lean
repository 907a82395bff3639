import SliceAgent.Text.Numeral

/-!
Blanks, line ends, comments and quoted texts of a TOML document.
-/
namespace SliceAgent.Toml

def isBlank (c : Char) : Bool := c == ' ' || c == '\t'

def skipBlank (cs : List Char) : List Char := cs.dropWhile isBlank

def isPlain (c : Char) : Bool := c == '\t' || (0x20 ≤ c.toNat && c.toNat != 0x7F)

/-- What follows a line feed, before which a carriage return may stand. -/
def newline? : List Char → Option (List Char)
  | '\n' :: cs => some cs
  | '\r' :: '\n' :: cs => some cs
  | _ => none

def skipComment : List Char → List Char
  | '#' :: cs => cs.dropWhile isPlain
  | cs => cs

/-- What follows the rest of a line that holds nothing but blanks and a comment. -/
def lineRest? (cs : List Char) : Option (List Char) :=
  match skipComment (skipBlank cs) with
  | [] => some []
  | cs => newline? cs

def skipSpace : Nat → List Char → List Char
  | 0, cs => cs
  | fuel + 1, cs =>
    match skipBlank cs with
    | '#' :: cs =>
      match newline? (cs.dropWhile isPlain) with
      | some cs => skipSpace fuel cs
      | none => '#' :: cs
    | cs =>
      match newline? cs with
      | some cs => skipSpace fuel cs
      | none => cs

def charOfHex? (digits : List Char) : Option Char := do
  let values ← digits.mapM Text.hexValue?
  let n := values.foldl (fun n d => 16 * n + d) 0
  if n.isValidChar then some (Char.ofNat n) else none

def escape? : Char → Option Char
  | '"' => some '"'
  | '\\' => some '\\'
  | 'b' => some '\x08'
  | 'f' => some '\x0c'
  | 'n' => some '\n'
  | 'r' => some '\r'
  | 't' => some '\t'
  | _ => none

/-- Puts a character before a text that is yet to be read. -/
def before (c : Char) (rest : Option (List Char × List Char)) : Option (List Char × List Char) :=
  rest.map fun (s, rest) => (c :: s, rest)

def basicAhead : List Char → Option (List Char × List Char)
  | [] => none
  | '"' :: cs => some ([], cs)
  | '\\' :: 'u' :: a :: b :: c :: d :: cs =>
    (charOfHex? [a, b, c, d]).bind fun ch => before ch (basicAhead cs)
  | '\\' :: 'U' :: a :: b :: c :: d :: e :: f :: g :: h :: cs =>
    (charOfHex? [a, b, c, d, e, f, g, h]).bind fun ch => before ch (basicAhead cs)
  | '\\' :: e :: cs => (escape? e).bind fun ch => before ch (basicAhead cs)
  | c :: cs => if isPlain c && c != '\\' then before c (basicAhead cs) else none

def literalAhead : List Char → Option (List Char × List Char)
  | [] => none
  | '\'' :: cs => some ([], cs)
  | c :: cs => if isPlain c then before c (literalAhead cs) else none

/-- The end of a text of several lines: two quotes before the closing ones belong to it. -/
def closing (quote : Char) (cs : List Char) : List Char × List Char :=
  match cs with
  | a :: b :: cs =>
    if a == quote && b == quote then ([a, b], cs)
    else if a == quote then ([a], b :: cs) else ([], a :: b :: cs)
  | [a] => if a == quote then ([a], []) else ([], [a])
  | [] => ([], [])

/-- A text in three double quotes, after the opening ones. A backslash that ends a line takes the blanks
and line ends after it away; `folding` tells that such are being passed over. -/
def longBasicAhead (folding : Bool) : List Char → Option (List Char × List Char)
  | [] => none
  | '"' :: '"' :: '"' :: cs => some (closing '"' cs)
  | '\\' :: 'u' :: a :: b :: c :: d :: cs =>
    (charOfHex? [a, b, c, d]).bind fun ch => before ch (longBasicAhead false cs)
  | '\\' :: 'U' :: a :: b :: c :: d :: e :: f :: g :: h :: cs =>
    (charOfHex? [a, b, c, d, e, f, g, h]).bind fun ch => before ch (longBasicAhead false cs)
  | '\\' :: e :: cs =>
    if (newline? (skipBlank (e :: cs))).isSome then longBasicAhead true (e :: cs)
    else (escape? e).bind fun ch => before ch (longBasicAhead false cs)
  | '\r' :: '\n' :: cs =>
    if folding then longBasicAhead true cs else before '\n' (longBasicAhead false cs)
  | '\n' :: cs => if folding then longBasicAhead true cs else before '\n' (longBasicAhead false cs)
  | c :: cs =>
    if folding && isBlank c then longBasicAhead true cs
    else if isPlain c && c != '\\' then before c (longBasicAhead false cs)
    else none

def longLiteralAhead : List Char → Option (List Char × List Char)
  | [] => none
  | '\'' :: '\'' :: '\'' :: cs => some (closing '\'' cs)
  | '\r' :: '\n' :: cs => before '\n' (longLiteralAhead cs)
  | '\n' :: cs => before '\n' (longLiteralAhead cs)
  | c :: cs => if isPlain c then before c (longLiteralAhead cs) else none

/-- A line end right after the opening quotes does not count. -/
def dropNewline (cs : List Char) : List Char := (newline? cs).getD cs

def quotedAhead : List Char → Option (List Char × List Char)
  | '"' :: '"' :: '"' :: cs => longBasicAhead false (dropNewline cs)
  | '"' :: cs => basicAhead cs
  | '\'' :: '\'' :: '\'' :: cs => longLiteralAhead (dropNewline cs)
  | '\'' :: cs => literalAhead cs
  | _ => none

end SliceAgent.Toml
