import SliceAgent.Template.Basic
import SliceAgent.Text.Blank
import SliceAgent.Text.Numeral

/-!
The vendor's template table. A header line names the columns; a line of units and everything up to
and with a line of equals signs is passed over; then each row gives a template.
-/
namespace SliceAgent.TemplateTable

open Text

/-- A line without its border, cut into cells. -/
def cells (line : List Char) : List (List Char) :=
  words (trim isBlank (trim (· == '|') (trim isBlank line)))

def isHeader (line : List Char) : Bool :=
  occursIn "Name".toList line && occursIn "AICORE".toList line && occursIn "Memory".toList line

/-- The last place of a column among the header's cells. -/
def columnOf? (name : String) (header : List (List Char)) : Option Nat :=
  let places := header.zipIdx.filter fun c => c.1 == name.toList
  places.getLast?.map (·.2)

/-- The amount in a cell, which may carry the unit; a cell that is no number counts as nothing. -/
def amount (cell : List Char) : UInt32 :=
  let digits := if "GB".toList.isSuffixOf cell then cell.dropLast.dropLast else cell
  (wordOfNumeral? digits).getD 0

def amountAt (row : List (List Char)) (column : Option Nat) : UInt32 :=
  match column with
  | none => 0
  | some i =>
    match row[i]? with
    | some cell => amount cell
    | none => 0

/-- The template of a row. Rules and rows of other things give none. -/
def template? (aiCore memory : Option Nat) (line : List Char) : Option Template :=
  match cells line with
  | [] => none
  | name :: row =>
    if occursIn "--".toList line || !"vir".toList.isPrefixOf name then none
    else some ⟨String.ofList name, amountAt (name :: row) aiCore, amountAt (name :: row) memory⟩

def after (p : List Char → Bool) : List (List Char) → List (List Char)
  | [] => []
  | l :: ls => if p l then ls else after p ls

/-- The catalog of a table; `none` when there is no header. A later row replaces an earlier one of
the same name. -/
def parse? (text : String) : Option Catalog :=
  let ls := lines text.toList
  match ls.find? isHeader with
  | none => none
  | some header =>
    let columns := cells header
    let aiCore := columnOf? "AICORE" columns
    let memory := columnOf? "Memory" columns
    let rows := after (occursIn "==".toList) ((after isHeader ls).drop 1)
    some (Catalog.ofList (rows.filterMap (template? aiCore memory)))

end SliceAgent.TemplateTable
