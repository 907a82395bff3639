import SliceAgent.Json.Basic

/-!
Documents as they are written: members in written order, repeated keys kept, and marks where a text
says something that has no value or breaks off.
-/
namespace SliceAgent

inductive Doc where
  | null
  | bool (b : Bool)
  | int (i : Int)
  | float (x : Binary64)
  | str (s : String)
  /-- A date or a time, which reads as a table of one key. -/
  | moment
  | arr (items : List Doc)
  | obj (members : List (Doc × Doc))
  /-- Well formed, but without a value: a number out of range, half a surrogate pair, text in bytes
  that are no characters, nesting beyond the limit. -/
  | unreadable
  /-- The text breaks off here, and nothing follows. -/
  | broken
deriving Inhabited

namespace Doc

mutual

def ofJson : Json → Doc
  | .null => null
  | .bool b => bool b
  | .int i => int i
  | .float x => float x
  | .str s => str s
  | .arr items => arr (ofItems items)
  | .obj members => obj (ofMembers members)

def ofItems : List Json → List Doc
  | [] => []
  | j :: js => ofJson j :: ofItems js

def ofMembers : List (String × Json) → List (Doc × Doc)
  | [] => []
  | (k, j) :: ms => (str k, ofJson j) :: ofMembers ms

end

mutual

def isComplete : Doc → Bool
  | arr items => areComplete items
  | obj members => membersComplete members
  | broken => false
  | _ => true

def areComplete : List Doc → Bool
  | [] => true
  | d :: ds => isComplete d && areComplete ds

def membersComplete : List (Doc × Doc) → Bool
  | [] => true
  | (k, d) :: ms => isComplete k && isComplete d && membersComplete ms

end

theorem ofMembers_eq_map (ms : List (String × Json)) :
    ofMembers ms = ms.map fun m => (str m.1, ofJson m.2) := by
  induction ms with
  | nil => rfl
  | cons m ms ih => rw [ofMembers, ih, List.map_cons]

mutual

theorem isComplete_ofJson : ∀ j : Json, (ofJson j).isComplete = true
  | .null | .bool _ | .int _ | .float _ | .str _ => rfl
  | .arr items => areComplete_ofItems items
  | .obj members => membersComplete_ofMembers members

theorem areComplete_ofItems : ∀ js : List Json, areComplete (ofItems js) = true
  | [] => rfl
  | j :: js => by rw [ofItems, areComplete, isComplete_ofJson j, areComplete_ofItems js]; rfl

theorem membersComplete_ofMembers : ∀ ms : List (String × Json), membersComplete (ofMembers ms) = true
  | [] => rfl
  | (k, j) :: ms => by
    rw [ofMembers, membersComplete, isComplete_ofJson j, membersComplete_ofMembers ms]; rfl

end

end Doc

end SliceAgent
