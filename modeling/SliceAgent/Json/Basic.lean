import SliceAgent.Binary64
import SliceAgent.Dict

/-!
JSON values. A value is canonical when each object lists its members in strictly rising key order;
`Json.canonical` brings any value into that form, the last of equal keys winning.
-/
namespace SliceAgent

inductive Json where
  | null
  | bool (b : Bool)
  | int (i : Int)
  | float (x : Binary64)
  | str (s : String)
  | arr (items : List Json)
  | obj (members : List (String × Json))
deriving Inhabited

namespace Json

mutual

/-- Sorts the members of every object, the last of equal keys winning. -/
def canonical : Json → Json
  | arr items => arr (canonicalItems items)
  | obj members => obj (canonicalMembers [] members)
  | j => j

def canonicalItems : List Json → List Json
  | [] => []
  | j :: js => canonical j :: canonicalItems js

def canonicalMembers (sorted : List (String × Json)) : List (String × Json) → List (String × Json)
  | [] => sorted
  | (k, j) :: ms => canonicalMembers (putEntry k (canonical j) sorted) ms

end

def strs (ss : List String) : Json := arr (ss.map str)

def nat (n : Nat) : Json := int n

def word (n : UInt32) : Json := nat n.toNat

def ofDict {β : Type u} (f : β → Json) (d : Dict β) : Json := obj (d.entries.map fun e => (e.1, f e.2))

def option {β : Type u} (f : β → Json) : Option β → Json
  | some b => f b
  | none => null

/-- The member of a key that is left out when there is nothing to say. -/
def member? {β : Type u} (k : String) (f : β → Json) : Option β → List (String × Json)
  | some b => [(k, f b)]
  | none => []

/-- The member of a key that is left out when the list is empty. -/
def memberList {β : Type u} (k : String) (f : β → Json) (bs : List β) : List (String × Json) :=
  if bs.isEmpty then [] else [(k, arr (bs.map f))]

end Json

end SliceAgent
