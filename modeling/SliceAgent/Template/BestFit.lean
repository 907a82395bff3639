import SliceAgent.Template.Basic

/-!
The template that serves a request best: the one with the least surplus; among those the one with
the fewest cores, then the least memory, then the first name.
-/
namespace SliceAgent

namespace Template

def betterFor (aiCore memoryGb : UInt32) (a b : Template) : Bool :=
  let surplusA := a.surplus aiCore memoryGb
  let surplusB := b.surplus aiCore memoryGb
  if surplusA ≠ surplusB then surplusA < surplusB
  else if a.aiCore ≠ b.aiCore then a.aiCore < b.aiCore
  else if a.memoryGb ≠ b.memoryGb then a.memoryGb < b.memoryGb
  else a.name < b.name

def pick (aiCore memoryGb : UInt32) (best : Option Template) (t : Template) : Option Template :=
  match best with
  | none => some t
  | some b => if t.betterFor aiCore memoryGb b then some t else some b

end Template

/-- The best of the templates that satisfy a request. -/
def Catalog.bestFit (c : Catalog) (aiCore memoryGb : UInt32) : Option Template :=
  (c.toList.filter (·.satisfies aiCore memoryGb)).foldl (Template.pick aiCore memoryGb) none

end SliceAgent
