import SliceAgent.Inventory
import SliceAgent.Settings

/-!
Discovery of the cards of a node. Each card is entered once, under the name of its index, in the engine
and in the inventory alike.
-/
namespace SliceAgent

structure ListedCard where
  logicalIndex : UInt32
  model : String
deriving DecidableEq, Repr

inductive QueryError where
  | unsupported
  | failed (reason : String)
deriving DecidableEq, Repr

def QueryError.message : QueryError → String
  | unsupported => "query not supported by this device"
  | failed reason => "query failed: " ++ reason

/-- Who knows the cards of a node. -/
structure Provider where
  /-- The cards, or why they cannot be listed. -/
  cards : Except String (List ListedCard)
  coreCount : UInt32 → Except QueryError UInt32
  memoryGb : UInt32 → Except QueryError UInt32

namespace Provider

def declaredAt (cards : List DeclaredCard) (index : UInt32) : Except QueryError DeclaredCard :=
  match cards.find? (·.logicalIndex = index) with
  | some c => .ok c
  | none => .error (.failed ("no device with logical index " ++ Text.decimal index.toNat))

def declaredAmount (cards : List DeclaredCard) (amount : DeclaredCard → Option UInt32)
    (index : UInt32) : Except QueryError UInt32 :=
  match declaredAt cards index with
  | .error e => .error e
  | .ok c =>
    match amount c with
    | some n => .ok n
    | none => .error .unsupported

def ofDeclared (cards : List DeclaredCard) : Provider where
  cards := .ok (cards.map fun c => ⟨c.logicalIndex, c.model⟩)
  coreCount := declaredAmount cards (·.aiCore)
  memoryGb := declaredAmount cards (·.memoryGb)

/-- What an answer counts as: a fixed amount for a card that cannot tell, nothing if it fails. -/
def resolve (standard : UInt32) : Except QueryError UInt32 → UInt32
  | .ok n => n
  | .error .unsupported => standard
  | .error (.failed _) => 0

def standardCores : UInt32 := 1

def standardMemory : UInt32 := 32

def capacity (p : Provider) (index : UInt32) : Capacity :=
  ⟨resolve standardCores (p.coreCount index), resolve standardMemory (p.memoryGb index)⟩

end Provider

def discoverCard (p : Provider) (state : Inventory × Engine) (c : ListedCard) : Inventory × Engine :=
  let id := SliceId.wholeCard c.logicalIndex
  let capacity := p.capacity c.logicalIndex
  (state.1.insertSlice ⟨id, c.logicalIndex, c.model, .wholeCard, capacity⟩,
    state.2.register id c.logicalIndex c.model capacity)

/-- The inventory of whole cards, and the engine with these cards entered. -/
def discover (p : Provider) (engine : Engine) (nodeName : String) : Except String (Inventory × Engine) :=
  match p.cards with
  | .error reason => .error reason
  | .ok cards => .ok (cards.foldl (discoverCard p) (.new nodeName, engine))

end SliceAgent
