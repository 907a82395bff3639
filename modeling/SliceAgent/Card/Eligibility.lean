import SliceAgent.Card.Basic

/-!
Which templates a card offers. A whole card offers the catalog; a carved one offers what the policy
leaves of it.
-/
namespace SliceAgent

inductive Eligibility where
  /-- The templates whose name starts with a text. -/
  | leading (text : String)
  | all
  /-- The templates that fit in what is left of the card. -/
  | capacity
deriving DecidableEq, Repr

namespace Eligibility

def standard : Eligibility := leading "vir01"

instance : Inhabited Eligibility := ⟨standard⟩

def eligible (policy : Eligibility) (catalog : Catalog) (card : Card) : Catalog :=
  if card.isWhole then catalog
  else
    match policy with
    | all => catalog
    | leading text => catalog.filter fun t => text.toList.isPrefixOf t.name.toList
    | capacity =>
      let left := card.remaining catalog
      catalog.filter fun t => t.aiCore ≤ left.aiCore && t.memoryGb ≤ left.memoryGb

def encode : Eligibility → Json
  | leading text => .obj [("policy", .str "prefix"), ("prefix", .str text)]
  | all => .obj [("policy", .str "all")]
  | capacity => .obj [("policy", .str "capacity")]

/-- The policies by name; what stands beside the name is not yet read. -/
inductive Policy where
  | leading
  | all
  | capacity
deriving DecidableEq, Repr

def Policy.names : List (String × Policy) := [("prefix", leading), ("all", all), ("capacity", capacity)]

def Policy.decode : Decoder Policy := fun _ d =>
  match d with
  | .str s =>
    match Policy.names.lookup s with
    | some p => .ok p
    | none => .error (.unknownVariant s (Policy.names.map (·.1)))
  | d => .error (d.mismatch "variant identifier")

def leadingFields : Fields Eligibility := leading <$> .defaulted "prefix" Decoder.string "vir01"

def ofMembers (dialect : Dialect) (members : List (Doc × Doc)) : Policy → Decoded Eligibility
  | .leading => leadingFields.fromMembers dialect members
  | .all => .ok all
  | .capacity => .ok capacity

def ofItems (dialect : Dialect) (items : List Doc) : Policy → Decoded Eligibility
  | .leading =>
    match items with
    | [] => .ok standard
    | [d] => leading <$> Decoder.string dialect d
    | d :: _ => do
      let _ ← Decoder.string dialect d
      .error (.contentTooLong items.length 1)
  | .all => if items.isEmpty then .ok all else .error (.contentTooLong items.length 0)
  | .capacity => if items.isEmpty then .ok capacity else .error (.contentTooLong items.length 0)

def splitPolicy (dialect : Dialect) :
    Option Policy → List (Doc × Doc) → Decoded (Option Policy × List (Doc × Doc))
  | policy, [] => .ok (policy, [])
  | policy, (k, d) :: ms =>
    match k with
    | .str "policy" => do
      if policy.isSome then .error (.duplicateField "policy")
      else
        let p ← Policy.decode dialect d
        splitPolicy dialect (some p) ms
    | .str _ => do
      Decoder.skip d
      let (policy, rest) ← splitPolicy dialect policy ms
      .ok (policy, (k, d) :: rest)
    | _ => .error .malformed

/-- An object that names the policy among its members, or a list that starts with its name. -/
def decode : Decoder Eligibility := fun dialect d =>
  match d with
  | .obj members => do
    let (policy, rest) ← splitPolicy dialect none members
    match policy with
    | some p => ofMembers dialect rest p
    | none => .error (.missingField "policy")
  | .moment => .error (.missingField "policy")
  | .arr [] => .error (.missingField "policy")
  | .arr (d :: items) => do
    let p ← Policy.decode dialect d
    ofItems dialect items p
  | d => .error (d.mismatch "internally tagged enum TemplateEligibility")

end Eligibility

end SliceAgent
