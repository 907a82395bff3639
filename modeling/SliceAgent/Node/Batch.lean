import SliceAgent.Node.Basic

/-!
Claims in batches. The claims of a batch are taken one after another on the same node, those behind a
failure too, and each identifier has a result of its own.
-/
namespace SliceAgent

structure BatchResult where
  devices : List Device
  error : Option String
deriving DecidableEq, Repr

namespace BatchResult

def encode (r : BatchResult) : Json :=
  .obj (Json.memberList "devices" Device.encode r.devices ++ Json.member? "error" .str r.error)

def encodeAll (results : Dict BatchResult) : Json := .ofDict encode results

def ofPrepare (uid : String) : Except NodeError (List PreparedDevice) → BatchResult
  | .ok devices => ⟨devices.map (·.device), none⟩
  | .error e => ⟨[], some ("error preparing devices for claim " ++ uid ++ ": " ++ e.message)⟩

def ofUnprepare (uid : String) : Except NodeError Unit → BatchResult
  | .ok () => ⟨[], none⟩
  | .error e => ⟨[], some ("error unpreparing devices for claim " ++ uid ++ ": " ++ e.message)⟩

end BatchResult

namespace Node

/-- Prepares claims one after another; of claims with the same identifier the last result counts. -/
def prepareAll (n : Node) (claims : List ResourceClaim) : Dict BatchResult × Node :=
  claims.foldl (fun (results, n) claim =>
    let (result, n) := n.prepare claim
    (results.insert claim.uid (.ofPrepare claim.uid result), n)) (Dict.empty, n)

def unprepareAll (n : Node) (uids : List String) : Dict BatchResult × Node :=
  uids.foldl (fun (results, n) uid =>
    let (result, n) := n.unprepare uid
    (results.insert uid (.ofUnprepare uid result), n)) (Dict.empty, n)

end Node

end SliceAgent
