import SliceAgent.Http.MediaType
import SliceAgent.Json.Parser
import SliceAgent.Node.Batch

/-!
The requests that a node answers: its devices, the claims on record, and batches of claims to prepare
or unprepare.
-/
namespace SliceAgent

structure Request where
  method : String
  /-- The target, which may go on with a query. -/
  path : String
  contentType : Option String
  body : String
deriving DecidableEq, Repr

structure Response where
  status : Nat
  body : Option Json

inductive Refusal where
  | unknownPath
  | wrongMethod
  | wrongMediaType
  | notJson
  | wrongShape
deriving DecidableEq, Repr

def Refusal.status : Refusal → Nat
  | unknownPath => 404
  | wrongMethod => 405
  | wrongMediaType => 415
  | notJson => 400
  | wrongShape => 422

inductive Route where
  | claims
  | devices
  | prepare
  | unprepare
deriving DecidableEq, Repr

inductive Call where
  | claims
  | devices
  | prepare (claims : List ResourceClaim)
  | unprepare (uids : List String)

namespace Route

def ofPath? (path : String) : Option Route :=
  [("/api/v1/claims", claims), ("/api/v1/devices", devices), ("/api/v1/claims/prepare", prepare),
    ("/api/v1/claims/unprepare", unprepare)].lookup path

end Route

namespace Request

def barePath (r : Request) : String :=
  String.ofList (r.path.toList.takeWhile fun c => c != '?' && c != '#')

def isJson (r : Request) : Bool := (r.contentType.bind MediaType.parse?).any (·.isJson)

/-- The decoded body. A text that is no JSON is told from one that has another shape. -/
def decodeBody {α : Type} (dec : Decoder α) (r : Request) : Except Refusal α :=
  if !r.isJson then .error .wrongMediaType
  else
    match Json.decodeText dec r.body with
    | .ok a => .ok a
    | .error .malformed => .error .notJson
    | .error (.tooLong _) => .error .notJson
    | .error _ => .error .wrongShape

def claimsFields : Fields (List ResourceClaim) :=
  id <$> .required "claims" (Decoder.list ResourceClaim.decode)

def uidsFields : Fields (List String) := id <$> .required "claimUids" (Decoder.list Decoder.string)

/-- The call that a request makes. What can be got can also be asked for without content. -/
def call (r : Request) : Except Refusal Call :=
  match Route.ofPath? r.barePath with
  | none => .error .unknownPath
  | some .claims => if r.method = "GET" ∨ r.method = "HEAD" then .ok .claims else .error .wrongMethod
  | some .devices => if r.method = "GET" ∨ r.method = "HEAD" then .ok .devices else .error .wrongMethod
  | some .prepare =>
    if r.method = "POST" then
      (r.decodeBody (Decoder.record "PrepareRequest" claimsFields)).map .prepare
    else .error .wrongMethod
  | some .unprepare =>
    if r.method = "POST" then
      (r.decodeBody (Decoder.record "UnprepareRequest" uidsFields)).map .unprepare
    else .error .wrongMethod

end Request

namespace Response

def success (data : Json) : Response := ⟨200, some (.obj [("success", .bool true), ("data", data)])⟩

def failure (message : String) : Response :=
  ⟨500, some (.obj [("success", .bool false), ("error", .str message)])⟩

def refused (r : Refusal) : Response := ⟨r.status, none⟩

/-- The response without its content. -/
def head (r : Response) : Response := ⟨r.status, none⟩

end Response

namespace Node

def answer (n : Node) : Call → Response × Node
  | .claims =>
    match n.preparedClaims with
    | .ok claims => (.success (Checkpoint.encodeClaims claims), n)
    | .error e => (.failure e.message, n)
  | .devices => (.success (.arr (n.devices.map AllocatableDevice.encode)), n)
  | .prepare claims =>
    let (results, n) := n.prepareAll claims
    (.success (BatchResult.encodeAll results), n)
  | .unprepare uids =>
    let (results, n) := n.unprepareAll uids
    (.success (BatchResult.encodeAll results), n)

def respond (n : Node) (r : Request) : Response × Node :=
  match r.call with
  | .error refusal => (.refused refusal, n)
  | .ok call =>
    let (response, n) := n.answer call
    (if r.method = "HEAD" then response.head else response, n)

end Node

end SliceAgent
