import SliceAgent.Node.Grant
import SliceAgent.Node.Host
import SliceAgent.Settings

/-!
The state of a node that prepares claims. The checkpoint is read before and written after each change,
so that a claim that is prepared again gets the devices that it was granted the first time.
-/
namespace SliceAgent

inductive NodeError where
  | grant (e : GrantError)
  | store (e : StoreError)
  | cdi (e : CdiError)

def GrantError.message : GrantError → String
  | notAllocated uid => "claim not yet allocated: " ++ uid
  | precedence e => "invalid config: " ++ e.message
  | config e => "invalid config: " ++ e.message
  | notAllocatable device => "requested device is not allocatable: " ++ device

def NodeError.message : NodeError → String
  | grant e => e.message
  | store e => "upstream: checkpoint: " ++ e.message
  | cdi e => "upstream: " ++ e.message

structure Node where
  cdi : CdiRoot
  claims : ClaimSettings
  engine : Engine
  inventory : Inventory
  /-- Whether there was no checkpoint yet. -/
  firstStart : Bool
  host : Host
deriving DecidableEq

namespace Node

/-- Starts with the given cards: writes the common specification, and a checkpoint if there is none. The
host is given back also when the start fails. -/
def start (cdi : CdiRoot) (claims : ClaimSettings) (engine : Engine) (inventory : Inventory)
    (host : Host) : Except NodeError Node × Host :=
  match host.writeCommonSpec cdi with
  | (.error e, host) => (.error (.cdi e), host)
  | (.ok (), host) =>
    match host.hasCheckpoint with
    | .error e => (.error (.store e), host)
    | .ok true => (.ok ⟨cdi, claims, engine, inventory, false, host⟩, host)
    | .ok false =>
      match host.writeCheckpoint .new with
      | (.error e, host) => (.error (.store e), host)
      | (.ok (), host) => (.ok ⟨cdi, claims, engine, inventory, true, host⟩, host)

def preparedClaims (n : Node) : Except NodeError (Dict (List PreparedDevice)) :=
  match n.host.readCheckpoint with
  | .error e => .error (.store e)
  | .ok c => .ok c.claims

def devices (n : Node) : List AllocatableDevice := n.inventory.toList

/-- Releases a slice, if it is allocated, and brings the inventory up to date. -/
def release (n : Node) (id : String) : Node :=
  match n.engine.release id with
  | .ok (change, engine) => { n with engine, inventory := n.inventory.apply change }
  | .error _ => n

def releaseAll (n : Node) (ids : List String) : Node := ids.foldl release n

def adopt (n : Node) (g : Granting) : Node := { n with engine := g.engine, inventory := g.inventory }

def commit (n : Node) (checkpoint : Checkpoint) (uid : String) (devices : List PreparedDevice) :
    Except NodeError Unit × Node :=
  match n.host.writeClaimSpec n.cdi uid devices with
  | (.error e, host) => (.error (.cdi e), { n with host })
  | (.ok (), host) =>
    match host.writeCheckpoint (checkpoint.insert uid devices) with
    | (.error e, host) => (.error (.store e), { n with host })
    | (.ok (), host) => (.ok (), { n with host })

/-- Gives back the slices of a claim that could not be prepared, the last one first, and removes its
specification, where that is possible. -/
def rollBack (n : Node) (uid : String) (carved : List String) : Node :=
  let n := n.releaseAll carved.reverse
  { n with host := (n.host.removeClaimSpec n.cdi uid).2 }

def afterFailure (n : Node) (uid : String) (carved : List String) : Node :=
  match n.claims.persistence with
  | .legacy => n
  | .compensating => n.rollBack uid carved

def prepareNew (n : Node) (claim : ResourceClaim) (checkpoint : Checkpoint) :
    Except NodeError (List PreparedDevice) × Node :=
  match grantClaim n.cdi.driverName (n.cdi.deviceIds claim.uid) n.claims.sources claim
      ⟨n.engine, n.inventory, []⟩ with
  | (.error e, g) => (.error (.grant e), (n.adopt g).afterFailure claim.uid g.carved)
  | (.ok devices, g) =>
    match (n.adopt g).commit checkpoint claim.uid devices with
    | (.error e, n) => (.error e, n.afterFailure claim.uid g.carved)
    | (.ok (), n) => (.ok devices, n)

/-- Prepares the devices of a claim, or reports those that it already has. -/
def prepare (n : Node) (claim : ResourceClaim) : Except NodeError (List PreparedDevice) × Node :=
  match n.host.readCheckpoint with
  | .error e => (.error (.store e), n)
  | .ok checkpoint =>
    match checkpoint.find? claim.uid with
    | some devices => (.ok devices, n)
    | none => n.prepareNew claim checkpoint

/-- Releases the devices of a claim and forgets it. A claim that is not on record needs nothing. -/
def unprepare (n : Node) (uid : String) : Except NodeError Unit × Node :=
  match n.host.readCheckpoint with
  | .error e => (.error (.store e), n)
  | .ok checkpoint =>
    match checkpoint.find? uid with
    | none => (.ok (), n)
    | some devices =>
      let n := n.releaseAll (devices.reverse.map (·.device.deviceName))
      match n.host.writeCheckpoint (checkpoint.erase uid) with
      | (.error e, host) => (.error (.store e), { n with host })
      | (.ok (), host) =>
        match host.removeClaimSpec n.cdi uid with
        | (.error e, host) => (.error (.cdi e), { n with host })
        | (.ok (), host) => (.ok (), { n with host })

/-- Drops devices that the engine does not know, and names them. -/
def reconcile (n : Node) : List String × Node :=
  let known := n.engine.knownIds
  (n.inventory.stale known, { n with inventory := n.inventory.reconcile known })

end Node

end SliceAgent
