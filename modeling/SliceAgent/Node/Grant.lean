import SliceAgent.Checkpoint.Basic
import SliceAgent.Claim.Precedence
import SliceAgent.Inventory

/-!
The granting of devices to the requests of a claim. A device that the engine allocates is granted; so
is one that it cannot allocate, as it was assigned, as long as it is in the inventory.
-/
namespace SliceAgent

inductive GrantError where
  | notAllocated (uid : String)
  | precedence (e : PrecedenceError)
  | config (e : ConfigError)
  | notAllocatable (device : String)

structure Granted where
  assignment : Assignment
  deviceId : String
deriving DecidableEq, Repr

/-- What the granting of devices changes, and the slices that were allocated, the first one first. -/
structure Granting where
  engine : Engine
  inventory : Inventory
  carved : List String
deriving DecidableEq, Repr

/-- The amounts that a request asks for: those of its template, or none for the whole card. -/
def requestedAmounts (configs : List RankedConfig) (request : String) (catalog : Catalog) :
    UInt32 × UInt32 :=
  match requestedTemplate? configs request catalog with
  | some t => (t.aiCore, t.memoryGb)
  | none => (0, 0)

namespace Granting

/-- Allocates the assigned device, if it can be allocated, and names the one that is granted. -/
def take (g : Granting) (configs : List RankedConfig) (r : Assignment) : String × Granting :=
  let (aiCore, memoryGb) := requestedAmounts configs r.request g.engine.catalog
  match g.engine.allocate r.device aiCore memoryGb with
  | .ok (a, engine) =>
    (a.slice.id, ⟨engine, g.inventory.apply a.change, g.carved ++ [a.slice.id]⟩)
  | .error _ => (r.device, g)

def grant (g : Granting) (configs : List RankedConfig) (r : Assignment) :
    Except GrantError Granted × Granting :=
  let (deviceId, g) := g.take configs r
  if g.inventory.contains deviceId then (.ok ⟨r, deviceId⟩, g)
  else (.error (.notAllocatable deviceId), g)

/-- Grants one device after another, up to the first that cannot be granted. -/
def grantAll (configs : List RankedConfig) :
    List Assignment → Granting → Except GrantError (List Granted) × Granting
  | [], g => (.ok [], g)
  | r :: rs, g =>
    match g.grant configs r with
    | (.error e, g) => (.error e, g)
    | (.ok d, g) =>
      match grantAll configs rs g with
      | (.error e, g) => (.error e, g)
      | (.ok ds, g) => (.ok (d :: ds), g)

end Granting

def configFor (configs : List RankedConfig) (d : Granted) : RankedConfig :=
  (applicableConfig? configs d.assignment.request).getD ⟨0, [], .standard⟩

/-- Checks the configurations that any device is granted under, in the order of precedence. -/
def checkConfigs (granted : List Granted) (configs : List RankedConfig) :
    List RankedConfig → Except ConfigError Unit
  | [] => .ok ()
  | c :: cs =>
    if granted.any fun d => (configFor configs d).key == c.key then
      match c.config.normalize.validate with
      | .error e => .error e
      | .ok () => checkConfigs granted configs cs
    else checkConfigs granted configs cs

/-- The card that a device is on, or the rest of its name if that does not tell. -/
def visibleDevice (deviceId : String) : String :=
  match SliceId.parse? deviceId with
  | some id => Text.decimal id.card.toNat
  | none => SliceId.suffix deviceId

def templateSetting (engine : Engine) (deviceId : String) : List String :=
  if SliceId.isSliceId deviceId then
    match engine.templateOf deviceId with
    | .ok name => if name = "" then [] else ["ASCEND_VNPU_SPECS=" ++ name]
    | .error _ => []
  else []

def sharingSettings (deviceId : String) (s : Sharing) : List String :=
  let lead := "NPU_DEVICE_" ++ SliceId.suffix deviceId
  (lead ++ "_SHARING_STRATEGY=" ++ s.strategy.name) ::
    match s.strategy with
    | .timeSlicing =>
      match s.timeSlice with
      | some t => [lead ++ "_TIMESLICE_INTERVAL=" ++ t.name]
      | none => []
    | .spacePartitioning =>
      match s.partitionCount with
      | some n => [lead ++ "_PARTITION_COUNT=" ++ Text.decimalInt n.toInt]
      | none => []

def deviceEdits (engine : Engine) (deviceId : String) (config : NpuConfig) : ContainerEdits :=
  .ofEnv ([("ASCEND_VISIBLE_DEVICES=" ++ visibleDevice deviceId)] ++ templateSetting engine deviceId
    ++ (config.sharing.map (sharingSettings deviceId)).getD [])

def preparedDevice (cdiIds : List String) (configs : List RankedConfig) (engine : Engine) (d : Granted) :
    PreparedDevice :=
  ⟨⟨[d.assignment.request], d.assignment.pool, d.deviceId, cdiIds⟩,
    deviceEdits engine d.deviceId (configFor configs d).config.normalize⟩

/-- Grants the devices of a claim that are assigned to a driver. What was allocated until an error
stays so. -/
def grantClaim (driver : String) (cdiIds : List String) (sources : ConfigSources) (claim : ResourceClaim)
    (g : Granting) : Except GrantError (List PreparedDevice) × Granting :=
  match claim.allocation with
  | none => (.error (.notAllocated claim.uid), g)
  | some allocation =>
    match resolveConfigs driver sources allocation.config with
    | .error e => (.error (.precedence e), g)
    | .ok configs =>
      match Granting.grantAll configs (allocation.results.filter (·.driver = driver)) g with
      | (.error e, g) => (.error e, g)
      | (.ok granted, g) =>
        match checkConfigs granted configs configs with
        | .error e => (.error (.config e), g)
        | .ok () => (.ok (granted.map (preparedDevice cdiIds configs g.engine)), g)

end SliceAgent
