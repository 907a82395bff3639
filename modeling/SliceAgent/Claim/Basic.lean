import SliceAgent.Doc.Fields

/-!
Resource claims: what the scheduler has assigned to whom, and the configuration that comes with it.
-/
namespace SliceAgent

/-- One device that was assigned to one request of a claim. -/
structure Assignment where
  request : String
  driver : String
  pool : String
  device : String
deriving DecidableEq, Repr

/-- Parameters that only the named driver understands. -/
structure DriverParameters where
  driver : String
  parameters : CanonicalJson

/-- A configuration and the requests that it is for, all of them if none is named. -/
structure ConfigEntry where
  source : String
  requests : List String
  parameters : Option DriverParameters

structure DeviceAllocation where
  results : List Assignment
  config : List ConfigEntry

structure ResourceClaim where
  uid : String
  nameSpace : String
  name : String
  allocation : Option DeviceAllocation

namespace Assignment

def encode (r : Assignment) : Json :=
  .obj [("request", .str r.request), ("driver", .str r.driver), ("pool", .str r.pool),
    ("device", .str r.device)]

def fields : Fields Assignment :=
  Assignment.mk <$> .required "request" Decoder.string <*> .required "driver" Decoder.string
    <*> .required "pool" Decoder.string <*> .required "device" Decoder.string

def decode : Decoder Assignment := Decoder.record "DeviceRequestAllocationResult" fields

end Assignment

namespace DriverParameters

def encode (p : DriverParameters) : Json :=
  .obj [("driver", .str p.driver), ("parameters", p.parameters.json)]

def fields : Fields DriverParameters :=
  DriverParameters.mk <$> .required "driver" Decoder.string <*> .required "parameters" Decoder.value

def decode : Decoder DriverParameters := Decoder.record "OpaqueDeviceConfiguration" fields

end DriverParameters

namespace ConfigEntry

def encode (c : ConfigEntry) : Json :=
  .obj ([("source", .str c.source), ("requests", .strs c.requests)]
    ++ Json.member? "opaque" DriverParameters.encode c.parameters)

def fields : Fields ConfigEntry :=
  ConfigEntry.mk <$> .required "source" Decoder.string <*> .list "requests" Decoder.string
    <*> .optional "opaque" DriverParameters.decode

def decode : Decoder ConfigEntry := Decoder.record "DeviceAllocationConfiguration" fields

end ConfigEntry

namespace DeviceAllocation

def empty : DeviceAllocation := ⟨[], []⟩

def encode (a : DeviceAllocation) : Json :=
  .obj [("results", .arr (a.results.map Assignment.encode)),
    ("config", .arr (a.config.map ConfigEntry.encode))]

def fields : Fields DeviceAllocation :=
  DeviceAllocation.mk <$> .list "results" Assignment.decode <*> .list "config" ConfigEntry.decode

def decode : Decoder DeviceAllocation := Decoder.record "DeviceAllocation" fields

/-- The allocation stands inside an object of its own. -/
def encodeResult (a : DeviceAllocation) : Json := .obj [("devices", a.encode)]

def resultFields : Fields DeviceAllocation := id <$> .defaulted "devices" decode empty

def decodeResult : Decoder DeviceAllocation := Decoder.record "AllocationResult" resultFields

end DeviceAllocation

namespace ResourceClaim

/-- The status holds the allocation once there is one. -/
def encodeStatus (allocation : Option DeviceAllocation) : Json :=
  .obj (Json.member? "allocation" DeviceAllocation.encodeResult allocation)

def statusFields : Fields (Option DeviceAllocation) :=
  id <$> .optional "allocation" DeviceAllocation.decodeResult

def decodeStatus : Decoder (Option DeviceAllocation) := Decoder.record "ClaimStatus" statusFields

def encode (c : ResourceClaim) : Json :=
  .obj [("uid", .str c.uid), ("namespace", .str c.nameSpace), ("name", .str c.name),
    ("status", encodeStatus c.allocation)]

def fields : Fields ResourceClaim :=
  ResourceClaim.mk <$> .required "uid" Decoder.string <*> .defaulted "namespace" Decoder.string ""
    <*> .defaulted "name" Decoder.string "" <*> .defaulted "status" decodeStatus none

def decode : Decoder ResourceClaim := Decoder.record "ResourceClaim" fields

end ResourceClaim

end SliceAgent
