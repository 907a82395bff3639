import SliceAgent.ContainerEdits

/-!
The record of prepared claims: for each claim, the devices it was granted and what its containers get.
-/
namespace SliceAgent

structure Device where
  requestNames : List String
  poolName : String
  deviceName : String
  cdiDeviceIds : List String
deriving DecidableEq, Repr

structure PreparedDevice where
  device : Device
  edits : ContainerEdits
deriving DecidableEq, Repr

structure Checkpoint where
  version : String
  claims : Dict (List PreparedDevice)
deriving DecidableEq, Repr

namespace Device

def members (d : Device) : List (String × Json) :=
  [("requestNames", .strs d.requestNames), ("poolName", .str d.poolName),
    ("deviceName", .str d.deviceName), ("cdiDeviceIDs", .strs d.cdiDeviceIds)]

def encode (d : Device) : Json := .obj d.members

def fields : Fields Device :=
  Device.mk <$> .required "requestNames" (Decoder.list Decoder.string)
    <*> .required "poolName" Decoder.string <*> .required "deviceName" Decoder.string
    <*> .required "cdiDeviceIDs" (Decoder.list Decoder.string)

end Device

namespace PreparedDevice

/-- The device's own members stand beside the edits. -/
def encode (p : PreparedDevice) : Json := .obj (p.device.members ++ [("containerEdits", p.edits.encode)])

def splitEdits (dialect : Dialect) :
    Option ContainerEdits → List (Doc × Doc) → Decoded (Option ContainerEdits × List (Doc × Doc))
  | edits, [] => .ok (edits, [])
  | edits, (k, d) :: ms =>
    match k with
    | .str "containerEdits" =>
      if edits.isSome then .error (.duplicateField "containerEdits")
      else do
        let e ← ContainerEdits.decode dialect d
        splitEdits dialect (some e) ms
    | .str _ =>
      if d.value?.isNone then .error .malformed
      else do
        let (edits, rest) ← splitEdits dialect edits ms
        .ok (edits, (k, d) :: rest)
    | _ => .error .malformed

def decode : Decoder PreparedDevice := fun dialect d =>
  match d with
  | .obj members => do
    let (edits, rest) ← splitEdits dialect none members
    let device ← Device.fields.fromMembers dialect rest
    .ok ⟨device, edits.getD .none⟩
  | d => .error (d.mismatch "struct PreparedDevice")

end PreparedDevice

namespace Checkpoint

def storedName : String := "checkpoint.json"

def new : Checkpoint := ⟨"v1", Dict.empty⟩

instance : Inhabited Checkpoint := ⟨new⟩

def find? (c : Checkpoint) (uid : String) : Option (List PreparedDevice) := c.claims.find? uid

def insert (c : Checkpoint) (uid : String) (devices : List PreparedDevice) : Checkpoint :=
  { c with claims := c.claims.insert uid devices }

def erase (c : Checkpoint) (uid : String) : Checkpoint := { c with claims := c.claims.erase uid }

def encodeClaims (claims : Dict (List PreparedDevice)) : Json :=
  .ofDict (fun ds => .arr (ds.map PreparedDevice.encode)) claims

def encode (c : Checkpoint) : Json :=
  .obj [("version", .str c.version), ("claims", encodeClaims c.claims)]

def fields : Fields Checkpoint :=
  Checkpoint.mk <$> .required "version" Decoder.string
    <*> .defaulted "claims" (Decoder.dict (Decoder.list PreparedDevice.decode)) Dict.empty

def decode : Decoder Checkpoint := Decoder.record "Checkpoint" fields

end Checkpoint

end SliceAgent
