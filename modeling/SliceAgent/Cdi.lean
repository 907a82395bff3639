import SliceAgent.Checkpoint.Basic
import SliceAgent.FileTree
import SliceAgent.Json.Parser
import SliceAgent.Json.Printer

/-!
Specifications of container devices. A common one carries what holds for the whole node, and each
prepared claim has one of its own with the edits of its devices in turn; each stands in a file.
-/
namespace SliceAgent

structure CdiDevice where
  name : String
  edits : ContainerEdits
deriving DecidableEq, Repr

structure CdiSpec where
  version : String
  kind : String
  devices : List CdiDevice
deriving DecidableEq, Repr

namespace CdiDevice

def encode (d : CdiDevice) : Json := .obj [("name", .str d.name), ("containerEdits", d.edits.encode)]

def fields : Fields CdiDevice :=
  CdiDevice.mk <$> .required "name" Decoder.string <*> .required "containerEdits" ContainerEdits.decode

def decode : Decoder CdiDevice := Decoder.record "CdiDevice" fields

end CdiDevice

namespace CdiSpec

def encode (s : CdiSpec) : Json :=
  .obj [("cdiVersion", .str s.version), ("kind", .str s.kind),
    ("devices", .arr (s.devices.map CdiDevice.encode))]

def fields : Fields CdiSpec :=
  CdiSpec.mk <$> .required "cdiVersion" Decoder.string <*> .required "kind" Decoder.string
    <*> .required "devices" (Decoder.list CdiDevice.decode)

def decode : Decoder CdiSpec := Decoder.record "CdiSpec" fields

def content (s : CdiSpec) : ByteArray := s.encode.pretty.toUTF8

end CdiSpec

inductive CdiError where
  | noRoot (root : String) (e : FileError)
  | reading (path : String) (e : FileError)
  | writing (path : String) (e : FileError)
  | removing (path : String) (e : FileError)
  /-- The file holds no specification; `text` says what is wrong, but not where. -/
  | unreadable (text : String)
  | refused (text : String)
deriving DecidableEq, Repr

def CdiError.message : CdiError → String
  | noRoot root e => "unable to create CDI root " ++ root ++ ": " ++ e.message
  | reading path e => "reading CDI spec " ++ path ++ ": " ++ e.message
  | writing path e => "writing CDI spec " ++ path ++ ": " ++ e.message
  | removing path e => "removing CDI spec " ++ path ++ ": " ++ e.message
  | unreadable text => text
  | refused text => text

/-- Where the specifications of a driver stand, and on whose behalf. -/
structure CdiRoot where
  root : String
  driverName : String
  nodeName : String
deriving DecidableEq, Repr

namespace CdiRoot

def version : String := "0.3.0"

def common : String := "common"

def vendor (r : CdiRoot) : String := "k8s." ++ r.driverName

def kind (r : CdiRoot) : String := r.vendor ++ "/npu"

/-- What a container calls a device by. -/
def qualifiedName (r : CdiRoot) (device : String) : String := r.kind ++ "=" ++ device

def deviceIds (r : CdiRoot) (uid : String) : List String := [r.qualifiedName common, r.qualifiedName uid]

def specPath (r : CdiRoot) (name : String) : String :=
  r.root ++ "/" ++ r.vendor ++ "-npu_" ++ name ++ ".json"

def spec (r : CdiRoot) (name : String) (edits : ContainerEdits) : CdiSpec :=
  ⟨version, r.kind, [⟨name, edits⟩]⟩

def commonEdits (r : CdiRoot) : ContainerEdits :=
  .ofEnv ["KUBERNETES_NODE_NAME=" ++ r.nodeName, "DRA_RESOURCE_DRIVER_NAME=" ++ r.driverName]

def claimEdits (devices : List PreparedDevice) : ContainerEdits :=
  ContainerEdits.concat (devices.map (·.edits))

def establish (r : CdiRoot) (t : FileTree) : Except CdiError FileTree :=
  match t.createDirectory r.root with
  | .error e => .error (.noRoot r.root e)
  | .ok t => .ok t

def write (r : CdiRoot) (t : FileTree) (name : String) (edits : ContainerEdits) :
    Except CdiError Unit × FileTree :=
  match t.replace (r.specPath name) (r.spec name edits).content with
  | (.error e, t) => (.error (.writing (r.specPath name) e), t)
  | (.ok (), t) => (.ok (), t)

def writeCommon (r : CdiRoot) (t : FileTree) : Except CdiError Unit × FileTree :=
  r.write t common r.commonEdits

def writeClaim (r : CdiRoot) (t : FileTree) (uid : String) (devices : List PreparedDevice) :
    Except CdiError Unit × FileTree :=
  r.write t uid (claimEdits devices)

/-- Removes the specification of a claim, if there is one. -/
def removeClaim (r : CdiRoot) (t : FileTree) (uid : String) : Except CdiError Unit × FileTree :=
  match t.remove (r.specPath uid) with
  | .ok t => (.ok (), t)
  | .error .missing => (.ok (), t)
  | .error e => (.error (.removing (r.specPath uid) e), t)

def read (r : CdiRoot) (t : FileTree) (name : String) : Except CdiError CdiSpec :=
  match t.read (r.specPath name) with
  | .error e => .error (.reading (r.specPath name) e)
  | .ok content =>
    match Json.decodeBytes CdiSpec.decode content with
    | .error e => .error (.unreadable (e.message .json))
    | .ok s => .ok s

end CdiRoot

end SliceAgent
