import SliceAgent.Claim.Basic
import SliceAgent.Json.Printer
import SliceAgent.NpuConfig

/-!
Device classes: named selections of devices, with the parameters that requests for them carry.
-/
namespace SliceAgent

structure ClassSpec where
  selectors : List String
  config : List DriverParameters

structure DeviceClass where
  apiVersion : String
  kind : String
  name : String
  /-- The version under which the class is stored, empty when there is none. -/
  resourceVersion : String
  spec : ClassSpec

namespace ClassSpec

def encodeSelector (expression : String) : Json :=
  .obj [("cel", .obj [("expression", .str expression)])]

def encodeConfig (p : DriverParameters) : Json := .obj [("opaque", p.encode)]

def encode (s : ClassSpec) : Json :=
  .obj [("selectors", .arr (s.selectors.map encodeSelector)), ("config", .arr (s.config.map encodeConfig))]

def text (s : ClassSpec) : String := s.encode.compact

def decodeExpression : Decoder String :=
  Decoder.record "CelDeviceSelector" (id <$> .required "expression" Decoder.string)

def decodeSelector : Decoder String :=
  Decoder.record "DeviceSelector" (id <$> .required "cel" decodeExpression)

def decodeConfig : Decoder DriverParameters :=
  Decoder.record "DeviceClassConfiguration" (id <$> .required "opaque" DriverParameters.decode)

def fields : Fields ClassSpec :=
  ClassSpec.mk <$> .required "selectors" (Decoder.list decodeSelector)
    <*> .required "config" (Decoder.list decodeConfig)

def decode : Decoder ClassSpec := Decoder.record "DeviceClassSpec" fields

end ClassSpec

namespace DeviceClass

def encodeMetadata (c : DeviceClass) : Json :=
  .obj (("name", .str c.name)
    :: Json.member? "resourceVersion" .str (if c.resourceVersion = "" then none else some c.resourceVersion))

def encode (c : DeviceClass) : Json :=
  .obj [("apiVersion", .str c.apiVersion), ("kind", .str c.kind), ("metadata", c.encodeMetadata),
    ("spec", c.spec.encode)]

def metadataFields : Fields (String × String) :=
  Prod.mk <$> .required "name" Decoder.string <*> .defaulted "resourceVersion" Decoder.string ""

def decodeMetadata : Decoder (String × String) := Decoder.record "ObjectMeta" metadataFields

def ofParts (apiVersion kind : String) (metadata : String × String) (spec : ClassSpec) : DeviceClass :=
  ⟨apiVersion, kind, metadata.1, metadata.2, spec⟩

def fields : Fields DeviceClass :=
  ofParts <$> .required "apiVersion" Decoder.string <*> .required "kind" Decoder.string
    <*> .required "metadata" decodeMetadata <*> .required "spec" ClassSpec.decode

def decode : Decoder DeviceClass := Decoder.record "DeviceClass" fields

def ownApiVersion : String := "resource.k8s.io/v1beta1"

def ownKind : String := "DeviceClass"

/-- A class of one expression whose requests ask for a template, or for whole cards if it is empty. -/
def new (driver name expression templateName : String) : DeviceClass :=
  ⟨ownApiVersion, ownKind, name, "", ⟨[expression], [⟨driver, (NpuConfig.ofTemplate templateName).toRaw⟩]⟩⟩

end DeviceClass

end SliceAgent
