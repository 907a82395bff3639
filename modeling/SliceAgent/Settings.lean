import SliceAgent.Card.Eligibility
import SliceAgent.Claim.Precedence

/-!
The settings of an agent. Each may be left out, and then has the value it has in `Settings.standard`.
-/
namespace SliceAgent

/-- What becomes of the slices of a claim that cannot be prepared to the end. -/
inductive Persistence where
  /-- They stay allocated. -/
  | legacy
  /-- They are released again. -/
  | compensating
deriving DecidableEq, Repr

/-- A card as declared; an amount that is not given cannot be asked for either. -/
structure DeclaredCard where
  logicalIndex : UInt32
  model : String
  aiCore : Option UInt32
  memoryGb : Option UInt32
deriving DecidableEq, Repr

structure ClaimSettings where
  sources : ConfigSources
  persistence : Persistence
deriving DecidableEq, Repr

structure Settings where
  driverName : String
  nodeName : String
  dataDir : String
  cdiRoot : String
  templateFile : String
  classDir : Option String
  reconcileSeconds : UInt64
  eligibility : Eligibility
  claims : ClaimSettings
  cards : List DeclaredCard
deriving DecidableEq, Repr

namespace Persistence

def cases : List (String × Persistence) := [("legacy", legacy), ("compensating", compensating)]

def name : Persistence → String
  | legacy => "legacy"
  | compensating => "compensating"

def decode : Decoder Persistence := Decoder.variant cases

end Persistence

namespace DeclaredCard

def encode (c : DeclaredCard) : Json :=
  .obj [("logical_index", .word c.logicalIndex), ("model", .str c.model),
    ("ai_core", .option .word c.aiCore), ("memory_gb", .option .word c.memoryGb)]

def fields : Fields DeclaredCard :=
  DeclaredCard.mk <$> .required "logical_index" Decoder.uint32 <*> .required "model" Decoder.string
    <*> .optional "ai_core" Decoder.uint32 <*> .optional "memory_gb" Decoder.uint32

def decode : Decoder DeclaredCard := Decoder.record "DeviceConfig" fields

end DeclaredCard

namespace ClaimSettings

def standard : ClaimSettings := ⟨.classOnly, .legacy⟩

def encode (c : ClaimSettings) : Json :=
  .obj [("config_sources", .str c.sources.name), ("persistence", .str c.persistence.name)]

def fields : Fields ClaimSettings :=
  ClaimSettings.mk <$> .defaulted "config_sources" ConfigSources.decode .classOnly
    <*> .defaulted "persistence" Persistence.decode .legacy

def decode : Decoder ClaimSettings := Decoder.record "ClaimsConfig" fields

end ClaimSettings

namespace Settings

/-- The name of the driver, which is also the domain of its attributes. -/
def standardDriver : String := "npu.example.com"

def standard : Settings where
  driverName := standardDriver
  nodeName := ""
  dataDir := "/var/lib/kubelet/plugins/" ++ standardDriver
  cdiRoot := "/var/run/cdi"
  templateFile := "/etc/npu/template-info.txt"
  classDir := none
  reconcileSeconds := 30
  eligibility := .standard
  claims := .standard
  cards := []

def encodePartitioning (e : Eligibility) : Json := .obj [("eligibility", e.encode)]

def partitioningFields : Fields Eligibility :=
  id <$> .defaulted "eligibility" Eligibility.decode .standard

def decodePartitioning : Decoder Eligibility := Decoder.record "PartitioningConfig" partitioningFields

def encode (s : Settings) : Json :=
  .obj [("driver_name", .str s.driverName), ("node_name", .str s.nodeName), ("data_dir", .str s.dataDir),
    ("cdi_root", .str s.cdiRoot), ("template_file", .str s.templateFile),
    ("device_class_dir", .option .str s.classDir),
    ("reconcile_interval_secs", .nat s.reconcileSeconds.toNat),
    ("partitioning", encodePartitioning s.eligibility), ("claims", s.claims.encode),
    ("devices", .arr (s.cards.map DeclaredCard.encode))]

def fields : Fields Settings :=
  Settings.mk <$> .defaulted "driver_name" Decoder.string standard.driverName
    <*> .defaulted "node_name" Decoder.string standard.nodeName
    <*> .defaulted "data_dir" Decoder.path standard.dataDir
    <*> .defaulted "cdi_root" Decoder.path standard.cdiRoot
    <*> .defaulted "template_file" Decoder.path standard.templateFile
    <*> .optional "device_class_dir" Decoder.path
    <*> .defaulted "reconcile_interval_secs" Decoder.uint64 standard.reconcileSeconds
    <*> .defaulted "partitioning" decodePartitioning standard.eligibility
    <*> .defaulted "claims" ClaimSettings.decode standard.claims
    <*> .list "devices" DeclaredCard.decode

def decode : Decoder Settings := Decoder.record "DriverConfig" fields

end Settings

end SliceAgent
