import SliceAgent.Doc.Fields

/-!
The configuration that a request may carry for this agent: how a device is shared between containers,
and the template to carve it with.
-/
namespace SliceAgent

inductive SharingStrategy where
  | timeSlicing
  | spacePartitioning
deriving DecidableEq, Repr

inductive TimeSlice where
  | default
  | short
  | medium
  | long
deriving DecidableEq, Repr

/-- How a device is shared, with the settings given for either strategy. -/
structure Sharing where
  strategy : SharingStrategy
  timeSlice : Option TimeSlice
  partitionCount : Option Int32
deriving DecidableEq, Repr

structure NpuConfig where
  apiVersion : String
  kind : String
  sharing : Option Sharing
  /-- The template's name, which may be given and empty. -/
  template : Option String
deriving DecidableEq, Repr

namespace SharingStrategy

def name : SharingStrategy → String
  | timeSlicing => "TimeSlicing"
  | spacePartitioning => "SpacePartitioning"

def decode : Decoder SharingStrategy :=
  Decoder.variant [("TimeSlicing", timeSlicing), ("SpacePartitioning", spacePartitioning)]

end SharingStrategy

namespace TimeSlice

def name : TimeSlice → String
  | default => "Default"
  | short => "Short"
  | medium => "Medium"
  | long => "Long"

def encode (t : TimeSlice) : Json := .obj [("interval", .str t.name)]

def fields : Fields TimeSlice :=
  id <$> .required "interval" (Decoder.variant
    [("Default", default), ("Short", short), ("Medium", medium), ("Long", long)])

def decode : Decoder TimeSlice := Decoder.record "TimeSlicingConfig" fields

end TimeSlice

namespace Sharing

def encodeCount (n : Int32) : Json := .obj [("partitionCount", .int n.toInt)]

def countFields : Fields Int32 := id <$> .required "partitionCount" Decoder.int32

def decodeCount : Decoder Int32 := Decoder.record "SpacePartitioningConfig" countFields

def encode (s : Sharing) : Json :=
  .obj (("strategy", .str s.strategy.name) :: Json.member? "timeSlicingConfig" TimeSlice.encode s.timeSlice
    ++ Json.member? "spacePartitioningConfig" encodeCount s.partitionCount)

def fields : Fields Sharing :=
  Sharing.mk <$> .required "strategy" SharingStrategy.decode
    <*> .optional "timeSlicingConfig" TimeSlice.decode
    <*> .optional "spacePartitioningConfig" decodeCount

def decode : Decoder Sharing := Decoder.record "Sharing" fields

end Sharing

inductive Inconsistency where
  | noSharing
  | countWithTimeSlicing
  | intervalWithSpacePartitioning
  | negativeCount (n : Int32)
deriving DecidableEq, Repr

inductive ConfigError where
  | unknownKind (apiVersion kind : String)
  | inconsistent (what : Inconsistency)
  | undecodable (e : DecodeError)

def Inconsistency.message : Inconsistency → String
  | noSharing => "no sharing strategy set"
  | countWithTimeSlicing => "spacePartitioningConfig set with TimeSlicing strategy"
  | intervalWithSpacePartitioning => "timeSlicingConfig set with SpacePartitioning strategy"
  | negativeCount n => "invalid partition count: " ++ Text.decimalInt n.toInt

def ConfigError.message : ConfigError → String
  | unknownKind apiVersion kind => "unrecognized config type: " ++ apiVersion ++ "/" ++ kind
  | inconsistent what => "invalid config: " ++ what.message
  | undecodable e => "config decode error: " ++ e.message .json

namespace NpuConfig

def ownApiVersion : String := "npu.resource.example.com/v1alpha1"

def ownKind : String := "NpuConfig"

/-- What applies to every request: equal shares of time. -/
def standard : NpuConfig :=
  ⟨ownApiVersion, ownKind, some ⟨.timeSlicing, some .default, none⟩, none⟩

def ofTemplate (name : String) : NpuConfig := ⟨ownApiVersion, ownKind, none, some name⟩

def encodeTemplate (name : String) : Json := .obj [("templateName", .str name)]

def templateFields : Fields String := id <$> .defaulted "templateName" Decoder.string ""

def decodeTemplate : Decoder String := Decoder.record "VnpuSpec" templateFields

def encode (c : NpuConfig) : Json :=
  .obj ([("apiVersion", .str c.apiVersion), ("kind", .str c.kind)]
    ++ Json.member? "sharing" Sharing.encode c.sharing
    ++ Json.member? "vnpuSpec" encodeTemplate c.template)

def toRaw (c : NpuConfig) : CanonicalJson := .ofJson c.encode

def fields : Fields NpuConfig :=
  NpuConfig.mk <$> .required "apiVersion" Decoder.string <*> .required "kind" Decoder.string
    <*> .optional "sharing" Sharing.decode <*> .optional "vnpuSpec" decodeTemplate

def kindFields : Fields (String × String) :=
  Prod.mk <$> .defaulted "apiVersion" Decoder.string "" <*> .defaulted "kind" Decoder.string ""

/-- Reads raw parameters. Their kind is looked at first, and must be this one. -/
def ofRaw (raw : Json) : Except ConfigError NpuConfig :=
  match Decoder.record "TypeMeta" kindFields .json (.ofJson raw) with
  | .error e => .error (.undecodable e)
  | .ok (apiVersion, kind) =>
    if apiVersion ≠ ownApiVersion ∨ kind ≠ ownKind then .error (.unknownKind apiVersion kind)
    else
      match Decoder.record "NpuConfig" fields .json (.ofJson raw) with
      | .error e => .error (.undecodable e)
      | .ok c => .ok c

def templateName (c : NpuConfig) : Option String := c.template.filter (· ≠ "")

end NpuConfig

/-- Adds the settings of the strategy where they are missing. -/
def Sharing.normalize (s : Sharing) : Sharing :=
  match s.strategy with
  | .timeSlicing => { s with timeSlice := some (s.timeSlice.getD .default) }
  | .spacePartitioning => { s with partitionCount := some (s.partitionCount.getD 1) }

def Sharing.validate (s : Sharing) : Except ConfigError Unit :=
  match s.strategy with
  | .timeSlicing =>
    if s.partitionCount.isSome then .error (.inconsistent .countWithTimeSlicing) else .ok ()
  | .spacePartitioning =>
    if s.timeSlice.isSome then .error (.inconsistent .intervalWithSpacePartitioning)
    else
      match s.partitionCount with
      | some n => if n < 0 then .error (.inconsistent (.negativeCount n)) else .ok ()
      | none => .ok ()

namespace NpuConfig

def normalize (c : NpuConfig) : NpuConfig :=
  { c with sharing := some (c.sharing.getD ⟨.timeSlicing, none, none⟩).normalize }

def validate (c : NpuConfig) : Except ConfigError Unit :=
  match c.sharing with
  | none => .error (.inconsistent .noSharing)
  | some s => s.validate

end NpuConfig

end SliceAgent
