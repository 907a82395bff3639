import SliceAgent.Checkpoint.Basic
import SliceAgent.Json.Parser
import SliceAgent.Json.Printer
import SliceAgent.Sha256

/-!
Where checkpoints are kept. A record holds the text of a checkpoint and the digest of that text, so
that a record that was not written whole is found out when it is read.
-/
namespace SliceAgent

inductive Corruption where
  /-- The record or the text in it cannot be read; `text` says what is wrong, but not where. -/
  | unreadable (text : String)
  /-- The digest is not that of the text. -/
  | mismatch
deriving DecidableEq, Repr

inductive StoreError where
  | notFound (name : String)
  | corrupt (name : String) (why : Corruption)
  | readFailed (text : String)
  | writeFailed (text : String)
  | tableFailed (text : String)
deriving DecidableEq, Repr

def Corruption.message : Corruption → String
  | unreadable text => text
  | mismatch => "checksum mismatch"

def StoreError.message : StoreError → String
  | notFound name => "checkpoint not found: " ++ name
  | corrupt name why => "checkpoint " ++ name ++ " is corrupt: " ++ why.message
  | readFailed text => "read error: " ++ text
  | writeFailed text => "write error: " ++ text
  | tableFailed text => "table error: " ++ text

/-- The text of a checkpoint under its digest. -/
structure Envelope where
  checksum : String
  body : String
deriving DecidableEq, Repr

namespace Envelope

def around (body : String) : Envelope := ⟨Sha256.hexDigest body, body⟩

def isIntact (e : Envelope) : Bool := e.checksum == Sha256.hexDigest e.body

def encode (e : Envelope) : Json := .obj [("checksum", .str e.checksum), ("body", .str e.body)]

def fields : Fields Envelope :=
  Envelope.mk <$> .required "checksum" Decoder.string <*> .required "body" Decoder.string

def decode : Decoder Envelope := Decoder.record "Envelope" fields

end Envelope

namespace Checkpoint

def body (c : Checkpoint) : String := c.encode.compact

def record (c : Checkpoint) : ByteArray := (Envelope.around c.body).encode.compact.toUTF8

def ofRecord (bytes : ByteArray) : Except Corruption Checkpoint :=
  match Json.decodeBytes Envelope.decode bytes with
  | .error e => .error (.unreadable (e.message .json))
  | .ok envelope =>
    if envelope.isIntact then
      match Json.decodeText decode envelope.body with
      | .error e => .error (.unreadable (e.message .json))
      | .ok c => .ok c
    else .error .mismatch

end Checkpoint

structure CheckpointStore where
  records : Dict ByteArray
deriving DecidableEq

namespace CheckpointStore

def empty : CheckpointStore := ⟨Dict.empty⟩

instance : Inhabited CheckpointStore := ⟨empty⟩

def get (s : CheckpointStore) (name : String) : Except StoreError Checkpoint :=
  match s.records.find? name with
  | none => .error (.notFound name)
  | some record =>
    match Checkpoint.ofRecord record with
    | .error why => .error (.corrupt name why)
    | .ok c => .ok c

def putRecord (s : CheckpointStore) (name : String) (record : ByteArray) : CheckpointStore :=
  ⟨s.records.insert name record⟩

def put (s : CheckpointStore) (name : String) (c : Checkpoint) : CheckpointStore :=
  s.putRecord name c.record

def names (s : CheckpointStore) : List String := s.records.keys

end CheckpointStore

end SliceAgent
