import SliceAgent.Cdi
import SliceAgent.Checkpoint.Store

/-!
What outlives an agent: the stored checkpoint and the files. Any access to them may fail, and then it
has done nothing.
-/
namespace SliceAgent

/-- The accesses that fail at present, each with the text that it fails with. A record can also be found
to be corrupt when it is read. -/
structure Faults where
  readCheckpoint : Option String
  corruptCheckpoint : Bool
  writeCheckpoint : Option String
  listRecords : Option String
  writeCommonSpec : Option String
  writeClaimSpec : Option String
  removeClaimSpec : Option String
deriving DecidableEq, Repr

def Faults.none : Faults := ⟨.none, false, .none, .none, .none, .none, .none⟩

structure Host where
  store : CheckpointStore
  files : FileTree
  faults : Faults
deriving DecidableEq

namespace Host

def empty : Host := ⟨.empty, .empty, .none⟩

instance : Inhabited Host := ⟨empty⟩

def readCheckpoint (h : Host) : Except StoreError Checkpoint :=
  match h.faults.readCheckpoint with
  | some text => .error (.readFailed text)
  | none =>
    if h.faults.corruptCheckpoint then .error (.corrupt Checkpoint.storedName .mismatch)
    else h.store.get Checkpoint.storedName

def writeCheckpoint (h : Host) (c : Checkpoint) : Except StoreError Unit × Host :=
  match h.faults.writeCheckpoint with
  | some text => (.error (.writeFailed text), h)
  | none => (.ok (), { h with store := h.store.put Checkpoint.storedName c })

def hasCheckpoint (h : Host) : Except StoreError Bool :=
  match h.faults.listRecords with
  | some text => .error (.tableFailed text)
  | none => .ok (h.store.names.contains Checkpoint.storedName)

/-- Changes the files, or is refused with a text before anything is done. -/
def changeFiles (h : Host) (refusal : Option String)
    (change : FileTree → Except CdiError Unit × FileTree) : Except CdiError Unit × Host :=
  match refusal with
  | some text => (.error (.refused text), h)
  | none =>
    let (result, files) := change h.files
    (result, { h with files })

def writeCommonSpec (h : Host) (r : CdiRoot) : Except CdiError Unit × Host :=
  h.changeFiles h.faults.writeCommonSpec r.writeCommon

def writeClaimSpec (h : Host) (r : CdiRoot) (uid : String) (devices : List PreparedDevice) :
    Except CdiError Unit × Host :=
  h.changeFiles h.faults.writeClaimSpec fun t => r.writeClaim t uid devices

def removeClaimSpec (h : Host) (r : CdiRoot) (uid : String) : Except CdiError Unit × Host :=
  h.changeFiles h.faults.removeClaimSpec fun t => r.removeClaim t uid

end Host

end SliceAgent
