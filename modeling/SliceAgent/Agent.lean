import SliceAgent.DeviceClass.Predefined
import SliceAgent.DeviceClass.Store
import SliceAgent.Discovery
import SliceAgent.Node.Basic
import SliceAgent.Template.Load

/-!
An agent as it is put together from its settings, on a host that may hold the records of earlier runs.
-/
namespace SliceAgent

inductive BuildError where
  | noNodeName
  | discovery (reason : String)
  | dataDirectory (e : FileError)
  | database (e : FileError)
  /-- The file of the database is none. -/
  | notADatabase
  | node (e : NodeError)
  | classDirectory (e : FileError)

def BuildError.message : BuildError → String
  | noNodeName => "node name is not set"
  | discovery reason => "upstream: " ++ reason
  | dataDirectory e => e.message
  | database e => "failed to open database: I/O error: " ++ e.message
  | notADatabase => "failed to open database: I/O error: invalid data"
  | node e => e.message
  | classDirectory e => "upstream: " ++ e.message

namespace Host

def databaseName : String := "checkpoint.redb"

/-- What the file of a database starts with. -/
def databaseMark : ByteArray := ⟨#[0x72, 0x65, 0x64, 0x62, 0x1A, 0x0A, 0xA9, 0x0D, 0x0A]⟩

/-- Opens the database of a data directory; one that is not there yet is made, without records. -/
def openStore (h : Host) (dataDir : String) : Except BuildError Host :=
  let path := dataDir ++ "/" ++ databaseName
  match h.files.read path with
  | .ok content =>
    if content.isEmpty || content == databaseMark then .ok h else .error .notADatabase
  | .error .missing =>
    match h.files.write path databaseMark with
    | .error e => .error (.database e)
    | .ok files => .ok { h with files, store := .empty }
  | .error e => .error (.database e)

end Host

structure Agent where
  driverName : String
  classDir : Option String
  node : Node

namespace Agent

/-- The templates of the node; a file that holds no table leaves whole cards only. -/
def catalog (settings : Settings) (files : FileTree) : Catalog :=
  (TemplateTable.load? files settings.templateFile).getD .empty

def prepareClassDir (classDir : Option String) (files : FileTree) : Except BuildError FileTree :=
  match classDir with
  | none => .ok files
  | some dir =>
    match files.createDirectory dir with
    | .error e => .error (.classDirectory e)
    | .ok files => .ok files

/-- Opens the records of the host, makes the directory for specifications, and starts the node. -/
def startNode (settings : Settings) (engine : Engine) (inventory : Inventory) (host : Host) :
    Except BuildError Node × Host :=
  match host.files.createDirectory settings.dataDir with
  | .error e => (.error (.dataDirectory e), host)
  | .ok files =>
    let host := { host with files }
    match host.openStore settings.dataDir with
    | .error e => (.error e, host)
    | .ok host =>
      let cdi : CdiRoot := ⟨settings.cdiRoot, settings.driverName, settings.nodeName⟩
      match cdi.establish host.files with
      | .error e => (.error (.node (.cdi e)), host)
      | .ok files =>
        match Node.start cdi settings.claims engine inventory { host with files } with
        | (.error e, host) => (.error (.node e), host)
        | (.ok node, host) => (.ok node, host)

/-- Builds an agent. The host is given back also when that fails. -/
def build (settings : Settings) (host : Host) : Except BuildError Agent × Host :=
  if settings.nodeName = "" then (.error .noNodeName, host)
  else
    let engine := Engine.new (catalog settings host.files) settings.eligibility
    match discover (.ofDeclared settings.cards) engine settings.nodeName with
    | .error reason => (.error (.discovery reason), host)
    | .ok (inventory, engine) =>
      match startNode settings engine inventory host with
      | (.error e, host) => (.error e, host)
      | (.ok node, host) =>
        match prepareClassDir settings.classDir host.files with
        | .error e => (.error e, host)
        | .ok files =>
          let host := { host with files }
          (.ok ⟨settings.driverName, settings.classDir, { node with host }⟩, host)

def publishClasses (a : Agent) : Nat × Agent :=
  match a.classDir with
  | none => (0, a)
  | some dir =>
    let host := a.node.host
    let (failed, manifests) := publish (ManifestDirectory.mk dir host.files)
      (predefinedClasses a.driverName a.node.engine.devices)
    (failed, { a with node := { a.node with host := { host with files := manifests.files } } })

end Agent

end SliceAgent
