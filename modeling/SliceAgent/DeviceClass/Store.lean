import SliceAgent.DeviceClass.Basic
import SliceAgent.FileTree
import SliceAgent.Json.Parser

/-!
Where device classes are published: a registry in memory that remembers every write, or a directory
with a file for each class. Publishing writes a class only where it is missing or differs.
-/
namespace SliceAgent

inductive ClassError where
  | notFound (name : String)
  | alreadyExists (name : String)
  | file (e : FileError)
  /-- The file holds no device class; `text` says what is wrong, but not where. -/
  | unreadable (text : String)
deriving DecidableEq, Repr

def ClassError.message : ClassError → String
  | notFound name => "device class " ++ name
  | alreadyExists name => "device class " ++ name ++ " already exists"
  | file e => e.message
  | unreadable text => text

class ClassStore (σ : Type) where
  get : σ → String → Except ClassError (Option DeviceClass)
  create : σ → DeviceClass → Except ClassError Unit × σ
  update : σ → DeviceClass → Except ClassError Unit × σ

inductive Upserted where
  | created
  | unchanged
  | updated
deriving DecidableEq, Repr

def Upserted.name : Upserted → String
  | created => "Created"
  | unchanged => "Unchanged"
  | updated => "Updated"

/-- Stores a class unless it is there with the same specification; the stored version is kept. -/
def upsert {σ : Type} [ClassStore σ] (s : σ) (wanted : DeviceClass) : Except ClassError Upserted × σ :=
  match ClassStore.get s wanted.name with
  | .error e => (.error e, s)
  | .ok none =>
    let (result, s) := ClassStore.create s wanted
    (result.map fun () => .created, s)
  | .ok (some stored) =>
    if stored.spec.text = wanted.spec.text then (.ok .unchanged, s)
    else
      let (result, s) := ClassStore.update s { wanted with resourceVersion := stored.resourceVersion }
      (result.map fun () => .updated, s)

/-- Stores every class that can be stored, and counts those that cannot. -/
def publish {σ : Type} [ClassStore σ] (s : σ) : List DeviceClass → Nat × σ
  | [] => (0, s)
  | c :: cs =>
    match upsert s c with
    | (.ok _, s) => publish s cs
    | (.error _, s) =>
      let (failed, s) := publish s cs
      (failed + 1, s)

inductive ClassWrite where
  | created (name : String)
  | updated (name : String)
deriving DecidableEq, Repr

def ClassWrite.text : ClassWrite → String
  | created name => "create:" ++ name
  | updated name => "update:" ++ name

structure ClassRegistry where
  classes : Dict DeviceClass
  writes : List ClassWrite

namespace ClassRegistry

def empty : ClassRegistry := ⟨Dict.empty, []⟩

def record (r : ClassRegistry) (c : DeviceClass) (write : ClassWrite) : ClassRegistry :=
  ⟨r.classes.insert c.name c, r.writes ++ [write]⟩

instance : ClassStore ClassRegistry where
  get r name := .ok (r.classes.find? name)
  create r c :=
    if r.classes.contains c.name then (.error (.alreadyExists c.name), r)
    else (.ok (), r.record c (.created c.name))
  update r c :=
    if r.classes.contains c.name then (.ok (), r.record c (.updated c.name))
    else (.error (.notFound c.name), r)

end ClassRegistry

structure ManifestDirectory where
  dir : String
  files : FileTree

namespace ManifestDirectory

/-- The file of a class; a name that starts at the root leaves the directory. -/
def path (m : ManifestDirectory) (name : String) : String :=
  let file := name ++ ".json"
  if ['/'].isPrefixOf file.toList then file else m.dir ++ "/" ++ file

def content (c : DeviceClass) : ByteArray := c.encode.pretty.toUTF8

def get (m : ManifestDirectory) (name : String) : Except ClassError (Option DeviceClass) :=
  match m.files.read (m.path name) with
  | .error .missing => .ok none
  | .error e => .error (.file e)
  | .ok content =>
    match Json.decodeBytes DeviceClass.decode content with
    | .error e => .error (.unreadable (e.message .json))
    | .ok c => .ok (some c)

def write (m : ManifestDirectory) (c : DeviceClass) : Except ClassError Unit × ManifestDirectory :=
  match m.files.replace (m.path c.name) (content c) with
  | (.error e, files) => (.error (.file e), { m with files })
  | (.ok (), files) => (.ok (), { m with files })

instance : ClassStore ManifestDirectory where
  get := get
  create := write
  update := write

end ManifestDirectory

end SliceAgent
