import SliceAgent.Dict
import SliceAgent.Text.Blank
import SliceAgent.Text.Bytes

/-!
A tree of files and directories, and what can go wrong with a path. A path that leads nowhere changes
nothing.
-/
namespace SliceAgent

inductive FileError where
  | missing
  | exists
  | notADirectory
  | isADirectory
  | nameTooLong
  | nulInName
  /-- The content is no text. -/
  | notText
deriving DecidableEq, Repr

def FileError.message : FileError → String
  | missing => "No such file or directory (os error 2)"
  | .exists => "File exists (os error 17)"
  | notADirectory => "Not a directory (os error 20)"
  | isADirectory => "Is a directory (os error 21)"
  | nameTooLong => "File name too long (os error 36)"
  | nulInName => "file name contained an unexpected NUL byte"
  | notText => "stream did not contain valid UTF-8"

inductive FileNode where
  | file (content : ByteArray)
  | directory
deriving DecidableEq

/-- A place in the tree: the names on the way to it, the last one first. -/
abbrev Place := List String

def Place.key : Place → String
  | [] => ""
  | name :: outer => key outer ++ "/" ++ name

structure FileTree where
  nodes : Dict FileNode
deriving DecidableEq

namespace FileTree

def empty : FileTree := ⟨Dict.empty⟩

instance : Inhabited FileTree := ⟨empty⟩

def node? (t : FileTree) : Place → Option FileNode
  | [] => some .directory
  | place => t.nodes.find? place.key

def put (t : FileTree) (place : Place) (node : FileNode) : FileTree :=
  ⟨t.nodes.insert place.key node⟩

def erase (t : FileTree) (place : Place) : FileTree := ⟨t.nodes.erase place.key⟩

def maxNameBytes : Nat := 255

def pathLimit : Nat := 4096

def names (path : String) : Except FileError (List String) :=
  if path.toList.contains '\x00' then .error .nulInName
  else if pathLimit ≤ path.utf8ByteSize then .error .nameTooLong
  else .ok (((Text.split (· == '/') path.toList).filter (fun n => !n.isEmpty)).map String.ofList)

/-- Follows names from a place. All but the last have to lead to directories; at the last there need
not be anything. -/
def walk (t : FileTree) (here : Place) : List String → Except FileError Place
  | [] => .ok here
  | name :: rest =>
    if name = "." then walk t here rest
    else if name = ".." then walk t here.tail rest
    else if maxNameBytes < name.utf8ByteSize then .error .nameTooLong
    else if rest.isEmpty then .ok (name :: here)
    else
      match t.node? (name :: here) with
      | none => .error .missing
      | some (.file _) => .error .notADirectory
      | some .directory => walk t (name :: here) rest

def locate (t : FileTree) (path : String) : Except FileError Place :=
  match names path with
  | .error e => .error e
  | .ok names => t.walk [] names

def read (t : FileTree) (path : String) : Except FileError ByteArray :=
  match t.locate path with
  | .error e => .error e
  | .ok place =>
    match t.node? place with
    | some (.file content) => .ok content
    | some .directory => .error .isADirectory
    | none => .error .missing

def readText (t : FileTree) (path : String) : Except FileError String :=
  match t.read path with
  | .error e => .error e
  | .ok content =>
    match String.fromUTF8? content with
    | some s => .ok s
    | none => .error .notText

/-- Puts a file where there is none or another file. -/
def write (t : FileTree) (path : String) (content : ByteArray) : Except FileError FileTree :=
  match t.locate path with
  | .error e => .error e
  | .ok place =>
    match t.node? place with
    | some .directory => .error .isADirectory
    | _ => .ok (t.put place (.file content))

def rename (t : FileTree) (source target : String) : Except FileError FileTree :=
  match t.locate source, t.locate target with
  | .error e, _ => .error e
  | _, .error e => .error e
  | .ok source, .ok target =>
    match t.node? source, t.node? target with
    | some (.file content), node =>
      if node = some .directory then .error .isADirectory
      else .ok ((t.erase source).put target (.file content))
    | some .directory, _ => .error .isADirectory
    | none, _ => .error .missing

def remove (t : FileTree) (path : String) : Except FileError FileTree :=
  match t.locate path with
  | .error e => .error e
  | .ok place =>
    match t.node? place with
    | some (.file _) => .ok (t.erase place)
    | some .directory => .error .isADirectory
    | none => .error .missing

/-- Writes a file beside its final path and then moves it there, so that the path never leads to a part
of the content. When the move fails, the file beside it is left. -/
def replace (t : FileTree) (path : String) (content : ByteArray) : Except FileError Unit × FileTree :=
  let beside := path ++ ".tmp"
  match t.write beside content with
  | .error e => (.error e, t)
  | .ok written =>
    match written.rename beside path with
    | .error e => (.error e, written)
    | .ok moved => (.ok (), moved)

def makeDirectories (t : FileTree) (here : Place) : List String → Except FileError FileTree
  | [] => .ok t
  | name :: rest =>
    if name = "." then makeDirectories t here rest
    else if name = ".." then makeDirectories t here.tail rest
    else if maxNameBytes < name.utf8ByteSize then .error .nameTooLong
    else
      match t.node? (name :: here) with
      | some .directory => makeDirectories t (name :: here) rest
      | some (.file _) => .error (if rest.isEmpty then .exists else .notADirectory)
      | none => makeDirectories (t.put (name :: here) .directory) (name :: here) rest

/-- Makes a directory and those around it; one that exists is left as it is. -/
def createDirectory (t : FileTree) (path : String) : Except FileError FileTree :=
  match names path with
  | .error e => .error e
  | .ok names => t.makeDirectories [] names

/-- The name of an entry directly inside a directory, given the directory's path and the entry's. -/
def childName? (outer path : String) : Option String :=
  let lead := outer.toList ++ ['/']
  let name := path.toList.drop lead.length
  if lead.isPrefixOf path.toList && !name.contains '/' then some (String.ofList name) else none

def list (t : FileTree) (path : String) : Except FileError (List String) :=
  match t.locate path with
  | .error e => .error e
  | .ok place =>
    match t.node? place with
    | some .directory => .ok (t.nodes.keys.filterMap (childName? place.key))
    | some (.file _) => .error .notADirectory
    | none => .error .missing

def removeAll (t : FileTree) (path : String) : Except FileError FileTree :=
  match t.locate path with
  | .error e => .error e
  | .ok place =>
    match t.node? place with
    | none => .error .missing
    | some _ =>
      let lead := place.key.toList ++ ['/']
      .ok ⟨t.nodes.filter fun k _ => k != place.key && !lead.isPrefixOf k.toList⟩

end FileTree

end SliceAgent
