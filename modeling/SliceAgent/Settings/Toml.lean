import SliceAgent.FileTree
import SliceAgent.Settings
import SliceAgent.Toml.Parser
import SliceAgent.Toml.Printer

/-!
Settings as TOML text: how they are read from a file, and how they are written out.
-/
namespace SliceAgent

inductive SettingsError where
  | file (e : FileError)
  /-- The file holds no TOML document. -/
  | malformed
  | undecodable (e : DecodeError)

namespace Settings

def ofText (text : String) : Except SettingsError Settings :=
  match Toml.parse? text with
  | none => .error .malformed
  | some d =>
    match decode .toml d with
    | .error e => .error (.undecodable e)
    | .ok s => .ok s

def ofFile (files : FileTree) (path : String) : Except SettingsError Settings :=
  match files.readText path with
  | .error e => .error (.file e)
  | .ok text => ofText text

open Toml (line quoted)

def number (n : UInt32) : String := Text.decimal n.toNat

def optionalLine (key : String) : Option String → String
  | some value => line key value
  | none => ""

def eligibilityText : Eligibility → String
  | .leading text => line "policy" (quoted "prefix") ++ line "prefix" (quoted text)
  | .all => line "policy" (quoted "all")
  | .capacity => line "policy" (quoted "capacity")

def cardText (c : DeclaredCard) : String :=
  "\n[[devices]]\n" ++ line "logical_index" (number c.logicalIndex) ++ line "model" (quoted c.model)
    ++ optionalLine "ai_core" (c.aiCore.map number) ++ optionalLine "memory_gb" (c.memoryGb.map number)

/-- The settings as a document; what is not set is left out. -/
def toToml (s : Settings) : String :=
  line "driver_name" (quoted s.driverName) ++ line "node_name" (quoted s.nodeName)
    ++ line "data_dir" (quoted s.dataDir) ++ line "cdi_root" (quoted s.cdiRoot)
    ++ line "template_file" (quoted s.templateFile)
    ++ optionalLine "device_class_dir" (s.classDir.map quoted)
    ++ line "reconcile_interval_secs" (Text.decimal s.reconcileSeconds.toNat)
    ++ (if s.cards.isEmpty then line "devices" "[]" else "")
    ++ "\n[partitioning.eligibility]\n" ++ eligibilityText s.eligibility
    ++ "\n[claims]\n" ++ line "config_sources" (quoted s.claims.sources.name)
    ++ line "persistence" (quoted s.claims.persistence.name)
    ++ String.join (s.cards.map cardText)

end Settings

end SliceAgent
