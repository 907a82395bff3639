import SliceAgent.FileTree
import SliceAgent.Template.Table

/-!
The catalog of a node, from the vendor's table in a file.
-/
namespace SliceAgent.TemplateTable

def noHeader : String := "template table: template info header not found"

/-- The catalog of a table in a file: the standard one if the file cannot be read, and none if it holds
no table. -/
def load? (files : FileTree) (path : String) : Option Catalog :=
  match files.readText path with
  | .error _ => some .standard
  | .ok text => parse? text

end SliceAgent.TemplateTable
