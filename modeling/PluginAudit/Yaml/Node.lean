/-!
YAML documents: scalars with their tag and the way they were written, lists, and maps with their
entries in the order of the text.
-/

namespace PluginAudit.Yaml

/-- How a scalar is written. A plain one may stand for a number, a truth value or nothing. -/
inductive Style where
  | plain
  | quoted
deriving DecidableEq, Repr

/-- A node of a document. A tag is empty if there is none. -/
inductive Node where
  | scalar (tag : String) (style : Style) (text : String)
  | list (items : List Node)
  | map (entries : List (Node × Node))

namespace Node

def nothing : Node := .scalar "" .plain ""

instance : Inhabited Node := ⟨nothing⟩

def withTag (tag : String) : Node → Node
  | .scalar _ style text => .scalar tag style text
  | n => n

end Node

end PluginAudit.Yaml
