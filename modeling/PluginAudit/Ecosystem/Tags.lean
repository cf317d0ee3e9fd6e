import PluginAudit.Table
import PluginAudit.Text.Blank
import PluginAudit.Text.Letter

/-!
Sets of ecosystems. An ecosystem is known by a tag in lower case without surrounding white space.
-/

namespace PluginAudit

def tagOf (name : String) : String := Text.lower (Text.trim name)

/-- A set of ecosystems: their tags in increasing order, each one once. -/
abbrev Tags := List String

namespace Tags

/-- The set of some names; a blank name has no tag. -/
def ofNames (names : List String) : Tags :=
  sortedNames ((names.map tagOf).filter (· != ""))

def add (tags : Tags) (name : String) : Tags := sortedNames (tags ++ ofNames [name])

def has (tags : Tags) (name : String) : Bool := tags.contains (tagOf name)

def union (tags others : Tags) : Tags := sortedNames (tags ++ others)

end Tags

end PluginAudit
