import PluginAudit.Inventory.Classes
import PluginAudit.Inventory.Functions
import PluginAudit.Json.Decode

/-!
The functions and classes that the runtime provides before any plugin code is loaded. Names are
looked up without regard to case and to one leading backslash.
-/

namespace PluginAudit

/-- The functions and classes of a runtime by their keys, each one once. -/
structure Inventory where
  functions : List String
  classes : List String
deriving DecidableEq

namespace Inventory

def key (name : String) : String :=
  Text.lower (Text.dropLead "\\" (Text.trim name))

def builtin : Inventory := ⟨runtimeFunctions, runtimeClasses⟩

def hasFunction (inventory : Inventory) (name : String) : Bool :=
  inventory.functions.contains (key name)

def hasClass (inventory : Inventory) (name : String) : Bool :=
  inventory.classes.contains (key name)

/-- Adds the keys of some names; a name without a key is left out. -/
def addKeys (keys names : List String) : List String :=
  names.foldl (fun keys name => if key name = "" then keys else keys.insert (key name)) keys

def merge (inventory : Inventory) (functions classes : List String) : Inventory :=
  ⟨addKeys inventory.functions functions, addKeys inventory.classes classes⟩

structure Listing where
  classes : Option (List String) := none
  functions : Option (List String) := none

def Listing.parts : Json.Parts Listing :=
  [("classes", Json.through (·.classes) (fun v l => { l with classes := v })
      (Json.intoList "" Json.intoText)),
   ("functions", Json.through (·.functions) (fun v l => { l with functions := v })
      (Json.intoList "" Json.intoText))]

/-- The built-in inventory with what a runtime printed, unless that cannot be read. -/
def ofListing? (text : String) : Option Inventory := do
  let json ← Json.parse? text.toList
  let listing ← Json.intoRecord false Listing.parts json {}
  return builtin.merge (listing.functions.getD []) (listing.classes.getD [])

end Inventory

end PluginAudit
