import PluginAudit.Decimal.Shortest

/-!
JSON documents. A number keeps the numeral it was written with, and an object keeps its members in
the order of the document, repeated names included.
-/

namespace PluginAudit

inductive Json where
  | null
  | bool (b : Bool)
  | num (numeral : String)
  | str (s : String)
  | arr (items : List Json)
  | obj (members : List (String × Json))

namespace Json

instance : Inhabited Json := ⟨.null⟩

def int (n : Int) : Json := .num (Decimal.intText n)

def nat (n : Nat) : Json := .num (Decimal.natText n)

def numberStyle : Decimal.Style := ⟨-6, 21, 1⟩

def double (x : Double) : Json := .num (Decimal.write numberStyle x)

def unwritable (x : Double) : String := "json: unsupported value: " ++ Decimal.write numberStyle x

def strs (items : List String) : Json := .arr (items.map .str)

def orNull (f : α → Json) : Option α → Json
  | none => .null
  | some a => f a

def get? (name : String) : Json → Option Json
  | .obj members => (members.reverse.find? fun m => m.1 == name).map (·.2)
  | _ => none

end Json

end PluginAudit
