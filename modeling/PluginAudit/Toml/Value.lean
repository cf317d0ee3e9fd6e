import PluginAudit.Decimal.Double

/-!
TOML documents: assignments to dotted keys, in the order of the text, under headers that open
tables.
-/

namespace PluginAudit.Toml

/-- A value. An inline table has its assignments in order. -/
inductive Value where
  | text (s : String)
  | whole (n : Int)
  | real (x : Double)
  | flag (b : Bool)
  | moment (text : String)
  | list (items : List Value)
  | table (entries : List (List String × Value))

instance : Inhabited Value := ⟨.flag false⟩

inductive Statement where
  | table (path : List String)
  | item (path : List String)
  | assign (key : List String) (value : Value)

end PluginAudit.Toml
