import PluginAudit.Decimal.Numeral
import PluginAudit.Text.Letter
import PluginAudit.Value

/-!
Reading typed values out of JSON documents. A decoder puts a document into a value that is already
there: null leaves it as it is, a record keeps the fields that the document does not name, and a
wrong kind of document fails. Member names are matched up to letter case, and later members win: an
array that is given again starts afresh.
-/

namespace PluginAudit.Json

abbrev Decoder (α : Type) := Json → α → Option α

def intoText : Decoder String
  | .null, old => some old
  | .str s, _ => some s
  | _, _ => none

def intoBool : Decoder Bool
  | .null, old => some old
  | .bool b, _ => some b
  | _, _ => none

/-- A whole number of sixty-four bits, written without fraction and exponent. -/
def intoInt : Decoder Int
  | .null, old => some old
  | .num n, _ => Decimal.readInt? n.toList
  | _, _ => none

def intoDouble : Decoder Double
  | .null, old => some old
  | .num n, _ => Decimal.readDouble? n.toList
  | _, _ => none

def intoOption (zero : α) (into : Decoder α) : Decoder (Option α)
  | .null, _ => some none
  | j, old => (into j (old.getD zero)).map some

def intoItems (zero : α) (into : Decoder α) : List Json → Option (List α)
  | [] => some []
  | item :: items => do
    let a ← into item zero
    let as ← intoItems zero into items
    some (a :: as)

def intoList (zero : α) (into : Decoder α) : Decoder (Option (List α))
  | .null, _ => some none
  | .arr items, _ => (intoItems zero into items).map some
  | _, _ => none

/-- The entries of a table, put one after the other into those already there. -/
def intoEntries (zero : α) (into : Decoder α) :
    List (String × Json) → Table α → Option (Table α)
  | [], table => some table
  | (name, value) :: members, table => do
    let a ← into value zero
    intoEntries zero into members (Table.insert name a table)

/-- A table from names to values, in increasing order of names. -/
def intoTable (zero : α) (into : Decoder α) : Decoder (Option (Table α))
  | .null, _ => some none
  | .obj members, old => (intoEntries zero into members (old.getD [])).map some
  | _, _ => none

abbrev Parts (α : Type) := List (String × Decoder α)

/-- The part for a member name: the exact name if there is one, else a name equal to it up to letter
case. -/
def partFor (parts : Parts α) (name : String) : Option (Decoder α) :=
  match parts.find? fun part => part.1 == name with
  | some part => some part.2
  | none => (parts.find? fun part => Text.sameFold part.1 name).map (·.2)

/-- Puts the members of an object into a record, one after the other. Members without a part are
skipped, or refused when `strict` is set. -/
def intoParts (strict : Bool) (parts : Parts α) : List (String × Json) → α → Option α
  | [], a => some a
  | (name, value) :: members, a =>
    match partFor parts name with
    | some into => match into value a with
      | some a => intoParts strict parts members a
      | none => none
    | none => if strict then none else intoParts strict parts members a

def intoRecord (strict : Bool) (parts : Parts α) : Decoder α
  | .null, old => some old
  | .obj members, old => intoParts strict parts members old
  | _, _ => none

def through (get : α → β) (set : β → α → α) (into : Decoder β) : Decoder α :=
  fun j a => (into j (get a)).map fun b => set b a

mutual
/-- A document as a value; a number beyond the largest double fails. -/
def toValue : Json → Option Value
  | .null => some .null
  | .bool b => some (.bool b)
  | .num n => (Decimal.readDouble? n.toList).map .number
  | .str s => some (.text s)
  | .arr items => (toValues items).map .list
  | .obj members => (toFields members).map fun fields => .record (Table.ofPairs fields)

def toValues : List Json → Option (List Value)
  | [] => some []
  | item :: items => do
    let v ← item.toValue
    let vs ← toValues items
    some (v :: vs)

def toFields : List (String × Json) → Option (List (String × Value))
  | [] => some []
  | member :: members => do
    let f ← toField member
    let fs ← toFields members
    some (f :: fs)

def toField : String × Json → Option (String × Value)
  | (name, value) => do
    let v ← value.toValue
    some (name, v)
end

def intoValue : Decoder Value :=
  fun j _ => j.toValue

end PluginAudit.Json
