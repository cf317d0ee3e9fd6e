import PluginAudit.Json.Reader
import PluginAudit.Json.Writer
import PluginAudit.Table

/-!
Values in the context of a finding: scalars, lists and records. A record has each name once, in
increasing order.
-/

namespace PluginAudit

inductive Value where
  | null
  | bool (b : Bool)
  | number (x : Double)
  | text (s : String)
  | list (items : List Value)
  | record (fields : List (String × Value))

namespace Value

instance : Inhabited Value := ⟨.null⟩

/-! ### Equality -/

mutual
def decEqValue : (a b : Value) → Decidable (a = b)
  | .null, .null => isTrue rfl
  | .bool a, .bool b => if h : a = b then isTrue (h ▸ rfl) else isFalse (by simpa using h)
  | .number a, .number b => if h : a = b then isTrue (h ▸ rfl) else isFalse (by simpa using h)
  | .text a, .text b => if h : a = b then isTrue (h ▸ rfl) else isFalse (by simpa using h)
  | .list a, .list b =>
    match decEqItems a b with
    | isTrue h => isTrue (h ▸ rfl)
    | isFalse h => isFalse (by simpa using h)
  | .record a, .record b =>
    match decEqFields a b with
    | isTrue h => isTrue (h ▸ rfl)
    | isFalse h => isFalse (by simpa using h)
  | .null, .bool _ | .null, .number _ | .null, .text _ | .null, .list _ | .null, .record _
  | .bool _, .null | .bool _, .number _ | .bool _, .text _ | .bool _, .list _ | .bool _, .record _
  | .number _, .null | .number _, .bool _ | .number _, .text _ | .number _, .list _
  | .number _, .record _
  | .text _, .null | .text _, .bool _ | .text _, .number _ | .text _, .list _ | .text _, .record _
  | .list _, .null | .list _, .bool _ | .list _, .number _ | .list _, .text _ | .list _, .record _
  | .record _, .null | .record _, .bool _ | .record _, .number _ | .record _, .text _
  | .record _, .list _ => isFalse (by simp)

def decEqItems : (a b : List Value) → Decidable (a = b)
  | [], [] => isTrue rfl
  | [], _ :: _ => isFalse (by simp)
  | _ :: _, [] => isFalse (by simp)
  | a :: as, b :: bs =>
    match decEqValue a b, decEqItems as bs with
    | isTrue h, isTrue h' => isTrue (h ▸ h' ▸ rfl)
    | isFalse h, _ => isFalse (by simp [h])
    | _, isFalse h => isFalse (by simp [h])

def decEqFields : (a b : List (String × Value)) → Decidable (a = b)
  | [], [] => isTrue rfl
  | [], _ :: _ => isFalse (by simp)
  | _ :: _, [] => isFalse (by simp)
  | a :: as, b :: bs =>
    match decEqField a b, decEqFields as bs with
    | isTrue h, isTrue h' => isTrue (h ▸ h' ▸ rfl)
    | isFalse h, _ => isFalse (by simp [h])
    | _, isFalse h => isFalse (by simp [h])

def decEqField : (a b : String × Value) → Decidable (a = b)
  | (name, a), (name', b) =>
    match (inferInstance : Decidable (name = name')), decEqValue a b with
    | isTrue h, isTrue h' => isTrue (h ▸ h' ▸ rfl)
    | isFalse h, _ => isFalse (by simp [h])
    | _, isFalse h => isFalse (by simp [h])
end

instance : DecidableEq Value := decEqValue

/-! ### Text and JSON -/

mutual
def display : Value → String
  | .null => "<nil>"
  | .bool b => if b then "true" else "false"
  | .number x => Decimal.write Decimal.plainStyle x
  | .text s => s
  | .list items => "[" ++ " ".intercalate (displayItems items) ++ "]"
  | .record fields => "map[" ++ " ".intercalate (displayFields fields) ++ "]"

def displayItems : List Value → List String
  | [] => []
  | item :: items => item.display :: displayItems items

def displayFields : List (String × Value) → List String
  | [] => []
  | entry :: fields => displayField entry :: displayFields fields

def displayField : String × Value → String
  | (name, value) => name ++ ":" ++ value.display
end

mutual
def toJson : Value → Json
  | .null => .null
  | .bool b => .bool b
  | .number x => .double x
  | .text s => .str s
  | .list items => .arr (itemsToJson items)
  | .record fields => .obj (fieldsToJson fields)

def itemsToJson : List Value → List Json
  | [] => []
  | item :: items => item.toJson :: itemsToJson items

def fieldsToJson : List (String × Value) → List (String × Json)
  | [] => []
  | entry :: fields => fieldToJson entry :: fieldsToJson fields

def fieldToJson : String × Value → String × Json
  | (name, value) => (name, value.toJson)
end

/-! ### Numbers -/

mutual
/-- The numbers in a value, in the order in which they are written. -/
def numbers : Value → List Double
  | .number x => [x]
  | .list items => numbersIn items
  | .record fields => numbersOf fields
  | .null | .bool _ | .text _ => []

def numbersIn : List Value → List Double
  | [] => []
  | item :: rest => item.numbers ++ numbersIn rest

def numbersOf : List (String × Value) → List Double
  | [] => []
  | (_, value) :: rest => value.numbers ++ numbersOf rest
end

end Value

end PluginAudit
