import PluginAudit.Suppression.Ty

/-!
The signatures of operators and functions. Variables 0 and 1 of a signature stand for any type.
-/

namespace PluginAudit.Suppression

structure Signature where
  params : List Ty
  result : Ty
deriving DecidableEq, Repr

namespace Signature

def shift (s : Signature) (amount : Nat) : Signature :=
  ⟨s.params.map (·.shift amount), s.result.shift amount⟩

def any : Ty := .var 0

def anyList : Ty := .list (.var 0)

def anyMap : Ty := .map (.var 0) (.var 1)

def ordered : List Ty :=
  [.bool, .int, .uint, .double, .text, .bytes, .timestamp, .duration]

def closed (t : Ty) : Signature := ⟨[t, t], t⟩

def ofOperator : Operator → List Signature
  | .eq | .ne => [⟨[any, any], .bool⟩]
  | .lt | .le | .gt | .ge => ordered.map fun t => ⟨[t, t], .bool⟩
  | .add =>
    [closed .bytes, closed .double, closed .duration, ⟨[.duration, .timestamp], .timestamp⟩,
     ⟨[.timestamp, .duration], .timestamp⟩, closed .int, closed anyList, closed .text, closed .uint]
  | .sub =>
    [closed .double, closed .duration, closed .int, ⟨[.timestamp, .duration], .timestamp⟩,
     ⟨[.timestamp, .timestamp], .duration⟩, closed .uint]
  | .mul | .div => [closed .double, closed .int, closed .uint]
  | .mod => [closed .int, closed .uint]
  | .index => [⟨[anyList, .int], any⟩, ⟨[anyMap, .var 0], .var 1⟩]
  | .within => [⟨[any, anyList], .bool⟩, ⟨[.var 0, anyMap], .bool⟩]

def negation : List Signature := [⟨[.double], .double⟩, ⟨[.int], .int⟩]

def conversion (result : Ty) (sources : List Ty) : List Signature :=
  sources.map fun t => ⟨[t], result⟩

def sizes : List Signature :=
  [⟨[.bytes], .int⟩, ⟨[anyList], .int⟩, ⟨[anyMap], .int⟩, ⟨[.text], .int⟩]

def ofFunction : String → List Signature
  | "size" => sizes
  | "matches" => [⟨[.text, .text], .bool⟩]
  | "type" => [⟨[any], .type any⟩]
  | "dyn" => [⟨[any], .dyn⟩]
  | "bool" => conversion .bool [.bool, .text]
  | "bytes" => conversion .bytes [.bytes, .text]
  | "double" => conversion .double [.double, .int, .text, .uint]
  | "duration" => conversion .duration [.duration, .int, .text]
  | "int" => conversion .int [.int, .double, .duration, .text, .timestamp, .uint]
  | "string" =>
    conversion .text [.text, .bool, .bytes, .double, .duration, .int, .timestamp, .uint]
  | "timestamp" => conversion .timestamp [.timestamp, .int, .text]
  | "uint" => conversion .uint [.uint, .double, .int, .text]
  | _ => []

def momentParts : List String :=
  ["getFullYear", "getMonth", "getDayOfYear", "getDate", "getDayOfMonth", "getDayOfWeek",
    "getHours",
   "getMinutes", "getSeconds", "getMilliseconds"]

def spanParts : List String := ["getHours", "getMinutes", "getSeconds", "getMilliseconds"]

/-- The signatures of functions that are called with a target, which comes first. -/
def ofMethod (name : String) : List Signature :=
  match name with
  | "size" => sizes
  | "contains" | "endsWith" | "startsWith" | "matches" => [⟨[.text, .text], .bool⟩]
  | _ =>
    (if momentParts.contains name then
      [⟨[.timestamp], .int⟩, ⟨[.timestamp, .text], .int⟩] else []) ++
    (if spanParts.contains name then [⟨[.duration], .int⟩] else [])

end Signature

end PluginAudit.Suppression
