import PluginAudit.Yaml.Reader

/-!
Reading typed values out of YAML documents. A plain scalar is resolved by its look, a tag says what
it has to be, and texts take scalars as they are written. The outcome is a failure, nothing for a
null, or a value.
-/

namespace PluginAudit.Yaml

inductive Resolved where
  | null
  | flag (b : Bool)
  | whole (n : Int)
  | real (x : Double)
  | text (s : String)
deriving DecidableEq

def Resolved.tag : Resolved → String
  | .null => "!!null"
  | .flag _ => "!!bool"
  | .whole _ => "!!int"
  | .real _ => "!!float"
  | .text _ => "!!str"

/-- Whether a text is a decimal with digits before or after the point. -/
def looksDecimal (s : List Char) : Bool :=
  let s := match s with
    | '-' :: rest => rest
    | '+' :: rest => rest
    | s => s
  let whole := s.takeWhile Char.isDigit
  let afterWhole := s.drop whole.length
  let rest := match afterWhole with
    | '.' :: rest => rest.dropWhile Char.isDigit
    | s => s
  let digits := !whole.isEmpty || match afterWhole with
    | '.' :: c :: _ => c.isDigit
    | _ => false
  digits && match rest with
    | [] => true
    | 'e' :: exponent => exponentFits exponent
    | 'E' :: exponent => exponentFits exponent
    | _ => false
where
  exponentFits (s : List Char) : Bool :=
    let digits := match s with
      | '-' :: rest => rest
      | '+' :: rest => rest
      | s => s
    !digits.isEmpty && digits.all Char.isDigit

/-- The number that a plain scalar starting with a digit or a sign stands for. -/
def numberOf? (s : List Char) : Option Resolved :=
  let plain := s.filter (· != '_')
  match Decimal.markedInt? plain with
  | some n =>
    if Decimal.minInt ≤ n ∧ n ≤ 18446744073709551615 then some (.whole n)
    else if looksDecimal plain then (Decimal.readDouble? plain).map .real
    else none
  | none => if looksDecimal plain then (Decimal.readDouble? plain).map .real else none

def oddReal? (s : String) : Option Double :=
  if [".nan", ".NaN", ".NAN"].contains s then some (.ofFloat (0.0 / 0.0))
  else if [".inf", ".Inf", ".INF", "+.inf", "+.Inf", "+.INF"].contains s then
    some (.ofFloat (1.0 / 0.0))
  else if ["-.inf", "-.Inf", "-.INF"].contains s then some (.ofFloat (-1.0 / 0.0))
  else none

/-- What a plain scalar stands for by its look. -/
def resolvePlain (s : String) : Resolved :=
  if ["", "~", "null", "Null", "NULL"].contains s then .null
  else if ["true", "True", "TRUE"].contains s then .flag true
  else if ["false", "False", "FALSE"].contains s then .flag false
  else match oddReal? s with
    | some x => .real x
    | none => match s.toList with
      | '.' :: _ => ((Decimal.readDouble? s.toList).map .real).getD (.text s)
      | c :: _ =>
        if c.isDigit || c == '+' || c == '-' then (numberOf? s.toList).getD (.text s) else .text s
      | [] => .null

/-- What a scalar stands for, unless its tag asks for something else. -/
def resolve? (tag : String) (style : Style) (s : String) : Option Resolved :=
  if tag == "!!str" || (tag == "" && style == .quoted) then some (.text s)
  else
    let found := resolvePlain s
    if tag == "" || tag == found.tag then some found
    else match tag, found with
      | "!!float", .whole n => some (.real (.ofInt n))
      | _, _ => none

abbrev Reads (α : Type) := Node → Option (Option α)

def readScalar (f : String → Resolved → Option α) : Reads α
  | .scalar tag style s =>
    match resolve? tag style s with
    | none => none
    | some .null => some none
    | some r => (f s r).map some
  | _ => none

def readText : Reads String := readScalar fun s _ => some s

/-- A truth value, also by the words of older documents. -/
def readBool : Reads Bool := readScalar fun _ r =>
  match r with
  | .flag b => some b
  | .text s =>
    if ["y", "Y", "yes", "Yes", "YES", "on", "On", "ON"].contains s then some true
    else if ["n", "N", "no", "No", "NO", "off", "Off", "OFF"].contains s then some false
    else none
  | _ => none

/-- The whole number towards zero from a double that is not too large. What is too small for
sixty-four bits, minus infinity included, becomes the least whole number. -/
def truncate? (x : Double) : Option Int :=
  if !x.isFinite then if x.isNegative && x.fraction == 0 then some Decimal.minInt else none
  else
    let shifted := if x.scale < 0 then x.significand / Nat.pow 2 x.scale.natAbs
      else x.significand * Nat.pow 2 x.scale.natAbs
    if x.isNegative then some (max (-(shifted : Int)) Decimal.minInt)
    else if Decimal.fitsInt shifted then some shifted
    else none

/-- A whole number; the fraction of a real number is dropped. -/
def readInt : Reads Int := readScalar fun _ r =>
  match r with
  | .whole n => if Decimal.fitsInt n then some n else none
  | .real x => truncate? x
  | _ => none

def readDouble : Reads Double := readScalar fun _ r =>
  match r with
  | .whole n => some (.ofInt n)
  | .real x => some x
  | _ => none

def readItems (read : Reads α) : List Node → Option (List α)
  | [] => some []
  | n :: items =>
    match read n, readItems read items with
    | some (some a), some rest => some (a :: rest)
    | some none, some rest => some rest
    | _, _ => none

def readList (read : Reads α) : Reads (List α)
  | .list items => (readItems read items).map some
  | .scalar tag style s => if resolve? tag style s = some .null then some none else none
  | .map _ => none

/-- Whether two keys are the same: two scalars with one text, two lists or two maps. -/
def sameKey : Node → Node → Bool
  | .scalar _ _ s, .scalar _ _ t => s == t
  | .list _, .list _ => true
  | .map _, .map _ => true
  | _, _ => false

def hasTwin : List (Node × Node) → Bool
  | [] => false
  | (key, _) :: entries => entries.any (fun e => sameKey key e.1) || hasTwin entries

/-! ### Merging -/

def isMerge : Node → Bool
  | .scalar tag style s => s == "<<" && (tag == "!!merge" || (tag == "" && style == .plain))
  | _ => false

mutual
/-- The entries of a map, followed by those of the maps that it asks for. -/
def flattened : List (Node × Node) → Option (List (Node × Node))
  | [] => some []
  | (key, value) :: entries => do
    let rest ← flattened entries
    if isMerge key then return rest ++ (← mergedIn value) else return (key, value) :: rest

/-- The entries that a map or a list of maps brings in. -/
def mergedIn : Node → Option (List (Node × Node))
  | .map entries => if hasTwin entries then none else flattened entries
  | .list items => mergedItems items
  | .scalar _ _ _ => none

def mergedItems : List Node → Option (List (Node × Node))
  | [] => some []
  | .map entries :: items => do
    let first ← if hasTwin entries then none else flattened entries
    return first ++ (← mergedItems items)
  | _ :: _ => none
end

def firstOfEach (entries : List (Node × Node)) : List (Node × Node) :=
  (entries.foldl (fun all e => if all.any (fun old => sameKey old.1 e.1) then all else e :: all)
    []).reverse

def allEntries (entries : List (Node × Node)) : Option (List (Node × Node)) :=
  if hasTwin entries then none else (flattened entries).map firstOfEach

/-! ### Records and tables -/

abbrev Parts (α : Type) := List (String × (Node → α → Option α))

def part (read : Reads β) (set : β → α → α) : Node → α → Option α := fun n a =>
  match read n with
  | none => none
  | some none => some a
  | some (some b) => some (set b a)

/-- Puts the entries of a map into a record; each key has to name a part. -/
def readEntries (parts : Parts α) : List (Node × Node) → α → Option α
  | [], a => some a
  | (key, value) :: entries, a =>
    match readText key with
    | none => none
    | some none => readEntries parts entries a
    | some (some name) =>
      match parts.find? fun part => part.1 == name with
      | none => none
      | some (_, put) => match put value a with
        | some a => readEntries parts entries a
        | none => none

def readRecord (parts : Parts α) (zero : α) : Reads α
  | .map entries => do
    let entries ← allEntries entries
    return some (← readEntries parts entries zero)
  | .scalar tag style s => if resolve? tag style s = some .null then some none else none
  | .list _ => none

/-- Adds the entries of a map to a table; a null stands for `zero`. -/
def readTableEntries (read : Reads α) (zero : α) : List (Node × Node) → Table α → Option (Table α)
  | [], table => some table
  | (key, value) :: entries, table =>
    match readText key, read value with
    | some none, _ => readTableEntries read zero entries table
    | some (some name), some a =>
      readTableEntries read zero entries (Table.insert name (a.getD zero) table)
    | _, _ => none

def readTable (read : Reads α) (zero : α) : Reads (Table α)
  | .map entries => do
    let entries ← allEntries entries
    return some (← readTableEntries read zero entries [])
  | .scalar tag style s => if resolve? tag style s = some .null then some none else none
  | .list _ => none

end PluginAudit.Yaml
