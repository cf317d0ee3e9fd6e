import PluginAudit.Csv
import PluginAudit.Decimal.Literal
import PluginAudit.Duration
import PluginAudit.Text.Blank

/-!
Flags of a command line and the values they take. A switch stands by itself and takes a value only
after an equals sign; every other flag needs one.
-/

namespace PluginAudit.CommandLine

inductive Kind where
  | text
  | switch
  | whole
  | real
  | span
  /-- Texts with commas between them. -/
  | list
  /-- One text of several. -/
  | item
deriving DecidableEq

/-- A flag: its name, a letter that stands for it, and what it takes. -/
structure Flag where
  name : String
  kind : Kind
  letter : Option Char := none
deriving DecidableEq

inductive Given where
  | text (s : String)
  | switch (b : Bool)
  | whole (n : Int)
  | real (x : Double)
  /-- Nanoseconds. -/
  | span (n : Int)
  | texts (items : List String)
deriving DecidableEq

inductive ValueError where
  | number (reader text : String) (fault : Decimal.Fault)
  | span (cause : Duration.Error)
  | record (cause : Csv.Error)
deriving DecidableEq

def ValueError.message : ValueError → String
  | .number reader text fault =>
    "strconv." ++ reader ++ ": parsing " ++ Text.quote text ++ ": " ++ fault.message
  | .span cause => cause.message
  | .record cause => cause.message

def switch? (s : String) : Option Bool :=
  if s ∈ ["1", "t", "T", "TRUE", "true", "True"] then some true
  else if s ∈ ["0", "f", "F", "FALSE", "false", "False"] then some false
  else none

def Kind.read (k : Kind) (s : String) : Except ValueError Given :=
  match k with
  | .text => .ok (.text s)
  | .switch => match switch? s with
    | some b => .ok (.switch b)
    | none => .error (.number "ParseBool" s .malformed)
  | .whole => match Decimal.readWhole s.toList with
    | .ok n => .ok (.whole n)
    | .error fault => .error (.number "ParseInt" s fault)
  | .real => match Decimal.readReal s.toList with
    | .ok x => .ok (.real x)
    | .error fault => .error (.number "ParseFloat" s fault)
  | .span => match Duration.parse s with
    | .ok n => .ok (.span n)
    | .error cause => .error (.span cause)
  | .list =>
    if s = "" then .ok (.texts [])
    else match Csv.readRecord s.toList with
      | .ok items => .ok (.texts items)
      | .error cause => .error (.record cause)
  | .item => .ok (.texts [s])

/-! ### What was given -/

abbrev Settled := List (String × Given)

namespace Settled

def valuesOf (s : Settled) (names : List String) : List Given :=
  s.filterMap fun (name, value) => if names.contains name then some value else none

def has (s : Settled) (name : String) : Bool := s.any (·.1 == name)

def text? (s : Settled) (name : String) : Option String :=
  ((s.valuesOf [name]).filterMap fun | .text t => some t | _ => none).getLast?

/-- The last state of a switch that goes by several names. -/
def switch? (s : Settled) (names : List String) : Option Bool :=
  ((s.valuesOf names).filterMap fun | .switch b => some b | _ => none).getLast?

def whole? (s : Settled) (name : String) : Option Int :=
  ((s.valuesOf [name]).filterMap fun | .whole n => some n | _ => none).getLast?

def real? (s : Settled) (name : String) : Option Double :=
  ((s.valuesOf [name]).filterMap fun | .real x => some x | _ => none).getLast?

def span? (s : Settled) (name : String) : Option Int :=
  ((s.valuesOf [name]).filterMap fun | .span n => some n | _ => none).getLast?

def texts? (s : Settled) (name : String) : Option (List String) :=
  if s.has name then
    some ((s.valuesOf [name]).flatMap fun | .texts items => items | _ => [])
  else none

end Settled

end PluginAudit.CommandLine
