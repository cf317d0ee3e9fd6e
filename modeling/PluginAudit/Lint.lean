import PluginAudit.FileTree.Confined
import PluginAudit.Inventory
import PluginAudit.Pattern.Search

/-!
The runtime's own check of a file. The program is found by its path, run once per file, and its
output is read for parse errors and fatal errors.
-/

namespace PluginAudit

namespace Lint

open Pattern

/-! ### Diagnostics -/

inductive DiagnosticKind where
  | parse
  | fatal
deriving DecidableEq, Repr

def DiagnosticKind.word : DiagnosticKind → String
  | .parse => "parse"
  | .fatal => "fatal"

structure Diagnostic where
  kind : DiagnosticKind
  message : String
  line : Int
deriving DecidableEq, Repr

/-- A reported error: its message, and the number of its line. -/
def report (label : String) : Pattern :=
  .cat [opt (literal "PHP "), literal label, spaces, .group 1 (plusLazy (.set .notNewline)),
    literal " in ", plus (.set .notNewline), literal " on line ", .group 2 (plus (.set .digit))]

def parseReport : Pattern := report "Parse error:"

def fatalReport : Pattern := report "Fatal error:"

/-- The diagnostic of a match, unless the number of its line is out of range. -/
def diagnostic? (kind : DiagnosticKind) (m : Match) : Option Diagnostic :=
  (Decimal.readInt? (m.groupText 2).toList).map fun line => ⟨kind, Text.trim (m.groupText 1), line⟩

def parseOutput (output : String) : List Diagnostic :=
  let found (kind : DiagnosticKind) (p : Pattern) :=
    (p.findAll output.toList).filterMap (diagnostic? kind)
  (found .parse parseReport ++ found .fatal fatalReport).foldl
    (fun seen d => if seen.contains d then seen else seen ++ [d]) []

/-! ### Running the program -/

inductive Outcome where
  | clean
  | errors
  | failed
deriving DecidableEq, Repr

def Outcome.word : Outcome → String
  | .clean => "clean"
  | .errors => "errors"
  | .failed => "failed"

inductive Error where
  | binaryNotFound (binary : String)
  | cancelled
  | check (path : String) (cause : String)
  | eval (cause : String)
  | probe (cause : Error)
  | listing
deriving DecidableEq

def cancelledText : String := "context canceled"

def Error.message : Error → String
  | .binaryNotFound binary => "php binary not found: " ++ binary
  | .cancelled => cancelledText
  | .check path cause => "lint " ++ path ++ ": " ++ cause
  | .eval cause => "eval php: " ++ cause
  | .probe cause => "probe php runtime: " ++ cause.message
  | .listing => "decode php runtime symbols"

def isExecutable (tree : Node) (path : String) : Bool :=
  match FileTree.stat tree path with
  | .ok (.file _ .plain) => false
  | .ok (.file _ _) => true
  | _ => false

def defaultBinary : String := "php"

/-- The path of a program. A plain name is searched for in the directories of the surroundings. -/
def findBinary (tree : Node) (here name : String)
    (search : String → Option String := fun _ => none) :
    Except Error String :=
  let binary := if Text.isBlank name then defaultBinary else Text.trim name
  let path? :=
    if !binary.toList.contains '/' then search binary
    else if isExecutable tree (Path.seenFrom here binary) then some (Path.absolute here binary)
    else none
  match path? with
  | some path => .ok path
  | none => .error (.binaryNotFound binary)

def statusText (status : Int) : String := "exit status " ++ Decimal.intText status

/-- What a program prints and the status it ends with, or why it cannot be started. -/
def start (tree : Node) (binary : String) (answer : Program → String × Int) :
    Except String (String × Int) :=
  match FileTree.stat tree binary with
  | .ok (.file _ (.program answers)) => .ok (answer answers)
  | .ok (.file _ .executable) => .error ("fork/exec " ++ binary ++ ": exec format error")
  | .ok _ => .error ("fork/exec " ++ binary ++ ": permission denied")
  | .error cause => .error ("fork/exec " ++ binary ++ ": " ++ cause.message)

def check (tree : Node) (binary : String) (cancelled : Bool) (path : String) :
    Outcome × Except Error (List Diagnostic) :=
  if cancelled then (.failed, .error (.check path cancelledText))
  else match start tree binary fun p => p.check path with
    | .error cause => (.failed, .error (.check path cause))
    | .ok (output, status) =>
      let diagnostics := parseOutput output
      if diagnostics.isEmpty then
        if status = 0 then (.clean, .ok [])
        else (.failed, .error (.check path (statusText status ++ ": " ++ Text.trim output)))
      else (.errors, .ok diagnostics)

/-- Runs code and gives what it prints. A limited rate is waited for first, so that a cancelled run
is seen before the program is started. -/
def eval (tree : Node) (binary : String) (limited cancelled : Bool) : Except Error String :=
  if cancelled then .error (if limited then .cancelled else .eval cancelledText)
  else match start tree binary fun p => p.eval with
    | .error cause => .error (.eval cause)
    | .ok (output, status) => if status = 0 then .ok output else .error (.eval (statusText status))

def probe (answer : Except Error String) : Except Error Inventory :=
  match answer with
  | .error e => .error (.probe e)
  | .ok text => match Inventory.ofListing? text with
    | some inventory => .ok inventory
    | none => .error .listing

end Lint

end PluginAudit
