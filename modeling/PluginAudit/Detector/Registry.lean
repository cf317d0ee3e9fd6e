import PluginAudit.Detector.ClassConflict
import PluginAudit.Detector.Language
import PluginAudit.Detector.Platform
import PluginAudit.Detector.Syntax
import PluginAudit.Detector.Template
import PluginAudit.Detector.UndefinedFunction

/-!
Detectors and the registry that holds them. Names of detectors differ in more than case and blanks
around them, and a selection keeps the order in which detectors were registered.
-/

namespace PluginAudit

/-- A way to judge a file for a combination. What checks of the runtime found is handed on from one
judgement to the next. -/
structure Detector where
  id : String
  name : String
  judge : Combination → Source.File → StateM Detector.Syntax.Memo (List Finding)

namespace Detector

/-- What a detector needs besides the surroundings: a check of the runtime, whether the run goes on,
and the changes of the platform. -/
structure Means where
  linter : Option Syntax.Linter := none
  live : Bool := true
  changes : Platform.Changes := .builtin

def plain (id name : String) (judge : Combination → Source.File → List Finding) : Detector :=
  ⟨id, name, fun target f => pure (judge target f)⟩

def builtins (env : Surroundings) (means : Means) : List Detector :=
  [⟨"syntax", "Syntax Error Detector", fun _ f memo =>
      (Syntax.detect means.linter means.live memo f).swap⟩,
   plain "undefined-function" "Undefined Function Detector" (UndefinedFunction.detect env),
   plain "class-conflict" "Class Conflict Detector" fun _ => ClassConflict.detect env,
   plain "wp-compat" "WordPress Compatibility Detector" (Platform.detect means.changes),
   plain "php-compat" "PHP Version Compatibility Detector" Language.detect,
   plain "template-method-context" "Template Method Context Detector" fun _ =>
     Template.detectMethods env,
   plain "this-context" "$this Context Detector" fun _ => Template.detectObject env]

/-- The form in which names of detectors are compared. -/
def keyOf (id : String) : String := Text.lower (Text.trim id)

def key (d : Detector) : String := keyOf d.id

inductive Error where
  | missing
  | unnamed
  | duplicate (id : String)
  | unknown (id : String)
deriving DecidableEq, Repr

def Error.message : Error → String
  | .missing => "detector is nil"
  | .unnamed => "detector id cannot be empty"
  | .duplicate id => "detector id already registered: " ++ id
  | .unknown id => "unknown detector: " ++ id

/-- Detectors in the order of their registration. -/
abbrev Registry := List Detector

namespace Registry

def withKey? (r : Registry) (key : String) : Option Detector := r.find? fun d => d.key == key

def register (r : Registry) (d : Option Detector) : Except Error Registry :=
  match d with
  | none => .error .missing
  | some d =>
    if d.key = "" then .error .unnamed
    else if (withKey? r d.key).isSome then .error (.duplicate d.id)
    else .ok (r ++ [d])

def get (r : Registry) (id : String) : Except Error Detector :=
  match withKey? r (keyOf id) with
  | some d => .ok d
  | none => .error (.unknown id)

def keys (r : Registry) : List String := sortedNames (r.map key)

/-- The detectors with some names, all of them if none is given. -/
def select (r : Registry) (ids : List String) : Except Error (List Detector) :=
  if ids.isEmpty then .ok r
  else match ids.find? fun id => (withKey? r (keyOf id)).isNone with
    | some id => .error (.unknown id)
    | none => .ok (r.filter fun d => (ids.map keyOf).contains d.key)

end Registry

structure Result where
  target : Combination
  path : String
  detector : Detector
  findings : List Finding

def judgeFile (detectors : List Detector) (target : Combination) (f : Source.File) :
    StateM Syntax.Memo (List Result) :=
  detectors.mapM fun d => do return ⟨target, f.path, d, ← d.judge target f⟩

def judgeAll (detectors : List Detector) (targets : List Combination) (files : List Source.File) :
    StateM Syntax.Memo (List Result) := do
  let results ← targets.mapM fun target => files.mapM fun f => judgeFile detectors target f
  return results.flatten.flatten

end Detector

end PluginAudit
