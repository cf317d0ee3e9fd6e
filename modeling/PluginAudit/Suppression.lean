import PluginAudit.Finding
import PluginAudit.Suppression.Eval

/-!
Rules that drop findings. A rule is an expression of Boolean type over the fields of a finding and
the versions it was found for; it drops the findings for which its value is true. An expression
without a value drops nothing. Filtering takes the value of a rule as given.
-/

namespace PluginAudit.Suppression

/-- What a rule is asked about: a finding in a plugin for a combination of versions. -/
structure Subject where
  finding : Finding
  root : String
  php : String
  wp : String

/-- A rule with its value for each subject, which may be missing. -/
structure Rule where
  text : String
  value? : Subject → Option Bool

def scope : Typing.Scope :=
  [("kind", .text), ("severity", .text), ("message", .text), ("file", .text), ("line", .int),
   ("suggestion", .text), ("php", .text), ("wp", .text), ("context", .map .text .dyn)]

def Subject.env (s : Subject) : Env :=
  [("kind", .text s.finding.kind.code), ("severity", .text s.finding.severity.label),
   ("message", .text s.finding.message), ("file", .text (s.finding.relativePath s.root)),
   ("line", .int s.finding.line), ("suggestion", .text s.finding.suggestion), ("php", .text s.php),
   ("wp", .text s.wp), ("context", .map (Datum.ofFields s.finding.context))]

inductive Error where
  | malformed (text : String)
  | notBool (text : String) (type : Ty)
deriving DecidableEq

def Error.message : Error → String
  | .malformed text => "invalid suppress rule " ++ Text.quote text
  | .notBool text type =>
    "invalid suppress rule " ++ Text.quote text ++ ": must evaluate to bool, got " ++ type.name

def boolOf? : Option Datum → Option Bool
  | some (.bool b) => some b
  | _ => none

def Rule.ofText (text : String) : Except Error Rule :=
  match (Expr.parse? text.toList).bind fun e => (Typing.check? scope e).map fun t => (e, t) with
  | none => .error (.malformed text)
  | some (e, t) =>
    if t = .bool then .ok ⟨text, fun s => boolOf? (e.eval s.env)⟩ else .error (.notBool text t)

def compile (texts : List String) : Except Error (List Rule) :=
  ((texts.map Text.trim).filter (· ≠ "")).mapM Rule.ofText

def Rule.drops (r : Rule) (s : Subject) : Bool := r.value? s == some true

def dropping? (rules : List Rule) (s : Subject) : Option Rule := rules.find? (·.drops s)

def kept (rules : List Rule) (root php wp : String) (findings : List Finding) : List Finding :=
  findings.filter fun f => (dropping? rules ⟨f, root, php, wp⟩).isNone

end PluginAudit.Suppression
