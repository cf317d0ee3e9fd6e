import PluginAudit.Digest.Sha256
import PluginAudit.Path
import PluginAudit.Text.Letter
import PluginAudit.Value

/-!
Findings: one potential cause of a fatal error each, with its place, severity and context. The
fingerprint of a finding leaves its line out, so that it survives unrelated edits.
-/

namespace PluginAudit

/-! ### Kinds -/

structure Kind where
  code : String
deriving DecidableEq, Repr

namespace Kind

def undefinedFunction : Kind := ⟨"UNDEFINED_FUNCTION"⟩
def undefinedClass : Kind := ⟨"UNDEFINED_CLASS"⟩
def classAlreadyExists : Kind := ⟨"CLASS_ALREADY_EXISTS"⟩
def wordPressClassConflict : Kind := ⟨"WORDPRESS_CLASS_CONFLICT"⟩
def phpClassConflict : Kind := ⟨"PHP_CLASS_CONFLICT"⟩
def deprecatedPhpFeature : Kind := ⟨"DEPRECATED_PHP_FEATURE"⟩
def removedPhpFeature : Kind := ⟨"REMOVED_PHP_FEATURE"⟩
def phpVersionRequirement : Kind := ⟨"PHP_VERSION_REQUIREMENT"⟩
def deprecatedFunction : Kind := ⟨"DEPRECATED_FUNCTION"⟩
def removedFunction : Kind := ⟨"REMOVED_FUNCTION"⟩
def versionRequirement : Kind := ⟨"VERSION_REQUIREMENT"⟩
def deprecatedHook : Kind := ⟨"DEPRECATED_HOOK"⟩
def syntaxError : Kind := ⟨"SYNTAX_ERROR"⟩
def fatalSyntaxError : Kind := ⟨"FATAL_SYNTAX_ERROR"⟩
def missingSemicolon : Kind := ⟨"MISSING_SEMICOLON"⟩
def unmatchedBrackets : Kind := ⟨"UNMATCHED_BRACKETS"⟩
def templateMethodContextError : Kind := ⟨"TEMPLATE_METHOD_CONTEXT_ERROR"⟩
def thisContextError : Kind := ⟨"THIS_CONTEXT_ERROR"⟩

def all : List Kind :=
  [syntaxError, fatalSyntaxError, missingSemicolon, unmatchedBrackets, undefinedFunction,
   undefinedClass, classAlreadyExists, wordPressClassConflict, phpClassConflict,
   deprecatedFunction, removedFunction, versionRequirement, deprecatedHook,
   deprecatedPhpFeature, removedPhpFeature, phpVersionRequirement, templateMethodContextError,
   thisContextError]

/-- The kinds for a symbol that another plugin may supply at run time. -/
def isDependency (k : Kind) : Bool :=
  k == undefinedFunction || k == undefinedClass

end Kind

/-! ### Severities -/

structure Severity where
  label : String
deriving DecidableEq, Repr

namespace Severity

def error : Severity := ⟨"error"⟩
def warning : Severity := ⟨"warning"⟩
def info : Severity := ⟨"info"⟩

inductive Error where
  | unknown (value : String)
  | emptyList
deriving DecidableEq

def Error.message : Error → String
  | .unknown value => "unknown severity: " ++ value
  | .emptyList => "unknown severity: empty severity list"

/-- The severity that a text names, up to case and surrounding white space. -/
def parse (value : String) : Except Error Severity :=
  let label := Text.lower (Text.trim value)
  if label = error.label then .ok error
  else if label = warning.label then .ok warning
  else if label = info.label then .ok info
  else .error (.unknown value)

/-- The severities that some texts name, blank ones left out and each one once. -/
def parseParts (seen : List Severity) : List String → Except Error (List Severity)
  | [] => .ok []
  | part :: parts =>
    if Text.isBlank part then parseParts seen parts
    else match parse part with
      | .error e => .error e
      | .ok severity =>
        if seen.contains severity then parseParts seen parts
        else match parseParts (severity :: seen) parts with
          | .error e => .error e
          | .ok rest => .ok (severity :: rest)

/-- The severities of a comma-separated list, which names at least one. -/
def parseList (value : String) : Except Error (List Severity) :=
  match parseParts [] (Text.split ',' value) with
  | .error e => .error e
  | .ok [] => .error .emptyList
  | .ok found => .ok found

/-- Errors come first, then warnings, then all else. -/
def rank (s : Severity) : Int :=
  if s = error then 0 else if s = warning then 1 else 2

end Severity

/-! ### Findings -/

structure Finding where
  kind : Kind
  message : String
  file : String
  line : Int
  severity : Severity
  suggestion : String := ""
  context : Table Value := []
deriving DecidableEq

namespace Finding

def withContext (f : Finding) (key : String) (value : Value) : Finding :=
  { f with context := Table.insert key value f.context }

def contextText (f : Finding) (key : String) : String :=
  match Table.get? key f.context with
  | some value => value.display
  | none => ""

def display (f : Finding) : String :=
  "[" ++ f.severity.label ++ "] " ++ f.kind.code ++ ": " ++ f.message ++ " (" ++ Path.base f.file ++
    ":" ++ Decimal.intText f.line ++ ")"

/-- The path from the root to a file. A blank root leaves the path as it is, and a file outside the
root is given by its base name. -/
def relativePathOf (root file : String) : String :=
  if Text.isBlank root then file
  else match Path.relative? root file with
    | some path => if Path.leaves path then Path.base file else path
    | none => Path.base file

def relativePath (f : Finding) (root : String) : String :=
  relativePathOf root f.file

def fingerprintBytes (f : Finding) (root : String) : List UInt8 :=
  [f.kind.code, f.relativePath root, f.message].flatMap fun part => part.toUTF8.data.toList ++ [0]

/-- Sixteen digits that identify a finding whatever its line. -/
def fingerprint (f : Finding) (root : String) : String :=
  String.ofList ((Digest.sha256Hex (f.fingerprintBytes root)).toList.take 16)

/-- The order of findings: by file, line, kind and message. -/
def order (a b : Finding) : Ordering :=
  (compare a.file b.file).then ((compare a.line b.line).then
    ((compare a.kind.code b.kind.code).then (compare a.message b.message)))

/-- Findings in order; those that agree in file, line, kind and message keep their places. -/
def sort (findings : List Finding) : List Finding :=
  findings.mergeSort fun a b => a.order b != .gt

/-- The findings with one of the given severities; all of them when none is given. -/
def filterSeverities (findings : List Finding) (allowed : List Severity) : List Finding :=
  if allowed.isEmpty then findings else findings.filter fun f => allowed.contains f.severity

end Finding

end PluginAudit
