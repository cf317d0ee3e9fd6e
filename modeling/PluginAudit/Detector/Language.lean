import PluginAudit.Detector.Call
import PluginAudit.Source.Embedded

/-!
Compatibility with versions of the language: constructs that were deprecated or removed, or that
came later.
-/

namespace PluginAudit.Detector.Language

open Pattern Source

/-- A construct of the language that a line pattern recognises. A deprecated and a removed construct
with one name are the same construct at two points of its life. -/
structure Feature where
  name : String
  version : String
  pattern : Pattern
  suggestion : String := ""
  /-- Lines that the pattern matches by accident. -/
  excluded : Option Pattern := none
  /-- A function call, which does not count after an operator for members or concatenation. -/
  isCall : Bool := false
  severity : Severity := .error

/-! ### Parts of patterns -/

def visibility : Pattern := words ["private", "protected", "public"]

def classWord : Pattern := star (.seq (words ["final", "abstract"]) spaces1)

def nameRun : Pattern := plus (.set (CharSet.union .wordChar (.ofString "\\")))

def typeName : Pattern :=
  .cat [opt (literal "?"), .set ⟨[('A', 'Z'), ('a', 'z'), ('_', '_'), ('\\', '\\')], false, false⟩,
    star (.set (CharSet.union .wordChar (.ofString "\\|")))]

def callMatching (p : Pattern) : Pattern := .cat [wordEdge, p, spaces, literal "("]

/-! ### Constructs -/

def deprecated : List Feature :=
  [{ name := "each() function", version := "7.2.0", suggestion := "Use foreach loop instead"
     pattern := callOf "each", isCall := true },
   { name := "create_function()", version := "7.2.0"
     suggestion := "Use anonymous functions instead"
     pattern := callOf "create_function", isCall := true },
   { name := "assert() with string argument", version := "7.2.0"
     suggestion := "Use assert() with boolean expressions"
     pattern := .cat [callOf "assert", spaces, anyOf "\"'"], isCall := true },
   { name := "$php_errormsg variable", version := "8.0.0"
     suggestion := "Use error_get_last() instead"
     pattern := .seq (literal "$php_errormsg") wordEdge }]

def removed : List Feature :=
  [{ name := "mysql extension", version := "7.0.0", suggestion := "Use mysqli or PDO instead"
     pattern := callMatching (.seq (literal "mysql_") wordRun), isCall := true },
   { name := "ereg functions", version := "7.0.0", suggestion := "Use preg_* functions instead"
     pattern := callMatching (words ["ereg", "eregi", "ereg_replace", "eregi_replace", "split",
       "spliti", "sql_regcase"])
     isCall := true },
   { name := "mcrypt extension", version := "7.2.0"
     suggestion := "Use openssl or sodium extension instead"
     pattern := callMatching (.seq (literal "mcrypt_") wordRun), isCall := true },
   { name := "each() function", version := "8.0.0", suggestion := "Use foreach loop instead"
     pattern := callOf "each", isCall := true },
   { name := "create_function()", version := "8.0.0"
     suggestion := "Use anonymous functions instead"
     pattern := callOf "create_function", isCall := true },
   { name := "get_magic_quotes_gpc()", version := "8.0.0"
     suggestion := "Magic quotes were removed, no replacement needed"
     pattern := callOf "get_magic_quotes_gpc", isCall := true },
   { name := "restore_include_path()", version := "8.0.0", suggestion := "Use ini_restore() instead"
     pattern := callOf "restore_include_path", isCall := true }]

def typedProperty : Pattern :=
  .cat [textStart, spaces, visibility, opt (.seq spaces1 (literal "static")), spaces1, typeName,
    spaces1, literal "$", wordRun]

def untypedMember : Pattern :=
  oneOf [.cat [textStart, spaces, visibility, spaces1, opt (.seq (literal "static") spaces1),
      words ["function", "const"], wordEdge],
    .cat [textStart, spaces, visibility, spaces1, literal "static", spaces1, literal "$"]]

def arrowFunction : Pattern :=
  .cat [wordEdge, literal "fn", spaces, opt (literal "&"), spaces, literal "(", star (noneOf ")"),
    literal ")", opt (.cat [spaces, literal ":", spaces, opt (literal "?"), nameRun]), spaces,
    literal "=>"]

def unionType : Pattern :=
  oneOf [.cat [literal ")", spaces, literal ":", spaces, opt (literal "?"), nameRun, literal "|",
      nameRun],
    .cat [anyOf "(,", spaces, nameRun, literal "|", nameRun, spaces1, opt (literal "&"),
    literal "$"]]

def introduced : List Feature :=
  [{ name := "Null coalescing operator", version := "7.0.0", pattern := literal "??" },
   { name := "Spaceship operator", version := "7.0.0", pattern := literal "<=>" },
   { name := "Anonymous classes", version := "7.0.0"
     pattern := .cat [wordEdge, literal "new", spaces1, literal "class", wordEdge] },
   { name := "Group use declarations", version := "7.0.0"
     pattern := .cat [textStart, spaces, literal "use", spaces1, nameRun, literal "\\\x7b"] },
   { name := "Null coalescing assignment", version := "7.4.0", pattern := literal "??=" },
   { name := "Arrow functions", version := "7.4.0", pattern := arrowFunction },
   { name := "Typed properties", version := "7.4.0", pattern := typedProperty
     excluded := some untypedMember },
   { name := "Match expression", version := "8.0.0", pattern := callOf "match", isCall := true
     severity := .warning },
   { name := "Named arguments", version := "8.0.0"
     pattern := .cat [.set .wordChar, spaces, literal "(", spaces, identifier, spaces, literal ":",
       spaces, .set ((CharSet.ofString ":").union .space).compl]
     severity := .warning },
   { name := "Nullsafe operator", version := "8.0.0", pattern := literal "?->"
     severity := .warning },
   { name := "Constructor property promotion", version := "8.0.0"
     pattern := .cat [wordEdge, literal "function", spaces1, literal "__construct", spaces,
       literal "(", star (noneOf ")"), wordEdge, visibility, spaces1]
     severity := .warning },
   { name := "Union types", version := "8.0.0", pattern := unionType
     excluded := some (callOf "catch"), severity := .warning },
   { name := "Enums", version := "8.1.0"
     pattern := .cat [textStart, spaces, literal "enum", spaces1, identifier] },
   { name := "Readonly properties", version := "8.1.0"
     pattern := oneOf [.cat [wordEdge, literal "readonly", spaces1, visibility, wordEdge],
       .cat [wordEdge, visibility, spaces1, literal "readonly", wordEdge]] },
   { name := "First-class callable syntax", version := "8.1.0"
     pattern := .cat [.set (CharSet.union .wordChar (.single ')')), spaces, literal "(", spaces,
       literal "...", spaces, literal ")"] },
   { name := "Never return type", version := "8.1.0"
     pattern := .cat [literal ")", spaces, literal ":", spaces, literal "never", wordEdge] },
   { name := "Readonly classes", version := "8.2.0"
     pattern := .cat [textStart, spaces, classWord, literal "readonly", spaces1, classWord,
       literal "class", wordEdge] },
   { name := "Typed class constants", version := "8.3.0"
     pattern := .cat [wordEdge, literal "const", spaces1, typeName, spaces1, identifier, spaces,
       literal "="] }]

/-! ### Findings -/

def Feature.occursOn (f : Feature) (line : List Char) : Bool :=
  !f.excluded.any (·.test line) &&
    if f.isCall then
      (f.pattern.findAll line).any fun m => !(follows m.past ".$>:\\" || isDefinition m.past)
    else f.pattern.test line

def Feature.advice (f : Feature) (fallback : String) : String :=
  if f.suggestion = "" then fallback else f.suggestion

def isRemoved (name version : String) : Bool :=
  removed.any fun f => f.name == name && Version.atLeast version f.version

def deprecatedFinding (version path : String) (line : Nat) (f : Feature) : Finding :=
  ⟨.deprecatedPhpFeature, f.name ++ " is deprecated since PHP " ++ f.version, path, line, .warning,
   f.advice "Consider using alternative approaches",
   texts [("feature", f.name), ("deprecated_version", f.version), ("php_version", version)]⟩

def removedFinding (version path : String) (line : Nat) (f : Feature) : Finding :=
  ⟨.removedPhpFeature, f.name ++ " was removed in PHP " ++ f.version, path, line, .error,
   f.advice "This feature is no longer available",
   texts [("feature", f.name), ("removed_version", f.version), ("php_version", version)]⟩

def requiredFinding (version path : String) (line : Nat) (f : Feature) : Finding :=
  ⟨.phpVersionRequirement, f.name ++ " requires PHP " ++ f.version ++ " or higher", path, line,
   f.severity, "Upgrade PHP to version " ++ f.version ++ " or higher, or use an alternative",
   texts [("feature", f.name), ("required_version", f.version), ("current_version", version)]⟩

def lineFindings (version path : String) (number : Nat) (line : List Char) : List Finding :=
  ((deprecated.filter fun f => f.occursOn line && Version.atLeast version f.version &&
      !isRemoved f.name version).map (deprecatedFinding version path number)) ++
  ((removed.filter fun f => f.occursOn line && Version.atLeast version f.version).map
    (removedFinding version path number)) ++
  ((introduced.filter fun f => f.occursOn line && Version.below version f.version).map
    (requiredFinding version path number))

def detect (target : Combination) (f : File) : List Finding :=
  f.codeLines.flatMap fun (number, line) =>
    if isScript line || (clean line).isEmpty then []
    else lineFindings target.php f.path number (clean line)

end PluginAudit.Detector.Language
