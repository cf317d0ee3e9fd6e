import PluginAudit.Detector.Guard
import PluginAudit.Source.Embedded
import PluginAudit.Source.Import

/-!
Classes: declarations that collide with classes of the runtime or the platform, and uses of classes
that nothing provides.
-/

namespace PluginAudit.Detector.ClassConflict

open Pattern Source

def platformClasses : List String :=
  ["wp_query", "wp_post", "wp_user", "wp_comment", "wp_term", "wp_taxonomy", "wp_error",
   "wp_http_response", "wp_rest_response", "wp_rest_request", "wp_rest_server",
   "wp_rest_controller", "wp_widget", "wp_customize_manager", "wp_customize_control",
   "wp_customize_setting", "wp_list_table", "wp_screen", "wp_admin_bar", "wpdb",
   "wp_filesystem_base", "wp_upgrader", "wp_ajax_upgrader_skin", "wp_theme", "wp_plugin",
   "wp_locale", "wp_roles", "wp_role", "wp_session_tokens", "wp_user_meta_session_tokens",
   "wp_rewrite", "wp_router", "wp_hook", "wp_cli", "wp_cli_command", "wp_user_query",
   "wp_comment_query", "wp_term_query", "wp_site_query", "wp_network_query", "wp_meta_query",
   "wp_date_query", "wp_tax_query", "wp_site", "wp_network", "wp_post_type", "wp_block",
   "wp_block_type", "wp_block_type_registry", "wp_http", "walker", "walker_nav_menu",
   "walker_category", "walker_page"]

def builtinClasses : List String :=
  ["stdclass", "exception", "errorexception", "error", "parseerror", "typeerror",
   "argumentcounterror", "arithmeticerror", "divisionbyzeroerror", "compileerror", "assertionerror",
   "datetime", "datetimeimmutable", "dateinterval", "dateperiod", "datetimezone", "pdo",
   "pdostatement", "pdoexception", "mysqli", "mysqli_stmt", "mysqli_result", "domdocument",
   "domelement", "domnode", "domnodelist", "domxpath", "simplexmlelement", "xmlreader", "xmlwriter",
   "splfileinfo", "splfileobject", "directoryiterator", "recursivedirectoryiterator",
   "arrayiterator", "arrayobject", "splobjectstorage", "reflectionclass", "reflectionmethod",
   "reflectionproperty", "reflectionfunction", "closure", "generator", "weakreference"]

/-! ### Uses -/

def className : Pattern :=
  .cat [opt (literal "\\"), .set .letter, star (.set ((CharSet.ofString "\\").union .wordChar))]

def instantiation : Pattern := .cat [wordEdge, literal "new", spaces1, .group 1 className]

def member : Pattern := .cat [.group 1 className, literal "::", .group 2 wordRun]

def typeTest : Pattern := .cat [wordEdge, literal "instanceof", spaces1, .group 1 className]

def comma : Pattern := .cat [spaces, literal ",", spaces]

def inheritance : Pattern :=
  .cat [wordEdge, words ["extends", "implements"], spaces1,
    .group 1 (.seq className (star (.seq comma className)))]

def classAttribute : Pattern := .cat [literal "class", spaces, literal "=", spaces, anyOf "\"'"]

/-- The class of a match of `member`, unless it goes on a longer name or is only named. -/
def memberClass? (m : Match) : Option (List Char) :=
  if follows m.past "$\\_" || m.past.head?.any CharSet.wordChar.mem then none
  else if Text.sameFold (m.groupText 2) "class" then none
  else some (m.group 1)

def candidates (line : List Char) : List (List Char) :=
  (instantiation.findAll line).map (·.group 1) ++
  (member.findAll line).filterMap memberClass? ++
  (typeTest.findAll line).map (·.group 1) ++
  (inheritance.findAll line).flatMap fun m =>
    let listed := Text.trimChars (m.group 1)
    splitMatches listed (comma.findAll listed)

/-- Whether a name is that of a class: its last segment starts with a capital and is no keyword. -/
def isClassName (name : String) : Bool :=
  let short := lastSegment name
  (short.toList.head?.any Char.isUpper) &&
    !(["self", "parent", "static"].contains (Text.lower short))

/-- The classes used on a line, each one once. Lines of markup, styles or scripts have none. -/
def uses (line : List Char) : List String :=
  if classAttribute.test line || isStyle line || isScript line then []
  else
    let names := (candidates (clean line)).map fun name => Text.dropTail "\\" (String.ofList name)
    (names.filter isClassName).foldl
      (fun all name => if all.contains name then all else all ++ [name]) []

/-! ### Names -/

/-- The full name of a class as it is written in a namespace with imports. -/
def fullName (name inside : String) (imports : ImportIndex) : String :=
  if name.startsWith "\\" then normalName name
  else
    let first := firstSegment name
    match imports.class? first with
    | some imported =>
      normalName imported ++ String.ofList (name.toList.drop first.length)
    | none => if inside = "" then name else inside ++ "\\" ++ name

/-- Whether something provides a class. A name in a namespace that the plugin never declares is left
alone. -/
def isKnown (env : Surroundings) (imports : ImportIndex) (name full : String) : Bool :=
  let short := lastSegment name
  let plain := normalName name
  builtinClasses.contains (Text.lower short) || platformClasses.contains (Text.lower short) ||
    env.runtime.hasClass short || env.runtime.hasClass full ||
    env.symbols.hasClass full || env.symbols.hasClass name || env.symbols.hasClassShort short ||
    (imports.class? (firstSegment plain)).isSome ||
    (plain.toList.contains '\\' && !env.symbols.hasNamespace (firstSegment full)) ||
    env.exemptions.exemptsClass plain env.ecosystems ||
    env.exemptions.exemptsClass short env.ecosystems

/-! ### Findings -/

def capital (word : String) : String :=
  match word.toList with
  | c :: rest => String.ofList (c.toUpper :: rest)
  | [] => ""

def conflicts (env : Surroundings) (kind : DeclarationKind) (name path : String) (line : Nat) :
    List Finding :=
  let noun := kind.word
  (if env.runtime.hasClass name then
    [⟨.classAlreadyExists, "Cannot redeclare " ++ noun ++ " " ++ apart name, path, line, .error,
      "Use a different " ++ noun ++ " name or check for duplicate " ++ noun ++ " declarations",
      texts [("class", name)]⟩] else []) ++
  (if platformClasses.contains (Text.lower name) then
    [⟨.wordPressClassConflict,
      capital noun ++ " " ++ apart name ++ " conflicts with WordPress core class", path, line,
      .error,
      "Use a different class name with a unique prefix to avoid conflicts",
      texts [("class", name), ("type", "wordpress_core")]⟩] else []) ++
  (if builtinClasses.contains (Text.lower name) then
    [⟨.phpClassConflict,
      capital noun ++ " " ++ apart name ++ " conflicts with PHP built-in class", path, line, .error,
      "Use a different class name to avoid conflicts with PHP built-in classes",
      texts [("class", name), ("type", "php_builtin")]⟩] else [])

def undefinedFinding (path : String) (line : Nat) (name full : String) : Finding :=
  ⟨.undefinedClass, "Class " ++ apart name ++ " not found", path, line, .error,
   "Ensure class " ++ apart name ++ " is defined or properly included",
   texts [("class", name), ("resolved", full)]⟩

structure Scope where
  path : String
  imports : ImportIndex
  guards : List Guard

def declarationFindings (env : Surroundings) (scope : Scope) (inside : String) (number : Nat)
    (code : List Char) : List Finding :=
  match typeOn? code with
  | some (kind, name) =>
    if inside = "" && !Guard.deniesBefore scope.guards name (number - 1) then
      conflicts env kind name scope.path number
    else []
  | none => []

def useFindings (env : Surroundings) (scope : Scope) (inside : String) (number : Nat)
    (line : List Char) : List Finding :=
  (uses line).filterMap fun name =>
    let full := fullName name inside scope.imports
    if isKnown env scope.imports name full || Guard.covers scope.guards name full (number - 1) then
      none
    else some (undefinedFinding scope.path number name full)

def findingsFrom (env : Surroundings) (scope : Scope) (inside : String) :
    List (Nat × List Char) → List Finding
  | [] => []
  | (number, line) :: lines =>
    let code := clean line
    match namespaceOn? code with
    | some name => findingsFrom env scope name lines
    | none =>
      declarationFindings env scope inside number code ++
        useFindings env scope inside number line ++ findingsFrom env scope inside lines

def detect (env : Surroundings) (f : File) : List Finding :=
  findingsFrom env ⟨f.path, .ofContent f.content, Guard.all f.lines⟩ "" f.codeLines

end PluginAudit.Detector.ClassConflict
