import PluginAudit.Detector.Call
import PluginAudit.Source.CallSite
import PluginAudit.Source.Embedded
import PluginAudit.Source.Import

/-!
Undefined functions: calls of functions that neither the runtime, the platform, an ecosystem nor the
plugin itself provides, of functions that the runtime gained later, and of functions that only admin
pages have.
-/

namespace PluginAudit.Detector.UndefinedFunction

open Pattern Source

/-! ### Names -/

def adminFunctions : List String :=
  ["is_plugin_active", "is_plugin_active_for_network", "is_plugin_inactive",
   "is_network_only_plugin", "activate_plugin", "activate_plugins", "deactivate_plugins",
   "delete_plugins", "validate_plugin", "get_plugins", "get_plugin_data", "get_mu_plugins",
   "get_dropins", "plugin_sandbox_scrape", "is_uninstallable_plugin"]

def laterFunctions : List (String × String) :=
  [("str_contains", "8.0.0"), ("str_starts_with", "8.0.0"), ("str_ends_with", "8.0.0"),
   ("array_key_first", "7.3.0"), ("array_key_last", "7.3.0"), ("is_countable", "7.3.0"),
   ("hrtime", "7.3.0"), ("password_hash", "5.5.0"), ("password_verify", "5.5.0"),
   ("hash_equals", "5.6.0"), ("random_bytes", "7.0.0"), ("random_int", "7.0.0"),
   ("intdiv", "7.0.0"), ("preg_replace_callback_array", "7.0.0"), ("array_is_list", "8.1.0"),
   ("fsync", "8.1.0"), ("json_validate", "8.3.0")]

def platformFunctions : List String :=
  ["wp_enqueue_script", "wp_enqueue_style", "wp_dequeue_script", "wp_dequeue_style", "add_action",
   "add_filter", "remove_action", "remove_filter", "get_option", "update_option", "delete_option",
   "get_post_meta", "update_post_meta", "delete_post_meta", "get_user_meta", "update_user_meta",
   "delete_user_meta", "wp_redirect", "wp_safe_redirect", "wp_die", "wp_error",
   "sanitize_text_field", "sanitize_email", "sanitize_url", "esc_html", "esc_attr", "esc_url",
   "esc_js", "wp_nonce_field", "wp_verify_nonce", "wp_create_nonce", "current_user_can",
   "is_user_logged_in", "get_current_user_id", "wp_get_current_user", "register_post_type",
   "register_taxonomy", "add_meta_box", "remove_meta_box", "wp_insert_post", "wp_update_post",
   "wp_delete_post", "get_posts", "get_post", "wp_query", "is_admin", "is_front_page", "is_home",
   "is_single", "is_page", "get_template_directory", "get_template_directory_uri",
   "get_stylesheet_directory", "get_stylesheet_directory_uri", "plugin_dir_path", "plugin_dir_url",
   "plugins_url", "__", "_e", "_n", "_x", "esc_html__", "esc_html_e", "esc_attr__", "esc_attr_e",
   "absint", "trailingslashit", "untrailingslashit", "load_plugin_textdomain", "dbdelta",
   "selected", "checked", "disabled", "submit_button", "settings_fields", "do_settings_sections",
   "shortcode_atts", "wpautop", "home_url", "site_url", "admin_url"]

def platformLeads : List String :=
  ["wp_", "get_", "the_", "is_", "has_", "add_", "remove_", "do_", "apply_", "register_",
   "enqueue_", "dequeue_"]

def keywords : List String :=
  ["if", "else", "elseif", "while", "for", "foreach", "switch", "case", "default", "try", "catch",
   "finally", "class", "function", "fn", "interface", "trait", "enum", "namespace", "use", "echo",
   "print", "return", "throw", "include", "require", "include_once", "require_once", "isset",
   "empty", "unset", "array", "list", "exit", "die", "new", "clone", "instanceof", "match",
   "declare", "eval", "static", "self", "parent", "yield", "and", "or", "xor", "global", "const",
   "var", "abstract", "final", "readonly", "as", "insteadof"]

/-- Whether a name is one that the runtime calls itself. -/
def isMagic (name : String) : Bool := decide (2 < name.utf8ByteSize) && name.startsWith "__"

/-! ### Calls -/

def call : Pattern := .cat [wordEdge, .group 1 identifier, spaces, literal "("]

def methodHead : Pattern :=
  .cat [textStart, spaces,
    plus (.seq (words ["abstract", "final", "static", "private", "protected", "public"]) spaces1),
    literal "function", spaces1]

def declarationHead : Pattern :=
  .cat [textStart, spaces, star (.seq (words ["abstract", "final", "readonly"]) spaces1),
    words ["class", "interface", "trait", "namespace", "use", "enum"], spaces1]

def styleBlock : Pattern :=
  .cat [literal "\x7b", star (noneOf "\x7d"), literal ":", star (noneOf "\x7d"), literal "\x7d"]

def styleAttribute : Pattern := .cat [literal "style", spaces, literal "=", spaces, anyOf "\"'"]

def styleSheet : Pattern :=
  .cat [anyOf "\"'", star (noneOf "\"'"), literal ".", words ["css", "scss", "sass", "less"],
    anyOf "\"'"]

def mayCall (line : List Char) : Bool :=
  !(isScript line || isStyle line || styleAttribute.test line || styleSheet.test line ||
    methodHead.test line || declarationHead.test line ||
    "#[".toList.isPrefixOf (Text.trimChars line))

/-- Whether a name after this text, given in reverse, is qualified by a namespace. A separator alone
marks a global name. -/
def isQualified (past : List Char) : Bool :=
  match past with
  | '\\' :: c :: _ => CharSet.wordChar.mem c
  | _ => false

def isCall (m : Match) : Bool :=
  let past := m.past
  let before := match past with
    | '\\' :: rest => rest
    | past => past
  !(follows past ".$>" || isQualified past || isDefinition before ||
    keywords.contains (Text.lower (m.groupText 1)) || isMagic (m.groupText 1))

/-- The names of the functions called on a line, each one once. Lines with methods or classes are
left out. -/
def calls (line : List Char) : List String :=
  if mayCall line then
    let line := clean line
    if hasOperator line || styleBlock.test line then []
    else (((call.findAll line).filter isCall).map (·.groupText 1)).foldl
      (fun names name => if names.contains name then names else names ++ [name]) []
  else []

/-! ### Findings -/

structure Scope where
  file : File
  declared : List String
  imports : ImportIndex

def scopeOf (f : File) : Scope :=
  ⟨f, ((declarations f.content).filter fun d => !d.isType).map fun d => Text.lower d.name,
   .ofContent f.content⟩

def isOwn (env : Surroundings) (scope : Scope) (name : String) : Bool :=
  scope.declared.contains (Text.lower name) || (scope.imports.function? name).isSome ||
    env.symbols.hasFunction name

def isProvided (env : Surroundings) (name : String) : Bool :=
  env.runtime.hasFunction name || platformFunctions.contains (Text.lower name) ||
    env.exemptions.exemptsFunction name env.ecosystems ||
    platformLeads.any fun lead => (Text.lower name).startsWith lead

def undefinedMessage (name : String) : String := "Call to undefined function " ++ apart name

def adminFinding (scope : Scope) (target : Combination) (name : String) (line : Nat) : Finding :=
  let site := CallSite.classify scope.file.lines line name
  ⟨.undefinedFunction, undefinedMessage name, scope.file.path, line, site.severity,
   site.suggestion name,
   texts [("function", name), ("wp_context", site.word), ("php_version", target.php),
     ("wp_version", target.wp)]⟩

def laterFinding (scope : Scope) (target : Combination) (name required : String) (line : Nat) :
    Finding :=
  ⟨.phpVersionRequirement,
   "Function " ++ apart name ++ " requires PHP " ++ required ++ " or higher", scope.file.path, line,
   .error, "Upgrade PHP to version " ++ required ++ " or higher, or use an alternative",
   texts [("function", name), ("required_version", required), ("php_version", target.php)]⟩

def undefinedFinding (scope : Scope) (target : Combination) (name : String) (line : Nat) :
    Finding :=
  ⟨.undefinedFunction, undefinedMessage name, scope.file.path, line, .error,
   "Check if function " ++ apart name ++ " is defined or include the required file/library",
   texts [("function", name), ("php_version", target.php), ("wp_version", target.wp)]⟩

def classify (env : Surroundings) (target : Combination) (scope : Scope) (name : String)
    (line : Nat) : Option Finding :=
  if adminFunctions.contains (Text.lower name) then some (adminFinding scope target name line)
  else if isOwn env scope name then none
  else match laterFunctions.lookup (Text.lower name) with
    | some required =>
      if Version.below target.php required then some (laterFinding scope target name required line)
      else none
    | none => if isProvided env name then none else some (undefinedFinding scope target name line)

def detect (env : Surroundings) (target : Combination) (f : File) : List Finding :=
  let scope := scopeOf f
  f.codeLines.flatMap fun (number, line) =>
    (calls line).filterMap fun name => classify env target scope name number

end PluginAudit.Detector.UndefinedFunction
