import PluginAudit.FileTree.Resolve
import PluginAudit.Finding
import PluginAudit.Pattern.Search
import PluginAudit.Text.Lines

/-!
Where a call to an admin-only function runs, judged by the lines around it: hook registrations,
guards, path words, the enclosing function and the methods of editors nearby.
-/

namespace PluginAudit.Source

open Pattern

inductive CallSite where
  | admin
  | frontend
  | conditional
  | ambiguous
  | unknown
deriving DecidableEq, Repr

/-- The hooks that only admin pages run, by the start of their names. -/
def adminHooks : List String :=
  ["admin_init", "admin_menu", "admin_head", "admin_footer", "admin_enqueue_scripts",
   "admin_notices", "admin_bar_menu", "admin_post_", "wp_ajax_", "wp_ajax_nopriv_",
   "load-", "admin_action_", "wp_dashboard_setup", "admin_page_", "edit_form_",
   "save_post", "delete_post", "wp_insert_post", "pre_get_posts",
   "manage_posts_columns", "manage_pages_columns", "manage_users_columns",
   "bulk_actions-", "handle_bulk_actions-", "admin_print_styles", "admin_print_scripts",
   "elementor/editor/footer", "elementor/editor/before_enqueue_scripts",
   "elementor/editor/after_enqueue_scripts", "elementor/editor/wp_head",
   "elementor/editor/before_enqueue_styles", "elementor/editor/after_enqueue_styles",
   "elementor/preview/enqueue_styles", "elementor/frontend/after_enqueue_styles"]

/-- The hooks that pages for visitors run, by the start of their names. -/
def frontendHooks : List String :=
  ["wp_head", "wp_footer", "wp_enqueue_scripts", "template_redirect",
   "init", "wp_loaded", "parse_request", "send_headers", "wp",
   "template_include", "get_header", "get_footer", "get_sidebar",
   "wp_print_styles", "wp_print_scripts", "wp_meta", "rss_head",
   "atom_head", "rdf_head", "rss2_head", "commentsrss2_head"]

def registrationOn (hooks : List String) : Pattern :=
  .cat [literal "add_", words ["action", "filter"], spaces, literal "(", spaces, anyOf "\"'",
    words hooks]

def adminRegistration : Pattern := registrationOn adminHooks

def frontendRegistration : Pattern := registrationOn frontendHooks

def adminTest : Pattern :=
  .cat [literal "is_admin", spaces, literal "(", spaces, literal ")", spaces, literal ")"]

def adminGuard : Pattern :=
  .cat [literal "if", spaces, literal "(", spaces, adminTest]

def visitorGuard : Pattern :=
  .cat [literal "if", spaces, literal "(", spaces, literal "!", spaces, adminTest]

def adminPath : Pattern := words ["wp-admin/", "admin.php", "admin_"]

def frontendPath : Pattern := words ["template", "theme", "frontend"]

def editorWords : Pattern :=
  oneOf [literalAnyCase "print_template_views", literalAnyCase "templately_promo",
    .cat [literalAnyCase "elementor", star (.set .notNewline), literalAnyCase "editor"],
    .cat [literalAnyCase "editor", star (.set .notNewline), literalAnyCase "elementor"]]

def anyCaseRun : Pattern := star (.set CharSet.wordChar.fold)

def editorMethod : Pattern :=
  .cat [literalAnyCase "function", spaces1,
    oneOf [literalAnyCase "print_template_views",
      .seq (literalAnyCase "templately_promo") anyCaseRun,
      .cat [anyCaseRun, literalAnyCase "editor", anyCaseRun],
      .cat [anyCaseRun, literalAnyCase "setup", anyCaseRun, literalAnyCase "wizard", anyCaseRun],
      literalAnyCase "data_plugins_content", literalAnyCase "eael_quick_setup_data"],
    wordEdge]

def methodTest : Pattern := .cat [literal "method_exists", spaces, literal "("]

def functionHead : Pattern :=
  .cat [literal "function", spaces1, .group 1 identifier, spaces, literal "("]

def typeHead : Pattern :=
  .cat [textStart, spaces, star (.seq (words ["abstract", "final", "readonly"]) spaces1),
    words ["class", "interface", "trait", "enum"], spaces1]

def quotedName (name : String) : Pattern := .cat [anyOf "\"'", literal name, anyOf "\"'"]

/-- The registration of a given callback on an admin hook: the name of a function, or a method of
the same object. -/
def adminCallback (name : String) : Pattern :=
  .cat [literal "add_action", spaces, literal "(", spaces, anyOf "\"'", words adminHooks,
    star (noneOf "\"'"), anyOf "\"'", literal ",", spaces,
    oneOf [.cat [opt (anyOf "\"'"), literal name, wordEdge],
      .cat [literal "[", spaces, literal "$this", spaces, literal ",", spaces, quotedName name,
        spaces, literal "]"],
      .cat [literal "array", spaces, literal "(", spaces, literal "$this", spaces, literal ",",
        spaces, quotedName name, spaces, literal ")"]]]

def existenceTest (name : String) : Pattern :=
  .cat [words ["function_exists", "is_callable"], spaces, literal "(", spaces, quotedName name]

/-! ### Windows -/

/-- The lines with indices from `start` to before `stop`, counted from zero and clamped. -/
def linesBetween (lines : List (List Char)) (start stop : Int) : List (List Char) :=
  (lines.take stop.toNat).drop start.toNat

/-- The ten lines before and after a line, with the line itself, as one text. -/
def window (lines : List (List Char)) (line : Int) : List Char :=
  ['\n'].intercalate (linesBetween lines (line - 11) (line + 10))

/-- The function head nearest above, on the way up from the end of a list of lines in reverse,
unless a class-like declaration comes first. -/
def enclosingFunction? : List (List Char) → Option String
  | [] => none
  | line :: above =>
    match functionHead.find? line with
    | some m => some (m.groupText 1)
    | none => if typeHead.test line then none else enclosingFunction? above

/-- Whether the function around a line is registered on an admin hook anywhere in the file. -/
def insideAdminCallback (lines : List (List Char)) (line : Int) : Bool :=
  match enclosingFunction? (lines.take line.toNat).reverse with
  | some name => lines.any fun l => (adminCallback name).test l
  | none => false

def nearEditorMethod (lines : List (List Char)) (line : Int) : Bool :=
  (linesBetween lines (line - 50) (line + 10)).any fun l => editorMethod.test l

def inAdmin (lines : List (List Char)) (line : Int) : Bool :=
  let around := window lines line
  adminRegistration.test around || adminGuard.test around || adminPath.test around ||
    insideAdminCallback lines line || editorWords.test around || nearEditorMethod lines line

def inFrontend (around : List Char) : Bool :=
  frontendRegistration.test around || visitorGuard.test around || frontendPath.test around

def isTested (around : List Char) (name : String) : Bool :=
  methodTest.test around || (existenceTest name).test around

namespace CallSite

/-- Where the call of a function on a line, counted from one, runs. -/
def classify (lines : List (List Char)) (line : Int) (name : String) : CallSite :=
  if lines.isEmpty then .unknown
  else
    let around := window lines line
    if inAdmin lines line then .admin
    else if inFrontend around then .frontend
    else if isTested around name then .conditional
    else .ambiguous

/-- Where the call of a function in a file runs; nothing is known of an empty or unreadable file. -/
def classifyFile (tree : Node) (path : String) (line : Int) (name : String) : CallSite :=
  match FileTree.read tree path with
  | .ok (byte :: bytes) => classify (Text.lineChars (Text.decodeBytes (byte :: bytes))) line name
  | _ => .unknown

def word : CallSite → String
  | .admin => "admin"
  | .frontend => "frontend"
  | .conditional => "conditional"
  | .ambiguous => "ambiguous"
  | .unknown => "unknown"

def severity : CallSite → Severity
  | .admin | .conditional => .warning
  | _ => .error

def suggestion (site : CallSite) (name : String) : String :=
  "Function '" ++ name ++ match site with
    | .admin => "' is used in admin context. Consider adding explicit admin checks or including " ++
        "wp-admin/includes/plugin.php if needed."
    | .frontend => "' should not be used in frontend context. Include " ++
        "wp-admin/includes/plugin.php or use admin hooks instead."
    | .conditional => "' is properly checked with conditional loading. This is good practice."
    | _ => "' requires wp-admin/includes/plugin.php to be loaded. Add explicit admin context " ++
        "checks, include the required file, or use function_exists() validation."

end CallSite

end PluginAudit.Source
