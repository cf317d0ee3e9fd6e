import PluginAudit.Detector.Basic

/-!
Templates: uses of the current object in files that are included from elsewhere, where the object
may be another one or none. Widget rules say which of them are harmless.
-/

namespace PluginAudit.Detector.Template

open Pattern Source

/-! ### Recognising templates -/

def dirWords : List String := ["template", "views", "partials", "widgets", "elementor"]

def fileNames : List String :=
  ["default.php", "advanced.php", "post-list.php", "post-grid.php", "content.php", "item.php"]

def numberedName : Pattern :=
  .cat [textStart, words ["preset", "layout", "style"], literal "-", plus (.set .digit),
    literal ".php", textEnd]

/-- The path from a root to a file. A file outside the root, or below a directory whose name starts
with two dots, keeps its path. -/
def relativeTo (root path : String) : String :=
  if root = "" then path
  else match Path.relative? root path with
    | some relative => if relative.startsWith ".." then path else relative
    | none => path

/-- Whether a path looks like that of a template; only directories below the root count. -/
def isTemplate (root path : String) : Bool :=
  let name := Text.lower (Path.base path)
  fileNames.contains name || numberedName.occursIn name ||
    (Text.split '/' (Text.lower (Path.dir (relativeTo root path)))).any fun dir =>
      dirWords.any fun word => Text.contains dir word

def widgetParts : List (String × String) :=
  [("post-carousel", "post_carousel"), ("product-carousel", "product_carousel"),
   ("media-carousel", "media_carousel"), ("testimonial-carousel", "testimonial_carousel"),
   ("logo-carousel", "logo_carousel"), ("content-timeline", "content_timeline"),
   ("post-list", "post_list"), ("post-grid", "post_grid"),
   ("woo-account-dashboard", "woo_account_dashboard"), ("ld-courses", "ld_courses")]

def widgetOf (path : String) : String :=
  let plain := Text.replaceChar '_' '-' (Text.lower path)
  match widgetParts.find? fun (part, _) => Text.contains plain part with
  | some (_, widget) => widget
  | none => "unknown_widget"

/-! ### Uses of the object -/

def memberUse : Pattern :=
  .cat [literal "$this", spaces, literal "->", spaces, .group 1 identifier]

structure Use where
  name : String
  isMethod : Bool
deriving DecidableEq, Repr

def uses (line : List Char) : List Use :=
  ((memberUse.findAll line).map fun m =>
    (⟨m.groupText 1,
      (m.after.dropWhile fun c => c == ' ' || c == '\t').head? == some '('⟩ : Use)).foldl
    (fun all use => if all.contains use then all else all ++ [use]) []

def usesIn (root : String) (f : File) : List (Nat × List Char × Use) :=
  if isTemplate root f.path then
    (numberedStates f.lines).flatMap fun (number, state, line) =>
      if state.skippable || isCommentLine line then []
      else (uses (clean line)).map fun use => (number, line, use)
  else []

/-! ### Risks -/

inductive Risk where
  /-- Known to be gone when more entries are loaded. -/
  | ajax
  | accessor
  | named
deriving DecidableEq, Repr

def ajaxMethods : List (String × String) :=
  [("render_post_meta_dates",
    "Replace with direct date rendering logic or pass the formatted date as a variable to the " ++
    "template. This method is only available in the Post_List widget class and will cause fatal " ++
    "errors during AJAX load more operations."),
   ("get_last_modified_date",
    "Use get_the_modified_date() WordPress function directly or pass the modified date as a variable " ++
    "to the template. This method is only available in the Post_List widget class.")]

def accessors : List String :=
  ["render_meta", "render_content", "render_title", "render_excerpt", "render_image",
   "render_author", "render_categories", "render_tags", "get_settings", "get_id",
   "print_render_attribute_string", "add_render_attribute", "get_widget_settings", "get_widget_id",
   "render_widget_content"]

def methodLeads : List String := ["render_", "get_", "print_", "display_", "show_", "output_"]

def risk? (name : String) : Option Risk :=
  if (ajaxMethods.lookup name).isSome then some .ajax
  else if accessors.contains (Text.lower name) then some .accessor
  else if methodLeads.any fun lead => name.startsWith lead then some .named
  else none

def Risk.severity : Risk → Severity
  | .ajax => .error
  | .accessor => .warning
  | .named => .info

/-! ### Widget rules -/

/-- The first ecosystem whose rule excludes a finding, with the decision. -/
def excluder? (env : Surroundings) (widget member : String) (kind : Kind) :
    Option (String × Widget.Decision) :=
  (env.ecosystems.map fun tag => (tag, env.widgets.decide tag widget member kind.code)).find?
    fun (_, d) => d.exclude

def isKept (env : Surroundings) (widget member : String) (kind : Kind) : Bool :=
  env.ecosystems.any fun tag => (env.widgets.decide tag widget member kind.code).status == .keep

def exclusionNote (tag widget : String) (d : Widget.Decision) : Value :=
  .record (Table.ofPairs [("ecosystem", .text tag), ("widget_type", .text widget),
    ("reason", .text d.reason), ("status", .text d.status.word),
    ("future_proof", .bool d.futureProof)])

def screen (env : Surroundings) (widget member : String) (f : Finding) : Option Finding :=
  if isKept env widget member f.kind then some f
  else match excluder? env widget member f.kind with
    | none => some f
    | some (tag, d) =>
      if !env.widgets.shows d then none
      else if env.widgets.mode == .debug then
        some (f.withContext "exclusion" (exclusionNote tag widget d))
      else some f

/-! ### Findings -/

def placeContext (path widget : String) (line : List Char) : List (String × String) :=
  [("template_file", Path.base path), ("line_content", String.ofList (Text.trimChars line)),
   ("widget_type", widget)]

def accessorAdvice (name : String) : String :=
  if name.startsWith "render_" then
    "Consider moving the rendering logic outside the template or ensuring the widget object is " ++
    "properly available in all contexts where this template is used."
  else if name.startsWith "get_" then
    "Call this method before including the template and pass the result as a variable, or use " ++
    "equivalent WordPress functions directly."
  else
    "Ensure this method is available in all contexts where this template might be included, or pass " ++
    "the required data as variables to the template."

def methodFinding (path widget : String) (number : Nat) (line : List Char) (name : String)
    (risk : Risk) : Finding :=
  let context := ("method", name) :: placeContext path widget line
  match risk with
  | .ajax =>
    ⟨.templateMethodContextError,
     "EA Pro Post_List widget method '$this->" ++ name ++
      "()' called in template may cause fatal " ++
     "error during AJAX load more operations", path, number, risk.severity,
     (ajaxMethods.lookup name).getD "",
     texts (context ++ [("issue_type", "ea_pro_ajax_context"), ("widget_class", "Post_List"),
       ("description", "This method exists only in the widget class context and will not be " ++
         "available when the template is included during AJAX load more operations")])⟩
  | .accessor =>
    ⟨.templateMethodContextError,
     "Widget method '$this->" ++ name ++
      "()' called in template may cause fatal error when template " ++
     "is included in different contexts", path, number, risk.severity, accessorAdvice name,
     texts (context ++ [("issue_type", "widget_context"),
       ("description",
      "This method may not be available when the template is included outside of " ++
         "the widget class context")])⟩
  | .named =>
    ⟨.templateMethodContextError,
     "Method '$this->" ++ name ++ "()' in template follows a pattern that may cause context errors",
     path, number, risk.severity,
     "Verify that this method is available in all contexts where this template might be included, " ++
     "especially during AJAX operations",
     texts (context ++ [("issue_type", "potential_context"),
       ("description", "Method name pattern suggests it might be widget-specific")])⟩

def objectMethodFinding (path widget : String) (number : Nat) (line : List Char) (name : String)
    (risk : Risk) : Finding :=
  ⟨.thisContextError,
   "Usage of '$this->" ++ name ++ "()' in template file may cause fatal error when included in " ++
   "different contexts", path, number, risk.severity,
   "Consider using static methods, passing the object as a parameter, or checking if $this is " ++
   "available before use", texts (("method", name) :: placeContext path widget line)⟩

def propertyFinding (path widget : String) (number : Nat) (line : List Char) (name : String) :
    Finding :=
  ⟨.thisContextError,
   "Usage of '$this->" ++ name ++ "' in template file may cause fatal error when included in " ++
   "different contexts", path, number, .error,
   "Consider passing the property value as a variable to the template or checking if $this is " ++
   "available before use", texts (("property", name) :: placeContext path widget line)⟩

def detectMethods (env : Surroundings) (f : File) : List Finding :=
  let widget := widgetOf (relativeTo env.root f.path)
  (usesIn env.root f).filterMap fun (number, line, use) =>
    if use.isMethod then
      (risk? use.name).bind fun risk =>
        screen env widget use.name (methodFinding f.path widget number line use.name risk)
    else none

def detectObject (env : Surroundings) (f : File) : List Finding :=
  let widget := widgetOf (relativeTo env.root f.path)
  (usesIn env.root f).filterMap fun (number, line, use) =>
    if use.isMethod then
      (risk? use.name).bind fun risk =>
        screen env widget use.name (objectMethodFinding f.path widget number line use.name risk)
    else screen env widget use.name (propertyFinding f.path widget number line use.name)

end PluginAudit.Detector.Template
