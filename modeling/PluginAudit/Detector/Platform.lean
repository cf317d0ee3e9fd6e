import PluginAudit.Detector.Call

/-!
Compatibility with versions of the platform: calls of functions that it deprecated or removed, or
that it gained later, and hooks that it deprecated.
-/

namespace PluginAudit.Detector.Platform

open Pattern Source

/-- The version in which a symbol changed, and what replaces it. -/
structure Change where
  version : String
  replacement : String
deriving DecidableEq, Repr

structure Changes where
  deprecated : Table Change
  removed : Table Change
  required : Table String
  hooks : Table Change
deriving DecidableEq

def deprecatedFunctions : Table Change :=
  [("attribute_escape", ⟨"2.8.0", "esc_attr"⟩), ("clean_url", ⟨"3.0.0", "esc_url"⟩),
   ("dropdown_cats", ⟨"2.1.0", "wp_dropdown_categories"⟩),
   ("edit_link", ⟨"2.1.0", "get_edit_bookmark_link"⟩),
   ("get_archives", ⟨"2.1.0", "wp_get_archives"⟩),
   ("get_author_link", ⟨"2.1.0", "get_author_posts_url"⟩), ("get_autotoggle", ⟨"2.1.0", ""⟩),
   ("get_bloginfo_rss", ⟨"2.2.0", "get_bloginfo"⟩), ("get_link", ⟨"2.1.0", "get_bookmark"⟩),
   ("get_linkcatname", ⟨"2.1.0", "get_category"⟩), ("get_linkobjects", ⟨"2.1.0", "get_bookmarks"⟩),
   ("get_linkobjectsbyname", ⟨"2.1.0", "get_bookmark_by_name"⟩), ("get_linkrating", ⟨"2.1.0", ""⟩),
   ("get_links", ⟨"2.1.0", "get_bookmarks"⟩), ("get_links_list", ⟨"2.1.0", "wp_list_bookmarks"⟩),
   ("get_linksbyname", ⟨"2.1.0", "get_bookmarks"⟩), ("get_settings", ⟨"2.1.0", "get_option"⟩),
   ("js_escape", ⟨"2.8.0", "esc_js"⟩), ("link_pages", ⟨"2.1.0", "wp_link_pages"⟩),
   ("links_popup_script", ⟨"2.1.0", ""⟩), ("list_authors", ⟨"2.1.0", "wp_list_authors"⟩),
   ("list_cats", ⟨"2.1.0", "wp_list_categories"⟩), ("permalink_link", ⟨"1.2.0", "the_permalink"⟩),
   ("permalink_single_rss", ⟨"2.3.0", "the_permalink_rss"⟩),
   ("wp_get_links", ⟨"2.1.0", "get_bookmarks"⟩), ("wp_get_linksbyname", ⟨"2.1.0", "get_bookmarks"⟩),
   ("wp_get_post_cats", ⟨"2.1.0", "wp_get_post_categories"⟩),
   ("wp_list_cats", ⟨"2.1.0", "wp_list_categories"⟩),
   ("wp_set_post_cats", ⟨"2.1.0", "wp_set_post_categories"⟩),
   ("wp_specialchars", ⟨"2.8.0", "esc_html"⟩)]

def removedFunctions : Table Change :=
  [("attribute_escape", ⟨"2.8.0", "esc_attr"⟩), ("clean_url", ⟨"3.0.0", "esc_url"⟩),
   ("funky_javascript_callback", ⟨"3.0.0", ""⟩), ("funky_javascript_fix", ⟨"3.0.0", ""⟩),
   ("get_profile", ⟨"2.5.0", "get_the_author_meta"⟩),
   ("get_usernumposts", ⟨"3.0.0", "count_user_posts"⟩),
   ("is_taxonomy", ⟨"3.0.0", "taxonomy_exists"⟩), ("is_term", ⟨"3.0.0", "term_exists"⟩),
   ("js_escape", ⟨"3.0.0", "esc_js"⟩), ("wp_specialchars", ⟨"2.8.0", "esc_html"⟩)]

/-- Functions with the version that introduced them. -/
def laterFunctions : Table String :=
  [("block_core_navigation_render_submenu_icon", "5.9.0"),
   ("wp_enqueue_block_editor_assets", "5.0.0"), ("wp_get_duotone_filter_id", "5.9.0"),
   ("wp_get_environment_type", "5.5.0"), ("wp_get_global_settings", "5.9.0"),
   ("wp_get_global_styles", "5.9.0"), ("wp_get_theme_data_custom_templates", "5.9.0"),
   ("wp_get_theme_data_template_parts", "5.9.0"), ("wp_interactivity_config", "6.5.0"),
   ("wp_interactivity_data_wp_context", "6.5.0"), ("wp_interactivity_state", "6.5.0"),
   ("wp_is_application_passwords_available", "5.6.0"), ("wp_set_script_translations", "5.0.0"),
   ("wp_theme_has_theme_json", "5.8.0")]

def Changes.builtin : Changes := ⟨deprecatedFunctions, removedFunctions, laterFunctions, []⟩

def Change.suggestion (c : Change) (fallback : String) : String :=
  if c.replacement = "" then fallback else "Use " ++ apart c.replacement ++ " instead"

def Change.applies (c : Change) (version : String) : Bool := Version.atLeast version c.version

def removedFinding (name path : String) (line : Nat) (version : String) (c : Change) : Finding :=
  ⟨.removedFunction, "Function " ++ apart name ++ " was removed in WordPress " ++ c.version, path,
    line,
   .error, c.suggestion "This function is no longer available",
   texts [("function", name), ("removed_version", c.version), ("replacement", c.replacement),
     ("wp_version", version)]⟩

def deprecatedFinding (name path : String) (line : Nat) (version : String) (c : Change) : Finding :=
  ⟨.deprecatedFunction, "Function " ++ apart name ++ " is deprecated since WordPress " ++ c.version,
   path, line, .warning, c.suggestion "Find an alternative implementation",
   texts [("function", name), ("deprecated_version", c.version), ("replacement", c.replacement),
     ("wp_version", version)]⟩

/-- The finding for a call of a changed function: its removal if that has taken effect, else its
deprecation. -/
def changedFinding? (changes : Changes) (name path : String) (line : Nat) (version : String) :
    Option Finding :=
  match (Table.get? name changes.removed).filter (·.applies version) with
  | some c => some (removedFinding name path line version c)
  | none => ((Table.get? name changes.deprecated).filter (·.applies version)).map
      (deprecatedFinding name path line version)

def requiredFinding (name required path : String) (line : Nat) (version : String) : Finding :=
  ⟨.versionRequirement,
   "Function " ++ apart name ++ " requires WordPress " ++ required ++ " or higher", path, line,
    .error,
   "Upgrade WordPress to version " ++ required ++ " or higher, or use an alternative",
   texts [("function", name), ("required_version", required), ("current_version", version)]⟩

def hookFinding (name path : String) (line : Nat) (c : Change) : Finding :=
  ⟨.deprecatedHook, "Hook " ++ apart name ++ " is deprecated since WordPress " ++ c.version, path,
    line,
   .warning, c.suggestion "Find an alternative hook",
   texts [("hook", name), ("deprecated_version", c.version), ("replacement", c.replacement)]⟩

def quotedHook (name : String) : Pattern := .cat [anyOf "\"'", literal name, anyOf "\"'"]

def Changes.names (changes : Changes) : List String :=
  sortedNames (changes.deprecated.names ++ changes.removed.names)

def lineFindings (changes : Changes) (version path : String) (number : Nat) (line : List Char) :
    List Finding :=
  let code := clean line
  (changes.names.filterMap fun name =>
    if hasGlobalCall code (callOf name) then changedFinding? changes name path number version
    else none) ++
  (changes.required.filterMap fun (name, required) =>
    if hasGlobalCall code (callOf name) && Version.below version required then
      some (requiredFinding name required path number version)
    else none) ++
  (changes.hooks.filterMap fun (name, c) =>
    if (quotedHook name).test (stripComments line) && c.applies version then
      some (hookFinding name path number c)
    else none)

def detect (changes : Changes) (target : Combination) (f : File) : List Finding :=
  f.codeLines.flatMap fun (number, line) => lineFindings changes target.wp f.path number line

end PluginAudit.Detector.Platform
