import PluginAudit.Ecosystem.Tags

/-!
The signatures by which an ecosystem is recognised: texts in plugin headers, paths and code, and
names of packages. Texts are compared without regard to case.
-/

namespace PluginAudit.Ecosystem

structure Signature where
  headers : List String := []
  paths : List String := []
  classes : List String := []
  functions : List String := []
  packages : List String := []
deriving DecidableEq, Repr

def elementor : Signature where
  headers := ["Elementor tested up to", "Elementor Pro tested up to", "Requires Plugins: elementor"]
  paths := ["/widgets/", "/controls/", "/modules/", "elementor"]
  classes := ["Elementor\\", "Controls_Manager", "Widget_Base", "Group_Control_",
    "Core\\Kits\\Documents\\Tabs\\"]
  functions := ["elementor_pro_load_plugin", "elementor_load_plugin_textdomain"]
  packages := ["elementor/elementor"]

def wooCommerce : Signature where
  headers := ["WC tested up to", "WC requires at least", "Requires Plugins: woocommerce"]
  paths := ["/woocommerce/", "/includes/wc-", "wc-"]
  classes := ["WooCommerce\\", "WC_", "WP_REST_"]
  functions := ["wc_get_", "woocommerce_", "is_woocommerce"]
  packages := ["woocommerce/woocommerce"]

/-- The ecosystems to look for by their tags, and how many files are searched for them. -/
structure Detector where
  signatures : Table Signature := [("elementor", elementor), ("woocommerce", wooCommerce)]
  maxFiles : Nat := 50
deriving DecidableEq

namespace Detector

def withSignature (d : Detector) (name : String) (s : Signature) : Detector :=
  { d with signatures := Table.insert (tagOf name) s d.signatures }

/-- Searches another number of files; what is not positive stands for the usual number. -/
def withMaxFiles (d : Detector) (limit : Int) : Detector :=
  { d with maxFiles := if limit ≤ 0 then 50 else limit.toNat }

def knows (d : Detector) (name : String) : Bool := Table.has (Text.lower name) d.signatures

end Detector

end PluginAudit.Ecosystem
