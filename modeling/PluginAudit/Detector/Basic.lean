import PluginAudit.Exemption
import PluginAudit.Finding
import PluginAudit.Inventory
import PluginAudit.SymbolIndex
import PluginAudit.Version
import PluginAudit.Widget.Rules

/-!
What detectors share: the combination of versions they judge a file for, what is known about the
plugin, and the findings they make.
-/

namespace PluginAudit

structure Combination where
  php : String
  wp : String
deriving DecidableEq, Repr

/-- What is known about a plugin before its files are judged. -/
structure Surroundings where
  root : String := ""
  ecosystems : Tags := []
  symbols : SymbolIndex := {}
  runtime : Inventory := .builtin
  exemptions : Exemptions := .builtin
  widgets : WidgetRules := .builtin

namespace Detector

def texts (entries : List (String × String)) : Table Value :=
  Table.ofPairs (entries.map fun (name, s) => (name, Value.text s))

def apart (s : String) : String := "'" ++ s ++ "'"

def follows (past : List Char) (chars : String) : Bool :=
  past.head?.any chars.toList.contains

end Detector

end PluginAudit
