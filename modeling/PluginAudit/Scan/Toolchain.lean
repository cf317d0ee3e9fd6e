import PluginAudit.Detector.Registry
import PluginAudit.Settings

/-!
What a scan takes from the runtime: a check of files, and the symbols it has. A runtime that is
missing, or that does not answer, leaves the symbols that are built in.
-/

namespace PluginAudit.Scan

/-- A check of files and the symbols of the runtime, with warnings about what is missing. -/
structure Toolchain where
  linter : Option Detector.Syntax.Linter := none
  inventory : Inventory := .builtin
  warnings : List String := []
  /-- The program that checks files, if one is run. -/
  binary : Option String := none

namespace Toolchain

def missingText : String := "php binary not found; syntax lint and runtime probe disabled"

def silentText : String := "php runtime probe failed; using built-in symbol inventory"

/-- The symbols of a runtime, with a warning if it does not list them. -/
def symbolsOf (tree : Node) (binary : String) (s : Settings) (cancelled : Bool) :
    Inventory × List String :=
  if !s.probeRuntime then (.builtin, [])
  else match Lint.probe (Lint.eval tree binary s.lint.rate.isAboveZero cancelled) with
    | .ok inventory => (inventory, [])
    | .error _ => (.builtin, [silentText])

def ofSettings (tree : Node) (here : String) (search : String → Option String) (s : Settings)
    (cancelled : Bool) : Toolchain :=
  if !s.lint.enabled && !s.probeRuntime then {}
  else match Lint.findBinary tree here s.lint.binary search with
    | .error _ => { warnings := [missingText] }
    | .ok binary =>
      let (inventory, warnings) := symbolsOf tree binary s cancelled
      if s.lint.enabled then
        { linter := some fun path => (Lint.check tree binary cancelled path).2
          inventory, warnings, binary := some binary }
      else { inventory, warnings }

def outcomes (t : Toolchain) (tree : Node) (paths : List String) : List Lint.Outcome :=
  match t.binary with
  | none => []
  | some binary => paths.map fun path => (Lint.check tree binary false path).1

end Toolchain

end PluginAudit.Scan
