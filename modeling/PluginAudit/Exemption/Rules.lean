import PluginAudit.Table
import PluginAudit.Text.Blank

/-!
Rules that exempt symbols from being reported as undefined: names, and patterns of names. A pattern
that ends in a star covers the names that start with what precedes it; any other pattern covers the
names that contain it.
-/

namespace PluginAudit.Exemption

structure Rules where
  classes : List String := []
  classPatterns : List String := []
  functions : List String := []
  functionPatterns : List String := []
deriving DecidableEq, Repr

def covers (pattern name : String) : Bool :=
  if pattern.toList.getLast? = some '*' then
    (Text.trimEndBy (· == '*') pattern.toList).isPrefixOf name.toList
  else Text.occursIn pattern.toList name.toList

/-- Whether a list of functions gives a pattern in this place. -/
def isStarred (name : String) : Bool := name.toList.getLast? = some '*'

namespace Rules

/-- The rules with the starred functions among the patterns, where they take effect. -/
def compile (rules : Rules) : Rules :=
  { rules with
    functions := rules.functions.filter (!isStarred ·)
    functionPatterns := rules.functionPatterns ++ rules.functions.filter isStarred }

def append (a b : Rules) : Rules :=
  ⟨a.classes ++ b.classes, a.classPatterns ++ b.classPatterns, a.functions ++ b.functions,
   a.functionPatterns ++ b.functionPatterns⟩

def exemptsClass (rules : Rules) (name : String) : Bool :=
  rules.classes.contains name || rules.classPatterns.any (covers · name)

def exemptsFunction (rules : Rules) (name : String) : Bool :=
  rules.functions.contains name || rules.functionPatterns.any (covers · name)

def sorted (rules : Rules) : Rules :=
  { rules with classes := sortedNames rules.classes, functions := sortedNames rules.functions }

end Rules

end PluginAudit.Exemption
