import PluginAudit.Detector.Basic

/-!
Calls of global functions on a line of code, told apart from methods, definitions and names in
namespaces.
-/

namespace PluginAudit.Detector

open Pattern

/-- The end of a text after which a name is defined or instantiated, not called. -/
def definitionEnd : Pattern :=
  .cat [wordEdge, words ["new", "function", "fn"], spaces, opt (literal "&"), spaces, textEnd]

def isDefinition (past : List Char) : Bool := definitionEnd.test past.reverse

def callOf (name : String) : Pattern := .cat [wordEdge, literal name, spaces, literal "("]

def hasOperator (s : List Char) : Bool :=
  Text.occursIn "->".toList s || Text.occursIn "::".toList s

/-- Whether one of some matches is a plain call of a global function. No match counts after a member
or class operator on the same line. -/
def anyGlobal : List Match → Bool
  | [] => false
  | m :: ms =>
    if hasOperator m.past.reverse then false
    else if follows m.past "$\\" || isDefinition m.past then anyGlobal ms
    else true

def hasGlobalCall (line : List Char) (p : Pattern) : Bool := anyGlobal (p.findAll line)

end PluginAudit.Detector
