import PluginAudit.Source.Cleaning
import PluginAudit.Source.Name
import PluginAudit.Text.Lines

/-!
Declarations of classes, interfaces, traits, enums and functions, each with the namespace in effect
where it stands. Comment and heredoc text declares nothing.
-/

namespace PluginAudit.Source

open Pattern

inductive DeclarationKind where
  | classType
  | interface
  | trait
  | enum
  | function
deriving DecidableEq, Repr

namespace DeclarationKind

def word : DeclarationKind → String
  | .classType => "class"
  | .interface => "interface"
  | .trait => "trait"
  | .enum => "enum"
  | .function => "function"

def ofTypeWord? (w : String) : Option DeclarationKind :=
  [DeclarationKind.classType, .interface, .trait, .enum].find? fun kind => kind.word == w

end DeclarationKind

structure Declaration where
  kind : DeclarationKind
  name : String
  «namespace» : String
  line : Nat
deriving DecidableEq, Repr

namespace Declaration

def fullName (d : Declaration) : String :=
  if d.namespace = "" then d.name else d.namespace ++ "\\" ++ d.name

def isType (d : Declaration) : Bool := d.kind != .function

end Declaration

def nameChar : Pattern := .set ((CharSet.ofString "\\").union .wordChar)

def namespaceStatement : Pattern :=
  .cat [textStart, spaces, literal "namespace", spaces1,
    .group 1 (.seq (.set .letter) (star nameChar)), spaces, anyOf ";\x7b"]

def globalNamespace : Pattern :=
  .cat [textStart, spaces, literal "namespace", spaces, literal "\x7b"]

def typeDeclaration : Pattern :=
  .cat [textStart, spaces, star (.seq (words ["abstract", "final", "readonly"]) spaces1),
    .group 1 (words ["class", "interface", "trait", "enum"]), spaces1, .group 2 identifier]

def functionDeclaration : Pattern :=
  .cat [textStart, spaces, literal "function", spaces1, opt (literal "&"), spaces,
    .group 1 identifier, spaces, literal "("]

/-- The namespace that a line of code switches to, empty for the global one. -/
def namespaceOn? (code : List Char) : Option String :=
  match namespaceStatement.find? code with
  | some m => some (normalName (m.groupText 1))
  | none => if globalNamespace.test code then some "" else none

def typeOn? (code : List Char) : Option (DeclarationKind × String) :=
  match typeDeclaration.find? code with
  | some m => (DeclarationKind.ofTypeWord? (m.groupText 1)).map fun kind => (kind, m.groupText 2)
  | none => none

def functionOn? (code : List Char) : Option String :=
  (functionDeclaration.find? code).map fun m => m.groupText 1

inductive LineMeaning where
  | switch (name : String)
  | declare (kind : DeclarationKind) (name : String)
  | other

def lineMeaning (code : List Char) : LineMeaning :=
  match namespaceOn? code with
  | some name => .switch name
  | none => match typeOn? code with
    | some (kind, name) => .declare kind name
    | none => match functionOn? code with
      | some name => .declare .function name
      | none => .other

/-- The declarations on numbered lines, with the namespace in effect before them. -/
def declarationsFrom (current : String) : List (Nat × LineState × List Char) → List Declaration
  | [] => []
  | (number, state, line) :: rest =>
    if state.skippable then declarationsFrom current rest
    else match lineMeaning (clean line) with
      | .switch name => declarationsFrom name rest
      | .declare kind name => ⟨kind, name, current, number⟩ :: declarationsFrom current rest
      | .other => declarationsFrom current rest

def declarations (content : List Char) : List Declaration :=
  declarationsFrom "" (numberedStates (Text.lineChars content))

end PluginAudit.Source
