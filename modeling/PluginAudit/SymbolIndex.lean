import PluginAudit.Source.Declaration
import PluginAudit.Source.File

/-!
The symbols that the files of a plugin declare. Names are in lower case, each one once. Class-like
types and functions are kept by their full names and by their names without namespace.
-/

namespace PluginAudit

structure SymbolIndex where
  files : Nat := 0
  classes : List String := []
  /-- How many classes have a name, each in a namespace of its own. -/
  shortClasses : Table Nat := []
  functions : List String := []
  shortFunctions : List String := []
  namespaces : List String := []
deriving DecidableEq

namespace SymbolIndex

open Source

/-- A namespace with the ones it lies in, outermost first. -/
def enclosing (name : String) : List String :=
  let parts := Text.split '\\' (Text.lower name)
  (List.range parts.length).map fun n => "\\".intercalate (parts.take (n + 1))

def shortCount (index : SymbolIndex) (short : String) : Nat :=
  (Table.get? short index.shortClasses).getD 0

/-- Adds one declaration. A class counts when its full name is new. -/
def addDeclaration (index : SymbolIndex) (d : Declaration) : SymbolIndex :=
  let namespaces := if d.namespace = "" then index.namespaces
    else (enclosing d.namespace).foldl (fun all n => all.insert n) index.namespaces
  let name := Text.lower d.fullName
  let short := Text.lower d.name
  if d.isType then
    { index with
      namespaces
      classes := index.classes.insert name
      shortClasses := if index.classes.contains name then index.shortClasses
        else Table.insert short (index.shortCount short + 1) index.shortClasses }
  else
    { index with
      namespaces
      functions := index.functions.insert name
      shortFunctions := index.shortFunctions.insert short }

def add (index : SymbolIndex) (declarations : List Declaration) : SymbolIndex :=
  declarations.foldl addDeclaration { index with files := index.files + 1 }

def addFiles (index : SymbolIndex) (files : List File) : SymbolIndex :=
  files.foldl (fun index f => index.add (declarations f.content)) index

def key (name : String) : String := Text.lower (normalName name)

def shortKey (name : String) : String := Text.lower (lastSegment name)

def hasClass (index : SymbolIndex) (name : String) : Bool := index.classes.contains (key name)

/-- Whether a class-like type in some namespace has this name. -/
def hasClassShort (index : SymbolIndex) (name : String) : Bool :=
  0 < index.shortCount (shortKey name)

/-- Whether something is declared in this namespace or below it. -/
def hasNamespace (index : SymbolIndex) (name : String) : Bool :=
  index.namespaces.contains (key name)

/-- Whether a function has this full name, or in some namespace this name. -/
def hasFunction (index : SymbolIndex) (name : String) : Bool :=
  index.functions.contains (key name) || index.shortFunctions.contains (shortKey name)

end SymbolIndex

end PluginAudit
