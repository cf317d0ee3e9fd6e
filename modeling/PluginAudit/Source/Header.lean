import PluginAudit.Pattern.Search
import PluginAudit.Table
import PluginAudit.Text.Blank

/-!
The header of a plugin: the first block comment of its main file, with lines that name a field and
give its value.
-/

namespace PluginAudit.Source

open Pattern

def upToClose? : List Char → Option (List Char)
  | [] => none
  | c :: rest =>
    if ['*', '/'].isPrefixOf (c :: rest) then some []
    else (upToClose? rest).map (c :: ·)

/-- The body of a comment after its opening. A second star belongs to the opening if the comment is
closed after it. -/
def commentBody? (s : List Char) : Option (List Char) :=
  match s with
  | '*' :: rest =>
    match upToClose? rest with
    | some body => some body
    | none => upToClose? s
  | s => upToClose? s

/-- The body of the first block comment that is closed. -/
def headerBlock? : List Char → Option (List Char)
  | [] => none
  | c :: rest =>
    match (if ['/', '*'].isPrefixOf (c :: rest) then commentBody? (rest.drop 1) else none) with
    | some body => some body
    | none => headerBlock? rest

def isMainFile (content : List Char) : Bool :=
  match headerBlock? content with
  | some block => Text.occursIn "Plugin Name:".toList block
  | none => false

def headerField : Pattern :=
  .cat [lineStart, star (.set ((CharSet.ofString "*#@").union .space)),
    .group 1 (.seq (.set ⟨[('A', 'Z'), ('a', 'z')], false, false⟩)
      (starLazy (.set ⟨[('A', 'Z'), ('a', 'z'), ('0', '9'), (' ', ' '), ('.', '.'), ('_', '_'),
        ('-', '-')], false, false⟩))),
    literal ":", spaces, .group 2 (plusLazy (.set .notNewline)), spaces, lineEnd]

/-- The fields of a header; of two with one name the first counts. -/
def headerFields (block : List Char) : Table String :=
  (headerField.findAll block).foldl (fun fields m =>
    let name := String.ofList (Text.trimChars (m.group 1))
    if Table.has name fields then fields
    else Table.insert name (String.ofList (Text.trimChars (m.group 2))) fields) []

end PluginAudit.Source
