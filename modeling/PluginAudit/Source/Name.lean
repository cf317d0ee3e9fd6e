import PluginAudit.Text.Blank
import PluginAudit.Text.Letter

/-!
Names with namespaces, whose segments are separated by backslashes.
-/

namespace PluginAudit.Source

/-- A name without surrounding white space and without one separator at each end. -/
def normalName (name : String) : String :=
  Text.dropTail "\\" (Text.dropLead "\\" (Text.trim name))

def lastSegment (name : String) : String :=
  match (Text.split '\\' (normalName name)).getLast? with
  | some part => Text.trim part
  | none => ""

def firstSegment (name : String) : String :=
  String.ofList (name.toList.takeWhile (· != '\\'))

/-- The line, counted from one, that holds the byte at an offset. -/
def lineAtOffset (text : String) (offset : Int) : Nat :=
  go 1 offset text.toList
where
  /-- Counts the line feeds among the characters that start before the offset. -/
  go (line : Nat) (offset : Int) : List Char → Nat
    | [] => line
    | c :: rest =>
      if offset ≤ 0 then line
      else go (if c = '\n' then line + 1 else line) (offset - c.utf8Size) rest

end PluginAudit.Source
