import PluginAudit.Json.Basic
import PluginAudit.Text.Quoted

/-!
Writing JSON documents, on one line or with two blanks of indentation per level. Characters that are
special in markup and the two line separators beyond ASCII are written as escapes.
-/

namespace PluginAudit.Json

def writeChar (c : Char) : List Char :=
  let n := c.toNat
  if c = '"' then ['\\', '"']
  else if c = '\\' then ['\\', '\\']
  else if n = 0x08 then ['\\', 'b']
  else if n = 0x0C then ['\\', 'f']
  else if n = 0x0A then ['\\', 'n']
  else if n = 0x0D then ['\\', 'r']
  else if n = 0x09 then ['\\', 't']
  else if n < 0x20 ∨ c = '<' ∨ c = '>' ∨ c = '&' ∨ n = 0x2028 ∨ n = 0x2029 then
    ['\\', 'u'] ++ Text.hexDigits 4 n
  else [c]

def writeString (s : String) : String :=
  String.ofList (['"'] ++ s.toList.flatMap writeChar ++ ['"'])

mutual
def compact : Json → String
  | .null => "null"
  | .bool b => if b then "true" else "false"
  | .num n => n
  | .str s => writeString s
  | .arr items => "[" ++ ",".intercalate (compactItems items) ++ "]"
  | .obj members => "\x7b" ++ ",".intercalate (compactMembers members) ++ "\x7d"

def compactItems : List Json → List String
  | [] => []
  | item :: items => item.compact :: compactItems items

def compactMembers : List (String × Json) → List String
  | [] => []
  | member :: members => compactMember member :: compactMembers members

def compactMember : String × Json → String
  | (name, value) => writeString name ++ ":" ++ value.compact
end

def newline (level : Nat) : String :=
  String.ofList ('\n' :: List.replicate (2 * level) ' ')

/-- Parts on lines of their own, one level deeper than the brackets around them. -/
def bracketed (opening closing : String) (level : Nat) (parts : List String) : String :=
  if parts.isEmpty then opening ++ closing
  else opening ++ newline (level + 1) ++ ("," ++ newline (level + 1)).intercalate parts ++
    newline level ++ closing

mutual
def indented (level : Nat) : Json → String
  | .null => "null"
  | .bool b => if b then "true" else "false"
  | .num n => n
  | .str s => writeString s
  | .arr items => bracketed "[" "]" level (indentedItems (level + 1) items)
  | .obj members => bracketed "\x7b" "\x7d" level (indentedMembers (level + 1) members)

def indentedItems (level : Nat) : List Json → List String
  | [] => []
  | item :: items => item.indented level :: indentedItems level items

def indentedMembers (level : Nat) : List (String × Json) → List String
  | [] => []
  | member :: members => indentedMember level member :: indentedMembers level members

def indentedMember (level : Nat) : String × Json → String
  | (name, value) => writeString name ++ ": " ++ value.indented level
end

def pretty (j : Json) : String := j.indented 0

end PluginAudit.Json
