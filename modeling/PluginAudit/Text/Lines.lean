import PluginAudit.Text.Blank

/-!
Texts as lists of lines. A line ends before a line feed, and one carriage return right before the
line feed belongs to the line end. A text of `n` line feeds has `n + 1` lines.
-/

namespace PluginAudit.Text

def dropReturn (line : List Char) : List Char :=
  if line.getLast? = some '\r' then line.dropLast else line

def lineChars (s : List Char) : List (List Char) :=
  (splitOnChar '\n' s).map dropReturn

def lines (s : String) : List String :=
  (lineChars s.toList).map String.ofList

end PluginAudit.Text
