import PluginAudit.Text.Columns
import PluginAudit.Text.Width

/-!
Styles of text on a terminal. Tabs become blanks, and the lines of a text are filled up to the
widest one; with colors each line stands between the codes that turn its style on and off.
-/

namespace PluginAudit

inductive Style where
  | title
  | heading
  | dim
  | hint
  | pass
  | fail
  | warning
  | count
deriving DecidableEq

namespace Style

def code : Style → String
  | .title => "1;38;5;69"
  | .heading => "1"
  | .dim => "38;5;66"
  | .hint => "38;5;75"
  | .pass => "38;5;36"
  | .fail => "38;5;203"
  | .warning => "38;5;214"
  | .count => "38;5;45"

def escape : String := "\x1b["

def paintLine (color : Bool) (style : Style) (line : String) : String :=
  if color && line != "" then escape ++ style.code ++ "m" ++ line ++ escape ++ "0m" else line

def expandTabs (s : List Char) : List Char :=
  s.flatMap fun c => if c = '\t' then List.replicate 4 ' ' else [c]

def dropReturns : List Char → List Char
  | [] => []
  | [c] => [c]
  | c :: d :: rest =>
    if c = '\r' ∧ d = '\n' then '\n' :: dropReturns rest else c :: dropReturns (d :: rest)

def paint (color : Bool) (style : Style) (s : String) : String :=
  let lines := Text.splitBy (· == '\n') (dropReturns (expandTabs s.toList))
  let widest := lines.foldl (fun n line => max n (Text.cells line)) 0
  "\n".intercalate (lines.map fun line =>
    paintLine color style (String.ofList line) ++
      String.ofList (List.replicate (widest - Text.cells line) ' '))

end Style

end PluginAudit
