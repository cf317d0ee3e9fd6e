import PluginAudit.Report.Pretty
import PluginAudit.Report.Sarif

/-!
The forms in which reports are written.
-/

namespace PluginAudit.Report

inductive Format where
  | pretty
  | table
  | json
  | sarif
deriving DecidableEq

namespace Format

def name : Format → String
  | .pretty => "pretty"
  | .table => "table"
  | .json => "json"
  | .sarif => "sarif"

def all : List Format := [.pretty, .table, .json, .sarif]

def ofName? (s : String) : Option Format := all.find? (·.name == s)

structure Error where
  value : String
deriving DecidableEq

def Error.message (e : Error) : String := "unknown format: " ++ e.value

/-- The form that a user names; people read the form that is taken without a name. -/
def parse (value : String) : Except Error Format :=
  let word := Text.lower (Text.trim value)
  if word = "" then .ok .pretty
  else match ofName? word with
    | some f => .ok f
    | none => .error ⟨value⟩

end Format

def documentText (j : Json) : String := j.pretty ++ "\n"

def write (r : Report) (color : Bool) : Format → String
  | .pretty => r.prettyText color
  | .table => r.tableText
  | .json => documentText r.toJson
  | .sarif => documentText (Sarif.document r)

/-- The text of a report. Where there is no room for its results the program ends without one. -/
def write? (r : Report) (room : Int) (color : Bool) (f : Format) : Option String :=
  if f = .sarif ∧ ¬ Sarif.HasRoom room r then none else some (r.write color f)

end PluginAudit.Report
