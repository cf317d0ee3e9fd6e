import PluginAudit.Json.Decode
import PluginAudit.Text.Blank

/-!
Rules for widgets whose templates are known to raise harmless findings, and the modes of reporting
them.
-/

namespace PluginAudit

open Json (Decoder Parts intoBool intoList intoOption intoRecord intoText through)

/-- How findings that a rule excludes are reported, by its word. -/
structure Mode where
  word : String
deriving DecidableEq, Repr

namespace Mode

def fatalOnly : Mode := ⟨"fatal_only"⟩
def allErrors : Mode := ⟨"all_errors"⟩
def debug : Mode := ⟨"debug_mode"⟩

/-- The modes with their descriptions, in order of their words. -/
def descriptions : List (Mode × String) :=
  [(allErrors, "Show all errors including excluded items for debugging"),
   (debug, "Show all errors with exclusion status annotations"),
   (fatalOnly, "Show only fatal errors (exclude known false positives)")]

def isKnown (m : Mode) : Bool := m == fatalOnly || m == allErrors || m == debug

inductive Error where
  | unknown (text : String)
deriving DecidableEq

def Error.message : Error → String
  | .unknown text => "unknown reporting mode: " ++ text

/-- The mode that a text names, up to case and surrounding white space. -/
def parse (text : String) : Except Error Mode :=
  let mode : Mode := ⟨Text.lower (Text.trim text)⟩
  if mode.isKnown then .ok mode else .error (.unknown text)

end Mode

namespace Widget

structure Status where
  word : String
deriving DecidableEq, Repr

namespace Status

def exclude : Status := ⟨"exclude"⟩
def temporaryExclude : Status := ⟨"temporary_exclude"⟩
def keep : Status := ⟨"include"⟩
def unknown : Status := ⟨"unknown"⟩

end Status

/-- Stands for every method, or every kind of finding. -/
def wildcard : String := "*"

/-- What is done with the findings in templates of one widget. -/
structure Rule where
  status : Status
  reason : String := ""
  methods : List String := []
  kinds : List String := []
  reviewDate : String := ""
  futureProof : Bool := false
deriving DecidableEq

namespace Rule

def covers (r : Rule) (method kind : String) : Bool :=
  (r.kinds.contains kind || r.kinds.contains wildcard) &&
    (r.methods.contains method || r.methods.contains wildcard)

/-- The document of a rule; an empty reason or review date is left out. -/
def toJson (r : Rule) : Json :=
  .obj ([("status", .str r.status.word)] ++
    (if r.reason = "" then [] else [("reason", .str r.reason)]) ++
    [("methods", .strs r.methods), ("error_types", .strs r.kinds)] ++
    (if r.reviewDate = "" then [] else [("review_date", .str r.reviewDate)]) ++
    [("future_proof", .bool r.futureProof)])

end Rule

structure RulePatch where
  status : Option Status := none
  reason : Option String := none
  methods : Option (List String) := none
  kinds : Option (List String) := none
  reviewDate : Option String := none
  futureProof : Option Bool := none
deriving DecidableEq

namespace RulePatch

def parts : Parts RulePatch :=
  [("status", through (·.status.map (·.word))
      (fun v p => { p with status := v.map Status.mk }) (intoOption "" intoText)),
   ("reason", through (·.reason) (fun v p => { p with reason := v })
      (intoOption "" intoText)),
   ("methods", through (·.methods) (fun v p => { p with methods := v })
      (intoList "" intoText)),
   ("error_types", through (·.kinds) (fun v p => { p with kinds := v })
      (intoList "" intoText)),
   ("review_date", through (·.reviewDate) (fun v p => { p with reviewDate := v })
      (intoOption "" intoText)),
   ("future_proof", through (·.futureProof) (fun v p => { p with futureProof := v })
      (intoOption false intoBool))]

def into : Decoder RulePatch := intoRecord false parts

end RulePatch

def unite (base extra : List String) : List String :=
  extra.foldl (fun all item => if all.contains item then all else all ++ [item]) base

/-- A rule with the parts of a patch: texts and flags are replaced, lists are united, and a new rule
without status excludes. -/
def Rule.patch (base : Option Rule) (p : RulePatch) : Rule :=
  let old := base.getD { status := ⟨""⟩ }
  let status := p.status.getD old.status
  { status := if status.word = "" then .exclude else status
    reason := p.reason.getD old.reason
    methods := unite old.methods (p.methods.getD [])
    kinds := unite old.kinds (p.kinds.getD [])
    reviewDate := p.reviewDate.getD old.reviewDate
    futureProof := p.futureProof.getD old.futureProof }

structure Decision where
  exclude : Bool
  reason : String
  status : Status
  futureProof : Bool
deriving DecidableEq

def Decision.toJson (d : Decision) : Json :=
  .obj [("exclude", .bool d.exclude), ("reason", .str d.reason), ("status", .str d.status.word),
    ("future_proof", .bool d.futureProof)]

end Widget

end PluginAudit
