import PluginAudit.Finding
import PluginAudit.Json.Decode

/-!
Findings as JSON documents. A suggestion or context that is empty is left out.
-/

namespace PluginAudit.Finding

open Json (Decoder Parts intoInt intoRecord intoTable intoText intoValue through)

def members (f : Finding) : List (String × Json) :=
  [("kind", .str f.kind.code), ("message", .str f.message), ("file", .str f.file),
   ("line", .int f.line), ("severity", .str f.severity.label)] ++
  (if f.suggestion = "" then [] else [("suggestion", .str f.suggestion)]) ++
  (if f.context.isEmpty then [] else [("context", .obj (Value.fieldsToJson f.context))])

def toJson (f : Finding) : Json := .obj f.members

def blank : Finding := ⟨⟨""⟩, "", "", 0, ⟨""⟩, "", []⟩

/-- The context of a finding, whose entries a document adds to. -/
def intoContext : Decoder (Table Value) :=
  fun j old => (intoTable .null intoValue j (some old)).map (·.getD [])

def parts : Parts Finding :=
  [("kind", through (·.kind.code) (fun v f => { f with kind := ⟨v⟩ }) intoText),
   ("message", through (·.message) (fun v f => { f with message := v }) intoText),
   ("file", through (·.file) (fun v f => { f with file := v }) intoText),
   ("line", through (·.line) (fun v f => { f with line := v }) intoInt),
   ("severity", through (·.severity.label) (fun v f => { f with severity := ⟨v⟩ })
     intoText),
   ("suggestion", through (·.suggestion) (fun v f => { f with suggestion := v })
     intoText),
   ("context", through (·.context) (fun v f => { f with context := v }) intoContext)]

def ofJson? (j : Json) : Option Finding :=
  intoRecord false parts j blank

end PluginAudit.Finding
