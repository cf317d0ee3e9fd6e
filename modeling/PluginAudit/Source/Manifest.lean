import PluginAudit.FileTree.Confined
import PluginAudit.Json.Decode

/-!
The package manifest of a plugin and the packages that it asks for.
-/

namespace PluginAudit.Source

structure Manifest where
  name : String := ""
  require : Option (Table String) := none
  requireDev : Option (Table String) := none
deriving DecidableEq

namespace Manifest

def fileName : String := "composer.json"

inductive Error where
  | read (cause : ReadError)
  | parse
deriving DecidableEq

def Error.message : Error → String
  | .read cause => cause.message
  | .parse => "parse " ++ fileName

def parts : Json.Parts Manifest :=
  [("name", Json.through (·.name) (fun v m => { m with name := v }) Json.intoText),
   ("require", Json.through (·.require) (fun v m => { m with require := v })
     (Json.intoTable "" Json.intoText)),
   ("require-dev", Json.through (·.requireDev) (fun v m => { m with requireDev := v })
     (Json.intoTable "" Json.intoText))]

def load (tree : Node) (here root : String) : Except Error (Option Manifest) :=
  match FileTree.readUnder tree here root (Path.join [root, fileName]) with
  | .error e => if e.isMissing then .ok none else .error (.read e)
  | .ok content =>
    match Json.parse? (Text.decodeBytes content) with
    | none => .error .parse
    | some j => match Json.intoRecord false parts j {} with
      | none => .error .parse
      | some m => .ok (some m)

def packages (m : Manifest) : List String :=
  sortedNames (((m.require.getD []).names ++ (m.requireDev.getD []).names).filterMap fun name =>
    let name := Text.lower (Text.trim name)
    if name = "" then none else some name)

end Manifest

end PluginAudit.Source
