import PluginAudit.Detector.Template
import PluginAudit.Proofs.Tables

/-!
The two detectors for templates as one scan: each use of the object makes a candidate or none, and
the rules for widgets screen the candidates.
-/

open List

namespace PluginAudit.Detector.Template

open Source

/-- What a detector makes of a use: from the path, the widget, the number of the line, the line and
the use. -/
abbrev Candidate := String → String → Nat → List Char → Use → Option Finding

def methodCandidate? : Candidate := fun path widget number line use =>
  if use.isMethod then (risk? use.name).map (methodFinding path widget number line use.name) else
    none

def objectCandidate? : Candidate := fun path widget number line use =>
  if use.isMethod then (risk? use.name).map (objectMethodFinding path widget number line use.name)
  else some (propertyFinding path widget number line use.name)

def screened (candidate? : Candidate) (env : Surroundings) (f : File) : List Finding :=
  let widget := widgetOf (relativeTo env.root f.path)
  (usesIn env.root f).filterMap fun (number, line, use) =>
    (candidate? f.path widget number line use).bind (screen env widget use.name)

variable {env : Surroundings} {f : File}

lemma detectMethods_eq_screened : detectMethods env f = screened methodCandidate? env f := by
  refine filterMap_congr fun use _ => ?_
  dsimp only [methodCandidate?]
  split
  · rw [Option.bind_map]
    rfl
  · rfl

lemma detectObject_eq_screened : detectObject env f = screened objectCandidate? env f := by
  refine filterMap_congr fun use _ => ?_
  dsimp only [objectCandidate?]
  split
  · rw [Option.bind_map]
    rfl
  · rfl

section Changes

variable {g : Finding → Finding} {path path' widget : String} {number number' : Nat}
  {line : List Char}

lemma methodCandidate?_eq_map (h : ∀ name risk, methodFinding path widget number line name risk =
      g (methodFinding path' widget number' line name risk)) (use : Use) : methodCandidate? path
      widget number line use = (methodCandidate? path' widget number' line use).map g := by
  unfold methodCandidate?
  split
  · rw [Option.map_map]
    exact Option.map_congr fun risk _ => h use.name risk
  · rfl

lemma objectCandidate?_eq_map
    (h : ∀ name risk, objectMethodFinding path widget number line name risk =
      g (objectMethodFinding path' widget number' line name risk))
    (h' : ∀ name, propertyFinding path widget number line name =
      g (propertyFinding path' widget number' line name)) (use : Use) : objectCandidate? path widget
      number line use = (objectCandidate? path' widget number' line use).map g := by
  unfold objectCandidate?
  split
  · rw [Option.map_map]
    exact Option.map_congr fun risk _ => h use.name risk
  · rw [h', Option.map_some]

lemma bind_screen_map (hkind : ∀ x, (g x).kind = x.kind)
    (hcontext : ∀ x key value, (g x).withContext key value = g (x.withContext key value))
    (env : Surroundings) (widget member : String) (candidate : Option Finding) :
    (candidate.map g).bind (screen env widget member) =
      (candidate.bind (screen env widget member)).map g := by
  cases candidate with
  | none => rfl
  | some x =>
    rw [Option.map_some, Option.bind_some, Option.bind_some, screen, screen, hkind]
    split
    · rfl
    · split
      · rfl
      · split
        · rfl
        · split <;> simp [hcontext]

end Changes

end PluginAudit.Detector.Template
