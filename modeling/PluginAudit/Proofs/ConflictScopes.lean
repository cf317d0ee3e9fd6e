import PluginAudit.Proofs.DetectorContract
import PluginAudit.Proofs.LineStates

/-!
The namespace of a declaration, as the list of declarations and the search for conflicts see it.
Only the search passes over scripts. Main statement: every conflict is that of a listed declaration
outside of all namespaces, namespace statements in scripts apart.
-/

open List

namespace PluginAudit

namespace Source

variable {content : List Char}

/-! ### Namespace statements -/

/-- A namespace statement outside comments and heredocs. -/
structure NamespaceSwitch where
  line : Nat
  /-- Whether it stands in a script. -/
  script : Bool
  name : String
deriving DecidableEq

/-- A line with its number and the state it is read in. -/
abbrev NumberedLine := Nat × LineState × List Char

def switchOn? (l : NumberedLine) : Option NamespaceSwitch :=
  if l.2.1.skippable then none else (namespaceOn? (clean l.2.2)).map fun name =>
    ⟨l.1, l.2.1.script, name⟩

def namespaceSwitches (content : List Char) : List NamespaceSwitch :=
  (numberedStates (Text.lineChars content)).filterMap switchOn?

def switchBefore? (content : List Char) (line : Nat) : Option NamespaceSwitch :=
  ((namespaceSwitches content).filter (·.line < line)).getLast?

def namespaceAfter (current : String) (switches : List NamespaceSwitch) : String :=
  (switches.getLast?.map (·.name)).getD current

@[simp] lemma namespaceAfter_nil (current : String) : namespaceAfter current [] = current := rfl

@[simp] lemma namespaceAfter_cons (current : String) (s : NamespaceSwitch)
    (switches : List NamespaceSwitch) :
    namespaceAfter current (s :: switches) = namespaceAfter s.name switches := by
  rw [namespaceAfter, namespaceAfter, getLast?_cons]
  cases switches.getLast? <;> rfl

@[simp] lemma namespaceAfter_concat (current : String) (switches : List NamespaceSwitch)
    (s : NamespaceSwitch) : namespaceAfter current (switches ++ [s]) = s.name := by
  rw [namespaceAfter, getLast?_concat]
  rfl

/-- If the statements outside scripts leave no namespace in effect, those in scripts can do so only
by being the last. -/
lemma namespaceAfter_ne_empty_iff {switches : List NamespaceSwitch}
    (h : namespaceAfter "" (switches.filter (!·.script)) = "") :
    namespaceAfter "" switches ≠ "" ↔ ∃ s ∈ switches.getLast?, s.script ∧ s.name ≠ "" := by
  rcases eq_nil_or_concat switches with rfl | ⟨before, s, rfl⟩
  · simp
  · rw [concat_eq_append] at h ⊢
    rw [namespaceAfter_concat, getLast?_concat]
    cases hscript : s.script with
    | true => simp [hscript]
    | false =>
      have hname : s.name = "" := by
        rwa [filter_append, filter_cons_of_pos (by simp [hscript]), filter_nil,
          namespaceAfter_concat] at h
      simp [hname]

/-! ### Declarations -/

lemma exists_declarationsFrom_cons (current : String) (l : NumberedLine)
    (rest : List NumberedLine) : ∃ found, declarationsFrom current (l :: rest) =
      found ++ declarationsFrom (namespaceAfter current (switchOn? l).toList) rest := by
  obtain ⟨number, state, line⟩ := l
  rw [declarationsFrom, switchOn?]
  split
  · exact ⟨[], rfl⟩
  · dsimp only
    rw [lineMeaning]
    cases namespaceOn? (clean line) with
    | some name => exact ⟨[], rfl⟩
    | none =>
      cases typeOn? (clean line) with
      | some type => exact ⟨[⟨type.1, type.2, current, number⟩], rfl⟩
      | none =>
        cases functionOn? (clean line) with
        | some name => exact ⟨[⟨.function, name, current, number⟩], rfl⟩
        | none => exact ⟨[], rfl⟩

lemma exists_declarationsFrom_append (current : String) (before rest : List NumberedLine) :
    ∃ found, declarationsFrom current (before ++ rest) =
      found ++ declarationsFrom (namespaceAfter current (before.filterMap switchOn?)) rest := by
  induction before generalizing current with
  | nil => exact ⟨[], rfl⟩
  | cons l before ih =>
    obtain ⟨here, hhere⟩ := exists_declarationsFrom_cons current l (before ++ rest)
    obtain ⟨later, hlater⟩ := ih (namespaceAfter current (switchOn? l).toList)
    refine ⟨here ++ later, ?_⟩
    rw [cons_append, hhere, hlater, append_assoc]
    cases hswitch : switchOn? l with
    | none => rw [filterMap_cons_none hswitch]; rfl
    | some s => rw [filterMap_cons_some hswitch, namespaceAfter_cons]; rfl

lemma mem_declarationsFrom {number : Nat} {state : LineState} {line : List Char}
    {kind : DeclarationKind}
    {name : String} (hcode : state.skippable = false) (hnone : namespaceOn? (clean line) = none)
    (htype : typeOn? (clean line) = some (kind, name)) (current : String)
    (before after : List NumberedLine) :
    ⟨kind, name, namespaceAfter current (before.filterMap switchOn?), number⟩ ∈
      declarationsFrom current (before ++ (number, state, line) :: after) := by
  obtain ⟨found, hfound⟩ :=
    exists_declarationsFrom_append current before ((number, state, line) :: after)
  rw [hfound, declarationsFrom, if_neg (by simp [hcode]), lineMeaning, hnone, htype]
  exact mem_append_right _ mem_cons_self

lemma map_line_declarationsFrom_sublist (current : String) (lines : List NumberedLine) :
    ((declarationsFrom current lines).map (·.line)).Sublist (lines.map (·.1)) := by
  induction lines generalizing current with
  | nil => exact List.Sublist.refl _
  | cons l lines ih =>
    obtain ⟨number, state, line⟩ := l
    rw [declarationsFrom]
    split
    · exact (ih current).cons _
    · split
      · exact (ih _).cons _
      · exact (ih current).cons_cons _
      · exact (ih current).cons _

lemma eq_of_line_eq {d e : Declaration} (hd : d ∈ declarations content)
    (he : e ∈ declarations content) (hline : e.line = d.line) : e = d := by
  have hnodup : ((declarations content).map (·.line)).Nodup := by
    refine (map_line_declarationsFrom_sublist "" _).nodup ?_
    rw [map_number_numberedStates]
    exact nodup_range'
  exact inj_on_of_nodup_map hnodup he hd hline

lemma line_of_mem_switches {lines : List NumberedLine} {s : NamespaceSwitch}
    (h : s ∈ lines.filterMap switchOn?) : ∃ l ∈ lines, s.line = l.1 := by
  obtain ⟨l, hl, hswitch⟩ := mem_filterMap.mp h
  rw [switchOn?] at hswitch
  split at hswitch
  · cases hswitch
  · obtain ⟨name, -, rfl⟩ := Option.map_eq_some_iff.mp hswitch
    exact ⟨l, hl, rfl⟩

lemma filter_namespaceSwitches {before after : List NumberedLine} {l : NumberedLine}
    (hlines : numberedStates (Text.lineChars content) = before ++ l :: after) :
    (namespaceSwitches content).filter (·.line < l.1) = before.filterMap switchOn? := by
  have hordered := pairwise_numberedStates (Text.lineChars content)
  rw [hlines, pairwise_append, pairwise_cons] at hordered
  obtain ⟨-, ⟨hafter, -⟩, hbefore⟩ := hordered
  rw [namespaceSwitches, hlines, filterMap_append, filter_append, filter_eq_self.mpr,
    filter_eq_nil_iff.mpr, append_nil]
  · intro s hs
    obtain ⟨m, hm, hline⟩ := line_of_mem_switches hs
    rw [hline, decide_eq_true_eq, not_lt]
    rcases mem_cons.mp hm with rfl | hm
    · exact le_refl _
    · exact (hafter m hm).le
  · intro s hs
    obtain ⟨m, hm, hline⟩ := line_of_mem_switches hs
    rw [hline, decide_eq_true_eq]
    exact hbefore m hm l mem_cons_self

end Source

/-! ### Conflicts -/

namespace Detector.ClassConflict

open Source

variable {env : Surroundings} {scope : Scope} {inside : String} {x : Finding}
  {lines : List NumberedLine}

def conflictKinds : List Kind := [.classAlreadyExists, .wordPressClassConflict, .phpClassConflict]

def codeLine? (l : NumberedLine) : Option (Nat × List Char) :=
  if l.2.1.skippable || l.2.1.script then none else some (l.1, l.2.2)

lemma codeLines_eq (f : File) : f.codeLines = (numberedStates f.lines).filterMap codeLine? := rfl

/-- A line of code declares the class that a finding is about. -/
structure DeclaredOn (l : NumberedLine) (kind : DeclarationKind) (x : Finding) : Prop where
  code : l.2.1.skippable = false
  stays : namespaceOn? (clean l.2.2) = none
  type : typeOn? (clean l.2.2) = some (kind, x.contextText "class")
  line : x.line = l.1

lemma exists_of_mem_declarationFindings {number : Nat} {code : List Char}
    (hx : x ∈ declarationFindings env scope inside number code) :
    inside = "" ∧ x.line = number ∧ ∃ kind, typeOn? code = some (kind, x.contextText "class") := by
  rw [declarationFindings] at hx
  split at hx
  · rename_i kind name htype
    split at hx
    · rename_i hinside
      rw [Bool.and_eq_true, decide_eq_true_eq] at hinside
      simp only [conflicts, mem_append, mem_ite_nil_right, mem_singleton] at hx
      rcases hx with (⟨-, rfl⟩ | ⟨-, rfl⟩) | ⟨-, rfl⟩ <;> exact ⟨hinside.1, rfl, kind, htype⟩
    · cases hx
  · cases hx

lemma cases_of_mem_findingsFrom {l : NumberedLine} (hkind : x.kind ∈ conflictKinds)
    (hx : x ∈ findingsFrom env scope inside ((l :: lines).filterMap codeLine?)) :
    (inside = "" ∧ ∃ kind, DeclaredOn l kind x) ∨
      x ∈ findingsFrom env scope (namespaceAfter inside ((switchOn? l).toList.filter (!·.script)))
        (lines.filterMap codeLine?) := by
  obtain ⟨number, state, line⟩ := l
  by_cases hcode : (state.skippable || state.script)
  · -- the search passes over the line, so a statement on it stands in a script
    right
    have hskip : codeLine? (number, state, line) = none := if_pos hcode
    have hswitch : (switchOn? (number, state, line)).toList.filter (!·.script) = [] := by
      rw [switchOn?]
      split
      · rfl
      · rename_i hskippable
        have hscript : state.script := by simpa [hskippable] using hcode
        cases namespaceOn? (clean line) <;> simp [hscript]
    rwa [hswitch, namespaceAfter_nil, ← filterMap_cons_none hskip]
  · have hkept : codeLine? (number, state, line) = some (number, line) := if_neg hcode
    rw [Bool.not_eq_true, Bool.or_eq_false_iff] at hcode
    rw [filterMap_cons_some hkept, findingsFrom] at hx
    simp only [switchOn?, hcode.1]
    cases hswitch : namespaceOn? (clean line) with
    | some name => exact .inr (by simpa [hswitch, hcode.2, namespaceAfter] using hx)
    | none =>
      simp only [hswitch, mem_append] at hx
      rcases hx with (hx | hx) | hx
      · obtain ⟨hinside, hline, kind, htype⟩ := exists_of_mem_declarationFindings hx
        exact .inl ⟨hinside, kind, hcode.1, hswitch, htype, hline⟩
      · obtain ⟨name, full, rfl, -⟩ := exists_uncovered_of_mem_useFindings hx
        exact absurd hkind (by decide : Kind.undefinedClass ∉ conflictKinds)
      · exact .inr hx

/-- A conflict is that of a line of code where the statements outside scripts leave no namespace in
effect. -/
lemma exists_of_mem_findingsFrom (hkind : x.kind ∈ conflictKinds)
    (hx : x ∈ findingsFrom env scope inside (lines.filterMap codeLine?)) :
    ∃ before l after kind, lines = before ++ l :: after ∧ DeclaredOn l kind x ∧
      namespaceAfter inside ((before.filterMap switchOn?).filter (!·.script)) = "" := by
  induction lines generalizing inside with
  | nil => cases hx
  | cons l lines ih =>
    rcases cases_of_mem_findingsFrom hkind hx with ⟨hinside, kind, hl⟩ | hx
    · exact ⟨[], l, lines, kind, rfl, hl, hinside⟩
    · obtain ⟨before, m, after, kind, rfl, hm, hempty⟩ := ih hx
      refine ⟨l :: before, m, after, kind, rfl, hm, ?_⟩
      cases hswitch : switchOn? l with
      | none => simpa [hswitch, filterMap_cons_none hswitch] using hempty
      | some s =>
        rw [filterMap_cons_some hswitch]
        rw [hswitch, Option.toList_some] at hempty
        cases hscript : s.script with
        | true => simpa [hscript] using hempty
        | false => simpa [hscript] using hempty

/-- Each conflict that is found for a class is that of the one declaration which the list of
declarations has on its line, and which has its name. The namespace in the list is empty, as it is
for the search, unless the last namespace statement before the line stands in a script and names
one. -/
theorem conflict_declared {env : Surroundings} {path : String} {content : List Char} {x : Finding}
    (hx : x ∈ detect env ⟨path, Text.lineChars content⟩) (hkind : x.kind ∈ conflictKinds) :
    ∃ d ∈ declarations content, (∀ e ∈ declarations content, e.line = d.line → e = d) ∧
      d.isType = true ∧
      d.name = x.contextText "class" ∧ d.line = x.line ∧
      (d.namespace ≠ "" ↔ ∃ s ∈ switchBefore? content d.line, s.script = true ∧ s.name ≠ "") := by
  rw [detect, codeLines_eq] at hx
  obtain ⟨before, l, after, kind, hlines, hl, hempty⟩ := exists_of_mem_findingsFrom hkind hx
  have hd : ⟨kind, x.contextText "class", namespaceAfter "" (before.filterMap switchOn?), l.1⟩ ∈
      declarations content := by
    rw [declarations, hlines]
    exact mem_declarationsFrom hl.code hl.stays hl.type "" before after
  refine ⟨_, hd, fun e he => eq_of_line_eq hd he, ?_, rfl, hl.line.symm, ?_⟩
  · exact bne_iff_ne.mpr (isIdentifier_of_typeOn? hl.type).1
  · rw [switchBefore?, filter_namespaceSwitches hlines]
    exact namespaceAfter_ne_empty_iff hempty

def blockText : List Char := "<?php\nnamespace \x7b\nclass WP_Query \x7b\x7d\n\x7d".toList

lemma detect_blockText : detect {} ⟨"a.php", Text.lineChars blockText⟩ =
      conflicts {} .classType "WP_Query" "a.php" 3 := by
  decide +kernel

theorem conflict_declared_block :
    ∃ x ∈ detect {} ⟨"a.php", Text.lineChars blockText⟩, x.kind ∈ conflictKinds ∧
      ∃ d ∈ declarations blockText, d.isType = true ∧ d.name = x.contextText "class" ∧
        d.line = x.line ∧
        d.namespace = "" := by
  have hconflict :
      ∃ x ∈ conflicts {} .classType "WP_Query" "a.php" 3, x.kind ∈ conflictKinds ∧ x.line = 3 := by
    decide +kernel
  rw [← detect_blockText] at hconflict
  obtain ⟨x, hx, hkind, hline⟩ := hconflict
  obtain ⟨d, hd, -, htype, hname, hdline, hnamespace⟩ := conflict_declared hx hkind
  refine ⟨x, hx, hkind, d, hd, htype, hname, hdline, ?_⟩
  by_contra hne
  obtain ⟨s, hs, hscript, -⟩ := hnamespace.mp hne
  have hswitch : switchBefore? blockText 3 = some ⟨2, false, ""⟩ := by decide +kernel
  rw [show d.line = 3 by omega, hswitch] at hs
  cases hs
  cases hscript

def scriptText : List Char :=
  "<?php ?>\n<script>\nnamespace App;\n</script>\n<?php\nclass WP_Query \x7b\x7d".toList

lemma detect_scriptText : detect {} ⟨"a.php", Text.lineChars scriptText⟩ =
      conflicts {} .classType "WP_Query" "a.php" 6 := by
  decide +kernel

/-- The namespace statement in a script is in effect for the list of declarations, but not for the
search. -/
theorem conflict_in_namespace :
    (detect {} ⟨"a.php", Text.lineChars scriptText⟩).map (fun x =>
      (x.kind, x.contextText "class", x.line)) = [(.wordPressClassConflict, "WP_Query", 6)] ∧
    declarations scriptText = [⟨.classType, "WP_Query", "App", 6⟩] := by
  rw [detect_scriptText]
  exact ⟨by decide +kernel, by decide +kernel⟩

end Detector.ClassConflict

end PluginAudit
