import PluginAudit.Detector.Registry
import PluginAudit.Proofs.Contexts

/-!
What detectors promise to whoever runs them: each finding names the file that was judged and has a
plain context, and never shows which files were judged before.
-/

open List

namespace PluginAudit.Detector

open Syntax (Memo)

variable {x : Finding} {env : Surroundings} {f : Source.File} {target : Combination} {scope : Scope}
  {memo : Memo} {inside path : String} {number : Nat} {means : Means}
open Finding
variable {lint : Syntax.Linter} {name version : String} {line : List Char} {changes : Changes}

/-- A detector is steady if the memo never shows in what it finds: each judgement keeps a property
of memos, and under this property it finds the same. -/
structure Steady (sound : Memo → Prop) (target : Combination) (d : Detector) : Prop where
  keeps : ∀ f memo, sound memo → sound ((d.judge target f).run memo).2
  same : ∀ f memo memo', sound memo → sound memo' →
    ((d.judge target f).run memo).1 = ((d.judge target f).run memo').1

lemma steady_plain (sound : Memo → Prop) (target : Combination) (id name : String)
    (judge : Combination → Source.File → List Finding) :
    (plain id name judge).Steady sound target where
  keeps := fun _ _ h => h
  same := fun _ _ _ _ _ => rfl

lemma run_plain (id name : String) (judge : Combination → Source.File → List Finding)
    (target : Combination) (f : Source.File) (memo : Memo) :
    (((plain id name judge).judge target f).run memo).1 = judge target f := rfl

/-! ### The check of the runtime -/

/-- What a check of a file finds; a check that fails finds nothing. -/
def Syntax.diagnosed (lint : Syntax.Linter) (path : String) : List Finding :=
  match lint path with
  | .ok diagnostics => diagnostics.map (Syntax.ofDiagnostic path)
  | .error _ => []

/-- The memo remembers what the check finds. -/
def Syntax.Remembers (lint : Syntax.Linter) (memo : Memo) : Prop :=
  ∀ path findings, Table.get? path memo.known = some findings → findings = diagnosed lint path

lemma Syntax.Remembers.insert (h : Remembers lint memo) (path : String) :
    Remembers lint ⟨Table.insert path (diagnosed lint path) memo.known⟩ := by
  intro other findings hget
  rw [Table.get?_insert] at hget
  split at hget
  case isTrue heq =>
    subst heq
    exact (Option.some.inj hget).symm
  case isFalse => exact h other findings hget

lemma Syntax.checked_of_known {findings : List Finding}
    (h : Table.get? path memo.known = some findings) :
    checked (some lint) live memo path = (memo, findings) := by
  simp only [checked, checkedBy, h, Id.run_pure]

lemma Syntax.checked_of_error {e : Lint.Error} (h : Table.get? path memo.known = none)
    (hlint : lint path = .error e) : checked (some lint) live memo path =
      (if live then ⟨Table.insert path [] memo.known⟩ else memo, []) := by
  simp only [checked, checkedBy, h, hlint]
  rfl

lemma Syntax.checked_of_ok {diagnostics : List Lint.Diagnostic}
    (h : Table.get? path memo.known = none)
    (hlint : lint path = .ok diagnostics) : checked (some lint) live memo path =
      (⟨Table.insert path (diagnostics.map (ofDiagnostic path)) memo.known⟩,
        diagnostics.map (ofDiagnostic path)) := by
  simp only [checked, checkedBy, h, hlint]
  rfl

/-- With a true memo the check finds what it finds without one, and the memo stays true. -/
lemma Syntax.checked_of_remembers (h : Remembers lint memo) (live : Bool) (path : String) :
    (checked (some lint) live memo path).2 = diagnosed lint path ∧
      Remembers lint (checked (some lint) live memo path).1 := by
  cases hget : Table.get? path memo.known with
  | some findings =>
    rw [checked_of_known hget]
    exact ⟨h path findings hget, h⟩
  | none =>
    have hinsert := h.insert path
    unfold diagnosed at *
    cases hlint : lint path with
    | ok diagnostics =>
      rw [hlint] at hinsert
      rw [checked_of_ok hget hlint]
      exact ⟨rfl, hinsert⟩
    | error e =>
      rw [hlint] at hinsert
      rw [checked_of_error hget hlint]
      cases live with
      | true => exact ⟨rfl, hinsert⟩
      | false => exact ⟨rfl, h⟩

/-- What is true of memos in a run: if there is a check, they remember what it finds. -/
def Truthful (means : Means) (memo : Memo) : Prop :=
  ∀ lint, means.linter = some lint → Syntax.Remembers lint memo

lemma truthful_empty (means : Means) : Truthful means {} := by
  intro lint _ path findings hget
  simp at hget

/-! ### Findings are reported in the judged file -/

lemma Syntax.reportedIn_of_mem_heuristics {continued : Bool} {lines : List CodeLine}
    (hx : x ∈ heuristics path continued lines) : x.ReportedIn path := by
  induction lines generalizing continued with
  | nil => cases hx
  | cons line lines ih =>
    rw [heuristics, mem_append] at hx
    rcases hx with hx | hx
    · unfold lineFindings at hx
      split at hx
      · cases hx
      · simp only [mem_append, mem_ite_nil_right, mem_singleton] at hx
        rcases hx with ⟨-, rfl⟩ | ⟨-, rfl⟩ <;> exact ⟨rfl, plain_of_context_nil rfl⟩
    · exact ih hx

lemma Syntax.reportedIn_of_mem_diagnosed {lint : Linter} (hx : x ∈ diagnosed lint path) :
    x.ReportedIn path := by
  unfold diagnosed at hx
  split at hx
  · obtain ⟨d, _, rfl⟩ := mem_map.mp hx
    unfold ofDiagnostic
    split <;> exact ⟨rfl, plain_of_context_nil rfl⟩
  · cases hx

/-- The finding for a call: it is a function of admin pages, a function that the runtime does not
have yet, or one that nothing provides. -/
lemma UndefinedFunction.classify_cases {line : Nat}
    (hx : classify env target scope name line = some x) :
    (Text.lower name ∈ adminFunctions ∧ x = adminFinding scope target name line) ∨
    (isOwn env scope name = false ∧
      ∃ required, laterFunctions.lookup (Text.lower name) = some required ∧
      Version.below target.php required ∧ x = laterFinding scope target name required line) ∨
    (Text.lower name ∉ adminFunctions ∧ isOwn env scope name = false ∧
      laterFunctions.lookup (Text.lower name) = none ∧ isProvided env name = false ∧
      x = undefinedFinding scope target name line) := by
  unfold classify at hx
  split at hx
  case isTrue hadmin =>
    rw [contains_iff_mem] at hadmin
    exact .inl ⟨hadmin, (Option.some.inj hx).symm⟩
  case isFalse hadmin =>
    rw [contains_iff_mem] at hadmin
    split at hx
    case isTrue => cases hx
    case isFalse hown =>
      rw [Bool.not_eq_true] at hown
      split at hx
      case h_1 required hlater =>
        split at hx
        case isTrue hbelow =>
          exact .inr (.inl ⟨hown, required, hlater, hbelow, (Option.some.inj hx).symm⟩)
        case isFalse => cases hx
      case h_2 hlater =>
        split at hx
        case isTrue => cases hx
        case isFalse hprovided =>
          rw [Bool.not_eq_true] at hprovided
          exact .inr (.inr ⟨hadmin, hown, hlater, hprovided, (Option.some.inj hx).symm⟩)

lemma UndefinedFunction.reportedIn_of_mem_detect (hx : x ∈ detect env target f) :
    x.ReportedIn f.path := by
  simp only [detect, mem_flatMap, mem_filterMap] at hx
  obtain ⟨⟨number, line⟩, _, name, _, hx⟩ := hx
  rcases classify_cases hx with ⟨-, rfl⟩ | ⟨-, required, -, -, rfl⟩ | ⟨-, -, -, -, rfl⟩ <;>
    exact reportedIn_of_texts rfl rfl

lemma ClassConflict.declarationFindings_spec {code : List Char}
    (hx : x ∈ declarationFindings env scope inside number code) : x.ReportedIn scope.path ∧
      x.kind ∈ [Kind.classAlreadyExists, .wordPressClassConflict, .phpClassConflict] := by
  unfold declarationFindings at hx
  split at hx
  · split at hx
    · simp only [conflicts, mem_append, mem_ite_nil_right, mem_singleton] at hx
      rcases hx with (⟨-, rfl⟩ | ⟨-, rfl⟩) | ⟨-, rfl⟩ <;>
        exact ⟨reportedIn_of_texts rfl rfl, by simp⟩
    · cases hx
  · cases hx

lemma ClassConflict.exists_uncovered_of_mem_useFindings
    (hx : x ∈ useFindings env scope inside number line) :
    ∃ name full, x = undefinedFinding scope.path number name full ∧
      isKnown env scope.imports name full = false ∧
        Guard.covers scope.guards name full (number - 1) = false := by
  obtain ⟨name, -, hname⟩ := mem_filterMap.mp hx
  dsimp only at hname
  split at hname
  case isTrue => cases hname
  case isFalse hknown =>
    cases hname
    rw [Bool.or_eq_true, not_or, Bool.not_eq_true, Bool.not_eq_true] at hknown
    exact ⟨name, _, rfl, hknown⟩

lemma ClassConflict.reportedIn_of_mem_findingsFrom {lines : List (Nat × List Char)}
    (hx : x ∈ findingsFrom env scope inside lines) : x.ReportedIn scope.path := by
  induction lines generalizing inside with
  | nil => cases hx
  | cons line lines ih =>
    rw [findingsFrom] at hx
    split at hx
    · exact ih hx
    · simp only [mem_append] at hx
      rcases hx with (hx | hx) | hx
      · exact (declarationFindings_spec hx).1
      · obtain ⟨name, full, rfl, -⟩ := exists_uncovered_of_mem_useFindings hx
        exact reportedIn_of_texts rfl rfl
      · exact ih hx

lemma Platform.changedFinding?_cases
    (h : changedFinding? changes name path number version = some x) :
    (∃ c, (Table.get? name changes.removed).filter (·.applies version) = some c ∧
      x = removedFinding name path number version c) ∨
    ∃ c, Table.get? name changes.deprecated = some c ∧
      x = deprecatedFinding name path number version c := by
  unfold changedFinding? at h
  split at h
  · rename_i c hc
    cases h
    exact .inl ⟨c, hc, rfl⟩
  · obtain ⟨c, hc, rfl⟩ := Option.map_eq_some_iff.mp h
    exact .inr ⟨c, (Option.filter_eq_some_iff.mp hc).1, rfl⟩

/-- The findings on a line: for changed functions, for functions that came later, and for hooks. -/
lemma Platform.mem_lineFindings (hx : x ∈ lineFindings changes version path number line) :
    (∃ name ∈ changes.names, changedFinding? changes name path number version = some x) ∨
    (∃ name required, Version.below version required ∧
      x = requiredFinding name required path number version) ∨
    ∃ name c, x = hookFinding name path number c := by
  simp only [lineFindings, mem_append, mem_filterMap, Option.ite_none_right_eq_some,
    Bool.and_eq_true, Option.some.injEq] at hx
  rcases hx with (⟨name, hname, -, hx⟩ | ⟨entry, -, ⟨-, hbelow⟩, rfl⟩) | ⟨entry, -, -, rfl⟩
  · exact .inl ⟨name, hname, hx⟩
  · exact .inr (.inl ⟨_, _, hbelow, rfl⟩)
  · exact .inr (.inr ⟨_, _, rfl⟩)

lemma Platform.reportedIn_of_mem_detect (hx : x ∈ detect changes target f) :
    x.ReportedIn f.path := by
  obtain ⟨entry, -, hx⟩ := mem_flatMap.mp hx
  rcases mem_lineFindings hx with ⟨name, -, hx⟩ | ⟨name, required, -, rfl⟩ | ⟨name, c, rfl⟩
  · rcases changedFinding?_cases hx with ⟨c, -, rfl⟩ | ⟨c, -, rfl⟩
    · exact reportedIn_of_texts rfl rfl
    · exact reportedIn_of_texts rfl rfl
  · exact reportedIn_of_texts rfl rfl
  · exact reportedIn_of_texts rfl rfl

/-- What is found on a line of code is about a deprecated construct, a removed one or one that came
later. -/
lemma Language.mem_lineFindings
    (hx : x ∈ if Source.isScript line || (Source.clean line).isEmpty then [] else
      lineFindings version path number (Source.clean line)) :
    (∃ feature, x = deprecatedFinding version path number feature) ∨
    (∃ feature, x = removedFinding version path number feature) ∨ ∃ feature,
      Version.below version feature.version ∧ x = requiredFinding version path number feature := by
  split at hx
  · cases hx
  · simp only [lineFindings, mem_append, mem_map, mem_filter, Bool.and_eq_true] at hx
    rcases hx with (⟨feature, -, rfl⟩ | ⟨feature, -, rfl⟩) | ⟨feature, ⟨-, -, hbelow⟩, rfl⟩
    · exact .inl ⟨feature, rfl⟩
    · exact .inr (.inl ⟨feature, rfl⟩)
    · exact .inr (.inr ⟨feature, hbelow, rfl⟩)

lemma Language.reportedIn_of_mem_detect (hx : x ∈ detect target f) : x.ReportedIn f.path := by
  obtain ⟨entry, -, hx⟩ := mem_flatMap.mp hx
  rcases mem_lineFindings hx with ⟨feature, rfl⟩ | ⟨feature, rfl⟩ | ⟨feature, -, rfl⟩ <;>
    exact reportedIn_of_texts rfl rfl

lemma Template.plain_exclusionNote (tag widget : String) (d : Widget.Decision) :
    (exclusionNote tag widget d).Plain := by
  refine Value.plain_record_ofPairs ?_
  simp only [mem_cons, not_mem_nil, or_false, forall_eq_or_imp, forall_eq]
  exact ⟨.text _, .text _, .text _, .text _, .bool _⟩

lemma Template.reportedIn_of_screen {widget member : String} {f : Finding} (h : f.ReportedIn path)
    (hx : screen env widget member f = some x) : x.ReportedIn path := by
  unfold screen at hx
  split at hx
  · cases hx
    exact h
  · split at hx
    · cases hx
      exact h
    · split at hx
      · cases hx
      · split at hx
        · cases hx
          exact ⟨h.file, h.plain.withContext _ (plain_exclusionNote _ _ _)⟩
        · cases hx
          exact h

lemma Template.reportedIn_of_mem_detectMethods (hx : x ∈ detectMethods env f) :
    x.ReportedIn f.path := by
  simp only [detectMethods, mem_filterMap] at hx
  obtain ⟨⟨number, line, use⟩, _, hx⟩ := hx
  split at hx
  · obtain ⟨risk, _, hx⟩ := Option.bind_eq_some_iff.mp hx
    refine reportedIn_of_screen ?_ hx
    cases risk <;> exact reportedIn_of_texts rfl rfl
  · cases hx

lemma Template.reportedIn_of_mem_detectObject (hx : x ∈ detectObject env f) :
    x.ReportedIn f.path := by
  simp only [detectObject, mem_filterMap] at hx
  obtain ⟨⟨number, line, use⟩, _, hx⟩ := hx
  split at hx
  · obtain ⟨risk, _, hx⟩ := Option.bind_eq_some_iff.mp hx
    exact reportedIn_of_screen (reportedIn_of_texts rfl rfl) hx
  · exact reportedIn_of_screen (reportedIn_of_texts rfl rfl) hx

/-! ### The detectors that come with the program -/

lemma Syntax.detect_of_truthful (h : Truthful means memo) (f : Source.File) :
    (detect means.linter means.live memo f).2 =
        (means.linter.elim [] fun lint => diagnosed lint f.path) ++ checkLines f ∧
      Truthful means (detect means.linter means.live memo f).1 := by
  unfold detect Truthful at *
  cases hlinter : means.linter with
  | none => exact ⟨rfl, fun _ hl => nomatch hl⟩
  | some lint =>
    obtain ⟨hfound, hkept⟩ := checked_of_remembers (h lint hlinter) means.live f.path
    refine ⟨congrArg (· ++ checkLines f) hfound, ?_⟩
    intro lint' hl
    cases hl
    exact hkept

lemma keyOf_id :
    ∀ id ∈ ["syntax", "undefined-function", "class-conflict", "wp-compat", "php-compat",
    "template-method-context", "this-context"], keyOf id = id := by
  decide

lemma steady_of_mem_builtins {d : Detector} (hd : d ∈ builtins env means)
    (target : Combination) : d.Steady (Truthful means) target := by
  simp only [builtins, mem_cons, not_mem_nil, or_false] at hd
  rcases hd with rfl | rfl | rfl | rfl | rfl | rfl | rfl
  · constructor
    · intro f memo h
      exact (Syntax.detect_of_truthful h f).2
    · intro f memo memo' h h'
      exact (Syntax.detect_of_truthful h f).1.trans (Syntax.detect_of_truthful h' f).1.symm
  all_goals exact steady_plain _ _ _ _ _

lemma reportedIn_of_mem_builtins {d : Detector} (hd : d ∈ builtins env means)
    (h : Truthful means memo) (hx : x ∈ ((d.judge target f).run memo).1) : x.ReportedIn f.path := by
  simp only [builtins, mem_cons, not_mem_nil, or_false] at hd
  rcases hd with rfl | rfl | rfl | rfl | rfl | rfl | rfl
  · change x ∈ (Syntax.detect means.linter means.live memo f).2 at hx
    rw [(Syntax.detect_of_truthful h f).1, mem_append] at hx
    rcases hx with hx | hx
    · cases hlinter : means.linter with
      | none =>
        rw [hlinter] at hx
        cases hx
      | some lint =>
        rw [hlinter] at hx
        exact Syntax.reportedIn_of_mem_diagnosed hx
    · exact Syntax.reportedIn_of_mem_heuristics hx
  all_goals rw [run_plain] at hx
  · exact UndefinedFunction.reportedIn_of_mem_detect hx
  · exact ClassConflict.reportedIn_of_mem_findingsFrom hx
  · exact Platform.reportedIn_of_mem_detect hx
  · exact Language.reportedIn_of_mem_detect hx
  · exact Template.reportedIn_of_mem_detectMethods hx
  · exact Template.reportedIn_of_mem_detectObject hx

end PluginAudit.Detector
