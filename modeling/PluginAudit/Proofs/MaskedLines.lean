import PluginAudit.Detector.Registry
import PluginAudit.Proofs.LineStates

/-!
Lines that are no code. Main statement: in two files that differ only inside heredocs and block
comments, the detectors that go through the lines of code find the same.
-/

open List

namespace PluginAudit

namespace Source

/-! ### Lines that are masked -/

/-- A line inside a heredoc or a block comment that does not end it and has no script tag. -/
structure LineState.Masks (s : LineState) (line : List Char) : Prop where
  noTag : hasScriptTag line = false
  inside : (∃ marker, s.heredoc = some marker ∧ ¬ ClosesHeredoc marker line) ∨ s.comment = true ∧
    ¬ ['*', '/'] <:+: line

/-- From a state on there are equally many lines, and those that differ are masked. -/
structure SameCode (s : LineState) (lines lines' : List (List Char)) : Prop where
  length_eq : lines'.length = lines.length
  masks : ∀ (k : Nat) (line line' : List Char), lines[k]? = some line →
    lines'[k]? = some line' → line ≠ line' → ((lines.take k).foldl LineState.update s).Masks line ∧
    ((lines.take k).foldl LineState.update s).Masks line'

variable {s : LineState} {line line' : List Char} {lines lines' : List (List Char)}

lemma LineState.Masks.update_eq (h : s.Masks line) (hs : s.Sound) :
    s.update line = s ∧ s.skippable := by
  rcases h.inside with ⟨marker, hheredoc, hbody⟩ | ⟨hcomment, hbody⟩
  · refine ⟨update_heredocLine hheredoc (hs.isMarker marker hheredoc) hbody h.noTag, ?_⟩
    rw [skippable, hheredoc, Option.isSome_some, Bool.or_true]
  · refine ⟨update_commentLine hcomment (hs.apart hcomment) hbody h.noTag, ?_⟩
    rw [skippable, hcomment, Bool.true_or]

lemma sameCode_nil (s : LineState) : SameCode s [] [] := ⟨rfl, by simp⟩

lemma sameCode_cons_iff : SameCode s (line :: lines) (line' :: lines') ↔
    (line ≠ line' → s.Masks line ∧ s.Masks line') ∧ SameCode (s.update line) lines lines' := by
  constructor
  · intro h
    refine ⟨fun hne => h.masks 0 line line' rfl rfl hne, by simpa using h.length_eq, ?_⟩
    intro k other other' hother hother' hne
    exact h.masks (k + 1) other other' hother hother' hne
  · rintro ⟨hfirst, hrest⟩
    refine ⟨by simpa using hrest.length_eq, fun k other other' hother hother' hne => ?_⟩
    cases k with
    | zero =>
      cases hother
      cases hother'
      exact hfirst hne
    | succ k => exact hrest.masks k other other' hother hother' hne

lemma SameCode.cons (h : SameCode (s.update line) lines lines') :
    SameCode s (line :: lines) (line :: lines') :=
  sameCode_cons_iff.mpr ⟨fun hne => absurd rfl hne, h⟩

/-- Two lines in their states show the same to a scan that skips what is no code. -/
def SameReading (read read' : LineState × List Char) : Prop :=
  read'.1 = read.1 ∧ (read.1.skippable = false → read'.2 = read.2)

lemma SameCode.forall₂_statesFrom (h : SameCode s lines lines') (hs : s.Sound) :
    List.Forall₂ SameReading (statesFrom s lines) (statesFrom s lines') := by
  induction lines generalizing s lines' with
  | nil =>
    obtain rfl := length_eq_zero_iff.mp h.length_eq
    exact .nil
  | cons line lines ih =>
    obtain _ | ⟨line', lines'⟩ := lines'
    · cases h.length_eq
    obtain ⟨hfirst, hrest⟩ := sameCode_cons_iff.mp h
    by_cases heq : line = line'
    · subst heq
      exact .cons ⟨rfl, fun _ => rfl⟩ (ih hrest (hs.update line))
    · obtain ⟨hmasks, hmasks'⟩ := hfirst heq
      obtain ⟨hstate, hskipped⟩ := hmasks.update_eq hs
      obtain ⟨hstate', -⟩ := hmasks'.update_eq hs
      rw [hstate] at hrest
      rw [statesFrom, statesFrom, hstate, hstate']
      exact .cons ⟨rfl, fun hcode => by rw [hskipped] at hcode; cases hcode⟩ (ih hrest hs)

/-! ### Scans that skip masked lines -/

lemma flatMap_zipIdx_congr {α β : Type} {R : β → β → Prop}
    {items items' : List β} (h : List.Forall₂ R items items') {f : β × Nat → List α}
    (hf : ∀ item item' number, R item item' → f (item, number) = f (item', number))
    (number : Nat) : (items.zipIdx number).flatMap f = (items'.zipIdx number).flatMap f := by
  induction h generalizing number with
  | nil => rfl
  | cons hfirst _ ih =>
    rw [zipIdx_cons, zipIdx_cons, flatMap_cons, flatMap_cons, hf _ _ number hfirst, ih]

lemma SameCode.flatMap_numberedStates {α : Type} (h : SameCode {} lines lines')
    {f : Nat × LineState × List Char → List α}
    (hf : ∀ number s line, s.skippable → f (number, s, line) = []) :
    (numberedStates lines).flatMap f = (numberedStates lines').flatMap f := by
  rw [numberedStates, numberedStates, flatMap_map, flatMap_map]
  refine flatMap_zipIdx_congr (h.forall₂_statesFrom LineState.sound_start) ?_ 1
  rintro ⟨state, line⟩ ⟨state', line'⟩ number ⟨rfl, hsame⟩
  cases hskipped : state'.skippable with
  | true => exact (hf number state' line hskipped).trans (hf number state' line' hskipped).symm
  | false =>
    obtain rfl : line' = line := hsame hskipped
    rfl

lemma SameCode.codeLines_eq (h : SameCode {} lines lines') (path : String) :
    (File.mk path lines).codeLines = (File.mk path lines').codeLines := by
  rw [File.codeLines, File.codeLines, filterMap_eq_flatMap_toList, filterMap_eq_flatMap_toList]
  refine h.flatMap_numberedStates fun number state line hskipped => ?_
  dsimp only
  rw [hskipped, Bool.true_or, if_pos rfl, Option.toList_none]

end Source

namespace Detector

open Source

variable {lines lines' : List (List Char)}

lemma Template.usesIn_eq (h : SameCode {} lines lines') (root path : String) :
    usesIn root ⟨path, lines⟩ = usesIn root ⟨path, lines'⟩ := by
  unfold usesIn
  rw [h.flatMap_numberedStates]
  intro number state line hskipped
  dsimp only
  rw [hskipped, Bool.true_or, if_pos rfl]

/-- Text inside heredocs and block comments does not show in what is found on lines of code. For
files that differ in such text only, and have no script tag where they differ, the findings are the
same, whatever the path, the versions, the ecosystems and the rules for widgets. -/
theorem findings_eq_of_sameCode (h : SameCode {} lines lines') (path : String)
    (target : Combination) (env : Surroundings) (changes : Platform.Changes) :
    Platform.detect changes target ⟨path, lines⟩ = Platform.detect changes target ⟨path, lines'⟩ ∧
      Language.detect target ⟨path, lines⟩ = Language.detect target ⟨path, lines'⟩ ∧
      Template.detectMethods env ⟨path, lines⟩ = Template.detectMethods env ⟨path, lines'⟩ ∧
      Template.detectObject env ⟨path, lines⟩ = Template.detectObject env ⟨path, lines'⟩ ∧
      Syntax.checkLines ⟨path, lines⟩ = Syntax.checkLines ⟨path, lines'⟩ := by
  have hcode := h.codeLines_eq path
  have huses := Template.usesIn_eq h env.root path
  refine ⟨?_, ?_, ?_, ?_, ?_⟩
  · rw [Platform.detect, Platform.detect, hcode]
  · rw [Language.detect, Language.detect, hcode]
  · rw [Template.detectMethods, Template.detectMethods, huses]
  · rw [Template.detectObject, Template.detectObject, huses]
  · rw [Syntax.checkLines, Syntax.checkLines, Syntax.codeLines, Syntax.codeLines, hcode]

def maskingLines (text note : String) : List (List Char) :=
  ["<<<EOT".toList, text.toList, "EOT;".toList, "/*".toList, note.toList, "*/".toList,
    "$this->render_meta(1);".toList]

lemma sameCode_maskingLines :
    SameCode {} (maskingLines "/* each(" "$this->a()") (maskingLines "$this->b EOT" "<<<NOTE") := by
  have hword : IsMarker "EOT".toList := ⟨by decide, all_eq_true.mp (by decide)⟩
  have hheredoc : LineState.update {} "<<<EOT".toList = { heredoc := some "EOT".toList } := by
    decide +kernel
  have htext : ∀ line ∈ ["/* each(".toList, "$this->b EOT".toList],
      LineState.Masks { heredoc := some "EOT".toList } line := by
    intro line hline
    have hbody : ∀ line ∈ ["/* each(".toList, "$this->b EOT".toList],
        hasScriptTag line = false ∧ ¬ endsHeredoc "EOT".toList line := by decide +kernel
    obtain ⟨htag, hends⟩ := hbody line hline
    exact ⟨htag, .inl ⟨_, rfl, mt (endsHeredoc_iff hword).mpr hends⟩⟩
  have hcomment : ((LineState.update { heredoc := some "EOT".toList } "/* each(".toList).update
      "EOT;".toList).update "/*".toList = { comment := true } := by decide +kernel
  have hnote : ∀ line ∈ ["$this->a()".toList, "<<<NOTE".toList],
      LineState.Masks { comment := true } line := by
    intro line hline
    have hbody : ∀ line ∈ ["$this->a()".toList, "<<<NOTE".toList],
        hasScriptTag line = false ∧ ¬ ['*', '/'] <:+: line := by decide +kernel
    obtain ⟨htag, hopen⟩ := hbody line hline
    exact ⟨htag, .inr ⟨rfl, hopen⟩⟩
  refine .cons ?_
  rw [hheredoc]
  refine sameCode_cons_iff.mpr ⟨fun _ => ⟨htext _ (by simp), htext _ (by simp)⟩, ?_⟩
  refine .cons (.cons ?_)
  rw [hcomment]
  exact sameCode_cons_iff.mpr ⟨fun _ => ⟨hnote _ (by simp), hnote _ (by simp)⟩,
    .cons (.cons (sameCode_nil _))⟩

theorem findings_eq_maskingLines :
    SameCode {} (maskingLines "/* each(" "$this->a()") (maskingLines "$this->b EOT" "<<<NOTE") ∧
      (Template.detectObject {} ⟨"views/a.php", maskingLines "/* each(" "$this->a()"⟩).length = 1 ∧
      Template.detectObject {} ⟨"views/a.php", maskingLines "/* each(" "$this->a()"⟩ =
        Template.detectObject {} ⟨"views/a.php", maskingLines "$this->b EOT" "<<<NOTE"⟩ ∧
      Language.detect ⟨"8.1", "6.5"⟩ ⟨"views/a.php", maskingLines "/* each(" "$this->a()"⟩ =
        Language.detect ⟨"8.1", "6.5"⟩ ⟨"views/a.php", maskingLines "$this->b EOT" "<<<NOTE"⟩ := by
  obtain ⟨-, hlanguage, -, hobject, -⟩ :=
    findings_eq_of_sameCode sameCode_maskingLines "views/a.php" ⟨"8.1", "6.5"⟩ {} .builtin
  exact ⟨sameCode_maskingLines, by decide +kernel, hobject, hlanguage⟩

end Detector

end PluginAudit
