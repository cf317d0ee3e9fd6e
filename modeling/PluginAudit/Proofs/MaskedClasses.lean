import Mathlib.Data.List.Forall2
import PluginAudit.Proofs.MaskedLines
import PluginAudit.Proofs.UseStatements

/-!
Classes and lines that are no code. Main statement: files that differ only in such lines, which
belong to no import and look the same to the search for guards, have the same findings.
-/

open List

namespace PluginAudit.Detector

open Text (lineChars)
open Source

/-! ### Guards -/

namespace Guard

def isBrace (c : Char) : Bool := c == '\x7b' || c == '\x7d'

def parts (m : Match) : List (List Char) := [m.group 1, m.group 2, m.group 3]

/-- Two lines look the same to the search for guards: they have the same checks and braces, and both
start with a brace or neither does, and so with the words that leave a file. -/
structure SameSight (line line' : List Char) : Prop where
  checks :
    (check.findAll (stripComments line)).map parts = (check.findAll (stripComments line')).map parts
  braces : (clean line).filter isBrace = (clean line').filter isBrace
  starts : startsBlock (clean line) = startsBlock (clean line')
  leaves : leaving.test (clean line) = leaving.test (clean line')

variable {line line' : List Char} {lines lines' : List (List Char)} {depth : Int} {opened : Bool}

lemma SameSight.refl (line : List Char) : SameSight line line := ⟨rfl, rfl, rfl, rfl⟩

def depthAfter (depth : Int) (c : Char) : Int :=
  if c == '\x7b' then depth + 1 else if c == '\x7d' then depth - 1 else depth

lemma followBraces_cons (depth : Int) (opened : Bool) (c : Char) (line : List Char) :
    followBraces depth opened (c :: line) =
      if (opened || c == '\x7b') && depthAfter depth c == 0 then none
      else followBraces (depthAfter depth c) (opened || c == '\x7b') line := rfl

lemma depth_ne_zero_of_followBraces {depth' : Int} {opened' : Bool} (hdepth : opened → depth ≠ 0)
    (h : followBraces depth opened line = some (depth', opened')) : opened' → depth' ≠ 0 := by
  induction line generalizing depth opened with
  | nil =>
    cases h
    exact hdepth
  | cons c line ih =>
    rw [followBraces_cons] at h
    split at h
    · cases h
    · rename_i hopen
      refine ih (fun hopened hzero => hopen ?_) h
      simp [hopened, hzero]

lemma followBraces_filter (hdepth : opened → depth ≠ 0) (line : List Char) :
    followBraces depth opened (line.filter isBrace) = followBraces depth opened line := by
  induction line generalizing depth opened with
  | nil => rfl
  | cons c line ih =>
    by_cases hc : isBrace c
    · rw [filter_cons_of_pos hc, followBraces_cons, followBraces_cons]
      split
      · rfl
      · rename_i hopen
        refine ih fun hopened hzero => hopen ?_
        simp [hopened, hzero]
    · rw [filter_cons_of_neg hc, ih hdepth]
      simp only [isBrace, Bool.or_eq_true, not_or, Bool.not_eq_true] at hc
      rw [followBraces_cons, depthAfter, hc.1, hc.2, Bool.or_false, if_neg Bool.false_ne_true,
        if_neg Bool.false_ne_true, if_neg]
      simpa using hdepth

variable (h : List.Forall₂ SameSight lines lines')

include h

lemma blockEndFrom_congr (hdepth : opened → depth ≠ 0) (first : Bool) (index : Nat) :
    blockEndFrom depth opened first index lines = blockEndFrom depth opened first index lines' := by
  induction h generalizing depth opened first index with
  | nil => rfl
  | @cons line line' lines lines' hsame _ ih =>
    have hbraces :
        followBraces depth opened (clean line) = followBraces depth opened (clean line') := by
      rw [← followBraces_filter hdepth, hsame.braces, followBraces_filter hdepth]
    rw [blockEndFrom, blockEndFrom]
    simp only [hsame.starts, hbraces]
    cases hfollow : followBraces depth opened (clean line') with
    | none => rfl
    | some next =>
      obtain ⟨depth', opened'⟩ := next
      simp only [ih (depth_ne_zero_of_followBraces hdepth hfollow)]

lemma any_leaving_congr : (lines.any fun line => leaving.test (clean line)) = lines'.any fun line =>
      leaving.test (clean line) := by
  induction h with
  | nil => rfl
  | cons hsame _ ih => rw [any_cons, any_cons, ih, hsame.leaves]

lemma leavesEarly_congr (first last : Nat) :
    leavesEarly lines first last = leavesEarly lines' first last :=
  any_leaving_congr (forall₂_take _ (forall₂_drop first h))

lemma ofMatch_congr (index : Nat) {m m' : Match} (hparts : parts m = parts m') :
    ofMatch lines index m = ofMatch lines' index m' := by
  have hend : blockEnd? lines index = blockEnd? lines' index :=
    blockEndFrom_congr (forall₂_drop index h) (by simp) true index
  have hleaves := fun first last => leavesEarly_congr h first last
  simp only [parts, List.cons.injEq, and_true] at hparts
  simp only [ofMatch, hparts, hend, hleaves, h.length_eq]

lemma flatMap_ofMatch_congr (index : Nat) {found found' : List Match}
    (hfound : found.map parts = found'.map parts) :
    found.flatMap (ofMatch lines index) = found'.flatMap (ofMatch lines' index) := by
  induction found generalizing found' with
  | nil =>
    obtain rfl : found' = [] := by simpa using hfound.symm
    rfl
  | cons m found ih =>
    obtain _ | ⟨m', found'⟩ := found'
    · cases hfound
    obtain ⟨hparts, hrest⟩ := List.cons.inj hfound
    rw [flatMap_cons, flatMap_cons, ofMatch_congr h index hparts, ih hrest]

lemma all_congr : all lines = all lines' := by
  have hmatches : ofMatch lines = ofMatch lines' :=
    funext fun index => funext fun m => ofMatch_congr h index rfl
  rw [all, all, hmatches]
  refine flatMap_zipIdx_congr h (fun line line' index hsame => ?_) 0
  have hguards := flatMap_ofMatch_congr h index hsame.checks
  rwa [hmatches] at hguards

end Guard

/-! ### Findings -/

namespace ClassConflict

/-- Text inside heredocs and block comments does not show in what is found about classes, as long as
no line that differs is part of an import, and the search for guards sees the same checks, braces
and leaving words. This holds whatever the path, the symbols, the runtime and the ecosystems are. -/
theorem detect_eq_of_sameCode {text text' : List Char}
    (hcode : SameCode {} (lineChars text) (lineChars text'))
    (huses : SameUses (lineChars text) (lineChars text'))
    (hsight : List.Forall₂ Guard.SameSight (lineChars text) (lineChars text')) (env : Surroundings)
    (path : String) :
    detect env ⟨path, lineChars text⟩ = detect env ⟨path, lineChars text'⟩ := by
  have himports := huses.imports_eq hcode.length_eq.symm (fun _ => notMem_of_mem_lineChars)
    (fun _ => notMem_of_mem_lineChars) path
  rw [detect, detect, hcode.codeLines_eq path, Guard.all_congr hsight, ImportIndex.ofContent,
    himports, ← ImportIndex.ofContent]

def notedText (note : String) : List Char :=
  ("<?php\nuse A\\B;\n/*\n" ++ note ++ "\n*/\nnew Missing;").toList

def notedLines (note : String) : List (List Char) :=
  ["<?php".toList, "use A\\B;".toList, "/*".toList, note.toList, "*/".toList, "new Missing;".toList]

lemma sameCode_notedLines {note note' : String}
    (h : LineState.Masks { comment := true } note.toList)
    (h' : LineState.Masks { comment := true } note'.toList) :
    SameCode {} (notedLines note) (notedLines note') := by
  have hstates :
      ((LineState.update {} "<?php".toList).update "use A\\B;".toList).update "/*".toList =
      { comment := true } := by
    decide +kernel
  refine .cons (.cons (.cons ?_))
  rw [hstates]
  exact sameCode_cons_iff.mpr ⟨fun _ => ⟨h, h'⟩, .cons (.cons (sameCode_nil _))⟩

lemma masks_notes : ∀ note ∈ ["(newer)", "(older)", "use A\\Missing;"],
    LineState.Masks { comment := true } note.toList := by
  intro note hnote
  have hall : ∀ note ∈ ["(newer)", "(older)", "use A\\Missing;"],
      hasScriptTag note.toList = false ∧ ¬ ['*', '/'] <:+: note.toList := by decide +kernel
  exact ⟨(hall note hnote).1, .inr ⟨rfl, (hall note hnote).2⟩⟩

lemma lineChars_notedText : ∀ note ∈ ["(newer)", "(older)", "use A\\Missing;"],
    lineChars (notedText note) = notedLines note := by
  decide +kernel

lemma lines_detect_notedText :
    (detect {} ⟨"a.php", lineChars (notedText "(newer)")⟩).map (·.line) = [6] := by
  decide +kernel

theorem detect_eq_notedText :
    (detect {} ⟨"a.php", lineChars (notedText "(newer)")⟩).map (·.line) = [6] ∧
      detect {} ⟨"a.php", lineChars (notedText "(newer)")⟩ =
        detect {} ⟨"a.php", lineChars (notedText "(older)")⟩ := by
  have hlines := lineChars_notedText "(newer)" (by simp)
  have hlines' := lineChars_notedText "(older)" (by simp)
  refine ⟨lines_detect_notedText, detect_eq_of_sameCode ?_ ?_ ?_ {} "a.php"⟩
  · rw [hlines, hlines']
    exact sameCode_notedLines (masks_notes _ (by simp)) (masks_notes _ (by simp))
  · rw [hlines, hlines']
    intro k hne
    have hk : k < 6 := by
      by_contra hle
      exact hne (by rw [getElem?_eq_none, getElem?_eq_none] <;> simp [notedLines] <;> omega)
    have hall : ∀ k < 6, (notedLines "(newer)")[k]? ≠ (notedLines "(older)")[k]? →
        ¬ InUse (notedLines "(newer)") k ∧ ¬ InUse (notedLines "(older)") k := by decide +kernel
    exact hall k hk hne
  · rw [hlines, hlines']
    have hnotes : Guard.SameSight "(newer)".toList "(older)".toList :=
      ⟨by decide +kernel, by decide +kernel, by decide +kernel, by decide +kernel⟩
    exact .cons (.refl _)
      (.cons (.refl _) (.cons (.refl _) (.cons hnotes (.cons (.refl _) (.cons (.refl _) .nil)))))

/-- An import that stands in a comment hides the use of a missing class. -/
theorem exists_hidden_by_comment :
    ¬ ∀ text text' : List Char, SameCode {} (lineChars text) (lineChars text') →
      ∀ (env : Surroundings) (path : String),
        detect env ⟨path, lineChars text⟩ = detect env ⟨path, lineChars text'⟩ := by
  intro h
  have hcode :
      SameCode {} (lineChars (notedText "(newer)")) (lineChars (notedText "use A\\Missing;")) := by
    rw [lineChars_notedText _ (by simp), lineChars_notedText _ (by simp)]
    exact sameCode_notedLines (masks_notes _ (by simp)) (masks_notes _ (by simp))
  have hhidden : detect {} ⟨"a.php", lineChars (notedText "use A\\Missing;")⟩ = [] := by
    decide +kernel
  have hlines := lines_detect_notedText
  rw [h _ _ hcode {} "a.php", hhidden] at hlines
  cases hlines

end ClassConflict

end PluginAudit.Detector
