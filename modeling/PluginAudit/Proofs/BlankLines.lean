import Mathlib.Data.List.InsertIdx
import PluginAudit.Detector.Language
import PluginAudit.Detector.Platform
import PluginAudit.Detector.Syntax
import PluginAudit.Proofs.DeclaredSymbols
import PluginAudit.Proofs.LineStates
import PluginAudit.Proofs.TemplateUses

/-!
Empty lines. Nothing is found on one, and it is the same in every state. Main statement: an empty
line more moves what is found in a file, and changes nothing else.
-/

open List

namespace PluginAudit

/-! ### Putting in an empty line -/

/-- A text with an empty line before its line `k`, counted from zero, or after all its lines. -/
def Text.insertBlank (k : Nat) (s : List Char) : List Char :=
  ['\n'].intercalate ((splitOnChar '\n' s).insertIdx k [])

lemma Text.lineChars_insertBlank (k : Nat) (s : List Char) :
    lineChars (insertBlank k s) = (lineChars s).insertIdx k [] := by
  have hne : (splitOnChar '\n' s).insertIdx k [] ≠ [] := by
    intro hnil
    have hle := length_le_length_insertIdx (l := splitOnChar '\n' s) (x := []) (i := k)
    rw [hnil, length_nil, Nat.le_zero, length_eq_zero_iff] at hle
    exact splitOnChar_ne_nil '\n' s hle
  have hparts : ∀ part ∈ (splitOnChar '\n' s).insertIdx k [], '\n' ∉ part := by
    intro part hpart
    rcases eq_or_mem_of_mem_insertIdx hpart with rfl | hpart
    · exact not_mem_nil
    · exact (mem_splitOnChar hpart).1
  rw [lineChars, insertBlank, splitOnChar_intercalate hne hparts, map_insertIdx]
  rfl

/-- The number of a line, counted from one, once an empty line stands before line `k`, counted from
zero. -/
def movedLine (k n : Nat) : Nat := if n ≤ k then n else n + 1

namespace Finding

def onLine (x : Finding) (n : Nat) : Finding := { x with line := n }

def moved (k : Nat) (x : Finding) : Finding :=
  { x with line := if x.line ≤ k then x.line else x.line + 1 }

@[simp] lemma fingerprint_moved (k : Nat) (x : Finding) (root : String) :
    (x.moved k).fingerprint root = x.fingerprint root := rfl

@[simp] lemma moved_onLine (k n : Nat) (x : Finding) :
    (x.onLine n).moved k = x.onLine (movedLine k n) := by
  have hline : (if (n : Int) ≤ k then (n : Int) else n + 1) = (movedLine k n : Nat) := by
    unfold movedLine
    split_ifs <;> omega
  exact congrArg (fun line : Int => { x with line := line }) hline

lemma map_moved_of_onLine (made : Nat → List Finding) (h : ∀ n, made n = (made 0).map (·.onLine n))
    (k n : Nat) : made (movedLine k n) = (made n).map (·.moved k) := by
  rw [h n, h (movedLine k n), map_map]
  exact map_congr_left fun x _ => (moved_onLine k n x).symm

end Finding

namespace Source

variable {lines : List (List Char)}

/-! ### States -/

lemma LineState.Sound.update_nil {s : LineState} (h : s.Sound) : s.update [] = s := by
  have htag : hasScriptTag [] = false := by decide
  cases hheredoc : s.heredoc with
  | some marker =>
    have hmarker := h.isMarker marker hheredoc
    refine update_heredocLine hheredoc hmarker ?_ htag
    rintro ⟨before, gap, after, mark, -, hline, -⟩
    have hnil : marker = [] := by simp_all
    exact hmarker.ne_nil hnil
  | none =>
    cases hcomment : s.comment with
    | true => exact update_commentLine hcomment hheredoc (by simp) htag
    | false =>
      obtain ⟨comment, heredoc, script⟩ := s
      cases hheredoc
      cases hcomment
      exact updateScript_of_noTag htag _

@[simp] lemma stripComments_nil : stripComments [] = [] := by
  simp [stripComments, dropBlocks, dropLineComment]

@[simp] lemma clean_nil : clean [] = [] := by
  rw [clean, stripStrings, emptyLiterals, emptyLiterals, stripComments_nil]

/-- A scan that finds nothing on an empty line does not see it, but for the numbers of the lines
after it. -/
lemma flatMap_statesFrom_insertIdx {α : Type} {f : (LineState × List Char) × Nat → List α}
    (hf : ∀ s n, f ((s, []), n) = []) {s : LineState} (hs : s.Sound) {k : Nat}
    (hk : k ≤ lines.length) (number : Nat) :
    ((statesFrom s (lines.insertIdx k [])).zipIdx number).flatMap f =
      ((statesFrom s lines).zipIdx number).flatMap fun entry =>
        f (entry.1, if entry.2 < number + k then entry.2 else entry.2 + 1) := by
  induction k generalizing s lines number with
  | zero =>
    rw [insertIdx_zero, statesFrom, hs.update_nil, zipIdx_cons, flatMap_cons, hf, nil_append,
      zipIdx_succ, flatMap_map]
    refine flatMap_congr fun entry hentry => ?_
    have hle : number ≤ entry.2 := le_snd_of_mem_zipIdx hentry
    rw [Nat.add_zero, if_neg (Nat.not_lt.mpr hle)]
  | succ k ih =>
    cases lines with
    | nil => simp at hk
    | cons line lines =>
      rw [length_cons, Nat.add_le_add_iff_right] at hk
      rw [insertIdx_succ_cons, statesFrom, statesFrom, zipIdx_cons, zipIdx_cons, flatMap_cons,
        flatMap_cons, ih (hs.update line) hk (number + 1), if_pos (by dsimp only; omega),
        Nat.add_assoc number 1 k, Nat.add_comm 1 k]

lemma flatMap_numberedStates_insertIdx {α : Type} {f : Nat × LineState × List Char → List α}
    (hf : ∀ n s, f (n, s, []) = []) {k : Nat} (hk : k ≤ lines.length) :
    (numberedStates (lines.insertIdx k [])).flatMap f =
      (numberedStates lines).flatMap fun l => f (movedLine k l.1, l.2) := by
  rw [numberedStates, numberedStates, flatMap_map, flatMap_map,
    flatMap_statesFrom_insertIdx (fun s n => hf n s) LineState.sound_start hk]
  refine flatMap_congr fun entry _ => ?_
  have hnumber : (if entry.2 < 1 + k then entry.2 else entry.2 + 1) = movedLine k entry.2 := by
    unfold movedLine
    split_ifs <;> omega
  dsimp only
  rw [hnumber]

end Source

namespace Detector

open Source

variable {lines : List (List Char)} {k : Nat}

/-! ### Detectors that judge each line for itself -/

/-- The findings of a scan that finds nothing on an empty line, and puts what it finds on the line
that it reads. -/
lemma flatMap_insertIdx_eq_map_moved (found : Nat → LineState → List Char → List Finding)
    (hblank : ∀ n s, found n s [] = [])
    (hline : ∀ n s line, found n s line = (found 0 s line).map (·.onLine n))
    (hk : k ≤ lines.length) :
    ((numberedStates (lines.insertIdx k [])).flatMap fun l => found l.1 l.2.1 l.2.2) =
      ((numberedStates lines).flatMap fun l => found l.1 l.2.1 l.2.2).map (·.moved k) := by
  rw [flatMap_numberedStates_insertIdx (fun n s => hblank n s) hk, map_flatMap]
  exact flatMap_congr fun l _ =>
    Finding.map_moved_of_onLine (fun n => found n l.2.1 l.2.2) (fun n => hline n l.2.1 l.2.2) k l.1

lemma flatMap_codeLines_insertIdx (found : Nat → List Char → List Finding)
    (hblank : ∀ n, found n [] = [])
    (hline : ∀ n line, found n line = (found 0 line).map (·.onLine n)) (path : String)
    (hk : k ≤ lines.length) :
    ((File.mk path (lines.insertIdx k [])).codeLines.flatMap fun l => found l.1 l.2) =
      ((File.mk path lines).codeLines.flatMap fun l => found l.1 l.2).map (·.moved k) := by
  have hscan : ∀ file : File, (file.codeLines.flatMap fun l => found l.1 l.2) =
      (numberedStates file.lines).flatMap fun l =>
        if l.2.1.skippable || l.2.1.script then [] else found l.1 l.2.2 := by
    intro file
    rw [File.codeLines, filterMap_eq_flatMap_toList, flatMap_assoc]
    refine flatMap_congr fun l _ => ?_
    dsimp only
    split <;> simp
  rw [hscan, hscan]
  refine flatMap_insertIdx_eq_map_moved (fun n s line =>
    if s.skippable || s.script then [] else found n line) ?_ ?_ hk
  · intro n s
    simp [hblank]
  · intro n s line
    split
    · rfl
    · exact hline n line

namespace Platform

@[simp] lemma hasGlobalCall_nil (name : String) : hasGlobalCall [] (callOf name) = false := rfl

lemma changedFinding?_onLine (changes : Changes) (name path : String) (n : Nat) (version : String) :
    changedFinding? changes name path n version =
      (changedFinding? changes name path 0 version).map (·.onLine n) := by
  unfold changedFinding?
  split
  · rfl
  · rw [Option.map_map]
    rfl

@[simp] lemma lineFindings_nil (changes : Changes) (version path : String) (n : Nat) :
    lineFindings changes version path n [] = [] := by
  have hhook : ∀ name, (quotedHook name).test [] = false := fun name => rfl
  simp [lineFindings, hhook]

lemma lineFindings_onLine (changes : Changes) (version path : String) (n : Nat) (line : List Char) :
    lineFindings changes version path n line =
      (lineFindings changes version path 0 line).map (·.onLine n) := by
  simp only [lineFindings, map_append, map_filterMap]
  refine congrArg₂ _ (congrArg₂ _ ?_ ?_) ?_
  · refine filterMap_congr fun name _ => ?_
    split
    · exact changedFinding?_onLine changes name path n version
    · rfl
  · refine filterMap_congr fun entry _ => ?_
    split <;> rfl
  · refine filterMap_congr fun entry _ => ?_
    split <;> rfl

lemma detect_insertIdx (changes : Changes) (target : Combination)
    (path : String) (hk : k ≤ lines.length) : detect changes target ⟨path, lines.insertIdx k []⟩ =
      (detect changes target ⟨path, lines⟩).map (·.moved k) :=
  flatMap_codeLines_insertIdx (lineFindings changes target.wp path)
    (lineFindings_nil changes target.wp path) (lineFindings_onLine changes target.wp path) path hk

end Platform

namespace Language

lemma lineFindings_onLine (version path : String) (n : Nat) (line : List Char) :
    lineFindings version path n line = (lineFindings version path 0 line).map (·.onLine n) := by
  simp only [lineFindings, map_append, map_map]
  rfl

lemma detect_insertIdx (target : Combination) (path : String) (hk : k ≤ lines.length) :
    detect target ⟨path, lines.insertIdx k []⟩ = (detect target ⟨path, lines⟩).map (·.moved k) := by
  refine flatMap_codeLines_insertIdx (fun n line =>
    if isScript line || (clean line).isEmpty then [] else
      lineFindings target.php path n (clean line)) ?_ ?_ path hk
  · intro n
    simp
  · intro n line
    split
    · rfl
    · exact lineFindings_onLine target.php path n (clean line)

end Language

namespace Template

@[simp] lemma uses_nil : uses [] = [] := by decide

lemma screened_insertIdx (candidate? : Candidate) (hline : ∀ path widget n line use,
      candidate? path widget n line use = (candidate? path widget 0 line use).map (·.onLine n))
    (env : Surroundings) (path : String) (hk : k ≤ lines.length) : screened candidate? env ⟨path,
      lines.insertIdx k []⟩ = (screened candidate? env ⟨path, lines⟩).map (·.moved k) := by
  unfold screened usesIn
  dsimp only
  split
  · rw [filterMap_flatMap, filterMap_flatMap]
    refine flatMap_insertIdx_eq_map_moved (fun n s line =>
      (if s.skippable || isCommentLine line then [] else (uses (clean line)).map fun use =>
        (n, line, use)).filterMap
        fun u => (candidate? path (widgetOf (relativeTo env.root path)) u.1 u.2.1 u.2.2).bind
          (screen env (widgetOf (relativeTo env.root path)) u.2.2.name)) ?_ ?_ hk
    · intro n s
      simp
    · intro n s line
      split
      · rfl
      · rw [filterMap_map, filterMap_map, map_filterMap]
        refine filterMap_congr fun use _ => ?_
        dsimp only [Function.comp_apply]
        rw [hline]
        exact bind_screen_map (g := (·.onLine n)) (fun _ => rfl) (fun _ _ _ => rfl) ..
  · rfl

end Template

/-! ### Heuristics, which look at neighbouring lines -/

namespace Syntax

def CodeLine.moved (k : Nat) (line : CodeLine) : CodeLine :=
  { line with number := movedLine k line.number }

lemma codeLines_insertIdx (path : String) (hk : k ≤ lines.length) :
    codeLines ⟨path, lines.insertIdx k []⟩ = (codeLines ⟨path, lines⟩).map (·.moved k) := by
  have hscan : ∀ file : File, codeLines file = (numberedStates file.lines).flatMap fun l =>
      if l.2.1.skippable || l.2.1.script || isCommentLine l.2.2 ||
        (Text.trimChars (clean l.2.2)).isEmpty then []
      else [⟨l.1, Text.trimChars l.2.2, Text.trimChars (clean l.2.2)⟩] := by
    intro file
    rw [codeLines, File.codeLines, filterMap_filterMap, filterMap_eq_flatMap_toList]
    refine flatMap_congr fun l _ => ?_
    dsimp only
    by_cases hskip : (l.2.1.skippable || l.2.1.script)
    · simp [hskip]
    · by_cases hcomment : isCommentLine l.2.2
      · simp [hcomment, hskip]
      · by_cases hempty : Text.trimChars (clean l.2.2) = [] <;> simp [hskip, hcomment, hempty]
  rw [hscan, hscan, flatMap_numberedStates_insertIdx ?_ hk, map_flatMap]
  · refine flatMap_congr fun l _ => ?_
    split <;> rfl
  · intro n s
    have htrim : (Text.trimChars []).isEmpty := rfl
    simp [htrim]

lemma lineFindings_onLine (path : String) (continued : Bool) (line : CodeLine) (next : List Char)
    (n : Nat) : lineFindings path continued { line with number := n } next =
      (lineFindings path continued { line with number := 0 } next).map (·.onLine n) := by
  have hsemicolon : ∀ m, lacksSemicolon { line with number := m } next = lacksSemicolon line next :=
    fun m => rfl
  have hbracket : ∀ m, lacksBracket { line with number := m } = lacksBracket line := fun m => rfl
  unfold lineFindings
  simp only [hsemicolon, hbracket]
  split
  · rfl
  · rw [map_append]
    refine congrArg₂ _ ?_ ?_ <;> split <;> rfl

lemma heuristics_moved (path : String) (continued : Bool) (code : List CodeLine) : heuristics path
      continued (code.map (·.moved k)) = (heuristics path continued code).map (·.moved k) := by
  induction code generalizing continued with
  | nil => rfl
  | cons line code ih =>
    have hnext : (code.map (·.moved k)).head?.map (·.cleaned) = code.head?.map (·.cleaned) := by
      cases code <;> rfl
    rw [map_cons, heuristics, heuristics, hnext, map_append]
    refine congrArg₂ _ ?_ (ih (continues line.cleaned))
    exact Finding.map_moved_of_onLine _ (lineFindings_onLine path continued line _) k line.number

lemma checkLines_insertIdx (path : String) (hk : k ≤ lines.length) :
    checkLines ⟨path, lines.insertIdx k []⟩ = (checkLines ⟨path, lines⟩).map (·.moved k) := by
  rw [checkLines, checkLines, codeLines_insertIdx path hk, heuristics_moved]

end Syntax

/-! ### Findings -/

/-- What is found once an empty line stands before line `k`, counted from zero: the same in the same
order, from there on one line further down, with the same fingerprints. -/
structure MovedBy (k : Nat) (found found' : List Finding) : Prop where
  moved : found' = found.map (·.moved k)
  fingerprints : ∀ root, found'.map (·.fingerprint root) = found.map (·.fingerprint root)

lemma movedBy_of_eq {found found' : List Finding} (h : found' = found.map (·.moved k)) :
    MovedBy k found found' := by
  refine ⟨h, fun root => ?_⟩
  rw [h, map_map]
  exact map_congr_left fun x _ => Finding.fingerprint_moved k x root

/-- An empty line, wherever it is put into a text, only moves what is found further down. This holds
of the detectors for the platform, the language and templates and of the heuristics for syntax,
whatever the path, the versions, the changes in the platform, the ecosystems and the rules for
widgets. -/
theorem findings_insertBlank (path : String) (content : List Char)
    (k : Fin ((Text.lineChars content).length + 1)) (target : Combination) (env : Surroundings)
    (changes : Platform.Changes) :
    MovedBy k (Platform.detect changes target ⟨path, Text.lineChars content⟩)
        (Platform.detect changes target ⟨path, Text.lineChars (Text.insertBlank k content)⟩) ∧
      MovedBy k (Language.detect target ⟨path, Text.lineChars content⟩)
        (Language.detect target ⟨path, Text.lineChars (Text.insertBlank k content)⟩) ∧
      MovedBy k (Template.detectMethods env ⟨path, Text.lineChars content⟩)
        (Template.detectMethods env ⟨path, Text.lineChars (Text.insertBlank k content)⟩) ∧
      MovedBy k (Template.detectObject env ⟨path, Text.lineChars content⟩)
        (Template.detectObject env ⟨path, Text.lineChars (Text.insertBlank k content)⟩) ∧
      MovedBy k (Syntax.checkLines ⟨path, Text.lineChars content⟩)
        (Syntax.checkLines ⟨path, Text.lineChars (Text.insertBlank k content)⟩) := by
  have hk : k.val ≤ (Text.lineChars content).length := Nat.le_of_lt_succ k.isLt
  rw [Text.lineChars_insertBlank]
  simp only [Template.detectMethods_eq_screened, Template.detectObject_eq_screened]
  refine ⟨movedBy_of_eq (Platform.detect_insertIdx changes target path hk),
    movedBy_of_eq (Language.detect_insertIdx target path hk),
    movedBy_of_eq (Template.screened_insertIdx Template.methodCandidate? (fun _ _ _ _ =>
      Template.methodCandidate?_eq_map fun _ risk => ?_) env path hk),
    movedBy_of_eq (Template.screened_insertIdx Template.objectCandidate? (fun _ _ _ _ =>
      Template.objectCandidate?_eq_map (fun _ _ => rfl) fun _ => rfl) env path hk),
    movedBy_of_eq (Syntax.checkLines_insertIdx path hk)⟩
  cases risk <;> rfl

end Detector

end PluginAudit
