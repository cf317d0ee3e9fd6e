import Mathlib.Data.List.Nodup
import PluginAudit.Proofs.Names

/-!
The state of a scan that reads a file line by line. Main statement: comments and heredocs exclude
each other, and a heredoc is opaque: its lines are skipped, and its end brings back the state from
before it.
-/

open List

namespace PluginAudit.Source

open Text

/-! ### Characters -/

lemma isSpace_of_isCodeSpace {c : Char} (h : isCodeSpace c) : isSpace c := by
  rw [isCodeSpace, CharSet.space, mem_iff_ranges] at h
  rw [isSpace_iff, spaceCodes]
  simp at h ⊢
  omega

lemma isCodeSpace_of_isMarkerChar {c : Char} (h : isMarkerChar c) : isCodeSpace c = false := by
  rw [Bool.eq_false_iff]
  intro hspace
  have hnot : isSpace c = false := (wordChar_mem_spec h).1
  rw [isSpace_of_isCodeSpace hspace] at hnot
  cases hnot

/-! ### Lines that open a heredoc -/

/-- The marker of a heredoc is a word. -/
structure IsMarker (marker : List Char) : Prop where
  ne_nil : marker ≠ []
  word : ∀ c ∈ marker, isMarkerChar c = true

def markerQuotes : List (List Char) := [[], ['"'], ['\'']]

/-- A marker, bare or between quotes, with nothing but white space around it. -/
def HoldsMarker (marker s : List Char) : Prop :=
  IsMarker marker ∧ ∃ gap, ∃ quote ∈ markerQuotes, ∃ after,
    s = gap ++ (quote ++ (marker ++ (quote ++ after))) ∧
      (∀ c ∈ gap, isCodeSpace c = true) ∧ ∀ c ∈ after, isCodeSpace c = true

/-- A line opens a heredoc if it ends with three angle brackets and the marker. -/
def OpensHeredoc (marker line : List Char) : Prop :=
  ∃ before s, line = before ++ ('<' :: '<' :: '<' :: s) ∧ HoldsMarker marker s

lemma OpensHeredoc.isMarker {marker line : List Char} (h : OpensHeredoc marker line) :
    IsMarker marker := by
  obtain ⟨_, _, -, hmarker, -⟩ := h
  exact hmarker

lemma IsMarker.head {marker : List Char} (h : IsMarker marker) (rest : List Char) :
    ∀ c ∈ (marker ++ rest).head?, isMarkerChar c := by
  cases marker with
  | nil => exact absurd rfl h.ne_nil
  | cons first marker =>
    rintro c ⟨⟩
    exact h.word first mem_cons_self

lemma closedMarker?_eq_some_iff {close s marker : List Char}
    (hclose : ∀ c ∈ close.head?, isMarkerChar c = false) : closedMarker? close s = some marker ↔
      IsMarker marker ∧ ∃ after, s = marker ++ (close ++ after) ∧ ∀ c ∈ after, isCodeSpace c := by
  unfold closedMarker?
  constructor
  · intro h
    dsimp only at h
    split_ifs at h with hnone hspace
    cases h
    rw [Bool.or_eq_true, not_or, List.isEmpty_iff, Bool.not_eq_true', Bool.not_eq_false,
      isPrefixOf_iff_prefix] at hnone
    obtain ⟨hne, after, hafter⟩ := hnone
    rw [← hafter, drop_left, all_eq_true] at hspace
    refine ⟨⟨hne, fun c hc => mem_takeWhile_imp hc⟩, after, ?_, hspace⟩
    rw [hafter, takeWhile_append_dropWhile]
  · rintro ⟨hmarker, after, rfl, hafter⟩
    have hhead : ∀ c ∈ (close ++ after).head?, isMarkerChar c = false := by
      intro c hc
      rw [head?_append] at hc
      cases hclosed : close.head? with
      | some d =>
        rw [hclosed] at hc hclose
        cases hc
        exact hclose c rfl
      | none =>
        rw [hclosed, Option.none_or] at hc
        rw [Bool.eq_false_iff]
        intro hword
        have hspace := hafter c (mem_of_head? hc)
        rw [isCodeSpace_of_isMarkerChar hword] at hspace
        cases hspace
    obtain ⟨htake, hdrop⟩ := takeWhile_of_head hhead
    rw [takeWhile_append_of_pos hmarker.word, dropWhile_append_of_pos hmarker.word, htake, hdrop,
      append_nil]
    have hstart : close.isPrefixOf (close ++ after) :=
      isPrefixOf_iff_prefix.mpr (prefix_append close after)
    dsimp only
    rw [hstart, drop_left, all_eq_true.mpr hafter]
    simp [hmarker.ne_nil]

lemma markerAfter?_eq_some_iff {s marker : List Char} :
    markerAfter? s = some marker ↔ HoldsMarker marker s := by
  have hquote : ∀ c ∈ ['"'].head?, isMarkerChar c = false := by
    rintro c ⟨⟩
    decide
  have hquote' : ∀ c ∈ ['\''].head?, isMarkerChar c = false := by
    rintro c ⟨⟩
    decide
  have hbare : ∀ c ∈ ([] : List Char).head?, isMarkerChar c = false := by simp
  constructor
  · intro h
    have hsplit := (takeWhile_append_dropWhile (p := isCodeSpace) (l := s)).symm
    have hgap : ∀ c ∈ s.takeWhile isCodeSpace, isCodeSpace c := fun c hc => mem_takeWhile_imp hc
    unfold markerAfter? at h
    split at h
    · rename_i rest hrest
      obtain ⟨hmarker, after, rfl, hafter⟩ := (closedMarker?_eq_some_iff hquote).mp h
      rw [hrest] at hsplit
      exact ⟨hmarker, _, ['"'], by simp [markerQuotes], after, hsplit, hgap, hafter⟩
    · rename_i rest hrest
      obtain ⟨hmarker, after, rfl, hafter⟩ := (closedMarker?_eq_some_iff hquote').mp h
      rw [hrest] at hsplit
      exact ⟨hmarker, _, ['\''], by simp [markerQuotes], after, hsplit, hgap, hafter⟩
    · obtain ⟨hmarker, after, hrest, hafter⟩ := (closedMarker?_eq_some_iff hbare).mp h
      rw [hrest] at hsplit
      exact ⟨hmarker, _, [], by simp [markerQuotes], after, hsplit, hgap, hafter⟩
  · rintro ⟨hmarker, gap, quote, hmem, after, rfl, hgap, hafter⟩
    have hstart : ∀ c ∈ (quote ++ (marker ++ (quote ++ after))).head?, isCodeSpace c = false := by
      simp only [markerQuotes, mem_cons, not_mem_nil, or_false] at hmem
      rcases hmem with rfl | rfl | rfl
      · exact fun c hc => isCodeSpace_of_isMarkerChar (hmarker.head _ c hc)
      · rintro c ⟨⟩
        decide
      · rintro c ⟨⟩
        decide
    rw [markerAfter?, dropWhile_append_of_pos hgap, (takeWhile_of_head hstart).2]
    simp only [markerQuotes, mem_cons, not_mem_nil, or_false] at hmem
    rcases hmem with rfl | rfl | rfl
    · have hfirst := hmarker.head ([] ++ after)
      rw [nil_append]
      split
      · rename_i heq
        rw [heq] at hfirst
        exact absurd (hfirst _ rfl) (by decide)
      · rename_i heq
        rw [heq] at hfirst
        exact absurd (hfirst _ rfl) (by decide)
      · exact (closedMarker?_eq_some_iff hbare).mpr ⟨hmarker, after, rfl, hafter⟩
    · exact (closedMarker?_eq_some_iff hquote).mpr ⟨hmarker, after, rfl, hafter⟩
    · exact (closedMarker?_eq_some_iff hquote').mpr ⟨hmarker, after, rfl, hafter⟩

lemma HoldsMarker.notMem {marker s : List Char} (h : HoldsMarker marker s) : '<' ∉ s := by
  obtain ⟨hmarker, gap, quote, hquote, after, rfl, hgap, hafter⟩ := h
  have hspace : isCodeSpace '<' ≠ true := by decide
  have hword : isMarkerChar '<' ≠ true := by decide
  have hmark : ∀ q ∈ markerQuotes, '<' ∉ q := by decide
  simp only [mem_append, not_or]
  exact ⟨fun hc => hspace (hgap _ hc), hmark quote hquote, fun hc => hword (hmarker.word _ hc),
    hmark quote hquote, fun hc => hspace (hafter _ hc)⟩

lemma heredocMarker?_eq_some_iff {line marker : List Char} :
    heredocMarker? line = some marker ↔ OpensHeredoc marker line := by
  constructor
  · intro h
    induction line with
    | nil => cases h
    | cons c rest ih =>
      rw [heredocMarker?] at h
      split at h
      · rename_i found hfound
        cases h
        split_ifs at hfound with hopen
        obtain ⟨s, hs⟩ := isPrefixOf_iff_prefix.mp hopen
        obtain ⟨rfl, rfl⟩ := List.cons.inj hs
        exact ⟨[], s, rfl, markerAfter?_eq_some_iff.mp hfound⟩
      · obtain ⟨before, s, rfl, hs⟩ := ih h
        exact ⟨c :: before, s, rfl, hs⟩
  · rintro ⟨before, s, rfl, hs⟩
    induction before with
    | nil =>
      have hfound := markerAfter?_eq_some_iff.mpr hs
      rw [nil_append, heredocMarker?]
      simp [isPrefixOf, hfound]
    | cons c before ih =>
      rw [cons_append, heredocMarker?, ih]
      split
      · -- brackets before the last ones are followed by a bracket
        rename_i found hfound
        split_ifs at hfound with hopen
        have hnot := (markerAfter?_eq_some_iff.mp hfound).notMem
        exfalso
        apply hnot
        rw [show ('<' :: '<' :: '<' :: s) = ['<', '<'] ++ ('<' :: s) from rfl, ← append_assoc,
          drop_append_of_le_length (by simp)]
        simp
      · rfl

/-! ### Lines that end a heredoc -/

/-- A line ends a heredoc if it is the marker, possibly with a semicolon after it, and white
space. -/
def ClosesHeredoc (marker line : List Char) : Prop :=
  ∃ before gap after, ∃ mark ∈ [[], [';']], line = before ++ (marker ++ (gap ++ (mark ++ after))) ∧
    (∀ c ∈ before, isSpace c = true) ∧ (∀ c ∈ gap, isSpace c = true) ∧ ∀ c ∈ after, isSpace c = true

lemma IsMarker.trimmed {marker : List Char} (h : IsMarker marker) : Trimmed marker :=
  trimmed_of_forall fun c hc => (wordChar_mem_spec (h.word c hc)).1

lemma IsMarker.notMem {marker : List Char} (h : IsMarker marker) {c : Char}
    (hc : isMarkerChar c = false) : c ∉ marker := by
  intro hmem
  rw [h.word c hmem] at hc
  cases hc

lemma endsHeredoc_iff {marker line : List Char} (h : IsMarker marker) :
    endsHeredoc marker line ↔ ClosesHeredoc marker line := by
  have hbare : trimChars marker = marker := trimChars_of_trimmed h.trimmed
  have hlast : marker.getLast? ≠ some ';' := fun hlast =>
    h.notMem (by decide) (mem_of_getLast? hlast)
  unfold endsHeredoc
  dsimp only
  rw [beq_iff_eq]
  constructor
  · intro hend
    obtain ⟨before, after, hline, hbefore, hafter⟩ := exists_eq_append_trimChars line
    split_ifs at hend with hmark
    · -- white space between the marker and the semicolon belongs to neither
      obtain ⟨more, gap, hrest, hmore, hgap⟩ := exists_eq_append_trimChars (trimChars line).dropLast
      rw [hend] at hrest
      have htrimmed : trimChars line = more ++ (marker ++ gap) ++ [';'] := by
        obtain ⟨init, hinit⟩ := getLast?_eq_some_iff.mp hmark
        rw [hinit, dropLast_concat] at hrest
        rw [hinit, hrest]
      refine ⟨before ++ more, gap, after, [';'], by simp, ?_, ?_, hgap, hafter⟩
      · rw [hline, htrimmed]
        simp
      · exact forall_mem_append.mpr ⟨hbefore, hmore⟩
    · rw [trimChars_of_trimmed (trimmed_trimChars line)] at hend
      rw [hend] at hline
      exact ⟨before, [], after, [], by simp, hline, hbefore, by simp, hafter⟩
  · rintro ⟨before, gap, after, mark, hmark, rfl, hbefore, hgap, hafter⟩
    simp only [mem_cons, not_mem_nil, or_false] at hmark
    rcases hmark with rfl | rfl
    · have hspace : ∀ c ∈ gap ++ ([] ++ after), isSpace c :=
        forall_mem_append.mpr ⟨hgap, hafter⟩
      rw [trimChars_append h.trimmed h.ne_nil hbefore hspace, if_neg hlast, hbare]
    · have htrimmed : Trimmed (marker ++ (gap ++ [';'])) := by
        refine ⟨fun c hc => ?_, fun c hc => ?_⟩
        · rw [head?_append_of_ne_nil _ h.ne_nil] at hc
          exact h.trimmed.head c hc
        · rw [← append_assoc, getLast?_concat] at hc
          cases hc
          decide
      have hall : trimChars (before ++ (marker ++ (gap ++ ([';'] ++ after)))) =
          marker ++ (gap ++ [';']) := by
        have htrim := trimChars_append htrimmed (by simp) hbefore hafter
        simpa using htrim
      rw [hall, ← append_assoc, getLast?_concat, if_pos rfl, dropLast_concat]
      have hrest := trimChars_append h.trimmed h.ne_nil (forall_mem_nil _) hgap
      rwa [nil_append] at hrest

/-! ### Steps -/

def hasScriptTag (line : List Char) : Bool := scriptOpening.test line || scriptClosing.test line

def LineState.marker (s : LineState) : List Char := s.heredoc.getD []

namespace LineState

variable {s : LineState} {line marker : List Char}

lemma skippable_eq_false_iff : s.skippable = false ↔ s.comment = false ∧ s.heredoc = none := by
  rw [skippable, Bool.or_eq_false_iff, Option.isSome_eq_false_iff, Option.isNone_iff_eq_none]

lemma updateScript_of_noTag (h : hasScriptTag line = false) (s : LineState) :
    s.updateScript line = s := by
  rw [hasScriptTag, Bool.or_eq_false_iff] at h
  rw [updateScript, h.1, h.2]
  rfl

lemma update_opener (hcode : s.skippable = false) (hopen : OpensHeredoc marker line)
    (htag : hasScriptTag line = false) : s.update line = { s with heredoc := some marker } := by
  obtain ⟨hcomment, hheredoc⟩ := skippable_eq_false_iff.mp hcode
  have hstep : s.updateHeredoc line = { s with heredoc := some marker } := by
    rw [updateHeredoc, hheredoc, hcomment, heredocMarker?_eq_some_iff.mpr hopen]
    rfl
  rw [update, hstep]
  exact updateScript_of_noTag htag _

lemma update_heredocLine (hheredoc : s.heredoc = some marker) (hmarker : IsMarker marker)
    (hbody : ¬ ClosesHeredoc marker line) (htag : hasScriptTag line = false) :
    s.update line = s := by
  have hstep : s.updateHeredoc line = s := by
    rw [← endsHeredoc_iff hmarker] at hbody
    rw [updateHeredoc, hheredoc]
    exact if_neg hbody
  rw [update, hstep, hheredoc]
  exact updateScript_of_noTag htag s

lemma update_commentLine (hcomment : s.comment) (hheredoc : s.heredoc = none)
    (hbody : ¬ ['*', '/'] <:+: line) (htag : hasScriptTag line = false) : s.update line = s := by
  have hstep : s.updateHeredoc line = s := by
    rw [updateHeredoc, hheredoc, hcomment]
    rfl
  have hstep' : s.updateComment line = s := by
    rw [← occursIn_iff, Bool.not_eq_true] at hbody
    rw [updateComment, if_pos hcomment, closesComment, hbody]
    cases s
    cases hcomment
    rfl
  rw [update, hstep, hheredoc]
  exact (updateScript_of_noTag htag _).trans hstep'

end LineState

lemma opensComment_of_notMem {line : List Char} (h : '/' ∉ line) : opensComment line = false := by
  have hnone : lastOpener? line = none := by
    induction line with
    | nil => rfl
    | cons c line ih =>
      rw [mem_cons, not_or] at h
      rw [lastOpener?, ih h.2]
      simp [isPrefixOf, h.1]
  rw [opensComment, hnone]

lemma ClosesHeredoc.notMem {marker line : List Char} (h : ClosesHeredoc marker line)
    (hmarker : IsMarker marker) : '/' ∉ line := by
  obtain ⟨before, gap, after, mark, hmark, rfl, hbefore, hgap, hafter⟩ := h
  have hspace : isSpace '/' ≠ true := by decide
  have hmarks : ∀ m ∈ [[], [';']], '/' ∉ m := by decide
  simp only [mem_append, not_or]
  exact ⟨fun hc => hspace (hbefore _ hc), hmarker.notMem (by decide), fun hc => hspace (hgap _ hc),
    hmarks mark hmark, fun hc => hspace (hafter _ hc)⟩

namespace LineState

variable {s : LineState} {line marker : List Char}

lemma update_closer (hcomment : s.comment = false) (hheredoc : s.heredoc = some marker)
    (hmarker : IsMarker marker) (hclose : ClosesHeredoc marker line)
    (htag : hasScriptTag line = false) : s.update line = { s with heredoc := none } := by
  have hstep : s.updateHeredoc line = { s with heredoc := none } := by
    rw [updateHeredoc, hheredoc]
    exact if_pos ((endsHeredoc_iff hmarker).mpr hclose)
  have hstep' : { s with heredoc := none }.updateComment line = { s with heredoc := none } := by
    rw [updateComment, if_neg (by simp [hcomment]),
      opensComment_of_notMem (hclose.notMem hmarker), ← hcomment]
  rw [update, hstep]
  exact (updateScript_of_noTag htag _).trans hstep'

/-! ### Runs -/

/-- What holds of the state of every line: a marker is a word, and nothing is comment and heredoc at
once. -/
structure Sound (s : LineState) : Prop where
  isMarker : ∀ marker, s.heredoc = some marker → IsMarker marker
  apart : s.comment = true → s.heredoc = none

lemma sound_start : Sound {} := ⟨by simp, by simp⟩

lemma Sound.updateHeredoc (h : s.Sound) (line : List Char) : (s.updateHeredoc line).Sound := by
  unfold LineState.updateHeredoc
  split
  · split
    · exact ⟨by simp, by simp⟩
    · exact h
  · split
    · exact h
    · rename_i hcomment
      refine ⟨fun marker hmarker => ?_, fun hc => absurd hc hcomment⟩
      exact (heredocMarker?_eq_some_iff.mp hmarker).isMarker

lemma Sound.updateComment (h : s.Sound) (hheredoc : s.heredoc = none) (line : List Char) :
    (s.updateComment line).Sound := by
  unfold LineState.updateComment
  split
  · exact ⟨h.isMarker, fun _ => hheredoc⟩
  · exact ⟨h.isMarker, fun _ => hheredoc⟩

lemma Sound.updateScript (h : s.Sound) (line : List Char) : (s.updateScript line).Sound := by
  unfold LineState.updateScript
  split
  · exact ⟨h.isMarker, h.apart⟩
  · split
    · exact ⟨h.isMarker, h.apart⟩
    · exact h

lemma Sound.update (h : s.Sound) (line : List Char) : (s.update line).Sound := by
  have hstep := h.updateHeredoc line
  unfold LineState.update
  dsimp only
  split
  · exact hstep.updateScript line
  · rename_i hnone
    rw [Option.not_isSome_iff_eq_none] at hnone
    exact (hstep.updateComment hnone line).updateScript line

lemma Sound.foldl (h : s.Sound) (lines : List (List Char)) :
    (lines.foldl LineState.update s).Sound := by
  induction lines generalizing s with
  | nil => exact h
  | cons line lines ih => exact ih (h.update line)

end LineState

lemma statesFrom_heredocLines {s : LineState} {marker : List Char}
    (hheredoc : s.heredoc = some marker) (hmarker : IsMarker marker) {body : List (List Char)}
    (hbody : ∀ line ∈ body, ¬ ClosesHeredoc marker line)
    (htag : ∀ line ∈ body, hasScriptTag line = false) :
    statesFrom s body = body.map (s, ·) ∧ body.foldl LineState.update s = s := by
  induction body with
  | nil => exact ⟨rfl, rfl⟩
  | cons line body ih =>
    rw [forall_mem_cons] at hbody htag
    have hstep := LineState.update_heredocLine hheredoc hmarker hbody.1 htag.1
    obtain ⟨hstates, hfold⟩ := ih hbody.2 htag.2
    rw [statesFrom, hstep, hstates, foldl_cons, hstep, hfold]
    exact ⟨rfl, rfl⟩

/-! ### The heredoc in two parts -/

/-- A state that keeps whether there is a heredoc apart from the marker that ends it. -/
structure FlaggedState where
  comment : Bool := false
  inHeredoc : Bool := false
  marker : List Char := []
  script : Bool := false

namespace FlaggedState

variable {f : FlaggedState}

def view (f : FlaggedState) : LineState :=
  ⟨f.comment, if f.inHeredoc then some f.marker else none, f.script⟩

def updateHeredoc (f : FlaggedState) (line : List Char) : FlaggedState :=
  if f.inHeredoc then
    if endsHeredoc f.marker line then { f with inHeredoc := false, marker := [] } else f
  else if f.comment then f
  else match heredocMarker? line with
    | some marker => { f with inHeredoc := true, marker }
    | none => f

def update (f : FlaggedState) (line : List Char) : FlaggedState :=
  let f := f.updateHeredoc line
  let s := if f.inHeredoc then f.view else f.view.updateComment line
  let s := s.updateScript line
  { f with comment := s.comment, script := s.script }

/-- The two parts agree. -/
def Coherent (f : FlaggedState) : Prop := f.inHeredoc = true ↔ f.marker ≠ []

lemma Coherent.update (h : f.Coherent) (line : List Char) : (f.update line).Coherent := by
  change (f.updateHeredoc line).Coherent
  unfold updateHeredoc
  split_ifs
  · simp [Coherent]
  · exact h
  · exact h
  · cases hmarker : heredocMarker? line with
    | none => exact h
    | some marker => simpa [Coherent] using (heredocMarker?_eq_some_iff.mp hmarker).isMarker.ne_nil

@[simp] lemma view_updateHeredoc (f : FlaggedState) (line : List Char) :
    (f.updateHeredoc line).view = f.view.updateHeredoc line := by
  cases hin : f.inHeredoc with
  | true =>
    cases hends :
      endsHeredoc f.marker line <;> simp [updateHeredoc, view, LineState.updateHeredoc, hin, hends]
  | false =>
    cases hcomment : f.comment <;> cases hmarker : heredocMarker? line <;>
      simp [updateHeredoc, view, LineState.updateHeredoc, hin, hcomment, hmarker]

/-- One line does the same to both states. -/
@[simp] lemma view_update (f : FlaggedState) (line : List Char) :
    (f.update line).view = f.view.update line := by
  unfold update LineState.update
  rw [← view_updateHeredoc]
  generalize f.updateHeredoc line = f
  simp only [LineState.updateScript, LineState.updateComment]
  cases hin : f.inHeredoc <;> simp only [view, hin] <;> split_ifs <;> simp_all

lemma foldl_update (h : f.Coherent) (lines : List (List Char)) : (lines.foldl update f).view =
      lines.foldl LineState.update f.view ∧ (lines.foldl update f).Coherent := by
  induction lines generalizing f with
  | nil => exact ⟨rfl, h⟩
  | cons line lines ih =>
    obtain ⟨hview, hcoherent⟩ := ih (h.update line)
    exact ⟨by rw [foldl_cons, hview, view_update, foldl_cons], hcoherent⟩

end FlaggedState

/-- After any lines, a marker is kept exactly inside a heredoc, also by a state that keeps the two
apart, and nothing is comment and heredoc at once. From code on, the lines of a heredoc are skipped
up to the line that ends it, which is code again, and leave no trace in the state. -/
theorem heredoc_masks_lines (lines : List (List Char)) {s : LineState}
    (hs : lines.foldl LineState.update {} = s) :
    (s.heredoc.isSome = true ↔ s.marker ≠ []) ∧
    (∀ f, lines.foldl FlaggedState.update {} = f →
      f.view = s ∧ (f.inHeredoc = true ↔ f.marker ≠ [])) ∧
    ¬ (s.comment = true ∧ s.heredoc.isSome = true) ∧
    (s.skippable = false → ∀ marker opener body closer, OpensHeredoc marker opener →
      (∀ line ∈ body, ¬ ClosesHeredoc marker line) → ClosesHeredoc marker closer →
      (∀ line ∈ opener :: (body ++ [closer]), hasScriptTag line = false) →
      (∀ read ∈ statesFrom s (opener :: body), read.1.skippable = true) ∧
      ((opener :: (body ++ [closer])).foldl LineState.update s).skippable = false ∧
      (opener :: (body ++ [closer])).foldl LineState.update s = s) := by
  have hsound : s.Sound := hs ▸ LineState.sound_start.foldl lines
  refine ⟨?_, ?_, ?_, ?_⟩
  · rw [LineState.marker]
    cases hheredoc : s.heredoc with
    | none => simp
    | some marker => simpa using (hsound.isMarker marker hheredoc).ne_nil
  · rintro f rfl
    rw [← hs]
    exact FlaggedState.foldl_update (f := {}) (by simp [FlaggedState.Coherent]) lines
  · rintro ⟨hcomment, hheredoc⟩
    rw [hsound.apart hcomment] at hheredoc
    cases hheredoc
  · intro hcode marker opener body closer hopen hbody hclose htag
    rw [forall_mem_cons, forall_mem_append, forall_mem_singleton] at htag
    obtain ⟨htagOpener, htagBody, htagCloser⟩ := htag
    have hmarker : IsMarker marker := hopen.isMarker
    obtain ⟨hcomment, hheredoc⟩ := LineState.skippable_eq_false_iff.mp hcode
    -- the state in which the heredoc is read
    have hopened := LineState.update_opener hcode hopen htagOpener
    generalize hinside : { s with heredoc := some marker } = inside at hopened
    have hkept : inside.heredoc = some marker := by rw [← hinside]
    have hclosed : inside.update closer = s := by
      rw [LineState.update_closer (by rw [← hinside, hcomment]) hkept hmarker hclose
        htagCloser, ← hinside, ← hheredoc]
    obtain ⟨hstates, hfold⟩ := statesFrom_heredocLines hkept hmarker hbody htagBody
    have hback : (opener :: (body ++ [closer])).foldl LineState.update s = s := by
      rw [foldl_cons, hopened, foldl_append, hfold, foldl_cons, hclosed, foldl_nil]
    refine ⟨fun read hread => ?_, by rw [hback, hcode], hback⟩
    rw [statesFrom, hopened, hstates, ← map_cons (f := (inside, ·))] at hread
    obtain ⟨line, -, rfl⟩ := mem_map.mp hread
    rw [LineState.skippable, hkept, Option.isSome_some, Bool.or_true]

/-- Lines that look like a comment, like another heredoc and like the end of their own. -/
def trickyLines : List (List Char) := ["/* <<<EOT".toList, "EOT;x */ ' <<<'EOT'".toList]

theorem heredoc_masks_trickyLines :
    ["<script>".toList].foldl LineState.update {} = { script := true } ∧
      OpensHeredoc "EOT".toList "$a = /* <<< \"EOT\"".toList ∧
        ClosesHeredoc "EOT".toList "\tEOT ;".toList ∧
      (∀ read ∈ statesFrom { script := true } ("$a = /* <<< \"EOT\"".toList :: trickyLines),
        read.1.skippable = true) ∧
      ("$a = /* <<< \"EOT\"".toList :: (trickyLines ++ ["\tEOT ;".toList])).foldl LineState.update
        { script := true } = { script := true } := by
  have hopen : OpensHeredoc "EOT".toList "$a = /* <<< \"EOT\"".toList :=
    heredocMarker?_eq_some_iff.mp (by decide +kernel)
  have hbody : ∀ line ∈ trickyLines, ¬ ClosesHeredoc "EOT".toList line := by
    have hends : ∀ line ∈ trickyLines, ¬ endsHeredoc "EOT".toList line = true := by decide +kernel
    exact fun line hline => mt (endsHeredoc_iff hopen.isMarker).mpr (hends line hline)
  have hclose : ClosesHeredoc "EOT".toList "\tEOT ;".toList :=
    (endsHeredoc_iff hopen.isMarker).mp (by decide +kernel)
  have hstart : ["<script>".toList].foldl LineState.update {} = { script := true } := by
    decide +kernel
  obtain ⟨-, -, -, hmasked⟩ := heredoc_masks_lines ["<script>".toList] hstart
  obtain ⟨hskipped, -, hback⟩ :=
    hmasked rfl _ _ trickyLines _ hopen hbody hclose (by decide +kernel)
  exact ⟨hstart, hopen, hclose, hskipped, hback⟩

/-! ### Numbers -/

lemma map_number_numberedStates (lines : List (List Char)) :
    (numberedStates lines).map (·.1) = range' 1 (statesFrom {} lines).length := by
  rw [numberedStates, map_map, ← zipIdx_map_snd 1 (statesFrom {} lines)]
  rfl

lemma pairwise_numberedStates (lines : List (List Char)) :
    (numberedStates lines).Pairwise fun l m => l.1 < m.1 := by
  have hnumbers : ((numberedStates lines).map (·.1)).Pairwise (· < ·) := by
    rw [map_number_numberedStates]
    exact pairwise_lt_range'
  exact pairwise_map.mp hnumbers

lemma nodup_number_codeLines (f : File) : (f.codeLines.map (·.1)).Nodup := by
  refine pairwise_map.mpr ((pairwise_numberedStates f.lines).filterMap _ ?_)
  intro entry entry' hlt l hl l' hl'
  obtain ⟨-, hl⟩ := Option.ite_none_left_eq_some.mp hl
  obtain ⟨-, hl'⟩ := Option.ite_none_left_eq_some.mp hl'
  rw [← Option.some.inj hl, ← Option.some.inj hl']
  exact Nat.ne_of_lt hlt

lemma flatMap_eq_of_key {α β κ : Type} {l : List α} {key : α → κ} {found : α → List β} {a : α}
    (hnodup : (l.map key).Nodup) (ha : a ∈ l) (hother : ∀ b ∈ l, key b ≠ key a → found b = []) :
    l.flatMap found = found a := by
  obtain ⟨before, after, rfl⟩ := append_of_mem ha
  rw [map_append, map_cons, nodup_middle, nodup_cons, ← map_append] at hnodup
  have hnone : ∀ b ∈ before ++ after, found b = [] := by
    intro b hb
    refine hother b (by simpa [or_left_comm] using .inr (mem_append.mp hb)) fun hkey => hnodup.1 ?_
    exact hkey ▸ mem_map_of_mem hb
  have hbefore : before.flatMap found = [] :=
    flatMap_eq_nil_iff.mpr fun b hb => hnone b (mem_append_left _ hb)
  have hafter : after.flatMap found = [] :=
    flatMap_eq_nil_iff.mpr fun b hb => hnone b (mem_append_right _ hb)
  rw [flatMap_append, flatMap_cons, hbefore, hafter, nil_append, append_nil]

end PluginAudit.Source
