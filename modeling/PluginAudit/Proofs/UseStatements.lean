import PluginAudit.Proofs.Texts
import PluginAudit.Source.File
import PluginAudit.Source.Import

/-!
Imports by lines. A statement is read up to its semicolon and no further. Main statement: texts
whose lines differ only where no statement is have the same imports.
-/

open List

namespace PluginAudit.Source

/-! ### Statements up to their semicolons -/

section Prefixes

variable {s rest : List Char}

lemma dropWhile_eq_cons {p : Char → Bool} {c : Char} (h : s.dropWhile p = c :: rest) :
    s = s.takeWhile p ++ c :: rest ∧ ∀ t, (s.takeWhile p ++ c :: t).takeWhile p = s.takeWhile p ∧
      (s.takeWhile p ++ c :: t).dropWhile p = c :: t := by
  have hall : ∀ x ∈ s.takeWhile p, p x := fun x hx => mem_takeWhile_imp hx
  have hc : p c = false := by simpa [h] using head?_dropWhile_not p s
  refine ⟨by rw [← h, takeWhile_append_dropWhile], fun t => ?_⟩
  rw [takeWhile_append_of_pos hall, dropWhile_append_of_pos hall]
  simp [hc]

lemma exists_of_useTail? {braces : List Char} (h : useTail? s = some (braces, rest)) :
    ∃ c taken, s = c :: (taken ++ rest) ∧ ∀ t, useTail? (c :: (taken ++ t)) = some (braces, t) := by
  unfold useTail? at h
  split at h
  · cases h
    exact ⟨';', [], rfl, fun t => rfl⟩
  · rename_i inside
    split at h
    · cases h
    · rename_i last after hlast
      split at h
      · rename_i rest' hrest
        cases h
        obtain ⟨hinside, hstop⟩ := dropWhile_eq_cons hlast
        obtain ⟨hafter, hstop'⟩ := dropWhile_eq_cons hrest
        refine ⟨'\x7b', inside.takeWhile (· != '\x7d') ++ last ::
          (after.takeWhile isCodeSpace ++ [';']), ?_, fun t => ?_⟩
        · simpa using hinside.trans (by rw [← hafter])
        · rw [append_assoc, cons_append, append_assoc, singleton_append, useTail?, (hstop _).1,
            (hstop _).2]
          simp only [(hstop' t).2]
      · cases h
  · cases h

lemma exists_of_useAt? {found : UseStatement} (h : useAt? s = some found) : ∃ taken, taken ≠ [] ∧
      s = taken ++ found.rest ∧ ∀ t, useAt? (taken ++ t) = some { found with rest := t } := by
  unfold useAt? at h
  dsimp only at h
  split at h
  · rename_i after hkeyword
    split at h
    · cases h
    · rename_i hgap
      split at h
      · rename_i braces rest htail
        cases h
        obtain ⟨hs, hstop⟩ := dropWhile_eq_cons hkeyword
        obtain ⟨c, taken, hend, hagain⟩ := exists_of_useTail? htail
        obtain ⟨hafter, hstop'⟩ := dropWhile_eq_cons hend
        refine ⟨s.takeWhile isCodeSpace ++ 'u' :: 's' :: 'e' ::
          (after.takeWhile isUseChar ++ c :: taken), by simp, ?_, fun t => ?_⟩
        · simpa using hs.trans (by rw [← hafter])
        · rw [append_assoc, cons_append, cons_append, cons_append, append_assoc,
            cons_append, useAt?, (hstop _).1, (hstop _).2]
          simp only [(hstop' _).1, (hstop' _).2, hgap, hagain]
          rfl
      · cases h
  · cases h

end Prefixes

/-! ### Statements one after the other -/

def statements (number : Nat) (atStart : Bool) (s : List Char) : List (Nat × List Char) :=
  useStatements (s.length + 1) number atStart s

variable {s : List Char} {number : Nat} {found : UseStatement}

lemma length_rest_lt (h : useAt? s = some found) : found.rest.length < s.length := by
  obtain ⟨taken, hne, hs, -⟩ := exists_of_useAt? h
  have := length_pos_iff.mpr hne
  rw [hs, length_append]
  omega

lemma useStatements_of_useAt? (h : useAt? s = some found) (fuel : Nat) :
    useStatements (fuel + 1) number true s = (number + newlines found.before, found.body) ::
      useStatements fuel (number + newlines (s.take (s.length - found.rest.length))) false
        found.rest := by
  rw [useStatements.eq_def]
  simp only [h, if_true]

@[simp] lemma useStatements_nil (fuel number : Nat) (atStart : Bool) :
    useStatements fuel number atStart [] = [] := by
  cases fuel with
  | zero => rfl
  | succ fuel => cases atStart <;> rfl

lemma useStatements_cons {c : Char} {atStart : Bool} (h : atStart → useAt? (c :: s) = none)
    (fuel : Nat) : useStatements (fuel + 1) number atStart (c :: s) =
      useStatements fuel (if c = '\n' then number + 1 else number) (c == '\n') s := by
  cases atStart with
  | false => simp [useStatements]
  | true => simp [useStatements, h rfl]

lemma useStatements_eq {fuel fuel' : Nat} (atStart : Bool) (h : s.length < fuel)
    (h' : s.length < fuel') :
    useStatements fuel number atStart s = useStatements fuel' number atStart s := by
  induction fuel generalizing fuel' number atStart s with
  | zero => omega
  | succ fuel ih =>
    obtain _ | fuel' := fuel'
    · omega
    by_cases hfound : ∃ found, atStart ∧ useAt? s = some found
    · obtain ⟨found, rfl, hfound⟩ := hfound
      have hlt := length_rest_lt hfound
      rw [useStatements_of_useAt? hfound, useStatements_of_useAt? hfound]
      exact congrArg (List.cons _) (ih false (by omega) (by omega))
    · obtain _ | ⟨c, s⟩ := s
      · rw [useStatements_nil, useStatements_nil]
      · have hnone : atStart → useAt? (c :: s) = none := fun hstart =>
          Option.eq_none_iff_forall_ne_some.mpr fun found hsome => hfound ⟨found, hstart, hsome⟩
        rw [useStatements_cons hnone, useStatements_cons hnone]
        exact ih _ (by simpa using h) (by simpa using h')

lemma statements_of_useAt? (h : useAt? s = some found) {taken : List Char}
    (hs : s = taken ++ found.rest) : statements number true s = (number + newlines found.before,
        found.body) :: statements (number + newlines taken) false found.rest := by
  have htaken : s.take (s.length - found.rest.length) = taken := by simp [hs]
  rw [statements, useStatements_of_useAt? h, htaken, statements,
    useStatements_eq false (length_rest_lt h) (Nat.lt_succ_self _)]

lemma statements_of_useAt?_eq_none (h : useAt? s = none) :
    statements number true s = statements number false s := by
  cases s with
  | nil => rfl
  | cons c s =>
    rw [statements, useStatements_cons fun _ => h, statements, useStatements_cons (by simp)]

/-! ### Lines -/

/-- The text of some lines. -/
abbrev joined (lines : List (List Char)) : List Char := ['\n'].intercalate lines

variable {line : List Char} {lines lines' : List (List Char)}

@[simp] lemma joined_cons (line : List Char) (lines : List (List Char)) :
    joined (line :: lines) = line ++ lines.flatMap ('\n' :: ·) :=
  Text.intercalate_cons ['\n'] line lines

lemma statements_joined_cons (h : '\n' ∉ line) (number : Nat) (lines : List (List Char)) :
    statements number false (joined (line :: lines)) =
      statements (number + 1) true (joined lines) := by
  rw [joined_cons]
  induction line with
  | nil =>
    cases lines with
    | nil => rfl
    | cons next lines =>
      rw [joined_cons, nil_append, flatMap_cons, statements, cons_append,
        useStatements_cons (by simp)]
      rfl
  | cons c line ih =>
    rw [mem_cons, not_or] at h
    have hc : (c == '\n') = false := beq_false_of_ne (Ne.symm h.1)
    rw [← ih h.2, cons_append, statements, useStatements_cons (by simp), hc, if_neg (Ne.symm h.1)]
    rfl

def useReach? (s : List Char) : Option Nat :=
  (useAt? s).map fun found => newlines (s.take (s.length - found.rest.length))

/-- A statement that starts on a line or before takes it in. -/
def InUse (lines : List (List Char)) (k : Nat) : Prop :=
  ∃ j ≤ k, ∃ n ∈ useReach? (joined (lines.drop j)), k ≤ j + n

instance (lines : List (List Char)) (k : Nat) : Decidable (InUse lines k) :=
  decidable_of_iff (∃ j ≤ k, (useReach? (joined (lines.drop j))).any (k ≤ j + ·) = true)
    (by simp [InUse, Option.any_eq_true])

/-- No statement takes in a line where two texts differ. -/
def SameUses (lines lines' : List (List Char)) : Prop :=
  ∀ k, lines[k]? ≠ lines'[k]? → ¬ InUse lines k ∧ ¬ InUse lines' k

lemma SameUses.symm (h : SameUses lines lines') : SameUses lines' lines :=
  fun k hne => (h k hne.symm).symm

lemma InUse.of_drop {m k : Nat} (h : InUse (lines.drop m) k) : InUse lines (m + k) := by
  obtain ⟨j, hj, n, hn, hk⟩ := h
  rw [drop_drop] at hn
  exact ⟨m + j, by omega, n, hn, by omega⟩

lemma SameUses.drop (h : SameUses lines lines') (m : Nat) :
    SameUses (lines.drop m) (lines'.drop m) := by
  intro k hne
  rw [getElem?_drop, getElem?_drop] at hne
  exact (h (m + k) hne).imp (mt InUse.of_drop) (mt InUse.of_drop)

/-- A piece of a text, up to a place on one of its lines, stands in every text with the same lines
up to there. -/
lemma exists_joined_eq (hlines : ∀ l ∈ lines, '\n' ∉ l) (hne : lines ≠ []) {taken rest : List Char}
    (h : joined lines = taken ++ rest) (hsame : ∀ k ≤ newlines taken, lines[k]? = lines'[k]?) :
    ∃ tail, '\n' ∉ tail ∧ rest = joined (tail :: lines.drop (newlines taken + 1)) ∧
      joined lines' = taken ++ joined (tail :: lines'.drop (newlines taken + 1)) := by
  induction lines generalizing lines' taken with
  | nil => exact absurd rfl hne
  | cons line lines ih =>
    obtain _ | ⟨line', lines'⟩ := lines'
    · cases hsame 0 (Nat.zero_le _)
    obtain rfl : line = line' := by simpa using hsame 0 (Nat.zero_le _)
    have hline := hlines line mem_cons_self
    rw [joined_cons] at h ⊢
    rcases append_eq_append_iff.mp h with ⟨between, rfl, hafter⟩ | ⟨tail, rfl, rfl⟩
    · obtain _ | ⟨c, between⟩ := between
      · have hzero : newlines line = 0 := count_eq_zero.mpr hline
        refine ⟨[], by simp, ?_, ?_⟩
        · simpa [hzero] using hafter.symm
        · simp [hzero]
      · -- the piece goes on to the next line
        obtain _ | ⟨next, lines⟩ := lines
        · cases hafter
        rw [flatMap_cons, cons_append, cons_append, ← joined_cons] at hafter
        obtain ⟨rfl, hjoined⟩ := List.cons.inj hafter
        have hcount : newlines (line ++ '\n' :: between) = newlines between + 1 := by
          simp [newlines, count_eq_zero.mpr hline]
        rw [hcount] at hsame ⊢
        obtain ⟨tail, htail, hrest, hother⟩ := ih (forall_mem_cons.mp hlines).2
          (cons_ne_nil _ _) hjoined (fun k hk => by simpa using hsame (k + 1) (by omega))
        obtain _ | ⟨next', lines'⟩ := lines'
        · cases hsame 1 (by omega)
        refine ⟨tail, htail, by simpa using hrest, ?_⟩
        rw [flatMap_cons, cons_append, ← joined_cons, hother]
        simp
    · have hzero : newlines taken = 0 := count_eq_zero.mpr fun hmem => hline (by simp [hmem])
      refine ⟨tail, fun hmem => hline (by simp [hmem]), ?_, ?_⟩
      · simp [hzero]
      · simp [hzero]

/-- A statement at the start of one text stands at the start of the other, and they go on with the
same line. -/
lemma SameUses.exists_of_useAt? (h : SameUses lines lines') (hlines : ∀ l ∈ lines, '\n' ∉ l)
    (hfound : useAt? (joined lines) = some found) :
    ∃ taken tail, '\n' ∉ tail ∧ joined lines = taken ++ found.rest ∧
      found.rest = joined (tail :: lines.drop (newlines taken + 1)) ∧ useAt? (joined lines') =
        some { found with rest := joined (tail :: lines'.drop (newlines taken + 1)) } ∧
      joined lines' = taken ++ joined (tail :: lines'.drop (newlines taken + 1)) := by
  obtain ⟨taken, hne, htaken, hagain⟩ := Source.exists_of_useAt? hfound
  have hreach : useReach? (joined lines) = some (newlines taken) := by
    rw [useReach?, hfound, htaken]
    simp
  have hsame : ∀ k ≤ newlines taken, lines[k]? = lines'[k]? := by
    intro k hk
    by_contra hdiffer
    exact (h k hdiffer).1 ⟨0, Nat.zero_le k, newlines taken, hreach, by omega⟩
  have hlines_ne : lines ≠ [] := by
    rintro rfl
    exact hne (append_eq_nil_iff.mp htaken.symm).1
  obtain ⟨tail, htail, hrest, hother⟩ := exists_joined_eq hlines hlines_ne htaken hsame
  exact ⟨taken, tail, htail, htaken, hrest, hother ▸ hagain _, hother⟩

/-- Texts that differ only where no statement is have the same statements. The induction is on the
number of lines, since a statement may take in several. -/
lemma SameUses.statements_eq (h : SameUses lines lines') (hlength : lines.length = lines'.length)
    (hlines : ∀ l ∈ lines, '\n' ∉ l) (hlines' : ∀ l ∈ lines', '\n' ∉ l) (number : Nat) :
    statements number true (joined lines) = statements number true (joined lines') := by
  induction hcount :
    lines.length using Nat.strong_induction_on generalizing lines lines' number with
  | _ count ih =>
    obtain _ | ⟨line, rest⟩ := lines
    · rw [length_eq_zero_iff.mp hlength.symm]
    obtain _ | ⟨line', rest'⟩ := lines'
    · cases hlength
    have hdrop : ∀ m number, statements number true (joined (rest.drop m)) =
        statements number true (joined (rest'.drop m)) := by
      intro m number
      refine ih (rest.drop m).length ?_ (h.drop (m + 1)) ?_ ?_ ?_ number rfl
      · rw [← hcount, length_drop, length_cons]
        omega
      · simpa using congrArg (· - (m + 1)) hlength
      · exact fun l hl => hlines l (mem_cons_of_mem _ (mem_of_mem_drop hl))
      · exact fun l hl => hlines' l (mem_cons_of_mem _ (mem_of_mem_drop hl))
    cases hfound : useAt? (joined (line :: rest)) with
    | some found =>
      obtain ⟨taken, tail, htail, htaken, hrest, hfound', htaken'⟩ :=
        h.exists_of_useAt? hlines hfound
      rw [statements_of_useAt? hfound htaken, statements_of_useAt? hfound' htaken', hrest,
        statements_joined_cons htail, statements_joined_cons htail, drop_succ_cons, drop_succ_cons,
        hdrop]
    | none =>
      have hnone : useAt? (joined (line' :: rest')) = none := by
        by_contra hsome
        obtain ⟨found, hfound'⟩ := Option.ne_none_iff_exists'.mp hsome
        obtain ⟨_, _, _, _, _, hother, _⟩ := h.symm.exists_of_useAt? hlines' hfound'
        rw [hfound] at hother
        cases hother
      rw [statements_of_useAt?_eq_none hfound, statements_of_useAt?_eq_none hnone,
        statements_joined_cons (hlines line mem_cons_self),
        statements_joined_cons (hlines' line' mem_cons_self)]
      exact hdrop 0 (number + 1)

lemma SameUses.imports_eq (h : SameUses lines lines') (hlength : lines.length = lines'.length)
    (hlines : ∀ l ∈ lines, '\n' ∉ l) (hlines' : ∀ l ∈ lines', '\n' ∉ l) (path : String) :
    imports (File.content ⟨path, lines⟩) = imports (File.content ⟨path, lines'⟩) :=
  congrArg (List.flatMap _) (h.statements_eq hlength hlines hlines' 1)

lemma notMem_of_mem_lineChars {text line : List Char} (h : line ∈ Text.lineChars text) :
    '\n' ∉ line := by
  obtain ⟨part, hpart, rfl⟩ := mem_map.mp h
  intro hmem
  refine (Text.mem_splitOnChar hpart).1 ?_
  unfold Text.dropReturn at hmem
  split at hmem
  · exact dropLast_subset part hmem
  · exact hmem

end PluginAudit.Source
