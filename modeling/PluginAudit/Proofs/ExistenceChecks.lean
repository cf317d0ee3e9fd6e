import Mathlib.Data.Bool.AllAny
import PluginAudit.Detector.Guard
import PluginAudit.Proofs.LineStates
import PluginAudit.Proofs.PatternSearch

/-!
Checks that a class exists, as they are written. Main statement: a check that is not negated and not
the name of a member is found on its line, with the name of its class.
-/

open List

namespace PluginAudit.Detector.Guard

open CharSet (ofString wordChar mem space single)
open Pattern Source

variable {name subject before after : List Char} {word : String} {gap gap' : List Char}

/-! ### Characters -/

/-- The characters of names with namespaces. -/
abbrev nameSet : CharSet := (ofString "\\").union .wordChar

@[simp] lemma nameSet_mem_iff {c : Char} : nameSet.mem c ↔ c = '\\' ∨ wordChar.mem c := by
  have hslash : '\\' ≤ c ∧ c ≤ '\\' ↔ c = '\\' :=
    ⟨fun h => Char.le_antisymm h.2 h.1, fun h => h ▸ ⟨Char.le_refl _, Char.le_refl _⟩⟩
  simp [mem, CharSet.union, ofString, wordChar, CharSet.inRanges, hslash]

lemma wordChar_eq_false_of_space {c : Char} (h : space.mem c) : wordChar.mem c = false := by
  rw [Bool.eq_false_iff]
  intro hword
  have hnot : space.mem c = false := isCodeSpace_of_isMarkerChar hword
  rw [h] at hnot
  cases hnot

lemma slash_mem_eq_false {c : Char} (h : wordChar.mem c) : (single '\\').mem c = false := by
  rw [Bool.eq_false_iff]
  intro hslash
  rw [CharSet.single_mem_iff.mp hslash] at h
  exact absurd h (by decide)

lemma wordChar_eq_false_of_quote : ∀ c ∈ "\"'".toList, wordChar.mem c = false :=
  all_iff_forall_prop.mp (by decide)

/-! ### How checks are written -/

/-- The written name of a class: characters of words and separators, of which no separator comes
first. -/
def IsClassText (name : List Char) : Prop :=
  ∃ x text, name = x :: text ∧ wordChar.mem x = true ∧ ∀ c ∈ text, nameSet.mem c = true

instance : Decidable (IsClassText name) :=
  decidable_of_iff (name.head?.any wordChar.mem = true ∧ name.tail.all nameSet.mem = true) <| by
    cases name with
    | nil => simp [IsClassText]
    | cons x text => simp [IsClassText]

/-- What a check is about: the name of a class in quotes, after any separators, or before the class
constant. -/
inductive Subject (name : List Char) : List Char → Prop where
  | quoted {quote : Char} (hquote : quote = '"' ∨ quote = '\'') (slashes : Nat) :
      Subject name (quote :: (List.replicate slashes '\\' ++ (name ++ [quote])))
  | constant {lead : List Char} (hlead : lead = [] ∨ lead = ['\\']) :
      Subject name (lead ++ (name ++ "::class".toList))

def checkWords : List String := ["class", "interface", "trait", "enum"]

def checkText (word : String) (gap gap' subject : List Char) : List Char :=
  word.toList ++ ("_exists".toList ++ (gap ++ ("(".toList ++ (gap' ++ subject))))

/-- The parts of a check fit together. -/
structure IsCheck (word : String) (gap gap' subject name : List Char) : Prop where
  word : word ∈ checkWords
  gap : ∀ c ∈ gap, space.mem c = true
  gap' : ∀ c ∈ gap', space.mem c = true
  subject : Subject name subject
  name : IsClassText name

/-- What stands before a check does not make it a longer word, a negation, or a member of a
class. -/
structure StandsAlone (before : List Char) : Prop where
  word : ∀ u c, before = u ++ [c] → wordChar.mem c = false
  not_negated : ¬ ∃ u gap, before = u ++ '!' :: gap ∧ ∀ c ∈ gap, space.mem c = true
  not_member : ¬ "::".toList <:+ before

lemma standsAlone_of_notMem (hword : before.getLast?.any wordChar.mem = false)
    (hnegation : '!' ∉ before) (hmember : ':' ∉ before) : StandsAlone before where
  word := by
    rintro u c rfl
    simpa using hword
  not_negated := by
    rintro ⟨u, gap, rfl, -⟩
    exact hnegation (by simp)
  not_member := fun h => hmember (h.subset (by decide))

/-- A text has a check that the class with a written name exists. -/
def ChecksClass (text name : List Char) : Prop :=
  ∃ before word gap gap' subject after,
    text = before ++ (checkText word gap gap' subject ++ after) ∧
    IsCheck word gap gap' subject name ∧ StandsAlone before

lemma head_of_constant (h : IsClassText name) {lead rest : List Char}
    (hlead : lead = [] ∨ lead = ['\\']) {x : Char}
    (hx : (lead ++ (name ++ rest)).head? = some x) : x = '\\' ∨ wordChar.mem x := by
  obtain ⟨y, text, rfl, hy, -⟩ := h
  rcases hlead with rfl | rfl
  · cases hx
    exact .inr hy
  · cases hx
    exact .inl rfl

lemma Subject.space_mem_eq_false (h : Subject name subject) (hname : IsClassText name) :
    ∀ c ∈ (subject ++ after).head?, space.mem c = false := by
  intro c hc
  cases h with
  | quoted hquote slashes =>
    cases hc
    rcases hquote with rfl | rfl <;> decide
  | constant hlead =>
    rw [append_assoc, append_assoc] at hc
    rcases head_of_constant hname hlead hc with rfl | hword
    · decide
    · exact isCodeSpace_of_isMarkerChar hword

/-! ### The match of a check -/

def subjectPattern : Pattern :=
  .alt (.cat [anyOf "\"'", star (literal "\\"), .group 2 nameRun, anyOf "\"'"])
    (.cat [opt (literal "\\"), .group 3 nameRun, literal "::class"])

lemma check_eq :
    check = cat [opt (.group 1 (.seq (literal "!") spaces)), wordEdge, words checkWords,
    literal "_exists", spaces, literal "(", spaces, subjectPattern] :=
  rfl

lemma head_of_checkWords : ∀ w ∈ checkWords, ∃ x ∈ w.toList.head?, wordChar.mem x ∧ x ≠ '!' := by
  have hheads : ∀ w ∈ checkWords, w.toList.head?.any (fun x => wordChar.mem x && x != '!') := by
    decide
  simpa [Option.any_eq_true] using hheads

lemma wordChar_of_checkWords :
    ∀ w ∈ checkWords, ∀ c ∈ w.toList ++ "_exists".toList, wordChar.mem c := by
  have hletters : ∀ w ∈ checkWords, (w.toList ++ "_exists".toList).all wordChar.mem := by decide
  exact fun w hw => all_eq_true.mp (hletters w hw)

lemma prefers_nameRun (h : IsClassText name) (hstop : ∀ c ∈ after.head?, nameSet.mem c = false)
    (past : List Char) :
    nameRun.Prefers ⟨past, name ++ after⟩ [] ⟨name.reverse ++ past, after⟩ := by
  obtain ⟨x, text, rfl, hx, htext⟩ := h
  exact prefers_set_star (nameSet_mem_iff.mpr (.inr hx)) htext hstop past

lemma prefers_quoted (h : IsClassText name) {quote : Char} (hquote : quote = '"' ∨ quote = '\'')
    (slashes : Nat) (past after : List Char) :
    ∃ start, (cat [anyOf "\"'", star (literal "\\"), .group 2 nameRun, anyOf "\"'"]).Prefers
      ⟨past, quote :: (replicate slashes '\\' ++ (name ++ quote :: after))⟩
        [(2, ⟨start, name, quote :: after⟩)]
      ⟨quote :: (name.reverse ++ ((replicate slashes '\\').reverse ++ quote :: past)), after⟩ := by
  have hmem : (ofString "\"'").mem quote := by
    rcases hquote with rfl | rfl <;> decide
  have hstop : ∀ c ∈ (quote :: after).head?, nameSet.mem c = false := by
    rintro c ⟨⟩
    rcases hquote with rfl | rfl <;> decide
  have hslashes : ∀ c ∈ replicate slashes '\\', (single '\\').mem c := by
    intro c hc
    rw [eq_of_mem_replicate hc]
    decide
  have hhead : ∀ c ∈ (name ++ quote :: after).head?, (single '\\').mem c = false := by
    obtain ⟨x, text, rfl, hx, -⟩ := h
    rintro c ⟨⟩
    exact slash_mem_eq_false hx
  exact ⟨_, (prefers_set hmem _ _).cons ((prefers_star_set hslashes hhead _).cons
    (((prefers_nameRun h hstop _).group 2).cons ((prefers_set hmem _ _).cons (.nil _))))⟩

lemma prefers_constant (h : IsClassText name) {lead : List Char} (hlead : lead = [] ∨ lead = ['\\'])
    (past after : List Char) :
    ∃ start, (cat [opt (literal "\\"), .group 3 nameRun, literal "::class"]).Prefers ⟨past, lead ++
        (name ++ ("::class".toList ++ after))⟩ [(3, ⟨start, name, "::class".toList ++ after⟩)]
      ⟨"::class".toList.reverse ++ (name.reverse ++ (lead.reverse ++ past)), after⟩ := by
  have hstop : ∀ c ∈ ("::class".toList ++ after).head?, nameSet.mem c = false := by
    rintro c ⟨⟩
    decide
  have hname := fun past =>
    ((prefers_nameRun h hstop past).group 3).cons ((prefers_literal "::class" _ _).cons (.nil _))
  rcases hlead with rfl | rfl
  · have hnone : (literal "\\").Fails ⟨past, name ++ ("::class".toList ++ after)⟩ := by
      obtain ⟨x, text, rfl, hx, -⟩ := h
      rintro groups d groups' hmatch
      obtain ⟨-, hread⟩ := matches_literal_iff.mp hmatch
      have hslash : x = '\\' := (List.cons.inj hread.rest_eq).1
      exact absurd (hslash ▸ hx) (by decide)
    exact ⟨_, (Prefers.opt_of_fails hnone).cons (hname _)⟩
  · exact ⟨_, ((prefers_literal "\\" past _).left _).cons (hname _)⟩

lemma prefers_subject (h : Subject name subject) (hname : IsClassText name)
    (past after : List Char) : ∃ index ∈ [2, 3], ∃ start stop, subjectPattern.Prefers ⟨past,
      subject ++ after⟩ [(index, ⟨start, name, stop⟩)] ⟨subject.reverse ++ past, after⟩ := by
  cases h with
  | @quoted quote hquote slashes =>
    obtain ⟨start, hrun⟩ := prefers_quoted hname hquote slashes past after
    refine ⟨2, by simp, start, quote :: after, ?_⟩
    simp only [cons_append, append_assoc, nil_append, reverse_cons, reverse_append,
      reverse_nil] at hrun ⊢
    exact hrun.left _
  | @constant lead hlead =>
    obtain ⟨start, hrun⟩ := prefers_constant hname hlead past after
    refine ⟨3, by simp, start, "::class".toList ++ after, ?_⟩
    have hnone : (cat [anyOf "\"'", star (literal "\\"), .group 2 nameRun, anyOf "\"'"]).Fails
        ⟨past, lead ++ (name ++ ("::class".toList ++ after))⟩ := by
      refine Fails.cat (fun groups d groups' hquote => ?_) _
      obtain ⟨-, x, hx, hread⟩ := matches_set_iff.mp hquote
      rcases head_of_constant hname hlead (congrArg head? hread.rest_eq) with rfl | hword
      · exact absurd hx (by decide)
      · rw [CharSet.ofString_mem_iff] at hx
        rw [wordChar_eq_false_of_quote x hx] at hword
        cases hword
    simp only [append_assoc, reverse_append] at hrun ⊢
    exact hrun.right hnone

lemma prefers_check (h : IsCheck word gap gap' subject name)
    (hbefore : ∀ c ∈ past.head?, wordChar.mem c = false) (after : List Char) :
    ∃ index ∈ [2, 3], ∃ start stop, check.Prefers ⟨past, checkText word gap gap' subject ++ after⟩
      [(index, ⟨start, name, stop⟩)] ⟨(checkText word gap gap' subject).reverse ++ past,
        after⟩ := by
  obtain ⟨hword, hgap, hgap', hsubject, hname⟩ := h
  obtain ⟨index, hindex, start, stop, hrun⟩ := prefers_subject hsubject hname
    (gap'.reverse ++ ("(".toList.reverse ++ (gap.reverse ++ ("_exists".toList.reverse ++
      (word.toList.reverse ++ past))))) after
  refine ⟨index, hindex, start, stop, ?_⟩
  have hparen : ∀ c ∈ ("(".toList ++ (gap' ++ (subject ++ after))).head?, space.mem c = false := by
    rintro c ⟨⟩
    decide
  have hheads : ∀ w ∈ checkWords, ∀ w' ∈ checkWords,
      w'.toList.head?.isSome ∧ (w' ≠ w → w'.toList.head? ≠ w.toList.head?) := by decide
  have hwords :=
    (prefers_words hword (hheads word hword) past _).cons ((prefers_literal "_exists" _ _).cons
    ((prefers_star_set hgap hparen _).cons ((prefers_literal "(" _ _).cons
      ((prefers_star_set hgap' (hsubject.space_mem_eq_false hname) _).cons (hrun.cons (.nil _))))))
  obtain ⟨x, hx, hletter, hnot⟩ := head_of_checkWords word hword
  obtain ⟨rest, hrest⟩ := head?_eq_some_iff.mp hx
  have hedge : ∀ after, Cursor.holds ⟨past, word.toList ++ after⟩ .word := by
    intro after
    have hpast : past.head?.any wordChar.mem = false := by
      cases hhead : past.head? with
      | none => rfl
      | some c => exact hbefore c hhead
    rw [Cursor.holds, Cursor.wordBefore_eq, Cursor.wordAfter_eq, hrest, hpast]
    simpa using hletter
  have hnone :
      ∀ after, (group 1 (.seq (literal "!") spaces)).Fails ⟨past, word.toList ++ after⟩ := by
    intro after groups d groups' hmatch
    obtain ⟨inner, hseq, -⟩ := matches_group_iff.mp hmatch
    obtain ⟨e, outer, hbang, -⟩ := matches_seq_iff.mp hseq
    obtain ⟨-, hread⟩ := matches_literal_iff.mp hbang
    have hhead := hread.rest_eq
    rw [hrest] at hhead
    exact hnot (List.cons.inj hhead).1
  simp only [checkText, append_assoc, reverse_append]
  exact (Prefers.opt_of_fails (hnone _)).cons ((prefers_edge (hedge _)).cons hwords)

/-- A check that stands alone has a match, which takes the name of its class and no negation. -/
lemma exists_matchAt_check (h : IsCheck word gap gap' subject name) (hbefore : StandsAlone before)
    (after : List Char) : ∃ index ∈ [2, 3], ∃ start stop,
      check.matchAt ⟨before.reverse, checkText word gap gap' subject ++ after⟩ =
        some ⟨⟨before.reverse, checkText word gap gap' subject, after⟩,
          [(index, ⟨start, name, stop⟩)]⟩ := by
  have hpast : ∀ c ∈ before.reverse.head?, wordChar.mem c = false := by
    intro c hc
    rw [Option.mem_def, head?_reverse, getLast?_eq_some_iff] at hc
    obtain ⟨u, hu⟩ := hc
    exact hbefore.word u c hu
  obtain ⟨index, hindex, start, stop, hrun⟩ := prefers_check h hpast after
  refine ⟨index, hindex, start, stop, hrun.matchAt_eq.trans ?_⟩
  rw [(Cursor.Reads.of_rest ..).spanTo_eq]

/-! ### Matches that could hide a check -/

/-- The text of a match of a check in parts: a negation, a word, what stands between the word and a
name, the name, and what comes behind the name. -/
structure MatchedText (negation word gap name tail : List Char) : Prop where
  negation : negation = [] ∨ ∃ spaces, negation = '!' :: spaces ∧ ∀ c ∈ spaces, space.mem c = true
  word : ∀ c ∈ word, wordChar.mem c = true
  gap : ∀ c ∈ gap, wordChar.mem c = false
  name : ∀ c ∈ name, nameSet.mem c = true
  tail : tail = ['"'] ∨ tail = ['\''] ∨ tail = "::class".toList

lemma exists_of_matches_nameRun {c d : Cursor} {groups groups' : Groups}
    (h : Matches nameRun c groups d groups') :
    ∃ text, (∀ c ∈ text, nameSet.mem c) ∧ c.Reads text d := by
  simp only [nameRun, plus, matches_seq_iff, matches_set_iff, matches_many_set_iff] at h
  obtain ⟨_, _, ⟨rfl, x, hx, hread⟩, rfl, text, htext, hread'⟩ := h
  exact ⟨x :: text, forall_mem_cons.mpr ⟨hx, htext⟩, hread.trans hread'⟩

lemma exists_of_matches_subject {c d : Cursor} {groups groups' : Groups}
    (h : Matches subjectPattern c groups d groups') : ∃ lead name tail,
      (∀ c ∈ lead, wordChar.mem c = false) ∧ (∀ c ∈ name, nameSet.mem c) ∧
        (tail = ['"'] ∨ tail = ['\''] ∨ tail = "::class".toList) ∧
          c.Reads (lead ++ (name ++ tail)) d := by
  have hslash : literal "\\" = .set (.single '\\') := rfl
  rcases matches_alt_iff.mp h with h | h
  · simp only [anyOf, Pattern.star, hslash, matches_cat_cons_iff, matches_cat_nil_iff,
      matches_set_iff, matches_many_set_iff, matches_group_iff, CharSet.ofString_mem_iff,
      CharSet.single_mem_iff] at h
    obtain ⟨_, _, ⟨rfl, quote, hquote, hread⟩, _, _, ⟨rfl, slashes, hslashes, hread'⟩, _, _,
        ⟨_, hname, rfl⟩, _, _, ⟨rfl, quote', hquote', hlast⟩, rfl, rfl⟩ := h
    obtain ⟨name, hall, hname⟩ := exists_of_matches_nameRun hname
    refine ⟨quote :: slashes, name, [quote'], ?_, hall, ?_,
      hread.trans (hread'.trans (hname.trans hlast))⟩
    · refine forall_mem_cons.mpr ⟨wordChar_eq_false_of_quote quote hquote, fun c hc => ?_⟩
      rw [hslashes c hc]
      decide
    · have hcases : quote' = '"' ∨ quote' = '\'' := by simpa using hquote'
      rcases hcases with rfl | rfl
      · exact .inl rfl
      · exact .inr (.inl rfl)
  · simp only [matches_cat_cons_iff, matches_cat_nil_iff, matches_opt_literal_iff,
      matches_literal_iff, matches_group_iff] at h
    obtain ⟨_, _, ⟨rfl, lead, hlead, hread⟩, _, _, ⟨_, hname, rfl⟩, _, _, ⟨rfl, hlast⟩, rfl, rfl⟩ :=
      h
    obtain ⟨name, hall, hname⟩ := exists_of_matches_nameRun hname
    refine ⟨lead, name, "::class".toList, ?_, hall, .inr (.inr rfl),
      hread.trans (hname.trans hlast)⟩
    rcases hlead with rfl | rfl <;> exact all_iff_forall_prop.mp (by decide)

lemma exists_matchedText {c d : Cursor} {groups groups' : Groups}
    (h : Matches check c groups d groups') :
    ∃ negation word gap name tail, MatchedText negation word gap name tail ∧
      c.Reads (negation ++ (word ++ (gap ++ (name ++ tail)))) d := by
  simp only [check_eq, spaces, Pattern.star, opt, wordEdge, matches_cat_cons_iff,
    matches_cat_nil_iff, matches_alt_iff, matches_group_iff, matches_seq_iff, matches_empty_iff,
    matches_edge_iff, matches_words_iff, matches_literal_iff, matches_many_set_iff] at h
  obtain ⟨_, _, hnegation, _, _, ⟨-, rfl, rfl⟩, _, _, ⟨rfl, word, hword, hread⟩,
      _, _, ⟨rfl, hexists⟩, _, _, ⟨rfl, gap, hgap, hread₁⟩, _, _, ⟨rfl, hparen⟩, _, _,
      ⟨rfl, gap', hgap', hread₂⟩, _, _, hsubject, rfl, rfl⟩ := h
  obtain ⟨lead, name, tail, hlead, hname, htail, hread₃⟩ := exists_of_matches_subject hsubject
  obtain ⟨negation, hnegation, hstart⟩ :
      ∃ negation, (negation = [] ∨ ∃ spaces, negation = '!' :: spaces ∧
      ∀ c ∈ spaces, space.mem c) ∧ c.Reads negation _ := by
    rcases hnegation with ⟨_, ⟨_, _, ⟨rfl, hbang⟩, rfl, spaces, hspaces, hread⟩, rfl⟩ | ⟨rfl, rfl⟩
    · exact ⟨'!' :: spaces, .inr ⟨spaces, rfl, hspaces⟩, hbang.trans hread⟩
    · exact ⟨[], .inl rfl, .refl _⟩
  refine ⟨negation, word.toList ++ "_exists".toList, gap ++ ("(".toList ++ (gap' ++ lead)), name,
    tail, ⟨hnegation, wordChar_of_checkWords word hword, ?_, hname, htail⟩, ?_⟩
  · intro c hc
    simp only [mem_append] at hc
    rcases hc with hc | hc | hc | hc
    · exact wordChar_eq_false_of_space (hgap c hc)
    · rw [mem_singleton.mp hc]
      decide
    · exact wordChar_eq_false_of_space (hgap' c hc)
    · exact hlead c hc
  · simpa using hstart.trans
      (hread.trans (hexists.trans (hread₁.trans (hparen.trans (hread₂.trans hread₃)))))

/-- A place between characters that are no part of words cannot be the start of a word. -/
lemma exists_of_append_of_gap {front back gap rest : List Char} (h : front ++ back = gap ++ rest)
    (hgap : ∀ c ∈ gap, wordChar.mem c = false) (hback : ∃ x ∈ back.head?, wordChar.mem x) :
    ∃ front', front = gap ++ front' ∧ front' ++ back = rest := by
  obtain ⟨x, hx, hword⟩ := hback
  rcases append_eq_append_iff.mp h with ⟨more, rfl, hmore⟩ | ⟨front', rfl, hrest⟩
  · obtain _ | ⟨y, more⟩ := more
    · exact ⟨[], by simp, by simpa using hmore⟩
    · rw [hmore] at hx
      cases hx
      rw [hgap x (by simp)] at hword
      cases hword
  · exact ⟨front', rfl, hrest.symm⟩

lemma exists_of_append_of_word {front back word rest : List Char} (h : front ++ back = word ++ rest)
    (hword : ∀ c ∈ word, wordChar.mem c)
    (hfront : ∀ u c, front = u ++ [c] → wordChar.mem c = false) :
    front = [] ∨ ∃ front', front = word ++ front' ∧ front' ++ back = rest := by
  rcases append_eq_append_iff.mp h with ⟨more, rfl, hmore⟩ | ⟨front', rfl, hrest⟩
  · left
    rcases eq_nil_or_concat front with rfl | ⟨u, c, rfl⟩
    · rfl
    · have hletter := hword c (by simp)
      rw [hfront u c (by simp)] at hletter
      cases hletter
  · exact .inr ⟨front', rfl, hrest.symm⟩

lemma eq_of_append_cons_eq {p : Char → Bool} {s t s' t' : List Char} {x x' : Char}
    (h : s ++ x :: t = s' ++ x' :: t')
    (hs : ∀ c ∈ s, p c) (hs' : ∀ c ∈ s', p c) (hx : p x = false) (hx' : p x' = false) : x = x' := by
  induction s generalizing s' with
  | nil =>
    obtain _ | ⟨y, s'⟩ := s'
    · exact (List.cons.inj h).1
    · have hy : x = y := (List.cons.inj h).1
      rw [hy, hs' y mem_cons_self] at hx
      cases hx
  | cons y s ih =>
    obtain _ | ⟨y', s'⟩ := s'
    · have hy : y = x' := (List.cons.inj h).1
      rw [← hy, hs y mem_cons_self] at hx'
      cases hx'
    · rw [forall_mem_cons] at hs hs'
      exact ih (List.cons.inj h).2 hs.2 hs'.2

lemma IsCheck.ne_name_append (h : IsCheck word gap gap' subject name)
    {negation word' gap₁ name' tail more rest : List Char}
    (hparts : MatchedText negation word' gap₁ name' tail) (hmore : ∀ c ∈ more, nameSet.mem c) :
    checkText word gap gap' subject ++ after ≠ more ++ (tail ++ rest) := by
  intro heq
  have hletters : ∀ c ∈ word.toList ++ "_exists".toList, nameSet.mem c := fun c hc =>
    nameSet_mem_iff.mpr (.inr (wordChar_of_checkWords word h.word c hc))
  obtain ⟨x, rest₁, hx, hcheck⟩ : ∃ x rest₁, (space.mem x ∨ x = '(') ∧
      checkText word gap gap' subject ++ after =
      (word.toList ++ "_exists".toList) ++ x :: rest₁ := by
    obtain _ | ⟨x, gap⟩ := gap
    · exact ⟨'(', gap' ++ (subject ++ after), .inr rfl, by simp [checkText]⟩
    · exact ⟨x, gap ++ ("(".toList ++ (gap' ++ (subject ++ after))),
        .inl (h.gap x mem_cons_self), by
        simp [checkText]⟩
  obtain ⟨y, rest₂, hy, rfl⟩ : ∃ y rest₂, y ∈ ['"', '\'', ':'] ∧ tail = y :: rest₂ := by
    rcases hparts.tail with rfl | rfl | rfl
    · exact ⟨_, _, by simp, rfl⟩
    · exact ⟨_, _, by simp, rfl⟩
    · exact ⟨':', ":class".toList, by simp, rfl⟩
  have hspec : ∀ y ∈ ['"', '\'', ':'], nameSet.mem y = false ∧ space.mem y = false ∧ y ≠ '(' :=
    all_iff_forall_prop.mp (by decide)
  have hxname : nameSet.mem x = false := by
    rcases hx with hx | rfl
    · rw [Bool.eq_false_iff, ne_eq, nameSet_mem_iff, wordChar_eq_false_of_space hx]
      rintro (rfl | hword)
      · exact absurd hx (by decide)
      · cases hword
    · decide
  have hsame :
      x = y := eq_of_append_cons_eq (hcheck.symm.trans heq) hletters hmore hxname (hspec y hy).1
  rcases hx with hx | rfl
  · rw [hsame, (hspec y hy).2.1] at hx
    cases hx
  · exact (hspec y hy).2.2 hsame.symm

lemma not_goesOver_check {m : Match} {text front back : List Char} (hm : m ∈ check.findAll text)
    (h : IsCheck word gap gap' subject name) (hbefore : StandsAlone before) :
    ¬ GoesOver m before.reverse (checkText word gap gap' subject ++ after) front back := by
  intro hover
  obtain ⟨negation, word', gap₁, name', tail, hparts, hread⟩ :=
    exists_matchedText (isMatch_of_mem_findAll hm).holds
  have htext : m.text = negation ++ (word' ++ (gap₁ ++ (name' ++ tail))) :=
    append_cancel_right hread.rest_eq
  have hsplit : front ++ back = negation ++ (word' ++ (gap₁ ++ (name' ++ tail))) :=
    hover.text_eq.symm.trans htext
  have hpast : before = m.past.reverse ++ front := by
    rw [← reverse_reverse before, hover.past_eq]
    simp
  have hback : ∃ x ∈ back.head?, wordChar.mem x := by
    obtain ⟨x, hx, hletter, -⟩ := head_of_checkWords word h.word
    refine ⟨x, ?_, hletter⟩
    have hhead := congrArg head? hover.rest_eq
    rw [head?_append_of_ne_nil _ hover.back_ne] at hhead
    rw [← hhead, checkText, append_assoc, head?_append, Option.mem_def.mp hx]
    rfl
  have hfront : ∀ u c, front = u ++ [c] → wordChar.mem c = false := by
    intro u c hu
    exact hbefore.word (m.past.reverse ++ u) c (by rw [hpast, hu, append_assoc])
  have hnegation : ∀ c ∈ negation, wordChar.mem c = false := by
    rcases hparts.negation with rfl | ⟨spaces, rfl, hspaces⟩
    · simp
    · exact forall_mem_cons.mpr ⟨by decide, fun c hc => wordChar_eq_false_of_space (hspaces c hc)⟩
  -- the place lies behind the negation, the word and the gap
  obtain ⟨front₁, rfl, hsplit₁⟩ := exists_of_append_of_gap hsplit hnegation hback
  have hfront₁ : ∀ u c, front₁ = u ++ [c] → wordChar.mem c = false := by
    rintro u c rfl
    exact hfront (negation ++ u) c (by simp)
  rcases exists_of_append_of_word hsplit₁ hparts.word hfront₁ with rfl | ⟨front₂, rfl, hsplit₂⟩
  · rcases hparts.negation with rfl | ⟨spaces, rfl, hspaces⟩
    · exact hover.front_ne rfl
    · exact hbefore.not_negated ⟨m.past.reverse, spaces, by simpa using hpast, hspaces⟩
  obtain ⟨front₃, rfl, hsplit₃⟩ := exists_of_append_of_gap hsplit₂ hparts.gap hback
  rcases append_eq_append_iff.mp hsplit₃ with ⟨more, rfl, hmore⟩ | ⟨front₄, rfl, htail⟩
  · -- it lies in the name, but no name starts like a check
    have heq : checkText word gap gap' subject ++ after = more ++ (tail ++ m.after) := by
      rw [hover.rest_eq, hmore, append_assoc]
    exact h.ne_name_append hparts (fun c hc => hparts.name c (by simp [hc])) heq
  · -- it lies behind the name, where only the class constant has a word
    have hquote : ∀ quote, wordChar.mem quote = false → tail ≠ [quote] := by
      rintro quote hquote rfl
      have hlast : front₄ ++ back = [quote] ++ [] := htail.symm
      obtain ⟨front₅, -, hnil⟩ :=
        exists_of_append_of_gap hlast (forall_mem_singleton.mpr hquote) hback
      exact hover.back_ne (append_eq_nil_iff.mp hnil).2
    rcases hparts.tail with hquoted | hquoted | rfl
    · exact hquote '"' (by decide) hquoted
    · exact hquote '\'' (by decide) hquoted
    · have hclass : front₄ ++ back = "::".toList ++ ("class".toList ++ []) := htail.symm
      obtain ⟨front₅, rfl, hsplit₅⟩ :=
        exists_of_append_of_gap hclass (all_iff_forall_prop.mp (by decide)) hback
      have hfront₅ : ∀ u c, front₅ = u ++ [c] → wordChar.mem c = false := by
        rintro u c rfl
        exact hfront₁ (word' ++ (gap₁ ++ (name' ++ ("::".toList ++ u)))) c (by simp)
      have hletters : ∀ c ∈ "class".toList, wordChar.mem c := all_eq_true.mp (by decide)
      rcases exists_of_append_of_word hsplit₅ hletters hfront₅ with rfl | ⟨front₆, rfl, hnil⟩
      · exact hbefore.not_member
          ⟨m.past.reverse ++ (negation ++ (word' ++ (gap₁ ++ name'))), by rw [hpast]; simp⟩
      · exact hover.back_ne (append_eq_nil_iff.mp hnil).2

lemma exists_mem_findAll_check {text : List Char} (h : ChecksClass text name) :
    ∃ m ∈ check.findAll text, ∃ index ∈ [2, 3], ∃ start stop,
      m.groups = [(index, ⟨start, name, stop⟩)] := by
  obtain ⟨before, word, gap, gap', subject, after, rfl, h, hbefore⟩ := h
  obtain ⟨index, hindex, start, stop, hat⟩ := exists_matchAt_check h hbefore after
  have hmoves : check.Moves := (moves_literal (w := "_exists") (by decide)).cat (by simp)
  have hfound := hmoves.mem_findAll_or_goesOver hat
  rw [reverse_reverse] at hfound
  rcases hfound with hmem | ⟨m, hmem, front, back, hover⟩
  · exact ⟨_, hmem, index, hindex, start, stop, rfl⟩
  · exact absurd hover (not_goesOver_check hmem h hbefore)

end PluginAudit.Detector.Guard
