import PluginAudit.Proofs.ExistenceChecks
import PluginAudit.Proofs.UndefinedCalls
import PluginAudit.Proofs.VersionGates

/-!
Calls of functions that a version deprecates or removes. Main statement: a line has one finding
about such a function if it calls it, and else none.
-/

open List

namespace PluginAudit.Detector

open Version (compareTexts atLeast)
open Table (ofPairs get?_insert get?)
open Pattern Source Cursor CharSet

/-! ### Calls on a line -/

/-- A name stands before a parenthesis and is no part of a longer name. -/
structure CallAt (code : List Char) (name : String) (pre gap post : List Char) : Prop where
  text_eq : code = pre ++ (name.toList ++ (gap ++ '(' :: post))
  gap_space : ∀ c ∈ gap, space.mem c = true
  not_word : ∀ c ∈ pre.getLast?, wordChar.mem c = false

/-- A global function is called by its plain name: it is no variable and no name in a namespace, it
is neither defined nor instantiated there, and no operator for members or classes stands before
it. -/
structure GlobalCall (code : List Char) (name : String) (pre gap post : List Char) : Prop
    extends CallAt code name pre gap post where
  no_arrow : ¬ "->".toList <:+: pre
  no_colons : ¬ "::".toList <:+: pre
  not_variable : '$' ∉ pre.getLast?
  not_qualified : '\\' ∉ pre.getLast?
  not_defined : ¬ EndsInDefinition pre

variable {code pre gap post : List Char} {name : String} {m : Match}

lemma exists_head_of_isIdentifier (hname : IsIdentifier name) :
    ∃ x rest, name.toList = x :: rest ∧ wordChar.mem x := by
  obtain ⟨x, rest, hx⟩ := exists_cons_of_ne_nil hname.toList_ne_nil
  exact ⟨x, rest, hx, hname.forall_wordChar x (by rw [hx]; exact mem_cons_self)⟩

lemma moves_callOf (name : String) : (callOf name).Moves :=
  (moves_literal (by decide)).cat (p := literal "(") (by simp)

lemma callAt_of_mem_findAll (hname : IsIdentifier name) (h : m ∈ (callOf name).findAll code) :
    ∃ gap, m.text = name.toList ++ (gap ++ ['(']) ∧
      CallAt code name m.past.reverse gap m.after := by
  obtain ⟨htext, hmatch⟩ := isMatch_of_mem_findAll h
  simp only [callOf, matches_cat_cons_iff, matches_cat_nil_iff, wordEdge, matches_edge_iff, spaces,
    Pattern.star, matches_many_set_iff, matches_literal_iff] at hmatch
  obtain ⟨c₁, g₁, ⟨hedge, rfl, rfl⟩, c₂, g₂, ⟨rfl, hread⟩, c₃, g₃, ⟨rfl, gap, hgap, hread'⟩, c₄, g₄,
    ⟨rfl, hread''⟩, rfl, -⟩ := hmatch
  have hrest : m.text ++ m.after = (name.toList ++ (gap ++ ['('])) ++ m.after :=
    calc m.text ++ m.after = name.toList ++ c₂.rest := hread.rest_eq
      _ = name.toList ++ (gap ++ c₃.rest) := by rw [hread'.rest_eq]
      _ = name.toList ++ (gap ++ ("(".toList ++ m.after)) := by rw [hread''.rest_eq]
      _ = (name.toList ++ (gap ++ ['('])) ++ m.after := by simp
  refine ⟨gap, append_cancel_right hrest, ?_, hgap, ?_⟩
  · rw [← htext, hrest]
    simp
  · intro c hc
    obtain ⟨x, rest, hx, hword⟩ := exists_head_of_isIdentifier hname
    rw [getLast?_reverse] at hc
    rw [holds, wordBefore_eq, wordAfter_eq, hrest, hx, Option.mem_def.mp hc] at hedge
    simpa [hword] using hedge

lemma matches_callOf (hname : IsIdentifier name) (h : CallAt code name pre gap post) :
    ∃ d, Matches (callOf name) ⟨pre.reverse, name.toList ++ (gap ++ '(' :: post)⟩ [] d [] := by
  obtain ⟨x, rest, hx, hword⟩ := exists_head_of_isIdentifier hname
  have hedge : holds ⟨pre.reverse, name.toList ++ (gap ++ '(' :: post)⟩ .word := by
    have hbefore : pre.getLast?.any wordChar.mem = false := by
      cases hlast : pre.getLast? with
      | none => rfl
      | some c => exact h.not_word c hlast
    rw [holds, wordBefore_eq, wordAfter_eq, head?_reverse, hbefore, hx]
    simp [hword]
  simp only [callOf, matches_cat_cons_iff, matches_cat_nil_iff, wordEdge, matches_edge_iff, spaces,
    Pattern.star, matches_many_set_iff, matches_literal_iff]
  exact ⟨_, _, [], ⟨hedge, rfl, rfl⟩, _, [], ⟨rfl, .of_rest _ _ _⟩, _, [],
    ⟨rfl, gap, h.gap_space, .of_rest _ _ _⟩, _, [], ⟨rfl, .of_rest _ ['('] _⟩, rfl, rfl⟩

/-- A match is a name and then nothing of a name, so it does not hold the start of another name. -/
lemma not_goesOver_of_callAt (hname : IsIdentifier name) (h : CallAt code name pre gap post)
    (hmem : m ∈ (callOf name).findAll code) (front back : List Char) :
    ¬ GoesOver m pre.reverse (name.toList ++ (gap ++ '(' :: post)) front back := by
  intro hover
  obtain ⟨gap', htext, hcall⟩ := callAt_of_mem_findAll hname hmem
  have htail : ∀ c ∈ gap' ++ ['('], wordChar.mem c = false := by
    intro c hc
    rcases mem_append.mp hc with hc | hc
    · exact Guard.wordChar_eq_false_of_space (hcall.gap_space c hc)
    · rw [mem_singleton.mp hc]
      decide
  have hlast : ∀ c ∈ front.getLast?, wordChar.mem c = false := by
    intro c hc
    refine h.not_word c ?_
    have hpre : pre = m.past.reverse ++ front := by
      rw [← reverse_inj, hover.past_eq]
      simp
    rwa [hpre, getLast?_append_of_ne_nil _ hover.front_ne]
  obtain ⟨x, rest, hx, hword⟩ := exists_head_of_isIdentifier hname
  obtain ⟨y, back, rfl⟩ := exists_cons_of_ne_nil hover.back_ne
  have hy : y = x := by
    have hrest := hover.rest_eq
    rw [hx] at hrest
    exact (List.cons.inj hrest).1.symm
  rw [hover.text_eq] at htext
  rcases append_eq_append_iff.mp htext with ⟨more, hfront, -⟩ | ⟨more, -, hmore⟩
  · obtain ⟨init, z, rfl⟩ := eq_nil_or_concat' front |>.resolve_left hover.front_ne
    have hnot := hlast z (by simp)
    rw [hname.forall_wordChar z (by rw [hfront]; simp)] at hnot
    cases hnot
  · have hnot := htail y (by rw [hmore]; simp)
    rw [hy, hword] at hnot
    cases hnot

lemma exists_mem_findAll_of_callAt (hname : IsIdentifier name) (h : CallAt code name pre gap post) :
    ∃ m ∈ (callOf name).findAll code, m.past = pre.reverse := by
  obtain ⟨d, hmatches⟩ := matches_callOf hname h
  obtain ⟨m, hm⟩ :
      ∃ m, (callOf name).matchAt ⟨pre.reverse, name.toList ++ (gap ++ '(' :: post)⟩ = some m :=
    Option.isSome_iff_exists.mp (hmatches.isSome_run rfl)
  have hfound := (moves_callOf name).mem_findAll_or_goesOver hm
  rw [reverse_reverse, ← h.text_eq] at hfound
  rcases hfound with hmem | ⟨m', hmem, front, back, hover⟩
  · exact ⟨m, hmem, (place_of_matchAt hm).1⟩
  · exact absurd hover (not_goesOver_of_callAt hname h hmem front back)

lemma exists_mem_findAll_iff (code : List Char) (hname : IsIdentifier name) {P : List Char → Prop} :
    (∃ m ∈ (callOf name).findAll code, P m.past.reverse) ↔
      ∃ pre gap post, CallAt code name pre gap post ∧ P pre := by
  constructor
  · rintro ⟨m, hm, hP⟩
    obtain ⟨gap, -, hcall⟩ := callAt_of_mem_findAll hname hm
    exact ⟨_, gap, _, hcall, hP⟩
  · rintro ⟨pre, gap, post, hcall, hP⟩
    obtain ⟨m, hm, hpast⟩ := exists_mem_findAll_of_callAt hname hcall
    exact ⟨m, hm, by rwa [hpast, reverse_reverse]⟩

/-! ### Calls that count -/

lemma isDefinition_iff (past : List Char) : isDefinition past ↔ EndsInDefinition past.reverse := by
  refine ⟨fun h => ?_, isDefinition_of_endsInDefinition⟩
  rw [isDefinition, test_iff] at h
  obtain ⟨init, rest, d, groups, htext, hmatch⟩ := h
  simp only [definitionEnd, matches_cat_cons_iff, matches_cat_nil_iff, wordEdge, textEnd, spaces,
    Pattern.star,
    matches_edge_iff, matches_words_iff, matches_many_set_iff, matches_opt_literal_iff] at hmatch
  obtain ⟨c₁, g₁, ⟨hedge, rfl, rfl⟩, c₂, g₂, ⟨rfl, w, hw, hread₁⟩, c₃, g₃, ⟨rfl, gap, hgap, hread₂⟩,
      c₄, g₄, ⟨rfl, mark, hmark, hread₃⟩, c₅, g₅, ⟨rfl, gap', hgap', hread₄⟩, c₆, g₆,
      ⟨hend, rfl, rfl⟩, rfl, rfl⟩ := hmatch
  have hnil : d.rest = [] := List.isEmpty_iff.mp hend
  have hrest : rest = w.toList ++ (gap ++ (mark ++ gap')) := by
    rw [show rest = w.toList ++ c₂.rest from hread₁.rest_eq, hread₂.rest_eq, hread₃.rest_eq,
      hread₄.rest_eq, hnil, append_nil]
  refine ⟨init.reverse, gap, mark, gap', w, hw, by rw [← htext, hrest], ?_, hgap, hmark, hgap'⟩
  intro c hc
  have hwords :
      ∀ w ∈ ["new", "function", "fn"], w.toList ≠ [] ∧ w.toList.head?.any wordChar.mem := by
    decide
  rw [getLast?_reverse] at hc
  rw [holds, wordBefore_eq, wordAfter_eq, hrest, head?_append_of_ne_nil _ (hwords w hw).1,
    (hwords w hw).2, Option.mem_def.mp hc] at hedge
  simpa using hedge

lemma follows_reverse_iff (pre : List Char) (chars : String) :
    follows pre.reverse chars ↔ ∃ c ∈ pre.getLast?, c ∈ chars.toList := by
  rw [follows, head?_reverse, Option.any_eq_true]
  simp [Option.mem_def]

lemma hasOperator_eq_true_iff {s : List Char} :
    hasOperator s ↔ "->".toList <:+: s ∨ "::".toList <:+: s := by
  rw [hasOperator, Bool.or_eq_true, Text.occursIn_iff, Text.occursIn_iff]

lemma hasOperator_mono {s t : List Char} (h : s <+: t) (hs : hasOperator s) : hasOperator t := by
  rw [hasOperator_eq_true_iff] at hs ⊢
  exact hs.imp (·.trans h.isInfix) (·.trans h.isInfix)

/-- Of matches from left to right, those after an operator come last, so one that counts is
found. -/
lemma anyGlobal_iff {ms : List Match}
    (h : ms.Pairwise fun m m' => m.past.reverse <+: m'.past.reverse) :
    anyGlobal ms ↔ ∃ m ∈ ms, hasOperator m.past.reverse = false ∧ follows m.past "$\\" = false ∧
      isDefinition m.past = false := by
  induction ms with
  | nil => simp [anyGlobal]
  | cons first ms ih =>
    obtain ⟨hfirst, hrest⟩ := pairwise_cons.mp h
    have hlater : ∀ m ∈ ms, hasOperator first.past.reverse → hasOperator m.past.reverse :=
      fun m hm => hasOperator_mono (hfirst m hm)
    rw [anyGlobal]
    grind

lemma globalCall_iff : GlobalCall code name pre gap post ↔ CallAt code name pre gap post ∧
    hasOperator pre = false ∧ follows pre.reverse "$\\" = false ∧
      isDefinition pre.reverse = false := by
  simp only [← Bool.not_eq_true, hasOperator_eq_true_iff, follows_reverse_iff, isDefinition_iff,
    reverse_reverse]
  have hchars : "$\\".toList = ['$', '\\'] := by decide
  rw [hchars]
  constructor
  · rintro ⟨hcall, harrow, hcolons, hvariable, hqualified, hdefined⟩
    grind
  · rintro ⟨hcall, hoperator, hbefore, hdefined⟩
    refine ⟨hcall, ?_, ?_, ?_, ?_, hdefined⟩ <;> grind

lemma hasGlobalCall_iff (hname : IsIdentifier name) :
    hasGlobalCall code (callOf name) ↔ ∃ pre gap post, GlobalCall code name pre gap post := by
  have hmatches := exists_mem_findAll_iff code hname (P := fun pre => hasOperator pre = false ∧
    follows pre.reverse "$\\" = false ∧ isDefinition pre.reverse = false)
  simp only [reverse_reverse] at hmatches
  rw [hasGlobalCall, anyGlobal_iff ((moves_callOf name).pairwise_findAll code), hmatches]
  simp only [globalCall_iff]

def Language.Feature.IsCallOf (feature : Language.Feature) (name : String) : Prop :=
  feature.pattern = callOf name ∧ feature.isCall = true ∧ feature.excluded = none

instance (feature : Language.Feature) (name : String) : Decidable (feature.IsCallOf name) :=
  inferInstanceAs (Decidable (_ ∧ _ ∧ _))

/-- A function is called, but not right after one of some marks. -/
def Language.Counts (code : List Char) (name : String) : Prop :=
  ∃ pre gap post, CallAt code name pre gap post ∧ (∀ c ∈ pre.getLast?, c ∉ ".$>:\\".toList) ∧
    ¬ EndsInDefinition pre

lemma Language.Feature.IsCallOf.occursOn_iff {feature : Language.Feature}
    (h : feature.IsCallOf name)
    (hname : IsIdentifier name) : feature.occursOn code ↔ Counts code name := by
  have hmatches := exists_mem_findAll_iff code hname (P := fun pre =>
    (∀ c ∈ pre.getLast?, c ∉ ".$>:\\".toList) ∧ ¬ EndsInDefinition pre)
  obtain ⟨hpattern, hcall, hexcluded⟩ := h
  rw [Counts, ← hmatches, Language.Feature.occursOn, hexcluded, hcall, hpattern]
  simp only [Option.any_none, Bool.not_false, Bool.true_and, if_true, any_eq_true,
    Bool.not_eq_true', Bool.or_eq_false_iff]
  refine exists_congr fun m => and_congr_right fun _ => ?_
  have hfollows := follows_reverse_iff m.past.reverse ".$>:\\"
  have hdefinition := isDefinition_iff m.past
  rw [reverse_reverse] at hfollows
  rw [← Bool.not_eq_true, ← Bool.not_eq_true, hfollows, hdefinition]
  simp only [not_exists, not_and]

/-! ### One symbol on one line -/

def findingsAbout (kinds : List Kind) (key name : String) (number : Nat) (findings : List Finding) :
    List Finding :=
  findings.filter fun x => x.kind ∈ kinds ∧ x.contextText key = name ∧ x.line = number

/-- What is found of a symbol in a version: its removal once that has come, else its deprecation
once that has come, else nothing. -/
structure RemovalFirst {α : Type} (since : α → String) (removal deprecation : α → Finding)
    (version : String) (removed deprecated : Option α) (found : List Finding) : Prop where
  gone : ∀ r, removed = some r → compareTexts version (since r) ≠ .lt → found = [removal r]
  leaving : ∀ d, deprecated = some d → compareTexts version (since d) ≠ .lt →
    (∀ r, removed = some r → compareTexts version (since r) = .lt) → found = [deprecation d]
  staying : (∀ r, removed = some r → compareTexts version (since r) = .lt) →
    (∀ d, deprecated = some d → compareTexts version (since d) = .lt) → found = []

/-- A finding of some kinds on a line that names a symbol. -/
def Concerns (kinds : List Kind) (key name : String) (number : Nat) (x : Finding) : Prop :=
  x.kind ∈ kinds ∧ x.contextText key = name ∧ x.line = number

variable {kinds : List Kind} {key : String} {number : Nat} {line : List Char} {f : File}
  {found : Nat × List Char → List Finding}

@[simp] lemma findingsAbout_append (findings more : List Finding) :
    findingsAbout kinds key name number (findings ++ more) =
      findingsAbout kinds key name number findings ++ findingsAbout kinds key name number more := by
  rw [findingsAbout, filter_append, findingsAbout, findingsAbout]

lemma findingsAbout_eq_nil {findings : List Finding}
    (h : ∀ x ∈ findings, ¬ Concerns kinds key name number x) :
    findingsAbout kinds key name number findings = [] := by
  rw [findingsAbout, filter_eq_nil_iff]
  intro x hx
  simpa [Concerns] using h x hx

lemma findingsAbout_filterMap_eq_nil {α : Type} {keys : List α} {found : α → Option Finding}
    (h : ∀ a x, found a = some x → ¬ Concerns kinds key name number x) :
    findingsAbout kinds key name number (keys.filterMap found) = [] := by
  refine findingsAbout_eq_nil fun x hx => ?_
  obtain ⟨a, -, hx⟩ := mem_filterMap.mp hx
  exact h a x hx

/-- Of findings about different symbols, those about one symbol are what was found for it. -/
lemma findingsAbout_filterMap {α : Type} {keys : List α} {nameOf : α → String}
    {found : α → Option Finding} {a : α} (hnodup : (keys.map nameOf).Nodup) (hmem : a ∈ keys)
    (hfound : ∀ b x, found b = some x → Concerns kinds key (nameOf b) number x) :
    findingsAbout kinds key (nameOf a) number (keys.filterMap found) = (found a).toList := by
  rw [findingsAbout, filter_filterMap, filterMap_eq_flatMap_toList, flatMap_eq_of_key hnodup hmem]
  · cases hx : found a with
    | none => rfl
    | some x => rw [Option.filter_some_pos (by simpa [Concerns] using hfound a x hx)]
  · intro b _ hne
    cases hx : found b with
    | none => rfl
    | some x => rw [Option.filter_some_neg (by simp [(hfound b x hx).2.1, hne]), Option.toList_none]

lemma findingsAbout_codeLines (hlines : ∀ l, ∀ x ∈ found l, x.line = l.1)
    (hline : (number, line) ∈ f.codeLines) :
    findingsAbout kinds key name number (f.codeLines.flatMap found) =
      findingsAbout kinds key name number (found (number, line)) := by
  rw [findingsAbout, filter_flatMap, flatMap_eq_of_key (nodup_number_codeLines f) hline,
    findingsAbout]
  intro l _ hne
  refine findingsAbout_eq_nil fun x hx habout => hne ?_
  exact_mod_cast (hlines l x hx).symm.trans habout.2.2

lemma findingsAbout_codeLines_eq_nil (hlines : ∀ l, ∀ x ∈ found l, x.line = l.1)
    (hline : ∀ line, (number, line) ∉ f.codeLines) :
    findingsAbout kinds key name number (f.codeLines.flatMap found) = [] := by
  refine findingsAbout_eq_nil fun x hx habout => ?_
  obtain ⟨⟨other, line⟩, hmem, hx⟩ := mem_flatMap.mp hx
  have hnumber : (other : Int) = number := (hlines _ x hx).symm.trans habout.2.2
  exact hline line (Int.ofNat.inj hnumber ▸ hmem)

/-! ### Functions of the platform -/

namespace Platform

variable {changes : Changes} {version path : String} {x : Finding}

def changedKinds : List Kind := [.removedFunction, .deprecatedFunction]

lemma concerns_of_changedFinding? (h : changedFinding? changes name path number version = some x) :
    Concerns changedKinds "function" name number x := by
  rcases changedFinding?_cases h with ⟨c, -, rfl⟩ | ⟨c, -, rfl⟩
  · refine ⟨of_decide_eq_true rfl, contextText_of_get? ?_, rfl⟩
    simp [removedFinding, texts, ofPairs]
  · refine ⟨of_decide_eq_true rfl, contextText_of_get? ?_, rfl⟩
    simp [deprecatedFinding, texts, ofPairs]

lemma mem_names_of_changedFinding? (h : changedFinding? changes name path number version = some x) :
    name ∈ changes.names := by
  have hmem :
      ∀ {table : Table Change} {c : Change}, get? name table = some c → name ∈ table.names :=
    fun hget => mem_map_of_mem (Table.mem_of_get? hget)
  rw [Changes.names, mem_sortedNames, mem_append]
  rcases changedFinding?_cases h with ⟨c, hc, -⟩ | ⟨c, hc, -⟩
  · exact .inr (hmem (Option.filter_eq_some_iff.mp hc).1)
  · exact .inl (hmem hc)

lemma line_of_mem_lineFindings (hx : x ∈ lineFindings changes version path number line) :
    x.line = number := by
  rcases mem_lineFindings hx with ⟨name, -, hx⟩ | ⟨name, required, -, rfl⟩ | ⟨name, c, rfl⟩
  · exact (concerns_of_changedFinding? hx).2.2
  · rfl
  · rfl

lemma findingsAbout_lineFindings (name : String) : findingsAbout changedKinds "function" name number
      (lineFindings changes version path number line) =
      if hasGlobalCall (clean line) (callOf name) then
        (changedFinding? changes name path number version).toList else [] := by
  -- the findings about later functions and hooks are of other kinds
  rw [lineFindings, findingsAbout_append, findingsAbout_append]
  refine .trans (congrArg₂ _ (congrArg₂ _ ?_ (findingsAbout_filterMap_eq_nil fun entry x hx => ?_))
    (findingsAbout_filterMap_eq_nil fun entry x hx => ?_)) ((append_nil _).trans (append_nil _))
  rotate_left
  · obtain ⟨-, hx⟩ := Option.ite_none_right_eq_some.mp hx
    cases hx
    exact not_and_of_not_left _ (of_decide_eq_true rfl)
  · obtain ⟨-, hx⟩ := Option.ite_none_right_eq_some.mp hx
    cases hx
    exact not_and_of_not_left _ (of_decide_eq_true rfl)
  by_cases hmem : name ∈ changes.names
  · have hnodup : (changes.names.map fun n => n).Nodup := by
      rw [map_id']
      exact (pairwise_sortedNames _).imp ne_of_lt
    rw [findingsAbout_filterMap hnodup hmem fun other x hx =>
      concerns_of_changedFinding? (Option.ite_none_right_eq_some.mp hx).2]
    split <;> rfl
  · have hnone : changedFinding? changes name path number version = none := by
      rw [Option.eq_none_iff_forall_ne_some]
      exact fun x hx => hmem (mem_names_of_changedFinding? hx)
    rw [hnone, Option.toList_none, ite_self]
    refine findingsAbout_filterMap_eq_nil fun other x hx habout => hmem ?_
    obtain ⟨-, hx⟩ := Option.ite_none_right_eq_some.mp hx
    rw [← habout.2.1, (concerns_of_changedFinding? hx).2.1]
    exact mem_names_of_changedFinding? hx

lemma removalFirst_changedFinding? (changes : Changes) (name path : String) (number : Nat)
    (version : String) : RemovalFirst Change.version (removedFinding name path number version)
      (deprecatedFinding name path number version) version (get? name changes.removed)
      (get? name changes.deprecated) (changedFinding? changes name path number version).toList := by
  have happlies : ∀ c : Change, c.applies version ↔ compareTexts version c.version ≠ .lt :=
    fun c => bne_iff_ne
  have hdue : ∀ {change? : Option Change} {c}, change? = some c →
      compareTexts version c.version ≠ .lt → change?.filter (·.applies version) = some c := by
    intro change? c hc hversion
    rw [Option.filter_eq_some_iff]
    exact ⟨hc, (happlies c).mpr hversion⟩
  have hlater :
      ∀ {change? : Option Change}, (∀ c, change? = some c → compareTexts version c.version = .lt) →
      change?.filter (·.applies version) = none := by
    intro change? hversion
    rw [Option.filter_eq_none_iff]
    exact fun c hc hc' => (happlies c).mp hc' (hversion c hc)
  constructor
  · intro r hr hversion
    rw [changedFinding?, hdue hr hversion]
    rfl
  · intro d hd hversion hremoved
    rw [changedFinding?, hlater hremoved, hdue hd hversion]
    rfl
  · intro hremoved hdeprecated
    rw [changedFinding?, hlater hremoved, hlater hdeprecated]
    rfl

lemma findingsAbout_detect {target : Combination} (hline : (number, line) ∈ f.codeLines)
    (name : String) : findingsAbout changedKinds "function" name number (detect changes target f) =
      if hasGlobalCall (clean line) (callOf name) then
        (changedFinding? changes name f.path number target.wp).toList else [] := by
  rw [← findingsAbout_lineFindings]
  exact findingsAbout_codeLines (fun l x hx => line_of_mem_lineFindings hx) hline

end Platform

/-! ### Constructs of the language -/

namespace Language

variable {version path : String} {r d : Feature} {target : Combination}

def changedKinds : List Kind := [.removedPhpFeature, .deprecatedPhpFeature]

lemma findingsAbout_map_filter {features : List Feature} (hnodup : (features.map (·.name)).Nodup)
    {feature : Feature}
    (hmem : feature ∈ features) (p : Feature → Bool) {report : Feature → Finding}
    (hreport : ∀ g, Concerns changedKinds "feature" g.name number (report g)) :
    findingsAbout changedKinds "feature" feature.name number ((features.filter p).map report) =
      if p feature then [report feature] else [] := by
  rw [← filterMap_eq_filter, map_filterMap, findingsAbout_filterMap hnodup hmem]
  · cases hp : p feature <;> simp [Option.guard, hp]
  · intro g x hx
    obtain ⟨g, hg, rfl⟩ := Option.map_eq_some_iff.mp hx
    obtain ⟨rfl, -⟩ := Option.guard_eq_some_iff.mp hg
    exact hreport g

lemma nodup_deprecated : (deprecated.map (·.name)).Nodup := by decide

lemma nodup_removed : (removed.map (·.name)).Nodup := by decide

lemma isRemoved_eq (hr : r ∈ removed) (version : String) :
    isRemoved r.name version = atLeast version r.version := by
  rw [Bool.eq_iff_iff, isRemoved, any_eq_true]
  constructor
  · rintro ⟨g, hg, hsame⟩
    rw [Bool.and_eq_true, beq_iff_eq] at hsame
    rw [← inj_on_of_nodup_map nodup_removed hg hr hsame.1]
    exact hsame.2
  · intro hversion
    exact ⟨r, hr, by rw [beq_self_eq_true, hversion, Bool.true_and]⟩

def foundOn (target : Combination) (path : String) (l : Nat × List Char) : List Finding :=
  if isScript l.2 || (clean l.2).isEmpty then [] else lineFindings target.php path l.1 (clean l.2)

lemma detect_eq (target : Combination) (f : File) :
    detect target f = f.codeLines.flatMap (foundOn target f.path) :=
  rfl

lemma line_of_mem_foundOn {l : Nat × List Char} {x : Finding} (hx : x ∈ foundOn target path l) :
    x.line = l.1 := by
  rcases mem_lineFindings hx with ⟨g, rfl⟩ | ⟨g, rfl⟩ | ⟨g, -, rfl⟩ <;> rfl

lemma findingsAbout_lineFindings (hd : d ∈ deprecated) (hr : r ∈ removed) (hname : d.name = r.name)
    (code : List Char) :
    findingsAbout changedKinds "feature" d.name number (lineFindings version path number code) =
      (if d.occursOn code && atLeast version d.version && !Version.atLeast version r.version then
        [deprecatedFinding version path number d] else []) ++
      (if r.occursOn code && atLeast version r.version then [removedFinding version path number r]
        else []) := by
  have hdeprecated g :
      Concerns changedKinds "feature" g.name number (deprecatedFinding version path number g) := by
    refine ⟨of_decide_eq_true rfl, contextText_of_get? ?_, rfl⟩
    simp [deprecatedFinding, texts, ofPairs]
  have hremoved g :
      Concerns changedKinds "feature" g.name number (removedFinding version path number g) := by
    refine ⟨of_decide_eq_true rfl, contextText_of_get? ?_, rfl⟩
    simp [removedFinding, texts, ofPairs]
  have hrequired : findingsAbout changedKinds "feature" d.name number
      ((introduced.filter fun g => g.occursOn code && Version.below version g.version).map
        (requiredFinding version path number)) = [] := by
    refine findingsAbout_eq_nil fun x hx => ?_
    obtain ⟨g, -, rfl⟩ := mem_map.mp hx
    exact not_and_of_not_left _ (of_decide_eq_true rfl)
  rw [lineFindings, findingsAbout_append, findingsAbout_append, hrequired, append_nil,
    findingsAbout_map_filter nodup_deprecated hd _ hdeprecated, hname,
    findingsAbout_map_filter nodup_removed hr _ hremoved, isRemoved_eq hr]

def changedFunctions : List (String × String) :=
  [("each() function", "each"), ("create_function()", "create_function")]

lemma isIdentifier_of_mem_changedFunctions {entry : String × String}
    (h : entry ∈ changedFunctions) : IsIdentifier entry.2 := by
  rcases mem_pair.mp h with rfl | rfl
  · exact ⟨'e', "ach".toList, rfl, by decide, all_eq_true.mp (by decide)⟩
  · exact ⟨'c', "reate_function".toList, rfl, by decide, all_eq_true.mp (by decide)⟩

lemma exists_mem_changedFunctions : ∀ d ∈ deprecated, ∀ r ∈ removed, d.name = r.name →
    ∃ entry ∈ changedFunctions, entry.1 = d.name ∧ d.IsCallOf entry.2 ∧ r.IsCallOf entry.2 := by
  decide +kernel

lemma findingsAbout_detect (hd : d ∈ deprecated) (hr : r ∈ removed) (hname : d.name = r.name)
    (hline : (number, line) ∈ f.codeLines) :
    findingsAbout changedKinds "feature" d.name number (detect target f) =
      if isScript line || (clean line).isEmpty then []
      else (if d.occursOn (clean line) && atLeast target.php d.version &&
          !Version.atLeast target.php r.version then
            [deprecatedFinding target.php f.path number d] else []) ++
        (if r.occursOn (clean line) && atLeast target.php r.version then
          [removedFinding target.php f.path number r] else []) := by
  rw [← findingsAbout_lineFindings hd hr hname, detect_eq,
    findingsAbout_codeLines (fun l x hx => line_of_mem_foundOn hx) hline, foundOn]
  split
  · rfl
  · rfl

section

variable {target : Combination} {d r : Feature} (hd : d ∈ deprecated) (hr : r ∈ removed)
  (hsame : d.name = r.name)
  (hname : IsIdentifier name) (hdcall : d.IsCallOf name) (hrcall : r.IsCallOf name)

include hd hr hsame hname hdcall hrcall

lemma removalFirst_of_callAt (hline : (number, line) ∈ f.codeLines)
    (hscript : isScript line = false) (hcall : CallAt (clean line) name pre gap post)
    (hbefore : ∀ c ∈ pre.getLast?, c ∉ ".$>:\\".toList) (hdefined : ¬ EndsInDefinition pre) :
    RemovalFirst Feature.version (removedFinding target.php f.path number)
      (deprecatedFinding target.php f.path number) target.php (some r) (some d)
      (findingsAbout changedKinds "feature" d.name number (detect target f)) := by
  have hcounts : Counts (clean line) name := ⟨pre, gap, post, hcall, hbefore, hdefined⟩
  have hne : (clean line).isEmpty = false := by
    rw [hcall.text_eq]
    simp
  rw [findingsAbout_detect hd hr hsame hline, hscript, hne, (hdcall.occursOn_iff hname).mpr hcounts,
    (hrcall.occursOn_iff hname).mpr hcounts]
  have hversion : ∀ s t, atLeast s t ↔ compareTexts s t ≠ .lt := fun s t => bne_iff_ne
  have hversion' : ∀ s t, atLeast s t = false ↔ compareTexts s t = .lt :=
    fun s t => bne_eq_false_iff_eq
  constructor
  · rintro _ ⟨⟩ hremoved
    rw [(hversion _ _).mpr hremoved]
    simp
  · rintro _ ⟨⟩ hdeprecated hremoved
    rw [(hversion _ _).mpr hdeprecated, (hversion' _ _).mpr (hremoved r rfl)]
    simp
  · intro hremoved hdeprecated
    rw [(hversion' _ _).mpr (hremoved r rfl), (hversion' _ _).mpr (hdeprecated d rfl)]
    simp

/-- Where every call is a definition or comes right after one of the marks, nothing is found. -/
lemma findingsAbout_detect_eq_nil (h : ∀ line pre gap post, (number, line) ∈ f.codeLines →
      isScript line = false → CallAt (clean line) name pre gap post →
        (∃ c ∈ pre.getLast?, c ∈ ".$>:\\".toList) ∨ EndsInDefinition pre) :
    findingsAbout changedKinds "feature" d.name number (detect target f) = [] := by
  by_cases hcode : ∃ line, (number, line) ∈ f.codeLines
  · obtain ⟨line, hline⟩ := hcode
    rw [findingsAbout_detect hd hr hsame hline]
    cases hscript : isScript line with
    | true => rfl
    | false =>
      have hnone : ¬ Counts (clean line) name := by
        rintro ⟨pre, gap, post, hcall, hbefore, hdefined⟩
        rcases h line pre gap post hline hscript hcall with ⟨c, hc, hmark⟩ | hdefinition
        · exact hbefore c hc hmark
        · exact hdefined hdefinition
      have hdoccurs := mt (hdcall.occursOn_iff hname).mp hnone
      have hroccurs := mt (hrcall.occursOn_iff hname).mp hnone
      simp [hdoccurs, hroccurs]
  · rw [detect_eq]
    exact findingsAbout_codeLines_eq_nil (fun l x hx => line_of_mem_foundOn hx) fun line hline =>
      hcode ⟨line, hline⟩

end

end Language

lemma notMem_codeLines_of_state (h : (f.lines.take number).foldl LineState.update {} ≠ {})
    (line : List Char) : (number, line) ∉ f.codeLines :=
  fun hline => h (spec_of_mem_codeLines hline).2.2

/-- A function that changed in the platform is found on every line of code that calls it as a global
function: once, as removed from the version of its removal on, and before that as deprecated from
the version of its deprecation on. On other lines it is not found. The same holds for the functions
among the constructs of the language that are both deprecated and removed, on lines that do not look
like a script. There only the character right before a call tells whether it counts, whatever stands
further left. -/
theorem removal_before_deprecation :
    (∀ (changes : Platform.Changes) (target : Combination) (f : File) (name : String)
      (number : Nat), IsIdentifier name →
      (∀ line pre gap post, (number, line) ∈ f.codeLines →
        GlobalCall (clean line) name pre gap post →
        RemovalFirst Platform.Change.version (Platform.removedFinding name f.path number target.wp)
          (Platform.deprecatedFinding name f.path number target.wp) target.wp
            (get? name changes.removed) (get? name changes.deprecated) (findingsAbout
            Platform.changedKinds "function" name number (Platform.detect changes target f))) ∧
      ((∀ line pre gap post, (number, line) ∈ f.codeLines →
        ¬ GlobalCall (clean line) name pre gap post) →
        findingsAbout Platform.changedKinds "function" name number
          (Platform.detect changes target f) = []) ∧
      ((f.lines.take number).foldl LineState.update {} ≠ {} →
        findingsAbout Platform.changedKinds "function" name number
          (Platform.detect changes target f) = [])) ∧
    (∀ d ∈ Language.deprecated, ∀ r ∈ Language.removed, d.name = r.name →
      ∃ name, (d.name, name) ∈ Language.changedFunctions ∧
        ∀ (target : Combination) (f : File) (number : Nat),
      (∀ line pre gap post, (number, line) ∈ f.codeLines → isScript line = false →
        CallAt (clean line) name pre gap post → (∀ c ∈ pre.getLast?, c ∉ ".$>:\\".toList) →
        ¬ EndsInDefinition pre →
        RemovalFirst Language.Feature.version (Language.removedFinding target.php f.path number)
          (Language.deprecatedFinding target.php f.path number) target.php (some r) (some d)
          (findingsAbout Language.changedKinds "feature" d.name number
            (Language.detect target f))) ∧
      ((∀ line pre gap post, (number, line) ∈ f.codeLines → isScript line = false →
          CallAt (clean line) name pre gap post →
          (∃ c ∈ pre.getLast?, c ∈ ".$>:\\".toList) ∨ EndsInDefinition pre) →
        findingsAbout Language.changedKinds "feature" d.name number (Language.detect target f) =
          []) ∧
      ((f.lines.take number).foldl LineState.update {} ≠ {} →
        findingsAbout Language.changedKinds "feature" d.name number (Language.detect target f) =
          [])) := by
  constructor
  · intro changes target f name number hname
    have hnone : (∀ line pre gap post, (number, line) ∈ f.codeLines →
        ¬ GlobalCall (clean line) name pre gap post) → findingsAbout Platform.changedKinds
        "function" name number (Platform.detect changes target f) = [] := by
      intro h
      by_cases hcode : ∃ line, (number, line) ∈ f.codeLines
      · obtain ⟨line, hline⟩ := hcode
        rw [Platform.findingsAbout_detect hline, if_neg]
        rw [hasGlobalCall_iff hname]
        rintro ⟨pre, gap, post, hcall⟩
        exact h line pre gap post hline hcall
      · exact findingsAbout_codeLines_eq_nil (fun l x hx => Platform.line_of_mem_lineFindings hx)
          fun line hline => hcode ⟨line, hline⟩
    refine ⟨fun line pre gap post hline hcall => ?_, hnone, fun hstate => hnone ?_⟩
    · rw [Platform.findingsAbout_detect hline,
        if_pos ((hasGlobalCall_iff hname).mpr ⟨pre, gap, post, hcall⟩)]
      exact Platform.removalFirst_changedFinding? changes name f.path number target.wp
    · exact fun line _ _ _ hline => absurd hline (notMem_codeLines_of_state hstate line)
  · intro d hd r hr hsame
    obtain ⟨⟨shared, name⟩, hmem, rfl, hdcall, hrcall⟩ :=
      Language.exists_mem_changedFunctions d hd r hr hsame
    have hname := Language.isIdentifier_of_mem_changedFunctions hmem
    refine ⟨name, hmem, fun target f number => ⟨?_, ?_, fun hstate => ?_⟩⟩
    · intro line pre gap post hline hscript hcall hbefore hdefined
      exact Language.removalFirst_of_callAt hd hr hsame hname hdcall hrcall hline hscript hcall
        hbefore hdefined
    · exact Language.findingsAbout_detect_eq_nil hd hr hsame hname hdcall hrcall
    · exact Language.findingsAbout_detect_eq_nil hd hr hsame hname hdcall hrcall
        fun line _ _ _ hline => absurd hline (notMem_codeLines_of_state hstate line)

/-- A file with a call of a function of the platform and a call of a function of the language. -/
def changedFile : File :=
  ⟨"a.php", ["$t = js_escape($text);".toList, "$this->rows = each($all);".toList]⟩

lemma calls_changedFile :
    GlobalCall (clean "$t = js_escape($text);".toList) "js_escape" "$t = ".toList []
      "$text);".toList ∧
    CallAt (clean "$this->rows = each($all);".toList) "each" "$this->rows = ".toList []
      "$all);".toList := by
  constructor
  · exact globalCall_iff.mpr
      ⟨⟨by decide +kernel, by simp, by rintro _ ⟨⟩; decide⟩, by decide +kernel⟩
  · exact ⟨by decide +kernel, by simp, by rintro _ ⟨⟩; decide⟩

/-- Both functions are deprecated in one version and removed in a later one. -/
theorem removal_before_deprecation_changedFile :
    findingsAbout Platform.changedKinds "function" "js_escape" 1
      (Platform.detect .builtin ⟨"8.1", "2.9"⟩ changedFile) =
      [Platform.deprecatedFinding "js_escape" "a.php" 1 "2.9" ⟨"2.8.0", "esc_js"⟩] ∧
    findingsAbout Platform.changedKinds "function" "js_escape" 1
      (Platform.detect .builtin ⟨"8.1", "3.0"⟩ changedFile) =
      [Platform.removedFinding "js_escape" "a.php" 1 "3.0" ⟨"3.0.0", "esc_js"⟩] ∧
    ∃ d ∈ Language.deprecated, ∃ r ∈ Language.removed, d.name = r.name ∧
      findingsAbout Language.changedKinds "feature" d.name 2 (Language.detect ⟨"7.4",
        "6.5"⟩ changedFile) = [Language.deprecatedFinding "7.4" "a.php" 2 d] ∧
      findingsAbout Language.changedKinds "feature" d.name 2 (Language.detect ⟨"8.0",
        "6.5"⟩ changedFile) = [Language.removedFinding "8.0" "a.php" 2 r] := by
  obtain ⟨hjs, heach⟩ := calls_changedFile
  have hid : IsIdentifier "js_escape" :=
    ⟨'j', "s_escape".toList, rfl, by decide, all_eq_true.mp (by decide)⟩
  have hremoved : get? "js_escape" Platform.Changes.builtin.removed = some ⟨"3.0.0", "esc_js"⟩ := by
    decide
  have hdeprecated :
      get? "js_escape" Platform.Changes.builtin.deprecated = some ⟨"2.8.0", "esc_js"⟩ := by
    decide
  have hfirst : (1, "$t = js_escape($text);".toList) ∈ changedFile.codeLines := by decide +kernel
  have hsecond : (2, "$this->rows = each($all);".toList) ∈ changedFile.codeLines := by
    decide +kernel
  have hdefined : ¬ EndsInDefinition "$this->rows = ".toList :=
    mt (isDefinition_iff "$this->rows = ".toList.reverse).mpr (by decide +kernel)
  have hfound := fun target =>
    (removal_before_deprecation.1 .builtin target changedFile "js_escape" 1 hid).1 _ _ _ _ hfirst
      hjs
  refine ⟨(hfound ⟨"8.1", "2.9"⟩).leaving _ hdeprecated (by decide +kernel) fun r hr => ?_,
    (hfound ⟨"8.1", "3.0"⟩).gone _ hremoved (by decide +kernel), ?_⟩
  · rw [hremoved] at hr
    cases hr
    decide +kernel
  · refine ⟨_, mem_cons_self, _, mem_of_getElem? (i := 3) rfl, rfl, ?_⟩
    obtain ⟨name, hname, hall⟩ :=
      removal_before_deprecation.2 _ mem_cons_self _ (mem_of_getElem? (i := 3) rfl) rfl
    obtain rfl : name = "each" := by simpa [Language.changedFunctions] using hname
    have hfound := fun target =>
      (hall target changedFile 2).1 _ _ _ _ hsecond (by decide +kernel) heach
        (by rintro _ ⟨⟩; decide) hdefined
    refine ⟨(hfound ⟨"7.4", "6.5"⟩).leaving _ rfl (by decide +kernel) fun r hr => ?_,
      (hfound ⟨"8.0", "6.5"⟩).gone _ rfl (by decide +kernel)⟩
    cases hr
    decide +kernel

/-- A line of code that looks like a script is not searched for constructs of the language, although
it calls a function that was removed. -/
theorem detect_scriptLike_call :
    let line := "array_walk($rows, function () \x7b each($rows); \x7d);".toList
    (2, line) ∈ (File.mk "/plugin/a.php" ["<?php".toList, line]).codeLines ∧
      (∃ pre gap post, GlobalCall (clean line) "each" pre gap post) ∧
      compareTexts "8.0" "8.0.0" ≠ .lt ∧
      Language.detect ⟨"8.0", "6.5"⟩ ⟨"/plugin/a.php", ["<?php".toList, line]⟩ = [] := by
  intro line
  have hid : IsIdentifier "each" := Language.isIdentifier_of_mem_changedFunctions mem_cons_self
  exact ⟨by decide +kernel, (hasGlobalCall_iff hid).mp (by decide +kernel), by decide +kernel,
    by decide +kernel⟩

end PluginAudit.Detector
