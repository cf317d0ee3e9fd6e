import PluginAudit.Proofs.DetectorContract
import PluginAudit.Proofs.DeclaredSymbols

/-!
Undefined functions that are reported. Main statement: each of them is called by its plain name on a
line of code, and unless it is a function of admin pages nothing provides it.
-/

open List

namespace PluginAudit.Source

/-! ### Lines of code -/

lemma getElem?_statesFrom (s : LineState) (lines : List (List Char)) (k : Nat) :
    (statesFrom s lines)[k]? = lines[k]?.map fun line =>
      ((lines.take (k + 1)).foldl LineState.update s, line) := by
  induction lines generalizing s k with
  | nil => rfl
  | cons line lines ih =>
    cases k with
    | zero => rfl
    | succ k => exact ih (s.update line) k

/-- A line of code with its number: none of the lines up to it leaves a comment, a heredoc or a
script open. -/
lemma spec_of_mem_codeLines {f : File} {number : Nat} {line : List Char}
    (h : (number, line) ∈ f.codeLines) : 0 < number ∧ f.lines[number - 1]? = some line ∧
      (f.lines.take number).foldl LineState.update {} = {} := by
  obtain ⟨⟨number', state, line'⟩, hmem, hline⟩ := mem_filterMap.mp h
  dsimp only at hline
  split at hline
  case isTrue => cases hline
  case isFalse hcode =>
    cases hline
    obtain ⟨⟨⟨state', line'⟩, k⟩, hzip, heq⟩ := mem_map.mp hmem
    cases heq
    rw [mk_mem_zipIdx_iff_le_and_getElem?_sub] at hzip
    obtain ⟨hle, hget⟩ := hzip
    rw [getElem?_statesFrom, Option.map_eq_some_iff] at hget
    obtain ⟨line'', hline, hstate⟩ := hget
    rw [Prod.mk.injEq, Nat.sub_add_cancel hle] at hstate
    obtain ⟨rfl, rfl⟩ := hstate
    refine ⟨hle, hline, ?_⟩
    generalize (f.lines.take number).foldl LineState.update {} = state at hcode ⊢
    obtain ⟨comment, heredoc, script⟩ := state
    simpa [LineState.skippable, and_assoc] using hcode

end PluginAudit.Source

namespace PluginAudit.Detector

open Source Text

/-! ### Definitions -/

/-- The text before a name makes it a definition or an instantiation: it ends in one of three words,
possibly with white space and a reference mark after it. -/
def EndsInDefinition (pre : List Char) : Prop :=
  ∃ init gap mark gap', ∃ w ∈ ["new", "function", "fn"],
    pre = init ++ (w.toList ++ (gap ++ (mark ++ gap'))) ∧
    (∀ c ∈ init.getLast?, CharSet.wordChar.mem c = false) ∧
    (∀ c ∈ gap, CharSet.space.mem c = true) ∧ (mark = "&".toList ∨ mark = []) ∧
    ∀ c ∈ gap', CharSet.space.mem c = true

lemma isDefinition_of_endsInDefinition {past : List Char} (h : EndsInDefinition past.reverse) :
    isDefinition past := by
  obtain ⟨init, gap, mark, gap', w, hw, hpre, hinit, hgap, hmark, hgap'⟩ := h
  rw [isDefinition, Pattern.test_iff]
  refine ⟨init.reverse, w.toList ++ (gap ++ (mark ++ gap')),
    ⟨gap'.reverse ++ (mark.reverse ++ (gap.reverse ++ (w.toList.reverse ++ init.reverse))), []⟩, [],
    ?_, ?_⟩
  · rw [reverse_reverse, hpre]
  · have hedge : Cursor.holds ⟨init.reverse, w.toList ++ (gap ++ (mark ++ gap'))⟩ .word := by
      have hbefore : init.getLast?.any CharSet.wordChar.mem = false := by
        cases hlast : init.getLast? with
        | none => rfl
        | some c => exact hinit c hlast
      have hafter : ∀ w ∈ ["new", "function", "fn"], w.toList.head?.any CharSet.wordChar.mem := by
        decide
      have hne : ∀ w ∈ ["new", "function", "fn"], w.toList ≠ [] := by decide
      rw [Cursor.holds, Cursor.wordBefore_eq, Cursor.wordAfter_eq, head?_reverse, hbefore,
        head?_append_of_ne_nil _ (hne w hw), hafter w hw]
      rfl
    simp only [definitionEnd, Pattern.matches_cat_cons_iff, Pattern.matches_cat_nil_iff,
      Pattern.wordEdge, Pattern.textEnd, Pattern.spaces, Pattern.star, Pattern.matches_edge_iff,
      Pattern.matches_words_iff, Pattern.matches_many_set_iff, Pattern.matches_opt_literal_iff]
    exact ⟨_, [], ⟨hedge, rfl, rfl⟩, _, [], ⟨rfl, w, hw, .of_rest _ _ _⟩, _, [],
      ⟨rfl, gap, hgap, .of_rest _ _ _⟩, _, [], ⟨rfl, mark, hmark, .of_rest _ _ _⟩, _, [],
      ⟨rfl, gap', hgap', (append_nil gap').symm, rfl⟩, _, [], ⟨rfl, rfl, rfl⟩, rfl, rfl⟩

lemma not_endsInDefinition_append (init : List Char) : ¬ EndsInDefinition (init ++ ['\\']) := by
  rintro ⟨init', gap, mark, gap', w, hw, hpre, -, hgap, hmark, hgap'⟩
  have hspace : CharSet.space.mem '\\' = false := by decide
  have hwords : ∀ w ∈ ["new", "function", "fn"], w.toList ≠ [] ∧ '\\' ∉ w.toList := by decide
  have hlast : (init' ++ (w.toList ++ (gap ++ (mark ++ gap')))).getLast? = some '\\' := by
    rw [← hpre, getLast?_concat]
  rw [getLast?_append_of_ne_nil _ (append_ne_nil_of_left_ne_nil (hwords w hw).1 _)] at hlast
  have hmem := mem_of_getLast? hlast
  simp only [mem_append] at hmem
  rcases hmem with h | h | h | h
  · exact (hwords w hw).2 h
  · exact absurd (hgap _ h) (by simp [hspace])
  · rcases hmark with rfl | rfl <;> exact absurd h (by decide)
  · exact absurd (hgap' _ h) (by simp [hspace])

end PluginAudit.Detector

namespace PluginAudit.Detector.UndefinedFunction

open Source Text

variable {code : List Char}

/-! ### Calls -/

/-- A function is called by its plain name: the name stands before a parenthesis, it is no part of a
longer name, no member, no name in a namespace, and it is neither defined nor instantiated there. -/
structure PlainCall (code : List Char) (name : String) (pre gap post : List Char) : Prop where
  text_eq : code = pre ++ (name.toList ++ (gap ++ '(' :: post))
  gap_space : ∀ c ∈ gap, CharSet.space.mem c = true
  not_word : ∀ c ∈ pre.getLast?, CharSet.wordChar.mem c = false
  not_member : ∀ c ∈ pre.getLast?, c ∉ ['.', '$', '>']
  not_qualified : ∀ init c, pre = init ++ [c, '\\'] → CharSet.wordChar.mem c = false
  not_defined : ¬ EndsInDefinition pre
  not_defined_global : ∀ init, pre = init ++ ['\\'] → ¬ EndsInDefinition init

/-- What a match of a call took: a name at the edge of a word, white space and a parenthesis. -/
lemma exists_text_of_isMatch_call {m : Match} (h : Pattern.IsMatch call code m) :
    IsIdentifier (m.groupText 1) ∧ (∀ c ∈ m.past.head?, CharSet.wordChar.mem c = false) ∧
      ∃ gap, (∀ c ∈ gap, CharSet.space.mem c) ∧
        code = m.past.reverse ++ ((m.groupText 1).toList ++ (gap ++ '(' :: m.after)) := by
  obtain ⟨htext, hmatch⟩ := h
  simp only [call, Pattern.matches_cat_cons_iff, Pattern.matches_cat_nil_iff, Pattern.wordEdge,
    Pattern.matches_edge_iff, Pattern.matches_group_iff, Pattern.matches_identifier_iff,
    Pattern.spaces, Pattern.star, Pattern.matches_many_set_iff,
    Pattern.matches_literal_iff] at hmatch
  obtain ⟨c₁, g₁, ⟨hedge, rfl, rfl⟩, c₂, g₂, ⟨g₃, ⟨rfl, x, name, hx, hname, hread⟩, rfl⟩, c₃, g₄,
    ⟨rfl, gap, hgap, hread'⟩, c₄, g₅, ⟨rfl, hread''⟩, rfl, hgroups⟩ := hmatch
  have hgroup : (m.groupText 1).toList = x :: name := by
    rw [Match.groupText, Match.group, hgroups, String.toList_ofList, hread.spanTo_eq]
    rfl
  have hrest : m.text ++ m.after = (x :: name) ++ (gap ++ '(' :: m.after) :=
    calc m.text ++ m.after = (x :: name) ++ c₂.rest := hread.rest_eq
      _ = (x :: name) ++ (gap ++ c₃.rest) := by rw [hread'.rest_eq]
      _ = (x :: name) ++ (gap ++ '(' :: m.after) := by
        rw [hread''.rest_eq]
        rfl
  refine ⟨⟨x, name, hgroup, hx, hname⟩, ?_, gap, hgap, by rw [hgroup, ← hrest, htext]⟩
  intro c hc
  rw [Cursor.holds, Cursor.wordBefore_eq, Cursor.wordAfter_eq, hrest, Option.mem_def.mp hc] at hedge
  simpa [wordChar_of_letter hx] using hedge

lemma plainCall_of_isCall {m : Match} (h : Pattern.IsMatch call code m) (hcall : isCall m) :
    IsIdentifier (m.groupText 1) ∧ lower (m.groupText 1) ∉ keywords ∧ isMagic (m.groupText 1) =
        false ∧ ∃ gap, PlainCall code (m.groupText 1) m.past.reverse gap m.after := by
  obtain ⟨hid, hword, gap, hgap, htext⟩ := exists_text_of_isMatch_call h
  unfold isCall at hcall
  simp only [Bool.not_eq_true', Bool.or_eq_false_iff] at hcall
  obtain ⟨⟨⟨⟨hfollows, hqualified⟩, hdefinition⟩, hkeyword⟩, hmagic⟩ := hcall
  refine ⟨hid, ?_, hmagic, gap, htext, hgap, ?_, ?_, ?_, ?_, ?_⟩
  · intro hmem
    rw [contains_iff_mem.mpr hmem] at hkeyword
    cases hkeyword
  · rwa [getLast?_reverse]
  · intro c hc hmem
    rw [getLast?_reverse, Option.mem_def] at hc
    rw [follows, hc, Option.any_some] at hfollows
    have hchars : ".$>".toList = ['.', '$', '>'] := by decide
    rw [hchars, contains_iff_mem.mpr hmem] at hfollows
    cases hfollows
  · intro init c hpre
    rw [reverse_eq_iff, reverse_append] at hpre
    rw [hpre] at hqualified
    exact hqualified
  · intro hends
    split at hdefinition
    case h_1 rest hpast =>
      rw [hpast, reverse_cons] at hends
      exact not_endsInDefinition_append _ hends
    case h_2 =>
      rw [isDefinition_of_endsInDefinition hends] at hdefinition
      cases hdefinition
  · intro init hpre hends
    rw [reverse_eq_iff, reverse_append] at hpre
    rw [hpre] at hdefinition
    rw [← reverse_reverse init] at hends
    have hfound := isDefinition_of_endsInDefinition hends
    change isDefinition init.reverse = false at hdefinition
    rw [hfound] at hdefinition
    cases hdefinition

/-- A function called on a line: the clean line has no member or class operator, and it has a plain
call of the function. -/
lemma spec_of_mem_calls {line : List Char} {name : String} (h : name ∈ calls line) :
    IsIdentifier name ∧ ¬ "->".toList <:+: clean line ∧ ¬ "::".toList <:+: clean line ∧
      lower name ∉ keywords ∧ isMagic name = false ∧
      ∃ pre gap post, PlainCall (clean line) name pre gap post := by
  unfold calls at h
  split at h
  case isFalse => cases h
  case isTrue =>
    dsimp only at h
    split at h
    case isTrue => cases h
    case isFalse hoperator =>
      rw [Bool.or_eq_true, not_or, hasOperator, Bool.or_eq_true, not_or, occursIn_iff,
        occursIn_iff] at hoperator
      rcases mem_foldl_once.mp h with h | h
      · cases h
      · obtain ⟨m, hm, rfl⟩ := mem_map.mp h
        obtain ⟨hm, hcall⟩ := mem_filter.mp hm
        obtain ⟨hid, hkeyword, hmagic, gap, hplain⟩ :=
          plainCall_of_isCall (Pattern.isMatch_of_mem_findAll hm) hcall
        exact ⟨hid, hoperator.1.1, hoperator.1.2, hkeyword, hmagic, _, gap, _, hplain⟩

/-! ### Where functions come from -/

/-- Something provides a function, in a file of a plugin with the given files. Names are compared
without regard to case. -/
inductive Provided (env : Surroundings) (files : List File) (f : File) (name : String) : Prop where
  | declaredHere (d : Declaration) (hd : d ∈ declarations f.content) (htype : d.isType = false)
      (hname : lower d.name = lower name)
  | declared (g : File) (d : Declaration) (hg : g ∈ files) (hd : d ∈ declarations g.content)
      (htype : d.isType = false) (hname : lower d.name = lower name)
  | imported (i : Import) (hi : i ∈ imports f.content) (hkind : i.kind = .function)
      (hname : lower i.localName = lower name)
  | runtime (h : lower name ∈ env.runtime.functions)
  | platform (h : lower name ∈ platformFunctions)
  | platformLead (lead : String) (hlead : lead ∈ platformLeads)
    (hname : lead.toList <+: (lower name).toList)
  | later (version : String) (h : (lower name, version) ∈ laterFunctions)
  | exempt (h : env.exemptions.exemptsFunction name env.ecosystems = true)

lemma not_provided_of_lookups {env : Surroundings} {files : List File} {f : File} {name : String}
    (hid : IsIdentifier name)
    (hown : isOwn { env with symbols := .addFiles {} files } (scopeOf f) name = false)
    (hlater : laterFunctions.lookup (lower name) = none)
    (hprovided : isProvided { env with symbols := .addFiles {} files } name = false) :
    ¬ Provided env files f name := by
  simp only [isOwn, Bool.or_eq_false_iff] at hown
  obtain ⟨⟨hhere, himport⟩, hsymbols⟩ := hown
  simp only [isProvided, Bool.or_eq_false_iff] at hprovided
  obtain ⟨⟨⟨hruntime, hplatform⟩, hexempt⟩, hleads⟩ := hprovided
  intro h
  cases h with
  | declaredHere d hd htype hname =>
    have hmem : lower name ∈ (scopeOf f).declared := by
      rw [← hname]
      exact mem_map_of_mem (mem_filter.mpr ⟨hd, by simp [htype]⟩)
    rw [contains_iff_mem.mpr hmem] at hhere
    cases hhere
  | declared g d hg hd htype hname =>
    have hlast := congrArg lower (lastSegment_of_isSegment hid.isSegment)
    rw [SymbolIndex.hasFunction_of_mem hg hd htype (hname.trans hlast.symm)] at hsymbols
    cases hsymbols
  | imported i hi hkind hname =>
    rw [scopeOf, ImportIndex.isSome_function? hi hkind hname hid.isSegment.notMem] at himport
    cases himport
  | runtime h =>
    rw [Inventory.hasFunction, Inventory.key_of_isSegment hid.isSegment,
      contains_iff_mem.mpr h] at hruntime
    cases hruntime
  | platform h =>
    rw [contains_iff_mem.mpr h] at hplatform
    cases hplatform
  | platformLead lead hlead hname =>
    rw [any_eq_false] at hleads
    exact hleads lead hlead (String.startsWith_string_iff.mpr hname)
  | later version h =>
    rw [lookup_eq_none_iff] at hlater
    exact absurd (hlater _ h) (by simp)
  | exempt h =>
    rw [h] at hexempt
    cases hexempt

/-! ### Main statement -/

/-- A function that is reported as undefined is called by its plain name on a line of code, it is no
keyword and no magic name, and unless it is a function of admin pages nothing provides it. -/
theorem undefinedFunction_sound (env : Surroundings) (files : List File) (target : Combination)
    (f : File) (x : Finding) (hx : x ∈ detect { env with symbols := .addFiles {} files } target f)
    (hkind : x.kind = .undefinedFunction) :
    ∃ (name : String) (number : Nat) (line : List Char), x.message = undefinedMessage name ∧
      x.line = number ∧
      0 < number ∧ f.lines[number - 1]? = some line ∧
      (f.lines.take number).foldl LineState.update {} =
        { comment := false, heredoc := none, script := false } ∧
      ¬ "->".toList <:+: clean line ∧ ¬ "::".toList <:+: clean line ∧
      (∃ pre gap post, PlainCall (clean line) name pre gap post) ∧
      lower name ∉ keywords ∧ ¬ (2 < name.utf8ByteSize ∧ "__".toList <+: name.toList) ∧
      (lower name ∉ adminFunctions → ¬ Provided env files f name) := by
  simp only [detect, mem_flatMap, mem_filterMap] at hx
  obtain ⟨⟨number, line⟩, hline, name, hcall, hx⟩ := hx
  obtain ⟨hpos, hget, hstate⟩ := spec_of_mem_codeLines hline
  obtain ⟨hid, harrow, hcolons, hkeyword, hmagic, hplain⟩ := spec_of_mem_calls hcall
  have hnotMagic : ¬ (2 < name.utf8ByteSize ∧ "__".toList <+: name.toList) := by
    rintro ⟨hsize, hlead⟩
    rw [isMagic, decide_eq_true hsize, String.startsWith_string_iff.mpr hlead] at hmagic
    cases hmagic
  rcases classify_cases hx with ⟨hadmin, rfl⟩ | ⟨-, required, -, -, rfl⟩ | ⟨-, hown, hlater, hnone,
    rfl⟩
  · exact ⟨name, number, line, rfl, rfl, hpos, hget, hstate, harrow, hcolons, hplain, hkeyword,
      hnotMagic, fun h => absurd hadmin h⟩
  · change Kind.phpVersionRequirement = .undefinedFunction at hkind
    exact absurd hkind (by decide)
  · exact ⟨name, number, line, rfl, rfl, hpos, hget, hstate, harrow, hcolons, hplain, hkeyword,
      hnotMagic, fun _ => not_provided_of_lookups hid hown hlater hnone⟩

def lostCall : File := ⟨"a.php", ["lost ( );".toList]⟩

def otherFunction : File := ⟨"b.php", ["function found".toList]⟩

def smallRuntime : Surroundings := { runtime := ⟨["strlen"], []⟩, exemptions := ⟨{}, []⟩ }

theorem undefinedFunction_lostCall :
    undefinedFinding (scopeOf lostCall) ⟨"8.1", "6.5"⟩ "lost" 1 ∈ detect
          { smallRuntime with symbols := .addFiles {} [otherFunction] } ⟨"8.1", "6.5"⟩ lostCall ∧
      ∃ name number line, undefinedMessage "lost" = undefinedMessage name ∧ 0 < number ∧
        lostCall.lines[number - 1]? = some line ∧
        (∃ pre gap post, PlainCall (clean line) name pre gap post) ∧
        (lower name ∉ adminFunctions → ¬ Provided smallRuntime [otherFunction] lostCall name) := by
  have hmem : undefinedFinding (scopeOf lostCall) ⟨"8.1", "6.5"⟩ "lost" 1 ∈
      detect { smallRuntime with symbols := .addFiles {} [otherFunction] } ⟨"8.1", "6.5"⟩
        lostCall := by
    decide +kernel
  obtain ⟨name, number, line, hmessage, -, hpos, hline, -, -, -, hplain, -, -, hnone⟩ :=
    undefinedFunction_sound smallRuntime [otherFunction] ⟨"8.1", "6.5"⟩ lostCall _ hmem rfl
  exact ⟨hmem, name, number, line, hmessage, hpos, hline, hplain, hnone⟩

end PluginAudit.Detector.UndefinedFunction
