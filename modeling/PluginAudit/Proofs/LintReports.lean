import PluginAudit.Lint
import PluginAudit.Proofs.Numerals
import PluginAudit.Proofs.PatternSearch
import PluginAudit.Proofs.Tables
import PluginAudit.Proofs.Texts

/-!
What is read from the output of a check. Reports are read back one by one, with their messages whole
if these do not hold the words that end them; other lines are passed over.
-/

open List

namespace PluginAudit

open CharSet (notNewline single mem inRanges digit space)
open Decimal

@[simp] lemma CharSet.notNewline_mem_iff {c : Char} : notNewline.mem c ↔ c ≠ '\n' := by
  have hnot : notNewline.mem c = !(single '\n').mem c := by
    simp [mem, notNewline, single, inRanges]
  rw [hnot, Bool.not_eq_true', Bool.eq_false_iff, ne_eq, CharSet.single_mem_iff]

@[simp] lemma CharSet.digit_mem (c : Char) : digit.mem c = c.isDigit := by
  simp [mem, digit, inRanges, Char.isDigit, Char.le_def]

lemma CharSet.space_mem_eq_false {c : Char} (h : Text.isSpace c = false) : space.mem c = false := by
  have hn : c.val.toNat = c.toNat := rfl
  simp [Text.isSpace] at h
  simp [mem, space, inRanges, Char.le_def, UInt32.le_iff_toNat_le, hn]
  omega

namespace Lint

open Pattern

/-! ### Marks -/

def upTo (mark : List Char) : List Char → List Char
  | [] => []
  | c :: s => if mark.isPrefixOf (c :: s) then [] else c :: upTo mark s

variable {mark s message after path digits past : List Char}

lemma exists_upTo (mark s : List Char) :
    ∃ more, s ++ mark = upTo mark (s ++ mark) ++ (mark ++ more) := by
  induction s with
  | nil => exact ⟨[], by cases mark <;> simp [upTo]⟩
  | cons c s ih =>
    rw [cons_append, upTo]
    split
    case isTrue h =>
      obtain ⟨more, hmore⟩ := isPrefixOf_iff_prefix.mp h
      exact ⟨more, hmore.symm⟩
    case isFalse =>
      obtain ⟨more, hmore⟩ := ih
      exact ⟨more, congrArg (c :: ·) hmore⟩

lemma not_prefix_of_upTo {front back rest : List Char} (hs : s = front ++ rest)
    (h : upTo mark s = front ++ back) (hback : back ≠ []) : ¬ mark <+: rest := by
  induction front generalizing s with
  | nil =>
    intro hmark
    cases s with
    | nil => exact hback h.symm
    | cons c s =>
      rw [upTo, if_pos ( isPrefixOf_iff_prefix.mpr (hs ▸ hmark))] at h
      exact hback h.symm
  | cons c front ih =>
    subst hs
    rw [cons_append, upTo] at h
    split at h
    case isTrue => cases h
    case isFalse => exact ih rfl (List.cons.inj h).2

lemma upTo_eq_iff {init : List Char} {c : Char} :
    upTo (init ++ [c]) (s ++ (init ++ [c])) = s ↔ ¬ init ++ [c] <:+: s ++ init := by
  obtain ⟨more, hmore⟩ := exists_upTo (init ++ [c]) s
  constructor
  · rintro hs ⟨front, tail, hinfix⟩
    have hlength := congrArg length hinfix
    simp only [length_append, length_singleton] at hlength
    rw [append_assoc] at hinfix
    obtain ⟨back, rfl⟩ : front <+: s := by
      refine prefix_of_prefix_length_le ⟨_, hinfix⟩ (prefix_append s init) ?_
      omega
    have hback : back ≠ [] := by
      rintro rfl
      simp only [append_nil] at hlength
      omega
    have hplace : front ++ back ++ (init ++ [c]) = front ++ (init ++ [c] ++ (tail ++ [c])) := by
      rw [← append_assoc, ← hinfix]
      simp only [append_assoc]
    exact not_prefix_of_upTo hplace hs hback (prefix_append _ _)
  · intro hnot
    rcases eq_nil_or_concat more with rfl | ⟨more, c', rfl⟩
    · rw [append_nil, append_cancel_right_eq] at hmore
      exact hmore.symm
    · generalize upTo (init ++ [c]) (s ++ (init ++ [c])) = cut at hmore
      have hinit : s ++ init = cut ++ (init ++ [c]) ++ more := by
        have hsplit : s ++ init ++ [c] = cut ++ (init ++ [c]) ++ more ++ [c'] := by
          simpa using hmore
        exact append_inj_left' hsplit rfl
      exact absurd ⟨cut, more, hinit.symm⟩ hnot

lemma not_prefix_onLine {front tail : List Char} (hdigits : Json.IsDigits digits)
    (hafter : ∀ c ∈ after.head?, c = '\n') (h : " on line ".toList ++ digits = front ++ tail)
    (hfront : front ≠ []) : ¬ " on line ".toList <+: tail ++ after := by
  have honce : 'o' ∉ "n line ".toList ++ digits := by
    intro hmem
    rcases mem_append.mp hmem with hmem | hmem
    · exact absurd hmem (by decide)
    · exact absurd (hdigits.digit 'o' hmem) (by decide)
  have hnot : ∀ c s, c ≠ '\n' → after ≠ c :: s := by
    rintro c s hc rfl
    exact hc (hafter c rfl)
  have hmark : " on line ".toList = ' ' :: 'o' :: "n line ".toList := by decide
  rw [hmark] at h ⊢
  rintro ⟨rest, hrest⟩
  rcases tail with _ | ⟨t, _ | ⟨u, tail⟩⟩
  · exact hnot _ _ (by decide) hrest.symm
  · exact hnot _ _ (by decide) (List.cons.inj hrest).2.symm
  · simp only [cons_append, cons.injEq] at h hrest
    obtain ⟨rfl, rfl, -⟩ := hrest
    rcases front with _ | ⟨f, _ | ⟨f', front⟩⟩
    · exact hfront rfl
    · simp at h
    · simp only [cons_append, cons.injEq] at h
      rw [h.2.2] at honce
      exact honce (by simp)

/-! ### One report -/

section Report

variable (hpath : path ≠ []) (hline : '\n' ∉ path) (hdigits : Json.IsDigits digits)
  (hafter : ∀ c ∈ after.head?, c = '\n')

include hdigits hafter

lemma prefers_number (past : List Char) : ∃ start d, d.rest = after ∧
    (cat [literal " on line ", .group 2 (plus (.set .digit))]).Prefers
      ⟨past, " on line ".toList ++ (digits ++ after)⟩ [(2, ⟨start, digits, after⟩)] d := by
  have hstop : ∀ c ∈ after.head?, digit.mem c = false := by
    intro c hc
    rw [hafter c hc]
    decide
  have hall : ∀ c ∈ digits, digit.mem c := by
    intro c hc
    rw [CharSet.digit_mem, hdigits.digit c hc]
  obtain ⟨x, digits, rfl⟩ := exists_cons_of_ne_nil hdigits.ne_nil
  rw [forall_mem_cons] at hall
  refine ⟨_, _, ?_,
    (prefers_literal _ _ _).cons (((prefers_set_star hall.1 hall.2 hstop _).group 2).cons (.nil _))⟩
  rfl

include hpath hline

lemma prefers_place (past : List Char) : ∃ start d, d.rest = after ∧
    (cat [plus (.set .notNewline), literal " on line ", .group 2 (plus (.set .digit))]).Prefers
      ⟨past,
        path ++ (" on line ".toList ++ (digits ++ after))⟩ [(2, ⟨start, digits, after⟩)] d := by
  obtain ⟨x, path, rfl⟩ := exists_cons_of_ne_nil hpath
  have hback : '\n' ∉ " on line ".toList ++ digits := by
    rw [mem_append, not_or]
    exact ⟨by decide, fun hmem => absurd (hdigits.digit _ hmem) (by decide)⟩
  have hall : ∀ c ∈ x :: (path ++ (" on line ".toList ++ digits)), notNewline.mem c := by
    intro c hc
    rw [CharSet.notNewline_mem_iff]
    rintro rfl
    exact (mem_append.mp (cons_append ▸ hc)).elim hline hback
  have hstop : ∀ c ∈ after.head?, notNewline.mem c = false := by
    intro c hc
    rw [hafter c hc]
    decide
  obtain ⟨start, d, hrest, hnumber⟩ := prefers_number hdigits hafter (path.reverse ++ x :: past)
  rw [forall_mem_cons] at hall
  rw [← append_assoc] at hnumber
  refine ⟨start, d, hrest, fun α groups next hnext => ?_⟩
  rw [run_cat_cons, plus, run, cons_append, run_set hall.1, ← append_assoc " on line ".toList]
  refine (run_star_set_back (" on line ".toList ++ digits) hall.2 hstop
    (fun front tail hfront hne => ?_) ?_).trans (hnumber α groups next hnext)
  · exact ((fails_literal (not_prefix_onLine hdigits hafter hfront hne)).cat _).run_eq_none _ _
  · rwa [hnumber α groups next hnext]

/-- The message ends at the first mark before a path, and what is left of it belongs to the path. -/
lemma prefers_message (hne : message ≠ [])
    (hhead : ∀ c ∈ message.head?, c ≠ ' ') (hmessage : '\n' ∉ message) (past : List Char) :
    ∃ span start d, d.rest = after ∧ span.text = upTo " in ".toList (message ++ " in ".toList) ∧
      (cat [.group 1 (plusLazy (.set .notNewline)), literal " in ", plus (.set .notNewline),
        literal " on line ", .group 2 (plus (.set .digit))]).Prefers
          ⟨past, message ++ (" in ".toList ++ (path ++ (" on line ".toList ++ (digits ++ after))))⟩
          [(2, ⟨start, digits, after⟩), (1, span)] d := by
  obtain ⟨x, message, rfl⟩ := exists_cons_of_ne_nil hne
  obtain ⟨more, hmore⟩ := exists_upTo " in ".toList message
  have hfirst := fun front back rest =>
    @not_prefix_of_upTo " in ".toList (message ++ " in ".toList) front back rest
  have hshown : upTo " in ".toList (x :: message ++ " in ".toList) =
      x :: upTo " in ".toList (message ++ " in ".toList) := by
    rw [cons_append, upTo, if_neg]
    intro hmark
    obtain ⟨rest, hrest⟩ := isPrefixOf_iff_prefix.mp hmark
    exact hhead x rfl (List.cons.inj hrest).1.symm
  rw [hshown]
  generalize upTo " in ".toList (message ++ " in ".toList) = cut at hmore hfirst
  have hread : '\n' ∉ x :: cut ++ more := by
    intro hmem
    have hmem' : '\n' ∈ x :: message ++ " in ".toList := by
      rw [cons_append, hmore]
      simp only [cons_append, mem_cons, mem_append] at hmem ⊢
      tauto
    exact (mem_append.mp hmem').elim hmessage (by decide)
  rw [mem_append, not_or] at hread
  have hpath' : '\n' ∉ more ++ path := fun hmem => (mem_append.mp hmem).elim hread.2 hline
  obtain ⟨start, d, hrest, hplace⟩ :=
    prefers_place (append_ne_nil_of_right_ne_nil more hpath) hpath' hdigits
    hafter (" in ".toList.reverse ++ (cut.reverse ++ x :: past))
  have htext :
      x :: message ++ (" in ".toList ++ (path ++ (" on line ".toList ++ (digits ++ after)))) = x ::
      cut ++ (" in ".toList ++ (more ++ path ++ (" on line ".toList ++ (digits ++ after)))) := by
    simp only [cons_append, ← append_assoc]
    rw [hmore]
    simp only [append_assoc]
  rw [htext]
  refine ⟨_, start, d, hrest, rfl,
    hplace.group_lazy (fun c hc => ?_) fun front back hcut hback hprefix => ?_⟩
  · rw [CharSet.notNewline_mem_iff]
    rintro rfl
    exact hread.1 hc
  · subst hcut
    refine hfirst front back (back ++ (" in ".toList ++ more))
      (by rw [hmore, append_assoc]) rfl hback ?_
    have hstart : back ++ (" in ".toList ++ more) <+:
        back ++ (" in ".toList ++ (more ++ path ++ (" on line ".toList ++ (digits ++ after)))) := by
      simp only [prefix_append_right_inj, append_assoc, prefix_append]
    refine prefix_of_prefix_length_le hprefix hstart ?_
    simp only [length_append]
    omega

end Report

def DiagnosticKind.label : DiagnosticKind → String
  | .parse => "Parse error:"
  | .fatal => "Fatal error:"

/-- An error as it is printed, with or without the name of the runtime before it. -/
structure Printed where
  named : Bool
  kind : DiagnosticKind
  message : String
  path : String
  line : Nat

namespace Printed

variable {d : Printed}

def text (d : Printed) : List Char :=
  (if d.named then "PHP ".toList else []) ++
    (d.kind.label.toList ++ ("  ".toList ++ (d.message.toList ++
    (" in ".toList ++ (d.path.toList ++ (" on line ".toList ++ (natText d.line).toList))))))

def shown (d : Printed) : String :=
  Text.trim (String.ofList (upTo " in ".toList (d.message.toList ++ " in ".toList)))

/-- The message and the path are in one line each, and the line is of one kind. -/
structure Proper (d : Printed) : Prop where
  message_ne : d.message.toList ≠ []
  message_trimmed : Text.Trimmed d.message.toList
  message_line : '\n' ∉ d.message.toList
  path_ne : d.path.toList ≠ []
  path_line : '\n' ∉ d.path.toList
  line_fits : fitsInt d.line = true
  one_kind : ∀ kind, kind ≠ d.kind → ¬ kind.label.toList <:+: d.text

lemma Proper.exists_matchAt (h : d.Proper) (hafter : ∀ c ∈ after.head?, c = '\n')
    (past : List Char) :
    ∃ m, (report d.kind.label).matchAt ⟨past, d.text ++ after⟩ = some m ∧ m.after = after ∧
      diagnostic? d.kind m = some ⟨d.kind, d.shown, d.line⟩ := by
  have hhead : ∀ c ∈ d.message.toList.head?, c ≠ ' ' := by
    rintro c hc rfl
    exact absurd (h.message_trimmed.head _ hc) (by decide)
  have hstop : ∀ rest, ∀ c ∈ (d.message.toList ++ rest).head?, space.mem c = false := by
    intro rest c hc
    rw [head?_append_of_ne_nil _ h.message_ne] at hc
    exact CharSet.space_mem_eq_false (h.message_trimmed.head c hc)
  have hmessage := prefers_message h.path_ne h.path_line
    (Json.isWhole_natText d.line).isDigits hafter h.message_ne hhead h.message_line
  have hspaces : ∀ c ∈ "  ".toList, space.mem c := all_eq_true.mp (by decide)
  obtain ⟨span, start, e, hrest, hspan, hreport⟩ : ∃ span start e, e.rest = after ∧
      span.text = upTo " in ".toList (d.message.toList ++ " in ".toList) ∧
      (report d.kind.label).Prefers ⟨past, d.text ++ after⟩
        [(2, ⟨start, (natText d.line).toList, after⟩), (1, span)] e := by
    unfold text report
    simp only [append_assoc]
    split
    case isTrue =>
      obtain ⟨span, start, e, hrest, hspan, hmessage⟩ := hmessage _
      exact ⟨span, start, e, hrest, hspan, ((prefers_literal "PHP " past _).left _).cons
        ((prefers_literal _ _ _).cons ((prefers_star_set hspaces (hstop _) _).cons hmessage))⟩
    case isFalse =>
      have hnot : ∀ rest, ¬ "PHP ".toList <+: d.kind.label.toList ++ rest := by
        intro rest
        cases d.kind <;> simp [DiagnosticKind.label]
      obtain ⟨span, start, e, hrest, hspan, hmessage⟩ := hmessage _
      exact ⟨span, start, e, hrest, hspan, (Prefers.opt_of_fails (fails_literal (hnot _))).cons
        ((prefers_literal _ past _).cons ((prefers_star_set hspaces (hstop _) _).cons hmessage))⟩
  have hint : intText d.line = natText d.line := by simp [intText]
  have hnumber : readInt? (natText d.line).toList = some (d.line : Int) := by
    rw [← hint, Json.readInt?_intText, if_pos h.line_fits]
  refine ⟨_, hreport.matchAt_eq, hrest, ?_⟩
  simp [diagnostic?, Match.groupText, Match.group, hspan, hnumber, shown]

lemma Proper.shown_eq_iff (h : d.Proper) :
    d.shown = d.message ↔ ¬ " in ".toList <:+: d.message.toList ++ " in".toList := by
  have hmark : " in ".toList = " in".toList ++ [' '] := by decide
  rw [hmark, ← upTo_eq_iff, ← hmark, ← String.toList_inj, shown, Text.toList_trim,
    String.toList_ofList]
  obtain ⟨more, hmore⟩ := exists_upTo " in ".toList d.message.toList
  generalize upTo " in ".toList (d.message.toList ++ " in ".toList) = cut at hmore
  constructor
  · intro hcut
    have hlength : d.message.toList.length ≤ cut.length := by
      rw [← hcut, Text.trimChars_eq]
      exact ( rdropWhile_prefix _ _).length_le.trans (dropWhile_suffix _).length_le
    have hcut' : d.message.toList <+: cut := by
      refine prefix_of_prefix_length_le (prefix_append _ " in ".toList) ?_ hlength
      rw [hmore]
      exact prefix_append _ _
    refine (hcut'.eq_of_length_le ?_).symm
    have hsum := congrArg length hmore
    simp only [length_append] at hsum
    omega
  · rintro rfl
    exact Text.trimChars_of_trimmed h.message_trimmed

end Printed

/-! ### All lines -/

/-- A line of the output: a report, or something else. -/
inductive OutputLine where
  | report (d : Printed)
  | other (text : String)

namespace OutputLine

def text : OutputLine → List Char
  | .report d => d.text
  | .other text => text.toList

def Proper : OutputLine → Prop
  | .report d => d.Proper
  | .other text =>
    '\n' ∉ text.toList ∧ ∀ kind : DiagnosticKind, ¬ kind.label.toList <:+: text.toList

def read? (kind : DiagnosticKind) : OutputLine → Option Diagnostic
  | .report d => if d.kind = kind then some ⟨kind, d.shown, d.line⟩ else none
  | .other _ => none

end OutputLine

def outputOf (lines : List OutputLine) : String :=
  String.ofList (['\n'].intercalate (lines.map OutputLine.text))

lemma moves_report (kind : DiagnosticKind) : (report kind.label).Moves := by
  refine (moves_literal (w := kind.label) ?_).cat (by simp)
  cases kind <;> decide

/-- The reports of a kind that are found from any place on that a text follows. -/
def Finds (kind : DiagnosticKind) (rest : List Char) (found : List Diagnostic) : Prop :=
  ∀ fuel past afterMatch, rest.length < fuel →
    ((report kind.label).findAllFrom fuel ⟨past, rest⟩ afterMatch).filterMap
    (diagnostic? kind) = found

variable {kind : DiagnosticKind} {line : List Char} {found : List Diagnostic}
  {lines : List OutputLine}

lemma matchAt_eq_none {back : List Char} (hline : ¬ kind.label.toList <:+: line)
    (hback : back <:+ line) (hafter : ∀ c ∈ after.head?, c = '\n') (past : List Char) :
    (report kind.label).matchAt ⟨past, back ++ after⟩ = none := by
  refine Fails.run_eq_none (fun groups d groups' hmatch => ?_) _ _
  obtain ⟨e, groups', hlead, hmatch⟩ := matches_cat_cons_iff.mp hmatch
  obtain ⟨e', groups'', hlabel, -⟩ := matches_cat_cons_iff.mp hmatch
  obtain ⟨-, hlabel⟩ := matches_literal_iff.mp hlabel
  obtain ⟨lead, hlead, hnot⟩ : ∃ lead, Cursor.Reads ⟨past, back ++ after⟩ lead e ∧
      '\n' ∉ lead ++ kind.label.toList := by
    obtain ⟨-, lead, hlead, hreads⟩ := matches_opt_literal_iff.mp hlead
    refine ⟨lead, hreads, ?_⟩
    rcases hlead with rfl | rfl <;> cases kind <;> decide
  have hstart :
      lead ++ kind.label.toList <+: back ++ after := ⟨e'.rest, (hlead.trans hlabel).rest_eq.symm⟩
  have hstart' : lead ++ kind.label.toList <+: back := by
    rcases prefix_or_prefix_of_prefix hstart (prefix_append back after) with hstart' | ⟨tail, htail⟩
    · exact hstart'
    · cases tail with
      | nil => exact ⟨[], by simpa using htail.symm⟩
      | cons c tail =>
        rw [← htail, prefix_append_right_inj] at hstart
        obtain ⟨rest, rfl⟩ := hstart
        rw [← htail, hafter c rfl] at hnot
        exact absurd (by simp) hnot
  exact hline (((suffix_append _ _).isInfix.trans hstart'.isInfix).trans hback.isInfix)

lemma Finds.skip {skipped rest : List Char} (h : Finds kind rest found)
    (hnone : ∀ back, back <:+ skipped → back ≠ [] →
      ∀ past, (report kind.label).matchAt ⟨past, back ++ rest⟩ = none) :
    Finds kind (skipped ++ rest) found := by
  intro fuel past afterMatch hfuel
  obtain ⟨fuel, rfl⟩ := Nat.exists_eq_add_one_of_ne_zero (Nat.ne_zero_of_lt hfuel)
  rw [length_append] at hfuel
  rw [(moves_report kind).findAllFrom_skip fun front back hfront hback =>
    hnone back ⟨front, hfront.symm⟩ hback _]
  exact h _ _ _ (by omega)

lemma Finds.cons {l : OutputLine} (h : Finds kind after (lines.filterMap (·.read? kind)))
    (hl : l.Proper) (hafter : ∀ c ∈ after.head?, c = '\n') :
    Finds kind (l.text ++ after) ((l :: lines).filterMap (·.read? kind)) := by
  cases l with
  | other text => exact h.skip fun back hback _ => matchAt_eq_none (hl.2 kind) hback hafter
  | report d =>
    by_cases hkind : d.kind = kind
    · subst hkind
      have hone : OutputLine.read? d.kind (.report d) = some ⟨d.kind, d.shown, d.line⟩ := if_pos rfl
      intro fuel past afterMatch hfuel
      obtain ⟨fuel, rfl⟩ := Nat.exists_eq_add_one_of_ne_zero (Nat.ne_zero_of_lt hfuel)
      obtain ⟨m, hat, hm, hread⟩ := Printed.Proper.exists_matchAt hl hafter past
      have hfind : (report d.kind.label).findFrom past (d.text ++ after) = some m := by
        rw [findFrom.eq_def, hat]
      have hlength : 0 < d.text.length := by simp [Printed.text]
      rw [OutputLine.text] at hfuel ⊢
      rw [length_append] at hfuel
      rw [(moves_report d.kind).findAllFrom_succ hfind, hm, filterMap_cons_some hread,
        filterMap_cons_some hone, h _ _ _ (by omega)]
    · have hnone : OutputLine.read? kind (.report d) = none := if_neg hkind
      rw [filterMap_cons_none hnone]
      exact h.skip fun back hback _ =>
        matchAt_eq_none (hl.one_kind kind (Ne.symm hkind)) hback hafter

lemma matchAt_break (kind : DiagnosticKind) (hafter : ∀ c ∈ after.head?, c = '\n')
    (past : List Char) : (report kind.label).matchAt ⟨past, after⟩ = none := by
  have hlabel : ¬ kind.label.toList <:+: [] := by
    cases kind <;> decide
  exact matchAt_eq_none hlabel (suffix_refl []) hafter past

lemma finds_lines (kind : DiagnosticKind) (h : ∀ l ∈ lines, l.Proper) :
    Finds kind (lines.flatMap fun l => '\n' :: l.text) (lines.filterMap (·.read? kind)) := by
  induction lines with
  | nil =>
    intro fuel past afterMatch hfuel
    obtain ⟨fuel, rfl⟩ := Nat.exists_eq_add_one_of_ne_zero (Nat.ne_zero_of_lt hfuel)
    have hnone : (report kind.label).findFrom past [] = none := by
      rw [findFrom, matchAt_break kind (by simp)]
    rw [flatMap_nil, findAllFrom, hnone]
    rfl
  | cons l lines ih =>
    rw [forall_mem_cons] at h
    have hline := (ih h.2).cons h.1 (by cases lines <;> simp)
    rw [flatMap_cons, cons_append, ← singleton_append]
    refine hline.skip fun back hback hne past => matchAt_break kind ?_ past
    rcases suffix_cons_iff.mp hback with rfl | hback
    · simp
    · exact absurd (suffix_nil.mp hback) hne

lemma filterMap_findAll (kind : DiagnosticKind) (h : ∀ l ∈ lines, l.Proper) :
    ((report kind.label).findAll (outputOf lines).toList).filterMap (diagnostic? kind) =
      lines.filterMap (·.read? kind) := by
  rw [outputOf, String.toList_ofList]
  cases lines with
  | nil => exact finds_lines kind h _ _ _ (Nat.lt_succ_self _)
  | cons l lines =>
    rw [forall_mem_cons] at h
    rw [map_cons, Text.intercalate_cons, flatMap_map]
    exact (finds_lines kind h.2).cons h.1 (by cases lines <;> simp) _ _ _ (Nat.lt_succ_self _)

/-- Reports that stand one in a line, between other lines, are read back: the parse errors and then
the fatal errors, each in the order in which it comes first. The message is cut at the first mark,
and so it is read whole if and only if there is no mark in it. -/
theorem output_decoded (h : ∀ l ∈ lines, l.Proper) :
    parseOutput (outputOf lines) =
      (lines.filterMap (·.read? .parse) ++ lines.filterMap (·.read? .fatal)).eraseDups ∧
      ∀ d, .report d ∈ lines →
        (d.shown = d.message ↔ ¬ " in ".toList <:+: d.message.toList ++ " in".toList) := by
  refine ⟨?_, fun d hd => (h _ hd).shown_eq_iff⟩
  rw [← filterMap_findAll .parse h, ← filterMap_findAll .fatal h, parseOutput, foldl_once_eq]
  simp only [contains_nil, Bool.not_false, filter_true, nil_append]
  rfl

/-- The error with and without the name of the runtime before it, and an error of the other kind. -/
def loggedTwice : List OutputLine :=
  [.report ⟨true, .fatal, "Cannot redeclare foo()", "/p/in on line 3.php", 9⟩, .other "",
    .report ⟨false, .fatal, "Cannot redeclare foo()", "/p/in on line 3.php", 9⟩,
    .report ⟨false, .parse, "unexpected token", "/p/a.php", 12⟩, .other "Errors parsing /p/a.php"]

theorem output_decoded_twice : (∀ l ∈ loggedTwice, l.Proper) ∧ parseOutput (outputOf loggedTwice) =
      [⟨.parse, "unexpected token", 12⟩, ⟨.fatal, "Cannot redeclare foo()", 9⟩] := by
  have hfatal : Text.Trimmed "Cannot redeclare foo()".toList :=
    ⟨by rintro _ ⟨⟩; decide, by rintro _ ⟨⟩; decide⟩
  have hparse :
      Text.Trimmed "unexpected token".toList := ⟨by rintro _ ⟨⟩; decide, by rintro _ ⟨⟩; decide⟩
  have hproper : ∀ l ∈ loggedTwice, l.Proper := by
    simp only [loggedTwice, forall_mem_cons, OutputLine.Proper]
    refine ⟨⟨?_, hfatal, ?_, ?_, ?_, ?_, ?_⟩, ⟨?_, ?_⟩, ⟨?_, hfatal, ?_, ?_, ?_, ?_, ?_⟩,
      ⟨?_, hparse, ?_, ?_, ?_, ?_, ?_⟩, ⟨?_, ?_⟩, by simp⟩
    all_goals first | decide | (intro kind; cases kind <;> decide +kernel)
  exact ⟨hproper, (output_decoded hproper).1.trans (by decide +kernel)⟩

/-- A message with a mark in it is cut there, and a message that names the other kind is read a
second time. -/
theorem message_cut_at_mark :
    parseOutput (outputOf
      [.report ⟨true, .fatal, "Cannot redeclare foo() (previously declared in /p/a.php:3)",
      "/p/b.php", 9⟩]) = [⟨.fatal, "Cannot redeclare foo() (previously declared", 9⟩] ∧
    parseOutput (outputOf [.report ⟨false, .fatal, "Uncaught Parse error: bad", "/p/a.php", 3⟩]) =
      [⟨.parse, "bad", 3⟩, ⟨.fatal, "Uncaught Parse error: bad", 3⟩] := by
  decide +kernel

end Lint

end PluginAudit
