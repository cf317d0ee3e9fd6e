import PluginAudit.Proofs.LineStates
import PluginAudit.Proofs.PatternSearch
import PluginAudit.Proofs.ReportingModes

/-!
The two detectors for templates side by side. Main statement: under rules that speak of both kinds
of findings or of neither, they tell the same lines, methods and severities in the same order.
-/

open List

namespace PluginAudit

open CharSet (space wordChar)
open Table (get? get?_insert ofPairs)
open WidgetRules

variable {w : WidgetRules}

/-! ### Rules -/

/-- A rule speaks of both kinds of findings about templates, or of neither. -/
def Widget.Rule.TreatsAlike (r : Rule) : Prop :=
  (Kind.templateMethodContextError.code ∈ r.kinds ∨ wildcard ∈ r.kinds) ↔
    (Kind.thisContextError.code ∈ r.kinds ∨ wildcard ∈ r.kinds)

instance (r : Widget.Rule) : Decidable r.TreatsAlike := inferInstanceAs (Decidable (_ ↔ _))

/-- Each rule that applies to a widget treats both kinds alike. -/
def WidgetRules.TreatsAlike (w : WidgetRules) : Prop :=
  ∀ tag widget, ∀ r ∈ w.rule? tag widget, r.TreatsAlike

lemma WidgetRules.treatsAlike_of_tables (h : ∀ table ∈ [w.temporary, w.rules], ∀ widgets ∈ table,
      ∀ entry ∈ widgets.2, entry.2.TreatsAlike) : w.TreatsAlike := by
  have htable :
      ∀ table ∈ [w.temporary, w.rules], ∀ {tag widget r}, ruleIn? table tag widget = some r →
      r.TreatsAlike := by
    intro table htable tag widget r hr
    obtain ⟨widgets, hwidgets, hentry⟩ := Option.bind_eq_some_iff.mp hr
    exact h table htable _ (Table.mem_of_get? hwidgets) _ (Table.mem_of_get? hentry)
  intro tag widget r hr
  rw [Option.mem_def, rule?] at hr
  split at hr
  case h_1 found htemporary =>
    cases hr
    exact htable _ (by simp) htemporary
  case h_2 => exact htable _ (by simp) hr

lemma WidgetRules.TreatsAlike.excludes_iff (h : w.TreatsAlike) (tag widget member : String) :
    w.Excludes tag widget member Kind.templateMethodContextError.code ↔
      w.Excludes tag widget member Kind.thisContextError.code := by
  constructor
  · rintro ⟨r, hr, hstatus, hkinds, hmethods⟩
    exact ⟨r, hr, hstatus, (h tag widget r hr).mp hkinds, hmethods⟩
  · rintro ⟨r, hr, hstatus, hkinds, hmethods⟩
    exact ⟨r, hr, hstatus, (h tag widget r hr).mpr hkinds, hmethods⟩

namespace Finding

/-- A finding as it was made, or with a note on its exclusion. -/
def ShownAs (x y : Finding) : Prop := y = x ∨ ∃ note, y = x.withContext "exclusion" note

variable {x y : Finding}

lemma ShownAs.line (h : x.ShownAs y) : y.line = x.line := by
  rcases h with rfl | ⟨note, rfl⟩ <;> rfl

lemma ShownAs.severity (h : x.ShownAs y) : y.severity = x.severity := by
  rcases h with rfl | ⟨note, rfl⟩ <;> rfl

lemma ShownAs.get? (h : x.ShownAs y) (name : String) (hname : name ≠ "exclusion") :
    get? name y.context = get? name x.context := by
  rcases h with rfl | ⟨note, rfl⟩
  · rfl
  · rw [withContext, get?_insert, if_neg hname.symm]

end Finding

namespace Detector.Template

open Pattern Source

variable {env : Surroundings} {widget member name : String} {x : Finding} {line : List Char}
  {after : List Char} {f : File} {number : Nat}

/-- The rules exclude a member of a widget from the findings of a kind, and the mode shows no
excluded ones. -/
structure Hides (env : Surroundings) (widget member : String) (kind : Kind) : Prop where
  excluded : ∃ tag ∈ env.ecosystems, env.widgets.Excludes tag widget member kind.code
  not_kept : ¬ ∃ tag ∈ env.ecosystems, env.widgets.Keeps tag widget
  strict : env.widgets.mode ≠ .allErrors ∧ env.widgets.mode ≠ .debug

lemma screen_of_hides (h : Hides env widget member x.kind) : screen env widget member x = none := by
  rw [screen, if_neg (isKept_iff.not.mpr h.not_kept)]
  cases hfind : excluder? env widget member x.kind with
  | none =>
    obtain ⟨tag, htag, hexcludes⟩ := h.excluded
    have hnot := find?_eq_none.mp hfind _ (mem_map_of_mem htag)
    exact absurd (exclude_decide.mpr hexcludes) hnot
  | some found =>
    obtain ⟨tag, d⟩ := found
    rw [excluder?] at hfind
    have hexclude : d.exclude :=
      find?_some (p := fun found : String × Widget.Decision => found.2.exclude) hfind
    simp [shows, hexclude, h.strict]

lemma exists_screen_of_not_hides (h : ¬ Hides env widget member x.kind) :
    ∃ y, screen env widget member x = some y ∧ x.ShownAs y := by
  rw [screen]
  by_cases hkept : ∃ tag ∈ env.ecosystems, env.widgets.Keeps tag widget
  · rw [if_pos (isKept_iff.mpr hkept)]
    exact ⟨x, rfl, .inl rfl⟩
  · rw [if_neg (isKept_iff.not.mpr hkept)]
    cases hfind : excluder? env widget member x.kind with
    | none => exact ⟨x, rfl, .inl rfl⟩
    | some found =>
      obtain ⟨tag, d⟩ := found
      have hexcluded :
          ∃ tag ∈ env.ecosystems, env.widgets.Excludes tag widget member x.kind.code := by
        by_contra hnone
        rw [excluder?_eq_none hnone] at hfind
        cases hfind
      by_cases hdebug : env.widgets.mode = .debug
      · refine ⟨x.withContext "exclusion" (exclusionNote tag widget d), ?_, .inr ⟨_, rfl⟩⟩
        simp [shows, hdebug]
      · have hall : env.widgets.mode = .allErrors := by
          by_contra hall
          exact h ⟨hexcluded, hkept, hall, hdebug⟩
        refine ⟨x, ?_, .inl rfl⟩
        rw [hall] at hdebug
        simp [shows, hall, hdebug]

lemma shownAs_of_screen {y : Finding} (h : screen env widget member x = some y) : x.ShownAs y := by
  by_cases hhides : Hides env widget member x.kind
  · rw [screen_of_hides hhides] at h
    cases h
  · obtain ⟨y', hscreen, hshown⟩ := exists_screen_of_not_hides hhides
    rw [hscreen] at h
    cases h
    exact hshown

/-! ### Methods -/

def methodView (x : Finding) : Int × String × Severity :=
  (x.line, x.contextText "method", x.severity)

def isAboutMethod (x : Finding) : Bool := (get? "method" x.context).isSome

lemma methodView_of_shownAs {y : Finding} (h : x.ShownAs y) : methodView y = methodView x := by
  simp only [methodView, Finding.contextText, h.line, h.severity, h.get? "method" (by decide)]

lemma hides_iff_of_treatsAlike (h : env.widgets.TreatsAlike) :
    Hides env widget member .templateMethodContextError ↔
      Hides env widget member .thisContextError := by
  constructor
  · rintro ⟨⟨tag, htag, hexcludes⟩, hkept, hstrict⟩
    exact ⟨⟨tag, htag, (h.excludes_iff tag widget member).mp hexcludes⟩, hkept, hstrict⟩
  · rintro ⟨⟨tag, htag, hexcludes⟩, hkept, hstrict⟩
    exact ⟨⟨tag, htag, (h.excludes_iff tag widget member).mpr hexcludes⟩, hkept, hstrict⟩

section Findings

variable (path widget : String) (number : Nat) (line : List Char) (name : String) (risk : Risk)

@[simp] lemma methodView_methodFinding :
    methodView (methodFinding path widget number line name risk) =
      ((number : Int), name, risk.severity) := by
  cases risk <;> simp [methodView, methodFinding, placeContext, Finding.contextText, texts, ofPairs,
    Value.display]

@[simp] lemma methodView_objectMethodFinding :
    methodView (objectMethodFinding path widget number line name risk) =
      ((number : Int), name, risk.severity) := by
  simp [methodView, objectMethodFinding, placeContext, Finding.contextText, texts, ofPairs,
    Value.display]

lemma get?_objectMethodFinding :
    get? "method" (objectMethodFinding path widget number line name risk).context =
      some (.text name) ∧
      get? "property" (objectMethodFinding path widget number line name risk).context = none := by
  simp [objectMethodFinding, placeContext, texts, ofPairs]

lemma get?_propertyFinding :
    get? "method" (propertyFinding path widget number line name).context = none ∧
      get? "property" (propertyFinding path widget number line name).context =
        some (.text name) := by
  simp [propertyFinding, placeContext, texts, ofPairs]

lemma methodView_screen (h : env.widgets.TreatsAlike) :
    (screen env widget name (methodFinding path widget number line name risk)).map methodView =
      ((screen env widget name (objectMethodFinding path widget number line name risk)).filter
        isAboutMethod).map methodView := by
  have hkind :
      (methodFinding path widget number line name risk).kind = .templateMethodContextError := by
    cases risk <;> rfl
  by_cases hhides : Hides env widget name .thisContextError
  · rw [screen_of_hides (x := objectMethodFinding path widget number line name risk) hhides,
      screen_of_hides (hkind ▸ (hides_iff_of_treatsAlike h).mpr hhides)]
    rfl
  · obtain ⟨y, hscreen, hshown⟩ :=
      exists_screen_of_not_hides (x := methodFinding path widget number line name risk)
      (hkind ▸ (hides_iff_of_treatsAlike h).not.mpr hhides)
    obtain ⟨y', hscreen', hshown'⟩ :=
      exists_screen_of_not_hides (x := objectMethodFinding path widget number line name risk) hhides
    have habout : isAboutMethod y' := by
      rw [isAboutMethod, hshown'.get? "method" (by decide), (get?_objectMethodFinding ..).1,
        Option.isSome_some]
    rw [hscreen, hscreen', Option.filter_some_pos habout, Option.map_some, Option.map_some,
      methodView_of_shownAs hshown, methodView_of_shownAs hshown', methodView_methodFinding,
      methodView_objectMethodFinding]

@[simp] lemma filter_isAboutMethod_screen :
    (screen env widget name (propertyFinding path widget number line name)).filter isAboutMethod =
      none := by
  rw [Option.filter_eq_none_iff]
  intro y hscreen
  rw [isAboutMethod, (shownAs_of_screen hscreen).get? "method" (by decide),
    (get?_propertyFinding ..).1]
  exact Bool.false_ne_true

end Findings

lemma map_methodView_detectMethods (h : env.widgets.TreatsAlike) (f : File) :
    (detectMethods env f).map methodView =
      ((detectObject env f).filter isAboutMethod).map methodView := by
  rw [detectMethods, detectObject, filter_filterMap, map_filterMap, map_filterMap]
  apply filterMap_congr
  intro use _
  obtain ⟨number, line, use⟩ := use
  dsimp only
  split
  · cases risk? use.name with
    | none => rfl
    | some risk => exact methodView_screen (h := h) ..
  · rw [filter_isAboutMethod_screen]

/-! ### Members on a line -/

def memberText (gap gap' : List Char) (name : String) : List Char :=
  "$this".toList ++ (gap ++ ("->".toList ++ (gap' ++ name.toList)))

lemma memberText_eq (gap gap' : List Char) (name : String) :
    memberText gap gap' name = "$this".toList ++ (gap ++ ("->".toList ++ (gap' ++ name.toList))) :=
  rfl

/-- White space around the arrow, then an identifier that the text behind it does not go on. -/
structure IsMember (gap gap' : List Char) (name : String) (after : List Char) : Prop where
  gap : ∀ c ∈ gap, space.mem c = true
  gap' : ∀ c ∈ gap', space.mem c = true
  isIdentifier : IsIdentifier name
  stop : ∀ c ∈ after.head?, wordChar.mem c = false

/-- A line names a member of the current object, with some text behind it. -/
def NamesMember (line : List Char) (name : String) (after : List Char) : Prop :=
  ∃ before gap gap', line = before ++ (memberText gap gap' name ++ after) ∧
    IsMember gap gap' name after

/-- A text starts with a parenthesis, possibly after blanks. -/
def OpensCall (after : List Char) : Prop :=
  ∃ blanks rest, after = blanks ++ '(' :: rest ∧ ∀ c ∈ blanks, c = ' ' ∨ c = '\t'

/-- A line reads a property of the current object. -/
def ReadsProperty (line : List Char) (name : String) : Prop :=
  ∃ after, NamesMember line name after ∧ ¬ OpensCall after

lemma opensCall_iff :
    OpensCall after ↔ (after.dropWhile fun c => c == ' ' || c == '\t').head? = some '(' := by
  constructor
  · rintro ⟨blanks, rest, rfl, hblanks⟩
    rw [dropWhile_append_of_pos (by simpa using hblanks)]
    rfl
  · intro h
    obtain ⟨rest, hrest⟩ := head?_eq_some_iff.mp h
    refine ⟨_, rest, (hrest ▸ takeWhile_append_dropWhile).symm, fun c hc => ?_⟩
    simpa using mem_takeWhile_imp hc

lemma exists_of_matches_memberUse {c d : Cursor} {groups groups' : Groups}
    (h : Matches memberUse c groups d groups') :
    ∃ gap gap' x text, (∀ c ∈ gap, space.mem c) ∧ (∀ c ∈ gap', space.mem c) ∧
      CharSet.letter.mem x ∧ (∀ c ∈ text, wordChar.mem c) ∧
      c.Reads ("$this".toList ++ (gap ++ ("->".toList ++ (gap' ++ x :: text)))) d := by
  simp only [memberUse, spaces, Pattern.star, matches_cat_cons_iff, matches_cat_nil_iff,
    matches_literal_iff, matches_many_set_iff, matches_group_iff, matches_identifier_iff] at h
  obtain ⟨_, _, ⟨rfl, hthis⟩, _, _, ⟨rfl, gap, hgap, hread⟩, _, _, ⟨rfl, harrow⟩, _, _,
      ⟨rfl, gap', hgap', hread'⟩, _, _, ⟨_, ⟨rfl, x, text, hx, htext, hname⟩, rfl⟩, rfl, rfl⟩ := h
  exact ⟨gap, gap', x, text, hgap, hgap', hx, htext,
    hthis.trans (hread.trans (harrow.trans (hread'.trans hname)))⟩

lemma matchAt_memberUse {gap gap' : List Char} (h : IsMember gap gap' name after)
    (past : List Char) : ∃ before, memberUse.matchAt ⟨past, memberText gap gap' name ++ after⟩ =
      some ⟨⟨past, memberText gap gap' name, after⟩, [(1, ⟨before, name.toList, after⟩)]⟩ := by
  obtain ⟨hgap, hgap', ⟨x, text, hname, hx, htext⟩, hstop⟩ := h
  have hhead : ∀ y ∈ (name.toList ++ after).head?, space.mem y = false := by
    rw [hname]
    rintro y ⟨⟩
    exact isCodeSpace_of_isMarkerChar (wordChar_of_letter hx)
  have hdash :
      ∀ y ∈ ("->".toList ++ (gap' ++ (name.toList ++ after))).head?, space.mem y = false := by
    rintro y ⟨⟩
    decide
  have hidentifier : ∀ past,
      identifier.Prefers ⟨past, name.toList ++ after⟩ [] ⟨name.toList.reverse ++ past, after⟩ := by
    rw [hname]
    exact prefers_set_star hx htext hstop
  have hmember := (prefers_literal "$this" past _).cons ((prefers_star_set hgap hdash _).cons
    ((prefers_literal "->" _ _).cons
    ((prefers_star_set hgap' hhead _).cons (((hidentifier _).group 1).cons (.nil _)))))
  have hspan := (Cursor.Reads.of_rest past (memberText gap gap' name) after).spanTo_eq
  simp only [memberText_eq, append_assoc, reverse_append] at hspan ⊢
  exact ⟨_, hmember.matchAt_eq.trans (by rw [hspan]; rfl)⟩

lemma namesMember_of_mem_findAll {m : Match} (h : m ∈ memberUse.findAll line) :
    NamesMember line (m.groupText 1) m.after := by
  have hmatch := isMatch_of_mem_findAll h
  obtain ⟨gap, gap', x, text, hgap, hgap', hx, htext, hread⟩ :=
    exists_of_matches_memberUse hmatch.holds
  -- with the identifier read to its end, the same place has only one preferred match
  obtain ⟨more, after, hafter, hmore, hstop⟩ : ∃ more after, m.after = more ++ after ∧
      (∀ c ∈ more, wordChar.mem c) ∧ ∀ c ∈ after.head?, wordChar.mem c = false := by
    refine ⟨m.after.takeWhile wordChar.mem, m.after.dropWhile wordChar.mem,
      takeWhile_append_dropWhile.symm, fun c hc => mem_takeWhile_imp hc, fun c hc => ?_⟩
    have hhead := head?_dropWhile_not wordChar.mem m.after
    rw [Option.mem_def.mp hc] at hhead
    simpa using hhead
  have hmember : IsMember gap gap' (String.ofList (x :: (text ++ more))) after := by
    refine ⟨hgap, hgap', ⟨x, text ++ more, String.toList_ofList, hx, ?_⟩, hstop⟩
    exact forall_mem_append.mpr ⟨htext, hmore⟩
  have hsame :
      m.text ++ m.after = memberText gap gap' (String.ofList (x :: (text ++ more))) ++ after := by
    refine hread.rest_eq.trans ?_
    simp [memberText_eq, hafter]
  have hat := matchAt_of_mem_findAll h
  rw [hsame] at hat
  obtain ⟨before, hwhole⟩ := matchAt_memberUse hmember m.past
  have hm := Option.some.inj (hat.symm.trans hwhole)
  have hname : m.groupText 1 = String.ofList (x :: (text ++ more)) :=
    (congrArg (fun m => Match.groupText m 1) hm).trans String.ofList_toList
  have hend : m.after = after := congrArg (fun m => m.after) hm
  rw [hname, hend]
  exact ⟨m.past.reverse, gap, gap', by rw [← hsame, hmatch.text_eq], hmember⟩

lemma not_goesOver_memberUse {m : Match} (h : m ∈ memberUse.findAll line)
    {past rest front back : List Char}
    (hrest : rest.head? = some '$') : ¬ GoesOver m past rest front back := by
  intro hover
  obtain ⟨gap, gap', x, text, hgap, hgap', hx, htext, hread⟩ :=
    exists_of_matches_memberUse (isMatch_of_mem_findAll h).holds
  have hwritten :
      m.text = '$' :: ("this".toList ++ (gap ++ ("->".toList ++ (gap' ++ x :: text)))) :=
    append_cancel_right hread.rest_eq
  have hnot : '$' ∉ "this".toList ++ (gap ++ ("->".toList ++ (gap' ++ x :: text))) := by
    have hgap : '$' ∉ gap := fun hc => absurd (hgap _ hc) (by decide)
    have hgap' : '$' ∉ gap' := fun hc => absurd (hgap' _ hc) (by decide)
    have hx : x ≠ '$' := fun hc => absurd (hc ▸ hx) (by decide)
    have htext : '$' ∉ text := fun hc => absurd (htext _ hc) (by decide)
    simp [hgap, hgap', hx.symm, htext]
  obtain ⟨y, front, rfl⟩ := exists_cons_of_ne_nil hover.front_ne
  obtain ⟨z, back, rfl⟩ := exists_cons_of_ne_nil hover.back_ne
  have hz : z = '$' := by
    rw [hover.rest_eq] at hrest
    exact Option.some.inj hrest
  rw [hover.text_eq, cons_append] at hwritten
  rw [← (List.cons.inj hwritten).2, hz] at hnot
  exact hnot (by simp)

lemma exists_mem_findAll_memberUse_iff :
    (∃ m ∈ memberUse.findAll line, m.groupText 1 = name ∧ m.after = after) ↔
      NamesMember line name after := by
  constructor
  · rintro ⟨m, hm, rfl, rfl⟩
    exact namesMember_of_mem_findAll hm
  · rintro ⟨before, gap, gap', rfl, h⟩
    obtain ⟨start, hat⟩ := matchAt_memberUse h before.reverse
    have hmoves : memberUse.Moves := (moves_literal (by decide)).cat mem_cons_self
    have hfound := hmoves.mem_findAll_or_goesOver hat
    rw [reverse_reverse] at hfound
    rcases hfound with hmem | ⟨m, hmem, front, back, hover⟩
    · exact ⟨_, hmem, String.ofList_toList, rfl⟩
    · exact absurd hover (not_goesOver_memberUse hmem rfl)

lemma mem_uses_iff {use : Use} : use ∈ uses line ↔ ∃ after, NamesMember line use.name after ∧
      (use.isMethod ↔ OpensCall after) := by
  obtain ⟨name, isMethod⟩ := use
  rw [uses, mem_foldl_once, mem_map]
  simp only [not_mem_nil, false_or, Use.mk.injEq, ← exists_mem_findAll_memberUse_iff, opensCall_iff]
  constructor
  · rintro ⟨m, hm, rfl, rfl⟩
    exact ⟨m.after, ⟨m, hm, rfl, rfl⟩, beq_iff_eq⟩
  · rintro ⟨after, ⟨m, hm, rfl, rfl⟩, hcall⟩
    refine ⟨m, hm, rfl, ?_⟩
    rw [Bool.eq_iff_iff, beq_iff_eq, hcall]

lemma readsProperty_iff : ReadsProperty line name ↔ ⟨name, false⟩ ∈ uses line := by
  rw [mem_uses_iff]
  simp [ReadsProperty]

/-! ### Properties -/

/-- A template has a line that is read, with its number: no comment and no text. -/
def Scans (root : String) (f : File) (number : Nat) (line : List Char) : Prop :=
  isTemplate root f.path = true ∧ ∃ state, (number, state, line) ∈ numberedStates f.lines ∧
    state.skippable = false ∧ isCommentLine line = false

lemma mem_usesIn_iff {root : String} {use : Use} :
    (number, line, use) ∈ usesIn root f ↔ Scans root f number line ∧ use ∈ uses (clean line) := by
  rw [usesIn, Scans]
  split
  case isFalse htemplate => simp [htemplate]
  case isTrue htemplate =>
    rw [mem_flatMap]
    constructor
    · rintro ⟨⟨number', state, line'⟩, hmem, huse⟩
      dsimp only at huse
      split at huse
      · cases huse
      · rename_i hcode
        obtain ⟨use', huse, heq⟩ := mem_map.mp huse
        cases heq
        rw [Bool.or_eq_true, not_or, Bool.not_eq_true, Bool.not_eq_true] at hcode
        exact ⟨⟨htemplate, state, hmem, hcode⟩, huse⟩
    · rintro ⟨⟨-, state, hmem, hskippable, hcomment⟩, huse⟩
      refine ⟨_, hmem, ?_⟩
      dsimp only
      rw [hskippable, hcomment]
      exact mem_map_of_mem huse

lemma nodup_usesIn (root : String) (f : File) :
    ((usesIn root f).map fun u => (u.1, u.2.2)).Nodup := by
  rw [usesIn]
  split
  case isFalse => exact nodup_nil
  case isTrue =>
    rw [map_flatMap, nodup_flatMap]
    have hnumber : ∀ {l : Nat × LineState × List Char} {u : Nat × Use},
        u ∈ ((if l.2.1.skippable || isCommentLine l.2.2 then []
          else (uses (clean l.2.2)).map fun use => (l.1, l.2.2, use)).map fun u => (u.1, u.2.2)) →
            u.1 = l.1 := by
      intro l u hu
      split at hu
      · cases hu
      · obtain ⟨u', hu', rfl⟩ := mem_map.mp hu
        obtain ⟨use, -, rfl⟩ := mem_map.mp hu'
        rfl
    constructor
    · intro l _
      obtain ⟨number, state, line⟩ := l
      dsimp only
      split
      · exact nodup_nil
      · rw [map_map]
        exact (nodup_foldl_once nodup_nil).map fun use use' heq => (Prod.mk.inj heq).2
    · refine (pairwise_numberedStates f.lines).imp fun hlt u hu hu' => ?_
      rw [← hnumber hu, ← hnumber hu'] at hlt
      exact lt_irrefl _ hlt

def propertyFindings (env : Surroundings) (f : File) (number : Nat) (name : String) :
    List Finding :=
  (detectObject env f).filter fun x =>
    x.line = number ∧ get? "property" x.context = some (.text name)

lemma propertyFindings_eq (env : Surroundings) (f : File) (number : Nat) (name : String) :
    propertyFindings env f number name = (usesIn env.root f).filterMap fun u =>
      if (u.1, u.2.2) = (number, ⟨name, false⟩) then
        screen env (widgetOf (relativeTo env.root f.path)) name
          (propertyFinding f.path (widgetOf (relativeTo env.root f.path)) number u.2.1 name)
      else none := by
  rw [propertyFindings, detectObject, filter_filterMap]
  apply filterMap_congr
  intro u _
  obtain ⟨number', line, name', isMethod⟩ := u
  dsimp only
  cases isMethod with
  | true =>
    rw [if_pos rfl, if_neg (by simp), Option.filter_eq_none_iff]
    intro y hy
    obtain ⟨risk, -, hscreen⟩ := Option.bind_eq_some_iff.mp hy
    rw [decide_eq_true_eq, (shownAs_of_screen hscreen).get? "property" (by decide),
      (get?_objectMethodFinding ..).2]
    rintro ⟨-, hproperty⟩
    cases hproperty
  | false =>
    rw [if_neg Bool.false_ne_true]
    split
    case isTrue heq =>
      obtain ⟨rfl, huse⟩ := Prod.mk.inj heq
      obtain rfl : name' = name := (Use.mk.inj huse).1
      cases hscreen : screen env _ name' (propertyFinding f.path _ number' line name') with
      | none => rfl
      | some y =>
        have hshown := shownAs_of_screen hscreen
        apply Option.filter_some_pos
        rw [decide_eq_true_eq, hshown.line, hshown.get? "property" (by decide),
          (get?_propertyFinding ..).2]
        exact ⟨rfl, rfl⟩
    case isFalse hne =>
      rw [Option.filter_eq_none_iff]
      intro y hscreen
      have hshown := shownAs_of_screen hscreen
      rw [decide_eq_true_eq, hshown.line, hshown.get? "property" (by decide),
        (get?_propertyFinding ..).2]
      rintro ⟨hline, hproperty⟩
      have hnumber : number' = number := Int.ofNat.inj hline
      have hname : name' = name := by simpa using hproperty
      exact hne (by rw [hnumber, hname])

/-- A template reads a property on a line, and the rules do not hide it. -/
def ShowsProperty (env : Surroundings) (f : File) (number : Nat) (name : String) : Prop :=
  (∃ line, Scans env.root f number line ∧ ReadsProperty (clean line) name) ∧
    ¬ Hides env (widgetOf (relativeTo env.root f.path)) name .thisContextError

lemma exists_propertyFindings_eq (h : ShowsProperty env f number name) :
    ∃ x, propertyFindings env f number name = [x] ∧ x.severity = .error := by
  obtain ⟨⟨line, hscans, hreads⟩, hhides⟩ := h
  have hmem : (number, line, ⟨name, false⟩) ∈ usesIn env.root f :=
    mem_usesIn_iff.mpr ⟨hscans, readsProperty_iff.mp hreads⟩
  obtain ⟨y, hscreen, hshown⟩ := exists_screen_of_not_hides
    (x := propertyFinding f.path (widgetOf (relativeTo env.root f.path)) number line name) hhides
  refine ⟨y, ?_, hshown.severity⟩
  rw [propertyFindings_eq, filterMap_eq_flatMap_toList,
    flatMap_eq_of_key (nodup_usesIn env.root f) hmem, if_pos rfl, hscreen, Option.toList_some]
  intro u _ hne
  rw [if_neg hne, Option.toList_none]

lemma propertyFindings_eq_nil (h : ¬ ShowsProperty env f number name) :
    propertyFindings env f number name = [] := by
  rw [propertyFindings_eq, filterMap_eq_nil_iff]
  intro u hu
  split
  case isFalse => rfl
  case isTrue heq =>
    obtain ⟨number', line, use⟩ := u
    obtain ⟨rfl, rfl⟩ := Prod.mk.inj heq
    obtain ⟨hscans, huse⟩ := mem_usesIn_iff.mp hu
    apply screen_of_hides
    by_contra hhides
    exact h ⟨⟨line, hscans, readsProperty_iff.mpr huse⟩, hhides⟩

/-- Under rules that treat both kinds of findings alike, the two detectors for templates tell the
same lines, methods and severities in the same order. The detector for the object also tells each
property that the rules do not hide, once for each line that reads it and as an error, and no other
property. -/
theorem detectMethods_agrees_with_detectObject (env : Surroundings) (f : File)
    (h : env.widgets.TreatsAlike) :
    (detectMethods env f).map methodView = ((detectObject env f).filter isAboutMethod).map
      methodView ∧ ∀ number name, (ShowsProperty env f number name →
          ∃ x, propertyFindings env f number name = [x] ∧ x.severity = .error) ∧
        (¬ ShowsProperty env f number name → propertyFindings env f number name = []) :=
  ⟨map_methodView_detectMethods h f, fun _ _ =>
    ⟨exists_propertyFindings_eq, propertyFindings_eq_nil⟩⟩

def pickyRules : WidgetRules where
  rules := [("elementor", [("post_grid",
    { status := .exclude, methods := ["get_id", "color"], kinds := templateKinds.reverse })])]

/-- A template with a method and a property of one name. -/
def mixedTemplate : File where
  path := "views/post-grid.php"
  lines := ["<?= $this->get_title () . $this -> get_title; ?>".toList, "// $this->skipped".toList,
    "$this->get_id() . $this->color . $this->get_title;".toList]

theorem detectors_agree_on_mixedTemplate :
    let env : Surroundings := { ecosystems := ["elementor"], widgets := pickyRules }
    env.widgets.TreatsAlike ∧
      (detectMethods env mixedTemplate).map methodView = [(1, "get_title", .info)] ∧
      ((detectObject env mixedTemplate).filter isAboutMethod).map methodView =
      [(1, "get_title", .info)] ∧
      (∃ x, propertyFindings env mixedTemplate 1 "get_title" = [x] ∧ x.severity = .error) ∧
      (∃ x, propertyFindings env mixedTemplate 3 "get_title" = [x] ∧ x.severity = .error) ∧
      propertyFindings env mixedTemplate 3 "color" = [] := by
  intro env
  have hrules : env.widgets.TreatsAlike := WidgetRules.treatsAlike_of_tables (by decide)
  obtain ⟨hmethods, hproperties⟩ := detectMethods_agrees_with_detectObject env mixedTemplate hrules
  have hview : (detectMethods env mixedTemplate).map methodView = [(1, "get_title", .info)] := by
    decide +kernel
  have hshown : ∀ number ∈ [1, 3], ShowsProperty env mixedTemplate number "get_title" := by
    intro number hnumber
    have hlines : ∀ number ∈ [1, 3], ∃ l ∈ numberedStates mixedTemplate.lines, l.1 = number ∧
        l.2.1.skippable = false ∧ isCommentLine l.2.2 = false ∧
        ⟨"get_title", false⟩ ∈ uses (clean l.2.2) := by
      decide +kernel
    obtain ⟨l, hmem, rfl, hskippable, hcomment, huse⟩ := hlines number hnumber
    refine ⟨⟨l.2.2, ⟨by decide +kernel, l.2.1, hmem, hskippable, hcomment⟩,
      readsProperty_iff.mpr huse⟩, ?_⟩
    intro hhides
    exact absurd hhides.excluded (by decide +kernel)
  refine ⟨hrules, hview, hmethods ▸ hview, (hproperties 1 "get_title").1 (hshown 1 (by simp)),
    (hproperties 3 "get_title").1 (hshown 3 (by simp)), (hproperties 3 "color").2 ?_⟩
  rintro ⟨-, hhides⟩
  exact hhides ⟨by decide +kernel, by decide +kernel, by decide⟩

end Detector.Template

end PluginAudit
