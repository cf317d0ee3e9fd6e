import Mathlib.Data.List.Forall2
import PluginAudit.Proofs.TemplateUses

/-!
Modes of reporting what is found in templates. Main statement: the strict mode leaves out exactly
the findings that the rules exclude, and the debug mode keeps those with a note.
-/

open List

namespace PluginAudit

open Table (get? get?_insert ofPairs)

/-! ### What the rules say -/

namespace Widget.Rule

/-- The rule takes a member out of the findings of a kind. -/
def Excludes (r : Rule) (member kind : String) : Prop :=
  r.status ≠ .keep ∧ (kind ∈ r.kinds ∨ wildcard ∈ r.kinds) ∧
    (member ∈ r.methods ∨ wildcard ∈ r.methods)

instance (r : Rule) (member kind : String) : Decidable (r.Excludes member kind) :=
  inferInstanceAs (Decidable (_ ∧ _))

lemma excludes_iff {r : Rule} {member kind : String} :
    r.Excludes member kind ↔ (r.status != .keep && r.covers member kind) := by
  simp [Excludes, covers]

end Widget.Rule

namespace WidgetRules

variable {w : WidgetRules} {tag widget member kind : String}

/-- The rule for a widget in an ecosystem excludes a member in findings of a kind. -/
def Excludes (w : WidgetRules) (tag widget member kind : String) : Prop :=
  ∃ r ∈ w.rule? tag widget, r.Excludes member kind

/-- The rule for a widget in an ecosystem keeps its findings. -/
def Keeps (w : WidgetRules) (tag widget : String) : Prop :=
  ∃ r ∈ w.rule? tag widget, r.status = .keep

instance : Decidable (w.Excludes tag widget member kind) :=
  inferInstanceAs (Decidable (∃ r ∈ w.rule? tag widget, r.Excludes member kind))

instance : Decidable (w.Keeps tag widget) :=
  inferInstanceAs (Decidable (∃ r ∈ w.rule? tag widget, r.status = .keep))

lemma exclude_decide :
    (w.decide tag widget member kind).exclude ↔ w.Excludes tag widget member kind := by
  unfold WidgetRules.decide Excludes
  cases hrule : w.rule? tag widget with
  | none => simp
  | some r => simp only [Option.mem_some_iff, exists_eq_left', Widget.Rule.excludes_iff]

lemma status_decide : (w.decide tag widget member kind).status = .keep ↔ w.Keeps tag widget := by
  have hunknown : Widget.Status.unknown ≠ .keep := by decide
  unfold WidgetRules.decide Keeps
  cases hrule : w.rule? tag widget with
  | none => simp [hunknown]
  | some r => simp

end WidgetRules

namespace Finding

def widget (f : Finding) : String := f.contextText "widget_type"

def member (f : Finding) : String :=
  if (get? "method" f.context).isSome then f.contextText "method" else f.contextText "property"

/-- The rule of an ecosystem excludes the finding. -/
def ExcludedBy (f : Finding) (w : WidgetRules) (tag : String) : Prop :=
  w.Excludes tag f.widget f.member f.kind.code

/-- The rule of some ecosystem excludes the finding, and no rule keeps it. -/
def Excluded (f : Finding) (w : WidgetRules) (tags : List String) : Prop :=
  (∃ tag ∈ tags, f.ExcludedBy w tag) ∧ ¬ ∃ tag ∈ tags, w.Keeps tag f.widget

instance (f : Finding) (w : WidgetRules) (tag : String) : Decidable (f.ExcludedBy w tag) :=
  inferInstanceAs (Decidable (w.Excludes tag f.widget f.member f.kind.code))

instance (f : Finding) (w : WidgetRules) (tags : List String) : Decidable (f.Excluded w tags) :=
  inferInstanceAs (Decidable (_ ∧ ¬ _))

/-- An ecosystem whose rule excludes the finding, the first one in the order of their names. -/
structure FirstExcludedBy (f : Finding) (w : WidgetRules) (tags : List String) (tag : String)
    (r : Widget.Rule) : Prop where
  mem : tag ∈ tags
  rule : w.rule? tag f.widget = some r
  excludes : r.Excludes f.member f.kind.code
  first : ∀ other ∈ tags, f.ExcludedBy w other → tag ≤ other

/-- A finding with a note, which is all that is new in it. -/
structure Annotated (f noted : Finding) (name : String) (note : Value) : Prop where
  fresh : get? name f.context = none
  same : noted = { f with context := noted.context }
  context :
    ∀ other, get? other noted.context = if other = name then some note else get? other f.context

lemma annotated_withContext {f : Finding} {name : String} (h : get? name f.context = none)
    (note : Value) : f.Annotated (f.withContext name note) name note where
  fresh := h
  same := rfl
  context := by
    intro other
    simp [withContext, eq_comm]

end Finding

namespace Detector.Template

open Source WidgetRules

variable {widget member root : String}

/-- What the note on an excluded finding says: the ecosystem, the widget, and the rule. -/
def ruleNote (tag widget : String) (r : Widget.Rule) : Value :=
  .record
    (ofPairs [("ecosystem", .text tag), ("widget_type", .text widget), ("reason", .text r.reason),
    ("status", .text r.status.word), ("future_proof", .bool r.futureProof)])

variable {env : Surroundings} {names : List String} {x : Finding}

/-! ### One finding -/

lemma isKept_iff {kind : Kind} : isKept env widget member kind ↔
    ∃ tag ∈ env.ecosystems, env.widgets.Keeps tag widget := by
  simp [isKept, status_decide]

lemma excluder?_eq_none {kind : Kind}
    (h : ¬ ∃ tag ∈ env.ecosystems, env.widgets.Excludes tag widget member kind.code) :
    excluder? env widget member kind = none := by
  rw [excluder?, find?_eq_none]
  intro entry hentry
  obtain ⟨tag, htag, rfl⟩ := mem_map.mp hentry
  intro hexclude
  exact h ⟨tag, htag, exclude_decide.mp hexclude⟩

/-- Of the ecosystems in order, the first one with a rule that excludes the finding is named. -/
lemma exists_excluder? (hnames : env.ecosystems.Pairwise (· < ·))
    (h : ∃ tag ∈ env.ecosystems, x.ExcludedBy env.widgets tag) :
    ∃ tag r d, excluder? env x.widget x.member x.kind = some (tag, d) ∧
      x.FirstExcludedBy env.widgets env.ecosystems tag r ∧ d.exclude ∧
      exclusionNote tag x.widget d = ruleNote tag x.widget r := by
  unfold excluder?
  generalize htags : env.ecosystems = tags at hnames h
  rw [find?_map]
  cases hfind : tags.find? _ with
  | none =>
    obtain ⟨tag, htag, hexcluded⟩ := h
    exact absurd (WidgetRules.exclude_decide.mpr hexcluded) (find?_eq_none.mp hfind tag htag)
  | some tag =>
    obtain ⟨hexclude, before, after, rfl, hbefore⟩ := find?_eq_some_iff_append.mp hfind
    obtain ⟨r, hrule, hexcludes⟩ := WidgetRules.exclude_decide.mp hexclude
    refine ⟨tag, r, _, rfl, ⟨by simp, hrule, hexcludes, fun other hother hby => ?_⟩, hexclude, ?_⟩
    · -- an ecosystem before the first one has no such rule
      obtain ⟨-, hafter, -⟩ := pairwise_append.mp hnames
      rcases mem_append.mp hother with hother | hother
      · have hnot := hbefore other hother
        simp only [Bool.not_eq_true', ← Bool.not_eq_true] at hnot
        exact absurd (WidgetRules.exclude_decide.mpr hby) hnot
      · rcases mem_cons.mp hother with rfl | hother
        · exact le_rfl
        · exact (rel_of_pairwise_cons hafter hother).le
    · rw [WidgetRules.decide, Option.mem_def.mp hrule]
      rfl

lemma screen_of_not_excluded (h : ¬ x.Excluded env.widgets env.ecosystems) :
    screen env x.widget x.member x = some x := by
  by_cases hkept : ∃ tag ∈ env.ecosystems, env.widgets.Keeps tag x.widget
  · rw [screen, if_pos (isKept_iff.mpr hkept)]
  · have hnone : ¬ ∃ tag ∈ env.ecosystems, x.ExcludedBy env.widgets tag := fun hby => h ⟨hby, hkept⟩
    rw [screen, if_neg (isKept_iff.not.mpr hkept), excluder?_eq_none hnone]

lemma exists_screen_of_excluded (hnames : env.ecosystems.Pairwise (· < ·))
    (h : x.Excluded env.widgets env.ecosystems) :
    ∃ tag r, x.FirstExcludedBy env.widgets env.ecosystems tag r ∧ screen env x.widget x.member x =
      if env.widgets.mode = .debug then some (x.withContext "exclusion" (ruleNote tag x.widget r))
      else if env.widgets.mode = .allErrors then some x else none := by
  obtain ⟨hby, hkept⟩ := h
  obtain ⟨tag, r, d, hfind, hfirst, hexclude, hnote⟩ := exists_excluder? hnames hby
  refine ⟨tag, r, hfirst, ?_⟩
  rw [screen, if_neg (isKept_iff.not.mpr hkept), hfind]
  simp only [shows, hexclude, hnote, beq_iff_eq]
  by_cases hdebug : env.widgets.mode = .debug
  · simp [hdebug]
  · by_cases hall : env.widgets.mode = .allErrors
    · simp [hall]
    · simp [hdebug, hall]

/-! ### Findings without rules -/

/-- A finding tells the widget and the member that it is about, and has no note. -/
structure Tells (x : Finding) (widget member : String) : Prop where
  widget : x.widget = widget
  member : x.member = member
  fresh : get? "exclusion" x.context = none

variable {path : String} {number : Nat} {line : List Char} {use : Use}

lemma tells_of_methodCandidate? (h : methodCandidate? path widget number line use = some x) :
    Tells x widget use.name := by
  obtain ⟨-, h⟩ := Option.ite_none_right_eq_some.mp h
  obtain ⟨risk, -, rfl⟩ := Option.map_eq_some_iff.mp h
  cases risk <;> constructor <;> simp [methodFinding, placeContext, Finding.widget, Finding.member,
    Finding.contextText, texts, ofPairs, Value.display]

lemma tells_of_objectCandidate? (h : objectCandidate? path widget number line use = some x) :
    Tells x widget use.name := by
  unfold objectCandidate? at h
  split at h
  · obtain ⟨risk, -, rfl⟩ := Option.map_eq_some_iff.mp h
    constructor <;> simp [objectMethodFinding, placeContext, Finding.widget, Finding.member,
      Finding.contextText, texts, ofPairs, Value.display]
  · cases h
    constructor <;> simp [propertyFinding, placeContext, Finding.widget, Finding.member,
      Finding.contextText, texts, ofPairs, Value.display]

/-! ### Modes -/

/-- The surroundings with detected ecosystems and a mode of reporting. -/
def inMode (env : Surroundings) (names : List String) (mode : Mode) : Surroundings :=
  { env with
    ecosystems := sortedNames names
    widgets := env.widgets.withMode mode }

/-- How what the strict mode and the debug mode show follows from all errors. -/
structure ByMode (w : WidgetRules) (names : List String) (all fatal debug : List Finding) :
    Prop where
  fatal : fatal = all.filter fun x => ¬ x.Excluded w names
  debug : List.Forall₂ (fun x y => if x.Excluded w names then
    ∃ tag r, x.FirstExcludedBy w names tag r ∧
      x.Annotated y "exclusion" (ruleNote tag x.widget r) else y = x) all debug

lemma excluded_inMode (env : Surroundings) (names : List String) {mode : Mode}
    (hmode : mode.isKnown) :
    x.Excluded (inMode env names mode).widgets (inMode env names mode).ecosystems ↔
      x.Excluded env.widgets names := by
  simp only [Finding.Excluded, inMode, withMode, hmode, if_true, mem_sortedNames]
  rfl

lemma firstExcludedBy_of_inMode {mode : Mode} (hmode : mode.isKnown)
    {tag : String} {r : Widget.Rule} (h : x.FirstExcludedBy (inMode env names mode).widgets
      (inMode env names mode).ecosystems tag r) : x.FirstExcludedBy env.widgets names tag r := by
  simp only [inMode, withMode, hmode, if_true] at h
  obtain ⟨hmem, hrule, hexcludes, hfirst⟩ := h
  exact ⟨mem_sortedNames.mp hmem, hrule, hexcludes, fun other hother =>
    hfirst other (mem_sortedNames.mpr hother)⟩

lemma screen_inMode (env : Surroundings) (names : List String) (mode : Mode) (hmode : mode.isKnown)
    (x : Finding) : if x.Excluded env.widgets names then
      ∃ tag r, x.FirstExcludedBy env.widgets names tag r ∧
        screen (inMode env names mode) x.widget x.member x =
        if mode = .debug then some (x.withContext "exclusion" (ruleNote tag x.widget r))
        else if mode = .allErrors then some x else none
    else screen (inMode env names mode) x.widget x.member x = some x := by
  split
  · rename_i hexcluded
    rw [← excluded_inMode env names hmode] at hexcluded
    obtain ⟨tag, r, hfirst, hscreen⟩ :=
      exists_screen_of_excluded (pairwise_sortedNames names) hexcluded
    refine ⟨tag, r, firstExcludedBy_of_inMode hmode hfirst, ?_⟩
    simpa [inMode, withMode, hmode] using hscreen
  · rename_i hkept
    rw [← excluded_inMode env names hmode] at hkept
    exact screen_of_not_excluded hkept

lemma forall₂_filterMap {R : Finding → Finding → Prop} {shown? : Finding → Option Finding}
    {found : List Finding} (h : ∀ x ∈ found, ∃ y, shown? x = some y ∧ R x y) :
    Forall₂ R found (found.filterMap shown?) := by
  induction found with
  | nil => exact .nil
  | cons x found ih =>
    obtain ⟨y, hy, hrel⟩ := h x mem_cons_self
    rw [filterMap_cons_some hy]
    exact .cons hrel (ih (forall_mem_cons.mp h).2)

lemma byMode_screened {candidate? : Candidate} (htells : ∀ {path widget number line use x},
      candidate? path widget number line use = some x → Tells x widget use.name)
    (env : Surroundings) (names : List String) (f : File) :
    ByMode env.widgets names (screened candidate? (inMode env names .allErrors) f)
      (screened candidate? (inMode env names .fatalOnly) f)
        (screened candidate? (inMode env names .debug) f) := by
  obtain ⟨candidates, hfound, hfresh⟩ : ∃ candidates : List Finding,
      (∀ mode, screened candidate? (inMode env names mode) f =
        candidates.filterMap fun x => screen (inMode env names mode) x.widget x.member x) ∧
      ∀ x ∈ candidates, get? "exclusion" x.context = none := by
    refine ⟨(usesIn env.root f).filterMap fun u =>
      candidate? f.path (widgetOf (relativeTo env.root f.path)) u.1 u.2.1 u.2.2, fun mode =>
        ?_, fun x hx => ?_⟩
    · rw [filterMap_filterMap]
      refine filterMap_congr fun u _ => Option.bind_congr fun x hx => ?_
      rw [(htells hx).widget, (htells hx).member]
    · obtain ⟨u, -, hx⟩ := mem_filterMap.mp hx
      exact (htells hx).fresh
  have hall : screened candidate? (inMode env names .allErrors) f = candidates := by
    rw [hfound, ← filterMap_some (l := candidates), filterMap_filterMap]
    apply filterMap_congr
    intro x _
    have hscreen := screen_inMode env names .allErrors (by decide) x
    split at hscreen
    · obtain ⟨tag, r, -, hscreen⟩ := hscreen
      rwa [if_neg (by decide), if_pos rfl] at hscreen
    · exact hscreen
  rw [hall]
  constructor
  · rw [hfound, ← filterMap_eq_filter]
    apply filterMap_congr
    intro x _
    have hscreen := screen_inMode env names .fatalOnly (by decide) x
    split at hscreen
    · rename_i hexcluded
      obtain ⟨tag, r, -, hscreen⟩ := hscreen
      rw [if_neg (by decide), if_neg (by decide)] at hscreen
      simp [hscreen, Option.guard, hexcluded]
    · rename_i hkept
      simp [hscreen, Option.guard, hkept]
  · rw [hfound]
    apply forall₂_filterMap
    intro x hx
    have hscreen := screen_inMode env names .debug (by decide) x
    split at hscreen
    · rename_i hexcluded
      obtain ⟨tag, r, hfirst, hscreen⟩ := hscreen
      rw [if_pos rfl] at hscreen
      refine ⟨_, hscreen, ?_⟩
      rw [if_pos hexcluded]
      exact ⟨tag, r, hfirst, Finding.annotated_withContext (hfresh x hx) _⟩
    · rename_i hkept
      exact ⟨x, hscreen, by rw [if_neg hkept]⟩

/-- In every mode the detectors find the same in a template, and the rules for widgets say what is
shown of it. The strict mode shows all but the findings that the rule of a detected ecosystem
excludes and no such rule keeps. The debug mode shows all, and on these findings notes the first
ecosystem that excludes them with what its rule says. -/
theorem findings_by_mode (env : Surroundings) (names : List String) (f : File) :
    ByMode env.widgets names (detectMethods (inMode env names .allErrors) f)
      (detectMethods (inMode env names .fatalOnly) f) (detectMethods (inMode env names .debug) f) ∧
    ByMode env.widgets names (detectObject (inMode env names .allErrors) f) (detectObject
        (inMode env names .fatalOnly) f) (detectObject (inMode env names .debug) f) := by
  simp only [detectMethods_eq_screened, detectObject_eq_screened]
  exact ⟨byMode_screened tells_of_methodCandidate? env names f,
    byMode_screened tells_of_objectCandidate? env names f⟩

end Detector.Template

end PluginAudit
