import PluginAudit.Proofs.EcosystemExemptions
import PluginAudit.Proofs.Texts

/-!
Extending exemptions is a union: rules that are added to an ecosystem exempt what they name in its
plugins, in whatever order and however often they are added.
-/

open List

namespace PluginAudit

namespace Exemption

/-! ### What rules name -/

/-- A pattern matches a name: with stars at its end if the name starts with what precedes them, and
without any if the name contains the pattern. -/
inductive PatternMatches (name : List Char) : List Char → Prop where
  | start {stem : List Char} (stars : Nat) (hstem : stem.getLast? ≠ some '*')
    (hpre : stem <+: name) : PatternMatches name (stem ++ List.replicate (stars + 1) '*')
  | part {pattern : List Char} (hend : pattern.getLast? ≠ some '*') (hin : pattern <:+: name) :
      PatternMatches name pattern

lemma trimEndBy_star_append {stem : List Char} (h : stem.getLast? ≠ some '*') (stars : Nat) :
    Text.trimEndBy (· == '*') (stem ++ replicate stars '*') = stem := by
  rw [Text.trimEndBy, reverse_append, reverse_replicate,
    dropWhile_append_of_pos fun c hc => by simp [(mem_replicate.mp hc).2]]
  cases hrev : stem.reverse with
  | nil => simpa using hrev
  | cons c rest =>
    have hc : c ≠ '*' := by
      rintro rfl
      exact h (by rw [getLast?_eq_head?_reverse, hrev, head?_cons])
    rw [dropWhile_cons_of_neg (by simpa using hc), ← hrev, reverse_reverse]

lemma exists_stem {pattern : List Char} (h : pattern.getLast? = some '*') :
    ∃ stem stars, pattern = stem ++ replicate (stars + 1) '*' ∧ stem.getLast? ≠ some '*' := by
  have hsplit : pattern.rdropWhile (· == '*') ++ pattern.rtakeWhile (· == '*') = pattern :=
    rdropWhile_append_rtakeWhile
  have hstars :
      pattern.rtakeWhile (· == '*') = replicate (pattern.rtakeWhile (· == '*')).length '*' :=
    eq_replicate_of_mem fun c hc => by simpa using mem_rtakeWhile_imp hc
  have hstem : (pattern.rdropWhile (· == '*')).getLast? ≠ some '*' := by
    intro hlast
    have hne : pattern.rdropWhile (· == '*') ≠ [] := by
      intro hnil
      rw [hnil] at hlast
      cases hlast
    rw [getLast?_eq_some_getLast hne, Option.some.injEq] at hlast
    exact rdropWhile_last_not _ _ hne (by simp [hlast])
  cases hlength : (pattern.rtakeWhile (· == '*')).length with
  | zero =>
    rw [length_eq_zero_iff.mp hlength, append_nil] at hsplit
    exact absurd (hsplit ▸ h) (hsplit ▸ hstem)
  | succ stars => exact ⟨_, stars, by rw [← hlength, ← hstars, hsplit], hstem⟩

lemma covers_iff {pattern name : String} :
    covers pattern name ↔ PatternMatches name.toList pattern.toList := by
  unfold covers
  generalize pattern.toList = pattern
  split
  case isTrue hend =>
    obtain ⟨stem, stars, rfl, hstem⟩ := exists_stem hend
    rw [trimEndBy_star_append hstem, isPrefixOf_iff_prefix]
    refine ⟨.start stars hstem, fun h => ?_⟩
    generalize hpattern : stem ++ replicate (stars + 1) '*' = pattern at h hend
    cases h with
    | start stars' hstem' hpre =>
      have heq := congrArg (Text.trimEndBy (· == '*')) hpattern
      rw [trimEndBy_star_append hstem, trimEndBy_star_append hstem'] at heq
      exact heq ▸ hpre
    | part hnot hin => exact absurd hend hnot
  case isFalse hend =>
    rw [Text.occursIn_iff]
    refine ⟨.part hend, fun h => ?_⟩
    cases h with
    | start stars hstem hpre => simp [replicate_succ'] at hend
    | part hnot hin => exact hin

namespace Rules

variable {rules : Rules} {name : String}

/-- The rules name a class: it is listed, or a pattern matches it. -/
def NamesClass (rules : Rules) (name : String) : Prop :=
  name ∈ rules.classes ∨ ∃ pattern ∈ rules.classPatterns, PatternMatches name.toList pattern.toList

/-- The rules name a function: it is listed, or a pattern matches it. A listed text with a star at
its end is a pattern. -/
def NamesFunction (rules : Rules) (name : String) : Prop :=
  (∃ entry ∈ rules.functions, if entry.toList.getLast? = some '*' then
    PatternMatches name.toList entry.toList else name = entry) ∨
    ∃ pattern ∈ rules.functionPatterns, PatternMatches name.toList pattern.toList

@[simp] lemma exemptsClass_compile_iff :
    rules.compile.exemptsClass name ↔ rules.NamesClass name := by
  simp only [exemptsClass, compile, NamesClass, Bool.or_eq_true, contains_iff_mem, any_eq_true,
    covers_iff]

@[simp] lemma exemptsFunction_compile_iff :
    rules.compile.exemptsFunction name ↔ rules.NamesFunction name := by
  simp only [exemptsFunction, compile, NamesFunction, isStarred, Bool.or_eq_true, contains_iff_mem,
    any_eq_true, mem_append, mem_filter, covers_iff, Bool.not_eq_true', decide_eq_true_eq,
    decide_eq_false_iff_not]
  constructor
  · rintro (⟨hmem, hend⟩ | ⟨pattern, hmem | ⟨hmem, hend⟩, hmatch⟩)
    · exact .inl ⟨name, hmem, by rw [if_neg hend]⟩
    · exact .inr ⟨pattern, hmem, hmatch⟩
    · exact .inl ⟨pattern, hmem, by rwa [if_pos hend]⟩
  · rintro (⟨entry, hmem, hentry⟩ | ⟨pattern, hmem, hmatch⟩)
    · split at hentry
      case isTrue hend => exact .inr ⟨entry, .inr ⟨hmem, hend⟩, hentry⟩
      case isFalse hend =>
        subst hentry
        exact .inl ⟨hmem, hend⟩
    · exact .inr ⟨pattern, .inl hmem, hmatch⟩

@[simp] lemma exemptsClass_append_eq (a b : Rules) (name : String) :
    (a.append b).exemptsClass name = (a.exemptsClass name || b.exemptsClass name) := by
  rw [Bool.eq_iff_iff]
  simp only [exemptsClass, append, any_append, contains_append, Bool.or_eq_true]
  tauto

@[simp] lemma exemptsFunction_append_eq (a b : Rules) (name : String) :
    (a.append b).exemptsFunction name = (a.exemptsFunction name || b.exemptsFunction name) := by
  rw [Bool.eq_iff_iff]
  simp only [exemptsFunction, append, any_append, contains_append, Bool.or_eq_true]
  tauto

end Rules

end Exemption

namespace Exemptions

open Exemption (Rules)

/-! ### Added rules -/

/-- A name without one leading backslash. -/
inductive Bare : String → String → Prop where
  | lead (name : String) : Bare ("\\" ++ name) name
  | plain {name : String} (h : name.toList.head? ≠ some '\\') : Bare name name

lemma bare_iff {name bare : String} : Bare name bare ↔ plainName name = bare := by
  have hlead := Text.toList_dropLead_singleton '\\' name
  rw [← String.toList_inj]
  change _ ↔ (Text.dropLead (String.singleton '\\') name).toList = _
  rw [hlead]
  constructor
  · rintro (_ | h)
    · simp
    · rw [if_neg h]
  · intro h
    split at h
    case isTrue hhead =>
      obtain ⟨rest, hrest⟩ := head?_eq_some_iff.mp hhead
      have hname : name = "\\" ++ bare := by
        rw [← String.toList_inj, String.toList_append, ← h, hrest]
        rfl
      rw [hname]
      exact .lead bare
    case isFalse hhead =>
      rw [String.toList_inj] at h
      exact h ▸ .plain hhead

/-- What is decided from the rules of the given ecosystems, if a test accepts two rules together
where it accepts one of them. -/
lemma any_extend (p : Rules → Bool) (hp : ∀ a b, p (a.append b) = (p a || p b)) (e : Exemptions)
    (ecosystem : String) (rules : Rules) (detected : Tags) :
    (detected.any fun tag => (Table.get? tag (e.extend ecosystem rules).ecosystems).any p) ↔
      (detected.any fun tag => (Table.get? tag e.ecosystems).any p) ∨
        tagOf ecosystem ∈ detected ∧ p rules.compile := by
  have hget : ∀ tag, (Table.get? tag (e.extend ecosystem rules).ecosystems).any p ↔
      (Table.get? tag e.ecosystems).any p ∨ tagOf ecosystem = tag ∧ p rules.compile := by
    intro tag
    simp only [extend, Table.get?_insert]
    split
    case isTrue heq =>
      subst heq
      cases Table.get? (tagOf ecosystem) e.ecosystems with
      | none => simp
      | some old => simp [hp]
    case isFalse hne => simp [hne]
  simp only [any_eq_true, hget]
  constructor
  · rintro ⟨tag, htag, hold | ⟨rfl, hnew⟩⟩
    · exact .inl ⟨tag, htag, hold⟩
    · exact .inr ⟨htag, hnew⟩
  · rintro (⟨tag, htag, hold⟩ | ⟨htag, hnew⟩)
    · exact ⟨tag, htag, .inl hold⟩
    · exact ⟨_, htag, .inr ⟨rfl, hnew⟩⟩

variable {e : Exemptions} {ecosystem name : String} {rules : Rules} {detected : Tags}

@[simp] lemma exemptsClass_extend_iff : (e.extend ecosystem rules).exemptsClass name detected ↔
    e.exemptsClass name detected ∨ tagOf ecosystem ∈ detected ∧
      rules.NamesClass (plainName name) := by
  have hany := any_extend (·.exemptsClass (plainName name))
    (fun a b => a.exemptsClass_append_eq b _) e ecosystem rules detected
  rw [exemptsClass, exemptsClass, Bool.or_eq_true, Bool.or_eq_true, hany,
    Rules.exemptsClass_compile_iff, or_assoc]
  rfl

@[simp] lemma exemptsFunction_extend_iff :
    (e.extend ecosystem rules).exemptsFunction name detected ↔ e.exemptsFunction name detected ∨
      tagOf ecosystem ∈ detected ∧ rules.NamesFunction (plainName name) := by
  have hany := any_extend (·.exemptsFunction (plainName name))
    (fun a b => a.exemptsFunction_append_eq b _) e ecosystem rules detected
  rw [exemptsFunction, exemptsFunction, Bool.or_eq_true, Bool.or_eq_true, hany,
    Rules.exemptsFunction_compile_iff, or_assoc]
  rfl

/-- What a decision becomes by rules that are added one after the other, if each of them adds what
it names. -/
lemma extendAll_iff (decides : Exemptions → Bool) {named : Rules → Prop}
    (hstep : ∀ e ecosystem rules, decides (e.extend ecosystem rules) ↔
      decides e ∨ tagOf ecosystem ∈ detected ∧ named rules) (e : Exemptions)
        (added : List (String × Rules)) : decides (e.extendAll added) ↔
      decides e ∨ ∃ x ∈ added, tagOf x.1 ∈ detected ∧ named x.2 := by
  induction added generalizing e with
  | nil => simp [extendAll]
  | cons x added ih =>
    have hcons : e.extendAll (x :: added) = (e.extend x.1 x.2).extendAll added := rfl
    rw [hcons, ih, hstep, or_assoc]
    simp only [mem_cons, exists_eq_or_imp]

/-- Extending exemptions is a union: rules that are added to an ecosystem exempt the classes and the
functions that they name, in plugins of that ecosystem, and no others. So the decisions are the same
for the same additions in any order and number. -/
theorem extension_is_union (e : Exemptions) :
    (∀ ecosystem rules name detected,
      ((e.extend ecosystem rules).exemptsClass name detected = true ↔
        e.exemptsClass name detected = true ∨
          Text.lower (Text.trim ecosystem) ∈ detected ∧ ∃ bare, Bare name bare ∧
            rules.NamesClass bare) ∧
      ((e.extend ecosystem rules).exemptsFunction name detected = true ↔
        e.exemptsFunction name detected = true ∨
          Text.lower (Text.trim ecosystem) ∈ detected ∧ ∃ bare, Bare name bare ∧
            rules.NamesFunction bare)) ∧
    ∀ added added', (∀ x, x ∈ added ↔ x ∈ added') → ∀ name detected,
      (e.extendAll added).exemptsClass name detected =
        (e.extendAll added').exemptsClass name detected ∧
      (e.extendAll added).exemptsFunction name detected =
        (e.extendAll added').exemptsFunction name detected := by
  refine ⟨fun ecosystem rules name detected => ?_, fun added added' hsame name detected => ?_⟩
  · simp only [bare_iff, exists_eq_left']
    exact ⟨exemptsClass_extend_iff, exemptsFunction_extend_iff⟩
  · constructor
    · have hall := extendAll_iff (·.exemptsClass name detected) fun _ _ _ => exemptsClass_extend_iff
      rw [Bool.eq_iff_iff, hall, hall]
      simp only [hsame]
    · have hall := extendAll_iff (·.exemptsFunction name detected) fun _ _ _ =>
        exemptsFunction_extend_iff
      rw [Bool.eq_iff_iff, hall, hall]
      simp only [hsame]

def courseRules : Rules where
  classes := ["SFWD_LMS"]
  classPatterns := ["Quiz"]
  functions := ["learndash_**", "ld_course_list"]
  functionPatterns := ["_course_"]

def shopRules : Rules where
  functions := ["shop_*"]

theorem extension_is_union_courses :
    (Exemptions.extend ⟨{}, []⟩ " LearnDash" courseRules).exemptsFunction "\\learndash_get_id"
      ["learndash"] = true ∧
    (∀ x, x ∈ [("learndash", courseRules), ("shop", shopRules)] ↔
      x ∈ [("shop", shopRules), ("learndash", courseRules), ("shop", shopRules)]) ∧
    ∀ name detected, (Exemptions.extendAll ⟨{}, []⟩ [("learndash", courseRules),
      ("shop", shopRules)]).exemptsFunction name detected = (Exemptions.extendAll ⟨{}, []⟩
        [("shop", shopRules), ("learndash", courseRules), ("shop", shopRules)]).exemptsFunction name
          detected := by
  have hunion := extension_is_union ⟨{}, []⟩
  have hbare : Bare "\\learndash_get_id" "learndash_get_id" := .lead "learndash_get_id"
  have hnamed : courseRules.NamesFunction "learndash_get_id" := by
    refine .inl ⟨"learndash_**", by decide, ?_⟩
    rw [if_pos (by decide)]
    exact @Exemption.PatternMatches.start _ "learndash_".toList 1 (by decide) (by decide)
  have hsame : ∀ x, x ∈ [("learndash", courseRules), ("shop", shopRules)] ↔
      x ∈ [("shop", shopRules), ("learndash", courseRules), ("shop", shopRules)] := by
    intro x
    simp only [mem_cons, not_mem_nil, or_false]
    tauto
  exact ⟨(hunion.1 _ _ _ _).2.mpr (.inr ⟨by decide, _, hbare, hnamed⟩), hsame,
    fun name detected => (hunion.2 _ _ hsame name detected).2⟩

end Exemptions

end PluginAudit
