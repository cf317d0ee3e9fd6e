import PluginAudit.Proofs.DetectorContract

/-!
Ecosystems take findings away and never add any. In a plugin of more ecosystems only findings about
undefined classes and functions go; the others stay as they are and where they are.
-/

open List

namespace PluginAudit

/-! ### Rules -/

namespace Exemption.Rules

variable {a : Rules} {name : String}

lemma exemptsClass_append (h : a.exemptsClass name) (b : Rules) :
    (a.append b).exemptsClass name := by
  simp only [exemptsClass, append, any_append, contains_append, Bool.or_eq_true] at h ⊢
  exact h.imp .inl .inl

lemma exemptsFunction_append (h : a.exemptsFunction name) (b : Rules) :
    (a.append b).exemptsFunction name := by
  simp only [exemptsFunction, append, any_append, contains_append, Bool.or_eq_true] at h ⊢
  exact h.imp .inl .inl

end Exemption.Rules

namespace Exemptions

open Exemption (Rules)

/-- All that is exempt by some exemptions for some ecosystems is exempt by others for others. -/
structure Within (e e' : Exemptions) (detected detected' : Tags) : Prop where
  ofClass : ∀ name, e.exemptsClass name detected = true → e'.exemptsClass name detected' = true
  ofFunction :
    ∀ name, e.exemptsFunction name detected = true → e'.exemptsFunction name detected' = true

variable {e e' e'' : Exemptions} {detected detected' detected'' : Tags}

lemma Within.trans (h : Within e e' detected detected') (h' : Within e' e'' detected' detected'') :
    Within e e'' detected detected'' where
  ofClass := fun name hname => h'.ofClass name (h.ofClass name hname)
  ofFunction := fun name hname => h'.ofFunction name (h.ofFunction name hname)

lemma any_of_subset {p : String → Bool} (h : detected ⊆ detected') (hany : detected.any p) :
    detected'.any p := by
  rw [any_eq_true] at hany ⊢
  obtain ⟨tag, htag, hp⟩ := hany
  exact ⟨tag, h htag, hp⟩

lemma within_of_subset (e : Exemptions) (h : detected ⊆ detected') :
    Within e e detected detected' := by
  constructor
  · intro name hname
    simp only [exemptsClass, Bool.or_eq_true] at hname ⊢
    exact hname.imp_right (any_of_subset h)
  · intro name hname
    simp only [exemptsFunction, Bool.or_eq_true] at hname ⊢
    exact hname.imp_right (any_of_subset h)

lemma any_get?_extend {p : Rules → Bool} (hp : ∀ a b, p a → p (a.append b))
    {tag : String} (h : (Table.get? tag e.ecosystems).any p) (name : String) (rules : Rules) :
    (Table.get? tag (e.extend name rules).ecosystems).any p := by
  simp only [extend, Table.get?_insert]
  split
  case isTrue heq =>
    subst heq
    cases hget : Table.get? (tagOf name) e.ecosystems with
    | none => simp [hget] at h
    | some old =>
      rw [hget, Option.any_some] at h
      exact hp old _ h
  case isFalse => exact h

lemma within_extend (e : Exemptions) (name : String) (rules : Rules) (detected : Tags) :
    Within e (e.extend name rules) detected detected := by
  constructor
  · intro cls h
    simp only [exemptsClass, Bool.or_eq_true, any_eq_true] at h ⊢
    rcases h with h | ⟨tag, htag, hrules⟩
    · exact .inl h
    · exact .inr ⟨tag, htag,
        any_get?_extend (fun a b ha => Rules.exemptsClass_append ha b) hrules name rules⟩
  · intro function h
    simp only [exemptsFunction, Bool.or_eq_true, any_eq_true] at h ⊢
    rcases h with h | ⟨tag, htag, hrules⟩
    · exact .inl h
    · exact .inr ⟨tag, htag,
        any_get?_extend (fun a b ha => Rules.exemptsFunction_append ha b) hrules name rules⟩

def extendAll (e : Exemptions) (added : List (String × Rules)) : Exemptions :=
  added.foldl (fun e rules => e.extend rules.1 rules.2) e

lemma within_extendAll (e : Exemptions) (added : List (String × Rules))
    (h : detected ⊆ detected') : Within e (e.extendAll added) detected detected' := by
  induction added generalizing e with
  | nil => exact within_of_subset e h
  | cons rules added ih => exact (within_extend e rules.1 rules.2 detected).trans (ih _)

end Exemptions

/-! ### Findings that are taken away -/

/-- Only findings of one kind are taken away from a list: what is left is in the same order, and all
findings of other kinds are left. -/
structure Finding.OnlyRemoves (kind : Kind) (fewer more : List Finding) : Prop where
  sublist : fewer.Sublist more
  others : fewer.filter (·.kind ≠ kind) = more.filter (·.kind ≠ kind)

namespace Finding.OnlyRemoves

variable {kind : Kind} {fewer more fewer' more' : List Finding}

lemma refl (kind : Kind) (l : List Finding) : OnlyRemoves kind l l := ⟨.refl l, rfl⟩

lemma append (h : OnlyRemoves kind fewer more) (h' : OnlyRemoves kind fewer' more') :
    OnlyRemoves kind (fewer ++ fewer') (more ++ more') := by
  refine ⟨h.sublist.append h'.sublist, ?_⟩
  rw [filter_append, filter_append, h.others, h'.others]

lemma ofKind (h : OnlyRemoves kind fewer more) :
    (fewer.filter (·.kind = kind)).Sublist (more.filter (·.kind = kind)) :=
  h.sublist.filter _

/-- A choice that differs from another one only where it leaves a finding of the kind out. -/
lemma filterMap {α : Type} {g g' : α → Option Finding}
    (h : ∀ a, g a = g' a ∨ g a = none ∧ ∃ x, g' a = some x ∧ x.kind = kind) (l : List α) :
    OnlyRemoves kind (l.filterMap g) (l.filterMap g') := by
  induction l with
  | nil => exact refl kind []
  | cons a l ih =>
    rcases h a with heq | ⟨hnone, x, hsome, hkind⟩
    · cases hg : g' a with
      | none =>
        rw [filterMap_cons_none (heq.trans hg), filterMap_cons_none hg]
        exact ih
      | some x =>
        rw [filterMap_cons_some (heq.trans hg), filterMap_cons_some hg]
        exact append (refl kind [x]) ih
    · rw [filterMap_cons_none hnone, filterMap_cons_some hsome]
      refine ⟨ih.sublist.cons x, ?_⟩
      rw [filter_cons_of_neg (by simpa using hkind)]
      exact ih.others

lemma flatMap {α : Type} {g g' : α → List Finding} (h : ∀ a, OnlyRemoves kind (g a) (g' a))
    (l : List α) : OnlyRemoves kind (l.flatMap g) (l.flatMap g') := by
  induction l with
  | nil => exact refl kind []
  | cons a l ih =>
    rw [flatMap_cons, flatMap_cons]
    exact (h a).append ih

end Finding.OnlyRemoves

open Finding (OnlyRemoves)

namespace Detector

variable {env : Surroundings} {exemptions : Exemptions} {ecosystems : Tags}

/-! ### Classes -/

namespace ClassConflict

lemma isKnown_of_within (h : env.exemptions.Within exemptions env.ecosystems ecosystems)
    {imports : Source.ImportIndex} {name full : String} (hknown : isKnown env imports name full) :
    isKnown { env with exemptions, ecosystems } imports name full := by
  simp only [isKnown, Bool.or_eq_true] at hknown ⊢
  exact hknown.imp (.imp_right (h.ofClass _)) (h.ofClass _)

lemma useFindings_of_within (h : env.exemptions.Within exemptions env.ecosystems ecosystems)
    (scope : Scope) (inside : String) (number : Nat) (line : List Char) : OnlyRemoves
      .undefinedClass (useFindings { env with exemptions, ecosystems } scope inside number line)
      (useFindings env scope inside number line) := by
  apply OnlyRemoves.filterMap
  intro name
  dsimp only
  generalize fullName name inside scope.imports = full
  by_cases hknown : isKnown env scope.imports name full
  · simp [hknown, isKnown_of_within h hknown]
  · by_cases hmore : isKnown { env with exemptions, ecosystems } scope.imports name full
    · -- only here a finding goes, unless a guard kept it from being made anyway
      by_cases hguard : Guard.covers scope.guards name full (number - 1)
      · simp [hguard]
      · right
        simp [hknown, hmore, hguard, undefinedFinding]
    · simp [hknown, hmore]

/-- More exemptions take away findings of undefined classes, line by line. Conflicts of declarations
do not depend on exemptions. -/
lemma findingsFrom_of_within (env : Surroundings)
    (h : env.exemptions.Within exemptions env.ecosystems ecosystems)
    (scope : Scope) (inside : String) (lines : List (Nat × List Char)) : OnlyRemoves .undefinedClass
      (findingsFrom { env with exemptions, ecosystems } scope inside lines)
      (findingsFrom env scope inside lines) := by
  induction lines generalizing inside with
  | nil => exact .refl _ _
  | cons entry lines ih =>
    obtain ⟨number, line⟩ := entry
    simp only [findingsFrom]
    split
    · exact ih _
    · exact ((OnlyRemoves.refl _ _).append
        (useFindings_of_within h scope inside number line)).append (ih inside)

end ClassConflict

/-! ### Functions -/

namespace UndefinedFunction

lemma isProvided_of_within (h : env.exemptions.Within exemptions env.ecosystems ecosystems)
    {name : String} (hprovided : isProvided env name) :
    isProvided { env with exemptions, ecosystems } name := by
  simp only [isProvided, Bool.or_eq_true] at hprovided ⊢
  exact hprovided.imp_left (.imp_right (h.ofFunction _))

/-- With more exemptions a call is classified as before, unless it was of a function that nothing
provided. -/
lemma classify_of_within (h : env.exemptions.Within exemptions env.ecosystems ecosystems)
    (target : Combination) (scope : Scope) (name : String) (line : Nat) :
    classify { env with exemptions, ecosystems } target scope name line =
      classify env target scope name line ∨
      classify { env with exemptions, ecosystems } target scope name line = none ∧
        ∃ x, classify env target scope name line = some x ∧ x.kind = .undefinedFunction := by
  have hown : isOwn { env with exemptions, ecosystems } scope name = isOwn env scope name := rfl
  -- whatever is decided before exemptions are asked for is decided in the same way
  simp only [classify, hown]
  split
  · exact .inl rfl
  · split
    · exact .inl rfl
    · split
      · exact .inl rfl
      · by_cases hprovided : isProvided env name
        · simp [hprovided, isProvided_of_within h hprovided]
        · by_cases hmore : isProvided { env with exemptions, ecosystems } name
          · right
            simp [hprovided, hmore, undefinedFinding]
          · simp [hprovided, hmore]

lemma detect_of_within (env : Surroundings)
    (h : env.exemptions.Within exemptions env.ecosystems ecosystems)
    (target : Combination) (f : Source.File) : OnlyRemoves .undefinedFunction
      (detect { env with exemptions, ecosystems } target f) (detect env target f) := by
  apply OnlyRemoves.flatMap
  intro line
  apply OnlyRemoves.filterMap
  intro name
  exact classify_of_within h target (scopeOf f) name line.1

end UndefinedFunction

/-! ### Main statement -/

/-- More ecosystems, and rules that are added to ecosystems, only take findings of undefined classes
and undefined functions away: what the two detectors of these find for more ecosystems, and with
rules added, is a subsequence of what they find for fewer ecosystems without them, and the findings
of all other kinds are the same. -/
theorem ecosystems_only_remove (env : Surroundings) (fewer more : Tags) (hmore : fewer ⊆ more)
    (added : List (String × Exemption.Rules)) (target : Combination) (f : Source.File) :
    OnlyRemoves .undefinedClass (ClassConflict.detect
          { env with ecosystems := more, exemptions := env.exemptions.extendAll added } f)
        (ClassConflict.detect { env with ecosystems := fewer } f) ∧
      OnlyRemoves .undefinedFunction (UndefinedFunction.detect
          { env with ecosystems := more, exemptions := env.exemptions.extendAll added } target f)
        (UndefinedFunction.detect { env with ecosystems := fewer } target f) := by
  have hwithin := env.exemptions.within_extendAll added hmore
  constructor
  · exact ClassConflict.findingsFrom_of_within { env with ecosystems := fewer } hwithin _ _ _
  · exact UndefinedFunction.detect_of_within { env with ecosystems := fewer } hwithin target f

/-- A file that declares a class of the platform, and uses classes and functions of which some are
provided by ecosystems. -/
def shopPage : Source.File :=
  ⟨"a.php", ["<?php".toList, "class WP_Query \x7b\x7d".toList,
    "$x = [new Icons_Manager(), new Slider_Box(), new Lost()];".toList,
    "wc_price(1) + slider_show(2) + lost(3);".toList]⟩

def sliderRules : Exemption.Rules :=
  { classPatterns := ["Slider_*"], functions := ["slider_show"] }

def shopOnly : Surroundings := { ecosystems := ["woocommerce"] }

/-- The same plugin with two more ecosystems, one of them with rules of its own. -/
def shopWithSlider : Surroundings :=
  { shopOnly with
    ecosystems := ["elementor", "slider", "woocommerce"]
    exemptions := shopOnly.exemptions.extendAll [(" Slider", sliderRules)] }

theorem ecosystems_only_remove_shopPage :
    shopOnly.ecosystems ⊆ shopWithSlider.ecosystems ∧
      ((ClassConflict.detect shopWithSlider shopPage).filter (·.kind = .undefinedClass)).Sublist
        ((ClassConflict.detect shopOnly shopPage).filter (·.kind = .undefinedClass)) ∧
      (ClassConflict.detect shopOnly shopPage).length = 4 ∧
      (ClassConflict.detect shopWithSlider shopPage).map (fun x => (x.kind, x.message)) =
        [(.wordPressClassConflict, "Class 'WP_Query' conflicts with WordPress core class"),
         (.undefinedClass, "Class 'Lost' not found")] := by
  have hmore : ["woocommerce"] ⊆ ["elementor", "slider", "woocommerce"] := by decide
  obtain ⟨hclasses, -⟩ :=
    ecosystems_only_remove shopOnly _ _ hmore [(" Slider", sliderRules)] ⟨"8.1", "6.5"⟩ shopPage
  exact ⟨hmore, hclasses.ofKind, by decide +kernel⟩

end Detector

end PluginAudit
