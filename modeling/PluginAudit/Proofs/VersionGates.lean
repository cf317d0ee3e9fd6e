import Mathlib.Data.List.Flatten
import PluginAudit.Proofs.DetectorContract
import PluginAudit.Proofs.VersionOrder

/-!
Findings that depend on a version. A greater version has fewer findings about requirements and more
about removals, in the same order.
-/

open List

namespace PluginAudit

open Version (below compareTexts below_of_le)
open Table
open Finding (kind)

namespace Finding

/-! ### What findings say -/

def gist (f : Finding) : Int × String × Severity := (f.line, f.message, f.severity)

def gists (kind : Kind) (findings : List Finding) : List (Int × String × Severity) :=
  (findings.filter (·.kind = kind)).map gist

/-- Whatever the first findings say of a kind, the second ones say, too, in the same order. -/
def SaysLess (kind : Kind) (xs ys : List Finding) : Prop := (gists kind xs).Sublist (gists kind ys)

variable {kind : Kind} {α : Type}

lemma SaysLess.append {a a' b b' : List Finding} (h : SaysLess kind a a')
    (h' : SaysLess kind b b') : SaysLess kind (a ++ b) (a' ++ b') := by
  unfold SaysLess gists at *
  rw [filter_append, filter_append, map_append, map_append]
  exact Sublist.append h h'

lemma saysLess_flatMap {l : List α} {g g' : α → List Finding}
    (h : ∀ a ∈ l, SaysLess kind (g a) (g' a)) : SaysLess kind (l.flatMap g) (l.flatMap g') := by
  unfold SaysLess gists at *
  rw [filter_flatMap, filter_flatMap, map_flatMap, map_flatMap]
  exact Sublist.flatMap_right _ h

lemma filterMap_sublist_filterMap {β : Type} {g h : α → Option β}
    (hgh : ∀ a b, g a = some b → h a = some b) (l : List α) :
    (l.filterMap g).Sublist (l.filterMap h) := by
  induction l with
  | nil => exact Sublist.slnil
  | cons a l ih =>
    cases hg : g a with
    | none =>
      rw [filterMap_cons_none hg]
      exact ih.trans ((sublist_cons_self a l).filterMap h)
    | some b =>
      rw [filterMap_cons_some hg, filterMap_cons_some (hgh a b hg)]
      exact ih.cons_cons b

lemma saysLess_filterMap {g g' : α → Option Finding} (l : List α) (h : ∀ a x, g a = some x →
      x.kind = kind → ∃ y, g' a = some y ∧ y.kind = kind ∧ y.gist = x.gist) :
    SaysLess kind (l.filterMap g) (l.filterMap g') := by
  unfold SaysLess gists
  rw [filter_filterMap, filter_filterMap, map_filterMap, map_filterMap]
  refine filterMap_sublist_filterMap (fun a said hsaid => ?_) l
  obtain ⟨x, hx, rfl⟩ := Option.map_eq_some_iff.mp hsaid
  obtain ⟨hx, hkind⟩ := Option.filter_eq_some_iff.mp hx
  obtain ⟨y, hy, hkind', hgist⟩ := h a x hx (of_decide_eq_true hkind)
  simp [hy, hkind', hgist]

lemma saysLess_map_filter {p p' : α → Bool} {g g' : α → Finding} (l : List α)
    (hgist : ∀ a, (g' a).gist = (g a).gist)
    (h : ∀ a, p a → (g a).kind = kind → p' a ∧ (g' a).kind = kind) :
    SaysLess kind ((l.filter p).map g) ((l.filter p').map g') := by
  rw [← filterMap_eq_map, ← filterMap_eq_map, filterMap_filter, filterMap_filter]
  refine saysLess_filterMap l fun a x hx hkind => ?_
  obtain ⟨hp, hx⟩ := Option.ite_none_right_eq_some.mp hx
  cases hx
  obtain ⟨hp', hkind'⟩ := h a hp hkind
  exact ⟨g' a, if_pos hp', hkind', hgist a⟩

end Finding

open Finding

namespace Detector

def minimumOf (f : Finding) : String := f.contextText "required_version"

lemma contextText_of_get? {f : Finding} {name s : String}
    (h : get? name f.context = some (.text s)) : f.contextText name = s := by
  simp only [contextText, h, Value.display]

/-- All that a version requires, another one requires, and all that it lacks, the other one lacks,
as far as findings of some kinds tell. -/
structure Stricter (kind required removed : Kind) (version version' : String) : Prop where
  below : kind = required → ∀ minimum, Version.below version minimum = true →
    Version.below version' minimum = true
  atLeast : kind = removed → ∀ since, Version.atLeast version since = true →
    Version.atLeast version' since = true

variable {kind required removed : Kind} {s t : String} {target : Combination} {f : Source.File}
  {number : Nat} {line : List Char}

lemma stricter_required (hle : compareTexts s t ≠ .gt) (hne : required ≠ removed) :
    Stricter required required removed t s :=
  ⟨fun _ _ h => below_of_le hle h, fun h => absurd h hne⟩

lemma stricter_removed (hle : compareTexts s t ≠ .gt) (hne : removed ≠ required) :
    Stricter removed required removed s t :=
  ⟨fun h => absurd h hne, fun _ _ h => Version.atLeast_of_le hle h⟩

/-! ### Constructs of the language -/

namespace Language

@[simp] lemma minimumOf_requiredFinding (version path : String) (number : Nat) (feature : Feature) :
    minimumOf (requiredFinding version path number feature) = feature.version := by
  refine contextText_of_get? ?_
  simp [requiredFinding, texts, ofPairs]

lemma saysLess_detect (h : Stricter kind .phpVersionRequirement .removedPhpFeature s t)
    (hkind : kind ≠ .deprecatedPhpFeature) (wp wp' : String) (f : Source.File) :
    SaysLess kind (detect ⟨s, wp⟩ f) (detect ⟨t, wp'⟩ f) := by
  refine saysLess_flatMap fun entry _ => ?_
  dsimp only
  split
  · exact Sublist.refl _
  · refine (SaysLess.append ?_ ?_).append ?_
    · exact saysLess_map_filter _ (fun _ => rfl) fun feature _ hdeprecated =>
        absurd hdeprecated.symm hkind
    · refine saysLess_map_filter _ (fun _ => rfl) fun feature hfound hremoved => ⟨?_, hremoved⟩
      rw [Bool.and_eq_true] at hfound ⊢
      exact ⟨hfound.1, h.atLeast hremoved.symm _ hfound.2⟩
    · refine saysLess_map_filter _ (fun _ => rfl) fun feature hfound hrequired => ⟨?_, hrequired⟩
      rw [Bool.and_eq_true] at hfound ⊢
      exact ⟨hfound.1, h.below hrequired.symm _ hfound.2⟩

lemma not_occursOn_nil : ∀ feature ∈ introduced, feature.occursOn [] = false := by
  decide +kernel

lemma requiredFinding_mem_iff (hline : (number, line) ∈ f.codeLines)
    (hscript : Source.isScript line = false) {feature : Feature} (hfeature : feature ∈ introduced)
    (hoccurs : feature.occursOn (Source.clean line)) :
    requiredFinding target.php f.path number feature ∈ detect target f ↔
      below target.php feature.version := by
  constructor
  · intro h
    obtain ⟨entry, -, h⟩ := mem_flatMap.mp h
    rcases mem_lineFindings h with ⟨other, heq⟩ | ⟨other, heq⟩ | ⟨other, hbelow, heq⟩
    · exact absurd (congrArg kind heq) (of_decide_eq_true rfl)
    · exact absurd (congrArg kind heq) (of_decide_eq_true rfl)
    · have hminimum := congrArg minimumOf heq
      rw [minimumOf_requiredFinding, minimumOf_requiredFinding] at hminimum
      rw [hminimum]
      exact hbelow
  · intro hbelow
    have hne : (Source.clean line).isEmpty = false := by
      cases hclean : Source.clean line with
      | nil =>
        rw [hclean, not_occursOn_nil feature hfeature] at hoccurs
        cases hoccurs
      | cons c rest => rfl
    refine mem_flatMap.mpr ⟨(number, line), hline, ?_⟩
    dsimp only
    rw [hscript, hne]
    refine mem_append_right _ (mem_map.mpr ⟨feature, mem_filter.mpr ⟨hfeature, ?_⟩, rfl⟩)
    rw [hoccurs, hbelow]
    rfl

end Language

/-! ### Functions of the runtime -/

namespace UndefinedFunction

variable {env : Surroundings} {name : String}

@[simp] lemma minimumOf_laterFinding (scope : Scope) (target : Combination) (name required : String)
    (line : Nat) : minimumOf (laterFinding scope target name required line) = required := by
  refine contextText_of_get? ?_
  simp [laterFinding, texts, ofPairs]

lemma exists_classify {scope : Scope} {line : Nat} {x : Finding} {wp wp' : String}
    (h : kind = .phpVersionRequirement → ∀ minimum, below s minimum → below t minimum)
    (hx : classify env ⟨s, wp⟩ scope name line = some x) (hkind : x.kind = kind) :
    ∃ y, classify env ⟨t, wp'⟩ scope name line = some y ∧ y.kind = kind ∧ y.gist = x.gist := by
  unfold classify at hx ⊢
  split at hx
  case isTrue hadmin =>
    cases hx
    exact ⟨_, if_pos hadmin, hkind, rfl⟩
  case isFalse hadmin =>
    rw [if_neg hadmin]
    split at hx
    case isTrue => cases hx
    case isFalse hown =>
      rw [if_neg hown]
      cases hlater : laterFunctions.lookup (Text.lower name) with
      | some required =>
        rw [hlater] at hx
        obtain ⟨hbelow, hx⟩ := Option.ite_none_right_eq_some.mp hx
        cases hx
        exact ⟨_, if_pos (h hkind.symm required hbelow), hkind, rfl⟩
      | none =>
        rw [hlater] at hx
        obtain ⟨hprovided, hx⟩ := Option.ite_none_left_eq_some.mp hx
        cases hx
        exact ⟨_, if_neg hprovided, hkind, rfl⟩

lemma saysLess_detect (h : kind = .phpVersionRequirement →
      ∀ minimum, below s minimum → below t minimum) (wp wp' : String) (f : Source.File) :
    SaysLess kind (detect env ⟨s, wp⟩ f) (detect env ⟨t, wp'⟩ f) :=
  saysLess_flatMap fun _ _ => saysLess_filterMap _ fun _ _ hx hkind => exists_classify h hx hkind

lemma laterFinding_mem_iff (hline : (number, line) ∈ f.codeLines) (hname : name ∈ calls line)
    (hadmin : Text.lower name ∉ adminFunctions) (hown : isOwn env (scopeOf f) name = false)
    {required : String} (hlater : laterFunctions.lookup (Text.lower name) = some required) :
    laterFinding (scopeOf f) target name required number ∈ detect env target f ↔
      below target.php required := by
  constructor
  · intro h
    obtain ⟨entry, -, h⟩ := mem_flatMap.mp h
    obtain ⟨other, -, h⟩ := mem_filterMap.mp h
    rcases classify_cases h with ⟨-, heq⟩ | ⟨-, minimum, -, hbelow, heq⟩ | ⟨-, -, -, -, heq⟩
    · exact absurd (congrArg kind heq) (of_decide_eq_true rfl)
    · have hminimum := congrArg minimumOf heq
      rw [minimumOf_laterFinding, minimumOf_laterFinding] at hminimum
      rw [hminimum]
      exact hbelow
    · exact absurd (congrArg kind heq) (of_decide_eq_true rfl)
  · intro hbelow
    refine mem_flatMap.mpr ⟨(number, line), hline, mem_filterMap.mpr ⟨name, hname, ?_⟩⟩
    simp [classify, hadmin, hown, hlater, hbelow]

end UndefinedFunction

/-! ### Functions of the platform -/

namespace Platform

variable {changes : Changes}

@[simp] lemma minimumOf_requiredFinding (name required path : String) (number : Nat)
    (version : String) :
    minimumOf (requiredFinding name required path number version) = required := by
  refine contextText_of_get? ?_
  simp [requiredFinding, texts, ofPairs]

lemma saysLess_detect (h : Stricter kind .versionRequirement .removedFunction s t)
    (hkind : kind ∉ [Kind.deprecatedFunction, .deprecatedHook]) (php php' : String)
    (f : Source.File) : SaysLess kind (detect changes ⟨php, s⟩ f) (detect changes ⟨php', t⟩ f) := by
  refine saysLess_flatMap fun entry _ => (SaysLess.append ?_ ?_).append ?_
  · refine saysLess_filterMap _ fun name x hx hx' => ?_
    obtain ⟨hcall, hx⟩ := Option.ite_none_right_eq_some.mp hx
    rcases changedFinding?_cases hx with ⟨c, hc, rfl⟩ | ⟨c, -, rfl⟩
    · obtain ⟨hget, happlies⟩ := Option.filter_eq_some_iff.mp hc
      have hc' : (get? name changes.removed).filter (·.applies t) = some c :=
        Option.filter_eq_some_iff.mpr ⟨hget, h.atLeast hx'.symm _ happlies⟩
      exact ⟨removedFinding name f.path entry.1 t c,
        (if_pos hcall).trans (by rw [changedFinding?, hc']), hx', rfl⟩
    · exact absurd (hx' ▸ mem_cons_self) hkind
  · refine saysLess_filterMap _ fun entry x hx hx' => ?_
    obtain ⟨hfound, hx⟩ := Option.ite_none_right_eq_some.mp hx
    cases hx
    rw [Bool.and_eq_true] at hfound
    exact ⟨_, if_pos (by rw [hfound.1, h.below hx'.symm _ hfound.2]; rfl), hx', rfl⟩
  · refine saysLess_filterMap _ fun entry x hx hx' => absurd (hx' ▸ ?_) hkind
    obtain ⟨-, hx⟩ := Option.ite_none_right_eq_some.mp hx
    cases hx
    exact mem_cons_of_mem _ mem_cons_self

lemma requiredFinding_mem_iff (hline : (number, line) ∈ f.codeLines)
    {name required : String} (hrequired : (name, required) ∈ changes.required)
    (hcall : hasGlobalCall (Source.clean line) (callOf name)) :
    requiredFinding name required f.path number target.wp ∈ detect changes target f ↔
      below target.wp required := by
  constructor
  · intro h
    obtain ⟨entry, -, h⟩ := mem_flatMap.mp h
    rcases mem_lineFindings h with ⟨other, -, h⟩ | ⟨other, minimum, hbelow, heq⟩ | ⟨other, c, heq⟩
    · rcases changedFinding?_cases h with ⟨c, -, heq⟩ | ⟨c, -, heq⟩
      · exact absurd (congrArg kind heq) (of_decide_eq_true rfl)
      · exact absurd (congrArg kind heq) (of_decide_eq_true rfl)
    · have hminimum := congrArg minimumOf heq
      rw [minimumOf_requiredFinding, minimumOf_requiredFinding] at hminimum
      rw [hminimum]
      exact hbelow
    · exact absurd (congrArg kind heq) (of_decide_eq_true rfl)
  · intro hbelow
    refine mem_flatMap.mpr ⟨(number, line), hline, mem_append_left _ (mem_append_right _ ?_)⟩
    refine mem_filterMap.mpr ⟨(name, required), hrequired, ?_⟩
    dsimp only
    rw [hcall, hbelow]
    rfl

end Platform

/-! ### All gates -/

open UndefinedFunction in
/-- Gates on versions are monotone. For a greater version of the runtime there are fewer
requirements and more removed constructs, for a greater version of the platform fewer requirements
and more removed functions, each time as a subsequence; which functions are undefined does not
depend on versions. A requirement is found on a line that it is about exactly for the versions below
its minimum. -/
theorem gates_monotone (env : Surroundings) (changes : Platform.Changes) (f : Source.File)
    (s t : String) (hle : compareTexts s t ≠ .gt) :
    (∀ other other', (gists .phpVersionRequirement (Language.detect ⟨t, other⟩ f)).Sublist
          (gists .phpVersionRequirement (Language.detect ⟨s, other'⟩ f)) ∧
        (gists .phpVersionRequirement (detect env ⟨t, other⟩ f)).Sublist
          (gists .phpVersionRequirement (detect env ⟨s, other'⟩ f)) ∧
        (gists .versionRequirement (Platform.detect changes ⟨other, t⟩ f)).Sublist
          (gists .versionRequirement (Platform.detect changes ⟨other', s⟩ f)) ∧
        (gists .removedPhpFeature (Language.detect ⟨s, other⟩ f)).Sublist
          (gists .removedPhpFeature (Language.detect ⟨t, other'⟩ f)) ∧
        (gists .removedFunction (Platform.detect changes ⟨other, s⟩ f)).Sublist
          (gists .removedFunction (Platform.detect changes ⟨other', t⟩ f)) ∧
        gists .undefinedFunction (detect env ⟨s, other⟩ f) =
          gists .undefinedFunction (detect env ⟨t, other'⟩ f)) ∧
    ∀ target number line, (number, line) ∈ f.codeLines →
      (∀ feature ∈ Language.introduced, Source.isScript line = false →
        feature.occursOn (Source.clean line) = true →
        (Language.requiredFinding target.php f.path number feature ∈ Language.detect target f ↔
          compareTexts target.php feature.version = .lt)) ∧
      (∀ name ∈ calls line, Text.lower name ∉ adminFunctions → isOwn env (scopeOf f) name = false →
        ∀ required, laterFunctions.lookup (Text.lower name) = some required →
        (laterFinding (scopeOf f) target name required number ∈ detect env target f ↔
          compareTexts target.php required = .lt)) ∧
      (∀ name required, (name, required) ∈ changes.required →
        hasGlobalCall (Source.clean line) (callOf name) = true →
        (Platform.requiredFinding name required f.path number target.wp ∈
          Platform.detect changes target f ↔
          compareTexts target.wp required = .lt)) := by
  refine ⟨fun other other' =>
    ⟨Language.saysLess_detect (stricter_required hle (by decide)) (by decide) other other' f,
    saysLess_detect (fun _ _ h => below_of_le hle h) other other' f,
    Platform.saysLess_detect (stricter_required hle (by decide)) (by decide) other other' f,
    Language.saysLess_detect (stricter_removed hle (by decide)) (by decide) other other' f,
    Platform.saysLess_detect (stricter_removed hle (by decide)) (by decide) other other' f, ?_⟩,
    fun target number line hline => ⟨?_, ?_, ?_⟩⟩
  · have hsame : ∀ v v' wp wp',
        SaysLess .undefinedFunction (detect env ⟨v, wp⟩ f) (detect env ⟨v', wp'⟩ f) :=
      fun _ _ wp wp' => saysLess_detect (fun h => absurd h (by decide)) wp wp' f
    exact (hsame s t other other').antisymm (hsame t s other' other)
  · intro feature hfeature hscript hoccurs
    rw [Language.requiredFinding_mem_iff hline hscript hfeature hoccurs, below, beq_iff_eq]
  · intro name hname hadmin hown required hlater
    rw [laterFinding_mem_iff hline hname hadmin hown hlater, below, beq_iff_eq]
  · intro name required hrequired hcall
    rw [Platform.requiredFinding_mem_iff hline hrequired hcall, below, beq_iff_eq]

def fallbackLine : Source.File := ⟨"a.php", ["$a = $b ?? 1;".toList]⟩

theorem gates_fallbackLine :
    compareTexts "nightly" "8.1RC1" ≠ .gt ∧
      gists .phpVersionRequirement (Language.detect ⟨"nightly", "6.5"⟩ fallbackLine) =
        [(1, "Null coalescing operator requires PHP 7.0.0 or higher", .error)] ∧
      gists .phpVersionRequirement (Language.detect ⟨"8.1RC1", "6.5"⟩ fallbackLine) = [] ∧
      (gists .phpVersionRequirement (Language.detect ⟨"8.1RC1", "6.5"⟩ fallbackLine)).Sublist
        (gists .phpVersionRequirement (Language.detect ⟨"nightly", "6.5"⟩ fallbackLine)) := by
  have hle : compareTexts "nightly" "8.1RC1" ≠ .gt := by decide +kernel
  have hmono := (gates_monotone {} .builtin fallbackLine "nightly" "8.1RC1" hle).1 "6.5" "6.5"
  exact ⟨hle, by decide +kernel, by decide +kernel, hmono.1⟩

end Detector

end PluginAudit
