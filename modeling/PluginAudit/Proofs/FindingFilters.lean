import PluginAudit.Proofs.FindingOrder
import PluginAudit.Proofs.Validity
import PluginAudit.Scan

/-!
The filters between what is found and what is reported. Main statement: a finding is reported,
counted as suppressed, or left out for its severity, and for one of these reasons only.
-/

open List

namespace PluginAudit

open Suppression

namespace Suppression

lemma isSome_dropping?_iff (rules : List Rule) (s : Subject) :
    (dropping? rules s).isSome ↔ ∃ r ∈ rules, r.value? s = some true := by
  simp only [dropping?, find?_isSome, Rule.drops, beq_iff_eq]

lemma kept_congr {rules rules' : List Rule} (h : ∀ r, r ∈ rules ↔ r ∈ rules') (root php wp : String)
    (findings : List Finding) :
    kept rules root php wp findings = kept rules' root php wp findings := by
  refine filter_congr fun f _ => ?_
  rw [← Option.not_isSome, ← Option.not_isSome, Bool.not_inj_iff, Bool.eq_iff_iff,
    isSome_dropping?_iff, isSome_dropping?_iff]
  simp only [h]

end Suppression

namespace Scan

/-- Why a finding counts as suppressed: it is about a dependency and those are ignored, or a rule is
true of it. -/
inductive Suppressed (p : Plan) (s : Settings) (target : Combination) (f : Finding) : Prop
  | dependency (ignored : s.ignoreDependencies = true)
    (kind : f.kind = .undefinedFunction ∨ f.kind = .undefinedClass)
  | rule (r : Suppression.Rule) (mem : r ∈ p.rules)
    (holds : r.value? ⟨f, p.root, target.php, target.wp⟩ = some true)

variable {p : Plan} {s : Settings} {target : Combination}

lemma suppressed_iff (f : Finding) :
    Suppressed p s target f ↔ (s.ignoreDependencies && f.kind.isDependency ||
      (dropping? p.rules ⟨f, p.root, target.php, target.wp⟩).isSome) := by
  rw [Bool.or_eq_true, Bool.and_eq_true, isSome_dropping?_iff]
  simp only [Kind.isDependency, Bool.or_eq_true, beq_iff_eq]
  constructor
  · rintro (⟨hignored, hkind⟩ | ⟨r, hr, hholds⟩)
    · exact .inl ⟨hignored, hkind⟩
    · exact .inr ⟨r, hr, hholds⟩
  · rintro (⟨hignored, hkind⟩ | ⟨r, hr, hholds⟩)
    · exact .dependency hignored hkind
    · exact .rule r hr hholds

instance (f : Finding) : Decidable (Suppressed p s target f) :=
  decidable_of_iff _ (suppressed_iff f).symm

def ownFindings (s : Settings) (found : List Finding) : List Finding :=
  if s.ignoreDependencies then found.filter (!·.kind.isDependency) else found

lemma ownFindings_eq_filter (found : List Finding) :
    ownFindings s found = found.filter fun f => !(s.ignoreDependencies && f.kind.isDependency) := by
  unfold ownFindings
  cases s.ignoreDependencies with
  | true => rfl
  | false => simp

lemma kept_ownFindings (found : List Finding) :
    kept p.rules p.root target.php target.wp (ownFindings s found) =
      found.filter fun f => ¬ Suppressed p s target f := by
  rw [ownFindings_eq_filter, kept, filter_filter]
  refine filter_congr fun f _ => ?_
  rw [Bool.eq_iff_iff, decide_eq_true_iff, suppressed_iff, ← Option.not_isSome, Bool.or_eq_true,
    not_or, Bool.and_eq_true, Bool.not_eq_true', Bool.not_eq_true', Bool.not_eq_true,
    Bool.not_eq_true, and_comm]

@[simp] lemma suppressed_judge (found : List Finding) :
    (judge p s target found).outcome.suppressed =
      (found.countP fun f => Suppressed p s target f : Nat) := by
  have hown : (ownFindings s found).length ≤ found.length := by
    rw [ownFindings_eq_filter]
    exact length_filter_le _ _
  have hkept : (kept p.rules p.root target.php target.wp (ownFindings s found)).length ≤
      (ownFindings s found).length := length_filter_le _ _
  have hsplit : found.length = found.countP (fun f => Suppressed p s target f) +
      (kept p.rules p.root target.php target.wp (ownFindings s found)).length := by
    rw [kept_ownFindings, length_eq_countP_add_countP fun f => decide (Suppressed p s target f),
      ← countP_eq_length_filter]
    simp only [decide_eq_true_eq]
  change ((found.length - (ownFindings s found).length : Nat) : Int) +
    ((ownFindings s found).length -
      (kept p.rules p.root target.php target.wp (ownFindings s found)).length : Nat) = _
  omega

lemma issues_judge (hseverities : s.severities ≠ []) (found : List Finding) :
    (judge p s target found).outcome.issues = some ((found.filter fun f =>
      ¬ Suppressed p s target f ∧ f.severity ∈ s.severities).map (Issue.ofFinding p.root)) := by
  change some ((Finding.filterSeverities
    (kept p.rules p.root target.php target.wp (ownFindings s found)) s.severities).map _) = _
  rw [kept_ownFindings, Finding.filterSeverities, if_neg (by simpa using hseverities),
    filter_filter]
  congr 2
  refine filter_congr fun f _ => ?_
  rw [Bool.eq_iff_iff, Bool.and_eq_true, contains_iff_mem, decide_eq_true_iff, decide_eq_true_iff,
    and_comm]

/-- The findings for a combination are parted by the filters, whatever values the rules have. In
their sorted order, those are reported that are not suppressed and have a severity that is asked
for; the suppressed ones are counted, each once; and the order of rules and their repetition do not
matter. -/
theorem judge_partition (p : Plan) (s : Settings) (hvalid : s.validate = .ok ())
    (target : Combination) (raw : List Finding) :
    (judge p s target (Finding.sort raw)).outcome.issues = some (((Finding.sort raw).filter fun f =>
      ¬ Suppressed p s target f ∧ f.severity ∈ s.severities).map (Issue.ofFinding p.root)) ∧
    (judge p s target (Finding.sort raw)).outcome.suppressed =
      (raw.countP fun f => Suppressed p s target f : Nat) ∧
    ∀ rules, (∀ r, r ∈ rules ↔ r ∈ p.rules) →
      judge { p with rules } s target (Finding.sort raw) = judge p s target (Finding.sort raw) := by
  refine ⟨issues_judge (Settings.validate_eq_ok_iff.mp hvalid).2.2.severities _, ?_,
    fun rules hrules => ?_⟩
  · rw [suppressed_judge, (Finding.sort_perm raw).countP_eq]
  · unfold judge
    simp only [Suppression.kept_congr hrules]

/-- A plan with a rule that never has a value and one about the lines from 3 on. -/
def ruledPlan : Plan :=
  { root := "/p", paths := [], files := [], ecosystems := [], widgets := .builtin, toolchain := {}
    detectors := []
    rules := [⟨"line / 0 > 1", fun _ => none⟩, ⟨"line >= 3", fun q => some (3 ≤ q.finding.line)⟩] }

/-- A finding for each of the ways through the filters. -/
def fourFindings : List Finding :=
  [⟨.syntaxError, "unexpected end", "/p/a.php", 1, .error, "", []⟩,
   ⟨.undefinedClass, "unknown class", "/p/a.php", 2, .error, "", []⟩,
   ⟨.undefinedFunction, "unknown function", "/p/a.php", 3, .error, "", []⟩,
   ⟨.syntaxError, "unexpected token", "/p/b.php", 2, .warning, "", []⟩]

theorem judge_fourFindings :
    let s : Settings := { ignoreDependencies := true }
    s.validate = .ok () ∧
      (judge ruledPlan s ⟨"8.1", "6.5"⟩ (Finding.sort fourFindings)).outcome.issues =
        some ((fourFindings.take 1).map (Issue.ofFinding "/p")) ∧
      (judge ruledPlan s ⟨"8.1", "6.5"⟩ (Finding.sort fourFindings)).outcome.suppressed = 2 ∧
      judge { ruledPlan with rules := ruledPlan.rules.reverse ++ ruledPlan.rules } s ⟨"8.1", "6.5"⟩
          (Finding.sort fourFindings) =
        judge ruledPlan s ⟨"8.1", "6.5"⟩ (Finding.sort fourFindings) := by
  intro s
  have hvalid : s.validate = .ok () := by decide +kernel
  have hsorted :
      Finding.sort fourFindings = fourFindings := mergeSort_of_pairwise (by decide +kernel)
  obtain ⟨hissues, hsuppressed, hrules⟩ :=
    judge_partition ruledPlan s hvalid ⟨"8.1", "6.5"⟩ fourFindings
  refine ⟨hvalid, ?_, ?_, hrules _ fun r => ?_⟩
  · rw [hissues, hsorted]
    rfl
  · rw [hsuppressed]
    decide +kernel
  · rw [mem_append, mem_reverse, or_self]

end Scan

end PluginAudit
