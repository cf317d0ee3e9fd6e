import Mathlib.Data.Sum.Order
import PluginAudit.Proofs.FindingOrder
import PluginAudit.Version

/-!
The order of texts as versions is that of keys in which every text that is no version comes first,
so gates on a minimum are monotone in the version.
-/

namespace PluginAudit.Version

open Std.OrientedOrd

variable {minimum : String}

def parts (v : Version) : ℕ ×ₗ ℕ ×ₗ ℕ := toLex (v.major, toLex (v.minor, v.patch))

/-- What texts are ordered by as versions: a text that is no version by its characters, and before
all versions. -/
def orderKey (s : String) : List Char ⊕ₗ (ℕ ×ₗ ℕ ×ₗ ℕ) :=
  match parse? s with
  | none => Sum.inlₗ s.toList
  | some v => Sum.inrₗ v.parts

lemma order_eq_gt_iff (v w : Version) : v.order w = .gt ↔ w.parts < v.parts := by
  rw [order, parts, parts]
  simp only [Ordering.then_eq_gt, Prod.Lex.lt_iff, ofLex_toLex]
  rw [compare_gt_iff_gt, compare_gt_iff_gt, compare_gt_iff_gt, compare_eq_iff_eq, compare_eq_iff_eq,
    eq_comm (a := v.major), eq_comm (a := v.minor)]

lemma compareTexts_eq_gt_iff (a b : String) : compareTexts a b = .gt ↔ orderKey b < orderKey a := by
  unfold compareTexts orderKey
  cases parse? a with
  | none =>
    cases parse? b with
    | none => exact (Finding.compare_eq_gt_iff a b).trans Sum.Lex.inl_lt_inl_iff.symm
    | some w => exact iff_of_false (by simp) Sum.Lex.not_inr_lt_inl
  | some v =>
    cases parse? b with
    | none => exact iff_of_true rfl (Sum.Lex.inl_lt_inr _ _)
    | some w => exact (order_eq_gt_iff v w).trans Sum.Lex.inr_lt_inr_iff.symm

@[simp] lemma order_swap (v w : Version) : (v.order w).swap = w.order v := by
  unfold order
  rw [Ordering.swap_then, Ordering.swap_then, eq_swap (a := w.major),
    eq_swap (a := w.minor), eq_swap (a := w.patch)]

@[simp] lemma compareTexts_swap (a b : String) : (compareTexts a b).swap = compareTexts b a := by
  unfold compareTexts
  cases parse? a with
  | none =>
    cases parse? b with
    | none => exact eq_swap.symm
    | some w => rfl
  | some v =>
    cases parse? b with
    | none => rfl
    | some w => exact order_swap v w

lemma compareTexts_eq_lt_iff (a b : String) : compareTexts a b = .lt ↔ orderKey a < orderKey b := by
  rw [← compareTexts_eq_gt_iff, ← compareTexts_swap a b, Ordering.swap_eq_gt]

@[simp] lemma compareTexts_ne_gt_iff (a b : String) :
    compareTexts a b ≠ .gt ↔ orderKey a ≤ orderKey b := by
  rw [Ne, compareTexts_eq_gt_iff, not_lt]

@[simp] lemma below_iff (target minimum : String) :
    below target minimum ↔ orderKey target < orderKey minimum := by
  rw [below, beq_iff_eq, compareTexts_eq_lt_iff]

@[simp] lemma atLeast_iff (target minimum : String) :
    atLeast target minimum ↔ orderKey minimum ≤ orderKey target := by
  rw [atLeast, bne_iff_ne, Ne, compareTexts_eq_lt_iff, not_lt]

variable {s t : String}

lemma below_of_le (h : compareTexts s t ≠ .gt) (ht : below t minimum) : below s minimum := by
  rw [below_iff] at ht ⊢
  exact lt_of_le_of_lt ((compareTexts_ne_gt_iff s t).mp h) ht

lemma atLeast_of_le (h : compareTexts s t ≠ .gt) (hs : atLeast s minimum) : atLeast t minimum := by
  rw [atLeast_iff] at hs ⊢
  exact hs.trans ((compareTexts_ne_gt_iff s t).mp h)

end PluginAudit.Version
