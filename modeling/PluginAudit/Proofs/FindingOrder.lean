import Mathlib.Data.Char
import Mathlib.Data.List.Lex
import Mathlib.Data.Prod.Lex
import PluginAudit.Finding

/-!
The order of findings. Sorting is stable, so a sorted list is fixed by the findings of each key in
their order, and leaving items out commutes with it.
-/

open List

namespace PluginAudit

/-! ### Sorting by a key -/

namespace SortKey

variable {α κ : Type} [LinearOrder κ] {key : α → κ} {le : α → α → Bool}

section Sorted

variable (hle : ∀ a b, le a b = true ↔ key a ≤ key b)
include hle

lemma trans (a b c : α) (hab : le a b) (hbc : le b c) : le a c := by
  rw [hle] at *
  exact hab.trans hbc

lemma total (a b : α) : (le a b || le b a) := by
  rw [Bool.or_eq_true, hle, hle]
  exact le_total _ _

lemma pairwise_mergeSort (l : List α) : (l.mergeSort le).Pairwise fun a b => key a ≤ key b := by
  refine (List.pairwise_mergeSort (trans hle) (total hle) l).imp ?_
  intro a b h
  exact (hle a b).mp h

lemma filter_key_mergeSort (l : List α) (k : κ) :
    (l.mergeSort le).filter (key · = k) = l.filter (key · = k) := by
  have hsame : (l.filter (key · = k)).Pairwise fun a b => le a b := by
    rw [pairwise_filter]
    refine pairwise_iff_forall_sublist.mpr ?_
    intro a b _ ha hb
    rw [hle, of_decide_eq_true ha, of_decide_eq_true hb]
  -- The items of a key are a sorted sublist, which a stable sort keeps as it is.
  have hsub : (l.filter (key · = k)).Sublist ((l.mergeSort le).filter (key · = k)) := by
    have h : (l.filter (key · = k)).Sublist (l.mergeSort le) :=
      sublist_mergeSort (trans hle) (total hle) hsame filter_sublist
    simpa only [filter_filter, Bool.and_self] using h.filter (key · = k)
  exact (hsub.eq_of_length ((mergeSort_perm l le).filter _).length_eq.symm).symm

end Sorted

lemma eq_of_filter_key_eq {l l' : List α} (h : l.Pairwise fun a b => key a ≤ key b)
    (h' : l'.Pairwise fun a b => key a ≤ key b)
    (hkeys : ∀ k, l.filter (key · = k) = l'.filter (key · = k)) : l = l' := by
  induction l generalizing l' with
  | nil =>
    cases l' with
    | nil => rfl
    | cons b l' => simpa using (hkeys (key b))
  | cons a l ih =>
    cases l' with
    | nil => simpa using (hkeys (key a))
    | cons b l' =>
      rw [pairwise_cons] at h h'
      have hmem : ∀ {x : α} {m m' : List α}, (∀ k, m.filter (key · = k) = m'.filter (key · = k)) →
          x ∈ m → x ∈ m' := by
        intro x m m' hk hx
        have : x ∈ m'.filter (key · = key x) := by
          rw [← hk]
          exact mem_filter.mpr ⟨hx, by simp⟩
        exact mem_of_mem_filter this
      -- Each head is in the other list, so their keys bound each other.
      have hab : key a = key b := by
        refine le_antisymm ?_ ?_
        · rcases mem_cons.mp (hmem (fun k => (hkeys k).symm) (mem_cons_self (a := b))) with
            rfl | hb
          · exact le_refl _
          · exact h.1 b hb
        · rcases mem_cons.mp (hmem hkeys (mem_cons_self (a := a))) with rfl | ha
          · exact le_refl _
          · exact h'.1 a ha
      have heq : a = b := by
        have hk := hkeys (key a)
        rw [filter_cons_of_pos (by simp), filter_cons_of_pos (by simp [hab])] at hk
        exact (List.cons.inj hk).1
      subst heq
      rw [ih h.2 h'.2]
      intro k
      have hk := hkeys k
      rw [filter_cons, filter_cons] at hk
      split at hk
      · exact (List.cons.inj hk).2
      · exact hk

lemma filter_mergeSort (hle : ∀ a b, le a b ↔ key a ≤ key b) (l : List α) (p : α → Bool) :
    (l.mergeSort le).filter p = (l.filter p).mergeSort le := by
  refine eq_of_filter_key_eq ((pairwise_mergeSort hle l).filter p)
    (pairwise_mergeSort hle (l.filter p)) ?_
  intro k
  calc ((l.mergeSort le).filter p).filter (key · = k)
      = ((l.mergeSort le).filter (key · = k)).filter p := filter_comm _ _ _
    _ = (l.filter (key · = k)).filter p := by rw [filter_key_mergeSort hle]
    _ = (l.filter p).filter (key · = k) := filter_comm _ _ _
    _ = ((l.filter p).mergeSort le).filter (key · = k) := (filter_key_mergeSort hle _ k).symm

end SortKey

namespace Finding

/-! ### Keys -/

/-- What findings are ordered by: file, line, kind and message, texts by their characters. -/
def sortKey (f : Finding) : List Char ×ₗ ℤ ×ₗ List Char ×ₗ List Char :=
  toLex (f.file.toList, toLex (f.line, toLex (f.kind.code.toList, f.message.toList)))

lemma compare_eq_eq_iff (a b : String) : compare a b = .eq ↔ a.toList = b.toList := by
  rw [String.toList_inj]
  exact Std.LawfulEqCmp.compare_eq_iff_eq

lemma compare_eq_gt_iff (a b : String) : compare a b = .gt ↔ b.toList < a.toList := by
  rw [Std.OrientedCmp.gt_iff_lt]
  exact compareOfLessAndEq_eq_lt

@[simp] lemma order_ne_gt_iff (a b : Finding) : a.order b ≠ .gt ↔ a.sortKey ≤ b.sortKey := by
  rw [← not_lt, not_iff_not, order]
  simp only [Ordering.then_eq_gt, sortKey, Prod.Lex.lt_iff, ofLex_toLex]
  rw [compare_eq_gt_iff a.file, compare_eq_eq_iff a.file, compare_gt_iff_gt (a := a.line),
    compare_eq_iff_eq (a := a.line), compare_eq_gt_iff a.kind.code, compare_eq_eq_iff a.kind.code,
    compare_eq_gt_iff a.message, eq_comm (a := a.file.toList), eq_comm (a := a.line),
    eq_comm (a := a.kind.code.toList)]

lemma order_bne_gt_iff (a b : Finding) : (a.order b != .gt) ↔ a.sortKey ≤ b.sortKey := by
  rw [bne_iff_ne, order_ne_gt_iff]

/-! ### Sorted lists -/

lemma pairwise_sort (l : List Finding) : (sort l).Pairwise fun a b => a.sortKey ≤ b.sortKey :=
  SortKey.pairwise_mergeSort order_bne_gt_iff l

lemma sort_perm (l : List Finding) : (sort l).Perm l := mergeSort_perm l _

lemma sort_congr {l l' : List Finding}
    (h : ∀ k, l.filter (·.sortKey = k) = l'.filter (·.sortKey = k)) : sort l = sort l' := by
  refine SortKey.eq_of_filter_key_eq (pairwise_sort l) (pairwise_sort l') ?_
  intro k
  rw [sort, sort, SortKey.filter_key_mergeSort order_bne_gt_iff,
    SortKey.filter_key_mergeSort order_bne_gt_iff, h k]

end Finding

end PluginAudit
