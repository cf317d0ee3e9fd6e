import PluginAudit.Proofs.PatternSemantics
import PluginAudit.Source.CallSite

/-!
Calls of admin-only functions. Main statement: evidence for an admin page in the lines around a call
makes it an admin one, whatever else stands there.
-/

open List

namespace PluginAudit

namespace Pattern

variable {p : Pattern} {c d : Cursor} {groups groups' : Groups} {s t : List Char}

/-- Whether a match depends on nothing but its own text: the pattern has no edges, and no groups. -/
def plain : Pattern → Bool
  | .seq p q | .alt p q => p.plain && q.plain
  | .many _ p => p.plain
  | .group _ _ | .edge _ => false
  | .empty | .set _ => true

lemma Matches.within (h : Matches p c groups d groups') (hp : p.plain) (front back : List Char) :
    Matches p ⟨c.past ++ front, c.rest ++ back⟩ groups ⟨d.past ++ front,
      d.rest ++ back⟩ groups' := by
  induction h with
  | empty => exact .empty
  | set hmem => exact .set hmem
  | seq _ _ ihp ihq =>
    rw [plain, Bool.and_eq_true] at hp
    exact .seq (ihp hp.1) (ihq hp.2)
  | altLeft _ ih =>
    rw [plain, Bool.and_eq_true] at hp
    exact .altLeft (ih hp.1)
  | altRight _ ih =>
    rw [plain, Bool.and_eq_true] at hp
    exact .altRight (ih hp.2)
  | stop => exact .stop
  | again _ hlt _ ihp ihmany => exact .again (ihp hp) (by simpa using hlt) (ihmany hp)
  | group => cases hp
  | edge => cases hp

lemma test_of_infix (hp : p.plain) (hst : s <:+: t) (h : p.test s) : p.test t := by
  obtain ⟨front, back, rfl⟩ := hst
  obtain ⟨past, rest, d, groups, rfl, hmatch⟩ := test_iff.mp h
  exact test_iff.mpr ⟨_, _, _, _, by simp, hmatch.within hp front.reverse back⟩

end Pattern

namespace Source

variable {lines : List (List Char)} {l : List Char} {start stop line : Int} {n : Nat}

/-! ### Windows -/

lemma mem_linesBetween {n : Nat} (hl : (l, n) ∈ lines.zipIdx 1) (hstart : start < n)
    (hstop : n ≤ stop) : l ∈ linesBetween lines start stop := by
  obtain ⟨hn, hl⟩ := mk_mem_zipIdx_iff_le_and_getElem?_sub.mp hl
  simp only [linesBetween, mem_iff_getElem?, getElem?_drop, getElem?_take,
    Option.ite_none_right_eq_some]
  refine ⟨n - 1 - start.toNat, by omega, ?_⟩
  rwa [show start.toNat + (n - 1 - start.toNat) = n - 1 by omega]

lemma infix_intercalate {sep : List Char} (h : l ∈ lines) : l <:+: sep.intercalate lines := by
  induction lines with
  | nil => cases h
  | cons first rest ih =>
    cases rest with
    | nil => simp_all
    | cons next rest =>
      rw [intercalate_cons_cons]
      rcases mem_cons.mp h with rfl | h
      · rw [append_assoc]
        exact (prefix_append _ _).isInfix
      · exact (ih h).trans (suffix_append _ _).isInfix

lemma test_window {p : Pattern} (hp : p.plain) (hl : (l, n) ∈ lines.zipIdx 1)
    (hfirst : line ≤ n + 10)
    (hlast : n ≤ line + 10) (h : p.test l) : p.test (window lines line) := by
  have hmem : l ∈ linesBetween lines (line - 11) (line + 10) := mem_linesBetween hl (by omega) hlast
  exact Pattern.test_of_infix hp (infix_intercalate hmem) h

lemma nearEditorMethod_of_mem (hl : (l, n) ∈ lines.zipIdx 1) (hfirst : line < n + 50)
    (hlast : n ≤ line + 10) (h : editorMethod.test l) : nearEditorMethod lines line :=
  any_eq_true.mpr ⟨l, mem_linesBetween hl (by omega) hlast, h⟩

/-- Evidence for an admin page around a call decides, whatever else stands there: a registration on
an admin hook, an admin guard or an admin path at most ten lines away, or a method of an editor
declared at most forty-nine lines above or ten lines below. -/
theorem admin_near_evidence (lines : List (List Char)) (line : Int) (name : String)
    (h : ∃ (l : List Char) (n : Nat), (l, n) ∈ lines.zipIdx 1 ∧ n ≤ line + 10 ∧
      (line < n + 50 ∧ editorMethod.test l = true ∨
        line ≤ n + 10 ∧
          (adminRegistration.test l = true ∨ adminGuard.test l = true ∨ adminPath.test l = true))) :
    CallSite.classify lines line name = .admin := by
  obtain ⟨l, n, hl, hlast, hevidence⟩ := h
  have hlines : lines.isEmpty = false := by
    cases lines with
    | nil => cases hl
    | cons => rfl
  have hadmin : inAdmin lines line = true := by
    simp only [inAdmin, Bool.or_eq_true]
    rcases hevidence with ⟨hfirst, hmethod⟩ | ⟨hfirst, hregistration | hguard | hpath⟩
    · exact .inr (nearEditorMethod_of_mem hl hfirst hlast hmethod)
    · exact .inl (.inl (.inl (.inl (.inl (test_window (by decide) hl hfirst hlast hregistration)))))
    · exact .inl (.inl (.inl (.inl (.inr (test_window (by decide) hl hfirst hlast hguard)))))
    · exact .inl (.inl (.inl (.inr (test_window (by decide) hl hfirst hlast hpath))))
  simp only [CallSite.classify, hlines, hadmin, if_true, Bool.false_eq_true, if_false]

def editorLines (gap : Nat) : List (List Char) :=
  "function editor() ".toList :: replicate gap [] ++ ["template(); f();".toList]

theorem admin_near_editor : ("function editor() ".toList, 1) ∈ (editorLines 48).zipIdx 1 ∧
    CallSite.classify (editorLines 48) 50 "f" = .admin :=
  ⟨mem_cons_self,
    admin_near_evidence _ _ _ ⟨_, 1, mem_cons_self, by decide, .inl ⟨by decide, by decide +kernel⟩⟩⟩

/-- A method of an editor that is declared fifty lines above a call does not count. -/
theorem editor_missed_at_fifty : editorMethod.test "function editor() ".toList = true ∧
    CallSite.classify (editorLines 49) 51 "f" = .frontend := by
  decide +kernel

end Source

end PluginAudit
