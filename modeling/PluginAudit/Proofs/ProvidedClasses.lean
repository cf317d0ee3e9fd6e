import PluginAudit.Proofs.DetectorContract
import PluginAudit.Proofs.DeclaredSymbols

/-!
Classes that something provides are never reported as undefined. Main statement: for each class that
is reported, none of the places where it could come from has it.
-/

open List

namespace PluginAudit.Detector.ClassConflict

open Source Text

variable {env : Surroundings} {inside : String} {lines : List (Nat × List Char)}

/-- Something provides the class of a name, in a file of a plugin with the given files. Names are
compared without regard to case; rules for ecosystems are asked for the name without the separators
around it. -/
inductive Provided (env : Surroundings) (files : List File) (f : File) (name : String) : Prop where
  | runtime (h : lower (lastSegment name) ∈ env.runtime.classes)
  | platform (h : lower (lastSegment name) ∈ platformClasses)
  | builtin (h : lower (lastSegment name) ∈ builtinClasses)
  | declared (g : File) (d : Declaration) (hg : g ∈ files) (hd : d ∈ declarations g.content)
      (htype : d.isType = true) (hname : lower d.name = lower (lastSegment name))
  | imported (i : Import) (hi : i ∈ imports f.content) (hkind : i.kind = .classLike)
      (hname : lower i.localName = lower (firstSegment (normalName name)))
  | exempt (h : env.exemptions.exemptsClass (normalName name) env.ecosystems = true)
  | exemptLast (h : env.exemptions.exemptsClass (lastSegment name) env.ecosystems = true)

/-! ### Look-ups -/

lemma notMem_firstSegment (name : String) : '\\' ∉ (firstSegment name).toList := by
  rw [firstSegment, String.toList_ofList]
  intro h
  simpa using mem_takeWhile_imp h

lemma not_provided_of_isKnown_eq_false {files : List File} {f : File} {name full : String}
    (h : isKnown { env with symbols := .addFiles {} files } (.ofContent f.content) name full =
      false) : ¬ Provided env files f name := by
  unfold isKnown at h
  simp only [Bool.or_eq_false_iff] at h
  obtain ⟨⟨⟨⟨⟨⟨⟨⟨⟨⟨hbuiltin, hplatform⟩, hruntime⟩, -⟩, -⟩, -⟩, hshort⟩, himport⟩, -⟩, hexempt⟩,
      hlast⟩ := h
  intro hprovided
  cases hprovided with
  | runtime h =>
    rw [Inventory.hasClass, Inventory.key_of_isSegment (isSegment_lastSegment name),
      contains_iff_mem.mpr h] at hruntime
    cases hruntime
  | platform h =>
    rw [contains_iff_mem.mpr h] at hplatform
    cases hplatform
  | builtin h =>
    rw [contains_iff_mem.mpr h] at hbuiltin
    cases hbuiltin
  | declared g d hg hd htype hname =>
    have hsame := lastSegment_of_isSegment (isSegment_lastSegment name)
    rw [SymbolIndex.hasClassShort_of_mem hg hd htype
      (hname.trans (congrArg lower hsame.symm))] at hshort
    cases hshort
  | imported i hi hkind hname =>
    rw [ImportIndex.isSome_class? hi hkind hname (notMem_firstSegment _)] at himport
    cases himport
  | exempt h =>
    rw [h] at hexempt
    cases hexempt
  | exemptLast h =>
    rw [h] at hlast
    cases hlast

/-! ### Findings -/

/-- Only the use of a class on a line is reported as undefined, and only if the look-ups do not find
it and no check covers it. -/
lemma exists_uncovered_of_mem_findingsFrom {scope : Scope} {x : Finding}
    (hx : x ∈ findingsFrom env scope inside lines) (hkind : x.kind = .undefinedClass) :
    ∃ line ∈ lines, ∃ name full, x = undefinedFinding scope.path line.1 name full ∧
      isKnown env scope.imports name full = false ∧
        Guard.covers scope.guards name full (line.1 - 1) = false := by
  induction lines generalizing inside with
  | nil => cases hx
  | cons line lines ih =>
    have hlater : ∀ {inside}, x ∈ findingsFrom env scope inside lines →
        ∃ other ∈ line :: lines, ∃ name full, x = undefinedFinding scope.path other.1 name full ∧
        isKnown env scope.imports name full = false ∧
          Guard.covers scope.guards name full (other.1 - 1) = false := by
      intro inside hx
      obtain ⟨other, hother, hspec⟩ := ih hx
      exact ⟨other, mem_cons_of_mem line hother, hspec⟩
    rw [findingsFrom] at hx
    split at hx
    · exact hlater hx
    · simp only [mem_append] at hx
      rcases hx with (hx | hx) | hx
      · have hconflict := (declarationFindings_spec hx).2
        rw [hkind] at hconflict
        exact absurd hconflict (by decide)
      · exact ⟨line, mem_cons_self, exists_uncovered_of_mem_useFindings hx⟩
      · exact hlater hx

lemma exists_unknown_of_mem_findingsFrom {scope : Scope} {x : Finding}
    (hx : x ∈ findingsFrom env scope inside lines) (hkind : x.kind = .undefinedClass) :
    ∃ number name full, x = undefinedFinding scope.path number name full ∧
      isKnown env scope.imports name full = false := by
  obtain ⟨line, -, name, full, hx, hunknown, -⟩ := exists_uncovered_of_mem_findingsFrom hx hkind
  exact ⟨line.1, name, full, hx, hunknown⟩

/-- A class that is reported as undefined is provided by nothing. -/
theorem not_provided_of_undefinedClass (env : Surroundings) (files : List File) (f : File)
    (x : Finding) (hx : x ∈ detect { env with symbols := .addFiles {} files } f)
    (hkind : x.kind = .undefinedClass) :
    ∃ name, x.message = "Class " ++ apart name ++ " not found" ∧ ¬ Provided env files f name := by
  obtain ⟨number, name, full, rfl, hunknown⟩ := exists_unknown_of_mem_findingsFrom hx hkind
  exact ⟨name, rfl, not_provided_of_isKnown_eq_false hunknown⟩

def doubledSeparator : File :=
  ⟨"a.php", ["<?php".toList, "$x = new Core\\\\();".toList, []]⟩

def ecosystemOnly : Surroundings := { ecosystems := ["elementor"] }

lemma detect_doubledSeparator :
    detect { ecosystemOnly with symbols := .addFiles {} [doubledSeparator] } doubledSeparator =
      [undefinedFinding "a.php" 2 "Core\\" "Core\\"] := by
  decide +kernel

theorem not_provided_doubledSeparator :
    undefinedFinding "a.php" 2 "Core\\" "Core\\" ∈
        detect { ecosystemOnly with symbols := .addFiles {} [doubledSeparator] } doubledSeparator ∧
      ∃ name, (undefinedFinding "a.php" 2 "Core\\" "Core\\").message =
        "Class " ++ apart name ++ " not found" ∧
        ¬ Provided ecosystemOnly [doubledSeparator] doubledSeparator name := by
  have hmem : undefinedFinding "a.php" 2 "Core\\" "Core\\" ∈ detect
      { ecosystemOnly with symbols := .addFiles {} [doubledSeparator] } doubledSeparator := by
    rw [detect_doubledSeparator]
    exact mem_singleton_self _
  exact ⟨hmem,
    not_provided_of_undefinedClass ecosystemOnly [doubledSeparator] doubledSeparator _ hmem rfl⟩

/-- A rule for the name with only its leading separator left out does not keep the class from being
reported: the separator at its end is left out as well before the rules are asked. -/
theorem exempt_class_reported :
    (∃ x ∈
      detect { ecosystemOnly with symbols := .addFiles {} [doubledSeparator] } doubledSeparator,
      x.kind = .undefinedClass ∧ x.message = "Class " ++ apart "Core\\" ++ " not found") ∧
    ecosystemOnly.exemptions.exemptsClass "Core\\" ecosystemOnly.ecosystems = true := by
  rw [detect_doubledSeparator]
  exact ⟨⟨_, mem_singleton_self _, rfl, rfl⟩, by decide +kernel⟩

end PluginAudit.Detector.ClassConflict
