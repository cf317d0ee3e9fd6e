import Mathlib.Tactic.Common
import PluginAudit.Settings

/-!
When settings are valid. The versions of a list are readable and at least one of them is not blank;
the other checks are about one setting each and do not look at versions.
-/

namespace PluginAudit

lemma bind_eq_ok_unit_iff {ε α : Type} {x : Except ε Unit} {y : Except ε α} {a : α} :
    (x >>= fun _ => y) = .ok a ↔ x = .ok () ∧ y = .ok a := by
  cases x with
  | error e => simp [bind, Except.bind]
  | ok u => simp [bind, Except.bind]

namespace Version

variable {values : List String}

lemma normalize_eq_ok_iff {value : String} :
    (∃ normal, normalize value = .ok normal) ↔ (parse? value).isSome := by
  unfold normalize
  cases parse? value with
  | none => simp
  | some v => simp

/-- A list of versions is normalized unless one of them is neither blank nor readable. -/
lemma exists_normalizeFrom_iff (seen values : List String) :
    (∃ normal, normalizeFrom seen values = .ok normal) ↔
      ∀ value ∈ values, Text.isBlank value = false → (parse? value).isSome := by
  induction values generalizing seen with
  | nil => simp [normalizeFrom]
  | cons value values ih =>
    rw [List.forall_mem_cons, normalizeFrom]
    cases hblank : Text.isBlank value with
    | true => simpa using ih seen
    | false =>
      have hreadable := @normalize_eq_ok_iff value
      simp only [Bool.false_eq_true, if_false, true_imp_iff]
      cases hnormal : normalize value with
      | error e =>
        have hunreadable : ¬ (parse? value).isSome := by
          rw [← hreadable, hnormal]
          simp
        simp [hunreadable]
      | ok normal =>
        have hsome : (parse? value).isSome := hreadable.mp ⟨normal, hnormal⟩
        simp only [hsome, true_and]
        split
        · exact ih seen
        · rw [← ih (normal :: seen)]
          cases normalizeFrom (normal :: seen) values with
          | error e => simp
          | ok rest => simp

lemma normalizeList_eq_nil (h : normalizeList values = .ok []) :
    ∀ value ∈ values, Text.isBlank value := by
  unfold normalizeList at h
  induction values with
  | nil => simp
  | cons value values ih =>
    rw [normalizeFrom] at h
    cases hblank : Text.isBlank value with
    | true =>
      rw [hblank, if_pos rfl] at h
      exact List.forall_mem_cons.mpr ⟨hblank, ih h⟩
    | false =>
      simp only [hblank, Bool.false_eq_true, if_false, List.contains_nil] at h
      split at h
      · cases h
      · split at h <;> cases h

lemma normalizeList_of_blank (h : ∀ value ∈ values, Text.isBlank value) :
    normalizeList values = .ok [] := by
  unfold normalizeList
  induction values with
  | nil => rfl
  | cons value values ih =>
    rw [List.forall_mem_cons] at h
    rw [normalizeFrom, if_pos h.1]
    exact ih h.2

end Version

namespace Settings

lemma checkVersions_eq_ok_iff {name : String} {values : List String} :
    checkVersions name values = .ok () ↔
      (∀ value ∈ values, Text.isBlank value = false → (Version.parse? value).isSome) ∧
        ∃ value ∈ values, Text.isBlank value = false := by
  rw [← Version.exists_normalizeFrom_iff []]
  change _ ↔ (∃ normal, Version.normalizeList values = .ok normal) ∧ _
  unfold checkVersions
  cases hnormal : Version.normalizeList values with
  | error e => simp
  | ok normal =>
    cases normal with
    | nil => simpa using Version.normalizeList_eq_nil hnormal
    | cons first rest =>
      refine iff_of_true rfl ⟨⟨_, rfl⟩, ?_⟩
      by_contra hnone
      push Not at hnone
      rw [Version.normalizeList_of_blank fun value
        hvalue => by simpa using hnone value hvalue] at hnormal
      cases hnormal

/-- The checks that do not look at versions. -/
structure Sound (s : Settings) : Prop where
  severities : s.severities ≠ []
  mode : checkMode s.mode = .ok ()
  workers : checkPositive "workers" s.workers = .ok ()
  maxEcosystemFiles : checkPositive "max_ecosystem_scan_files" s.maxEcosystemFiles = .ok ()
  binary : (s.lint.enabled && Text.isBlank s.lint.binary) = false
  timeout : checkTimeout s.lint.timeout = .ok ()
  rate : checkRate s.lint.rate = .ok ()
  cachePath : (s.cache.enabled && Text.isBlank s.cache.path) = false

lemma refuse_eq_ok_iff {c : Bool} {e : Error} {rest : Except Error Unit} :
    (if c then ((.error e : Except Error Unit) >>= fun _ => rest) else rest) = .ok () ↔
      c = false ∧ rest = .ok () := by
  cases c with
  | true => simp [bind, Except.bind]
  | false => simp

lemma refuse_last_eq_ok_iff {c : Bool} {e : Error} :
    (if c then (.error e : Except Error Unit) else pure ()) = .ok () ↔ c = false := by
  cases c with
  | true => simp
  | false => simp [pure, Except.pure]

lemma validate_eq_ok_iff {s : Settings} :
    s.validate = .ok () ↔ checkVersions "php_versions" s.phpVersions = .ok () ∧
      checkVersions "wp_versions" s.wpVersions = .ok () ∧ s.Sound := by
  unfold validate
  simp only [refuse_eq_ok_iff, refuse_last_eq_ok_iff, bind_eq_ok_unit_iff]
  constructor
  · rintro ⟨hphp, hwp, hseverities, hmode, hworkers, hfiles, hbinary, htimeout, hrate, hcache⟩
    exact ⟨hphp, hwp,
      ⟨by simpa using hseverities, hmode, hworkers, hfiles, hbinary, htimeout, hrate, hcache⟩⟩
  · rintro ⟨hphp, hwp, hsound⟩
    exact ⟨hphp,
      hwp, by simpa using hsound.severities, hsound.mode, hsound.workers, hsound.maxEcosystemFiles,
      hsound.binary, hsound.timeout, hsound.rate, hsound.cachePath⟩

end Settings

end PluginAudit
