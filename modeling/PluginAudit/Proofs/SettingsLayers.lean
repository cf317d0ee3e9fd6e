import Mathlib.Tactic.Common
import PluginAudit.Settings

/-!
Layers of settings that lie on each other. Main statement: two layers make of settings what they
make one after the other, as far as no higher layer sets a list to nothing that is filled below.
-/

namespace PluginAudit.Settings

/-! ### Entries -/

/-- A setting that is one value. -/
structure Entry where
  Value : Type
  /-- What a layer sets it to. -/
  set? : Layer → Option Value
  get : Settings → Value

/-- A setting that is a list. -/
structure ListEntry where
  Item : Type
  /-- What a layer sets it to. -/
  set? : Layer → Option (List Item)
  get : Settings → List Item

/-- The settings that are lists. -/
def listEntries : List ListEntry :=
  [⟨String, (·.phpVersions), (·.phpVersions)⟩, ⟨String, (·.wpVersions), (·.wpVersions)⟩,
   ⟨Severity, (·.severities), (·.severities)⟩, ⟨String, (·.forceEcosystems), (·.forceEcosystems)⟩,
   ⟨String, (·.includes), (·.includes)⟩, ⟨String, (·.excludes), (·.excludes)⟩,
   ⟨String, (·.detectors), (·.detectors)⟩, ⟨String, (·.suppress), (·.suppress)⟩]

/-- The other settings. -/
def entries : List Entry :=
  [⟨Mode, (·.mode), (·.mode)⟩, ⟨String, (·.exclusionConfig), (·.exclusionConfig)⟩,
   ⟨Bool, (·.disableDetection), (·.disableDetection)⟩,
   ⟨Bool, (·.ignoreDependencies), (·.ignoreDependencies)⟩, ⟨Int, (·.workers), (·.workers)⟩,
   ⟨Bool, (·.lintEnabled), (·.lint.enabled)⟩, ⟨String, (·.lintBinary), (·.lint.binary)⟩,
   ⟨Int, (·.lintTimeout), (·.lint.timeout)⟩, ⟨Double, (·.lintRate), (·.lint.rate)⟩,
   ⟨Bool, (·.probeRuntime), (·.probeRuntime)⟩, ⟨Int, (·.maxEcosystemFiles), (·.maxEcosystemFiles)⟩,
   ⟨Bool, (·.cacheEnabled), (·.cache.enabled)⟩, ⟨String, (·.cachePath), (·.cache.path)⟩]

lemma eq_of_entries {s t : Settings} (hlists : ∀ e ∈ listEntries, e.get s = e.get t)
    (hplain : ∀ e ∈ entries, e.get s = e.get t) : s = t := by
  obtain ⟨_, _, _, _, _, _, _, _, _, _, _, _, ⟨_, _, _, _⟩, _, _, _, ⟨_, _⟩⟩ := s
  obtain ⟨_, _, _, _, _, _, _, _, _, _, _, _, ⟨_, _, _, _⟩, _, _, _, ⟨_, _⟩⟩ := t
  simp only [listEntries, entries, List.forall_mem_cons] at hlists hplain
  simp [hlists, hplain]

lemma Layer.eq_of_entries {l m : Layer} (hlists : ∀ e ∈ listEntries, e.set? l = e.set? m)
    (hplain : ∀ e ∈ entries, e.set? l = e.set? m) : l = m := by
  cases l
  cases m
  simp only [listEntries, entries, List.forall_mem_cons] at hlists hplain
  simp [hlists, hplain]

/-! ### What layers do to entries -/

lemma ListEntry.get_applyTo {e : ListEntry} (he : e ∈ listEntries) (l : Layer) (base : Settings) :
    e.get (l.applyTo base) = (e.set? l).getD (e.get base) := by
  revert e
  simp [listEntries, Layer.applyTo]

lemma Entry.get_applyTo {e : Entry} (he : e ∈ entries) (l : Layer) (base : Settings) :
    e.get (l.applyTo base) = (e.set? l).getD (e.get base) := by
  revert e
  simp [entries, Layer.applyTo]

lemma ListEntry.set?_over {e : ListEntry} (he : e ∈ listEntries) (higher lower : Layer) :
    e.set? (higher.over lower) = overList (e.set? higher) (e.set? lower) := by
  revert e
  simp [listEntries, Layer.over]

lemma Entry.set?_over {e : Entry} (he : e ∈ entries) (higher lower : Layer) :
    e.set? (higher.over lower) = (e.set? higher).or (e.set? lower) := by
  revert e
  simp [entries, Layer.over]

/-! ### One entry -/

section OneEntry

variable {α : Type} (higher lower : Option (List α)) (base : List α)

lemma getD_overList_of_ne (h : higher ≠ some []) :
    (overList higher lower).getD base = higher.getD (lower.getD base) := by
  rcases higher with _ | _ | _
  · rfl
  · exact absurd rfl h
  · rfl

lemma overList_assoc_of_ne (middle : Option (List α)) (h : higher ≠ some []) :
    overList (overList higher middle) lower = overList higher (overList middle lower) := by
  rcases higher with _ | _ | _
  · rfl
  · exact absurd rfl h
  · rfl

lemma overList_assoc_nil_iff (middle : Option (List α)) :
    overList (overList (some []) middle) lower = overList (some []) (overList middle lower) ↔
      lower = none :=
  Iff.rfl

end OneEntry

/-! ### All entries -/

namespace Layer

variable (a b c : Layer) (v : Settings)

lemma get_over_applyTo {e : Entry} (he : e ∈ entries) :
    e.get ((b.over a).applyTo v) = e.get (b.applyTo (a.applyTo v)) := by
  rw [e.get_applyTo he, e.get_applyTo he, e.get_applyTo he, e.set?_over he]
  cases e.set? b <;> rfl

lemma get_list_over_applyTo {e : ListEntry} (he : e ∈ listEntries) (h : e.set? b ≠ some []) :
    e.get ((b.over a).applyTo v) = e.get (b.applyTo (a.applyTo v)) := by
  rw [e.get_applyTo he, e.get_applyTo he, e.get_applyTo he, e.set?_over he,
    getD_overList_of_ne _ _ _ h]

lemma get_list_over_applyTo_of_nil {e : ListEntry} (he : e ∈ listEntries) (h : e.set? b = some []) :
    e.get ((b.over a).applyTo v) = e.get v ∧ e.get (b.applyTo (a.applyTo v)) = [] := by
  rw [e.get_applyTo he, e.get_applyTo he, e.set?_over he, h]
  exact ⟨rfl, rfl⟩

lemma over_applyTo_iff : (b.over a).applyTo v = b.applyTo (a.applyTo v) ↔
      ∀ e ∈ listEntries, e.set? b = some [] → e.get v = [] := by
  constructor
  · intro heq e he hnil
    obtain ⟨hone, hboth⟩ := get_list_over_applyTo_of_nil a b v he hnil
    rw [← hone, heq, hboth]
  · intro hempty
    refine Settings.eq_of_entries (fun e he => ?_) fun e he => get_over_applyTo a b v he
    by_cases hnil : e.set? b = some []
    · obtain ⟨hone, hboth⟩ := get_list_over_applyTo_of_nil a b v he hnil
      rw [hone, hboth, hempty e he hnil]
    · exact get_list_over_applyTo a b v he hnil

lemma over_assoc_iff : (c.over b).over a = c.over (b.over a) ↔
      ∀ e ∈ listEntries, e.set? c = some [] → e.set? a = none := by
  have hset {e : ListEntry} (he : e ∈ listEntries) :
      (e.set? ((c.over b).over a) = e.set? (c.over (b.over a)) ↔
      overList (overList (e.set? c) (e.set? b)) (e.set? a) =
          overList (e.set? c) (overList (e.set? b) (e.set? a))) := by
    rw [e.set?_over he, e.set?_over he, e.set?_over he, e.set?_over he]
  constructor
  · intro heq e he hnil
    have hentry := (hset he).mp (congrArg e.set? heq)
    rw [hnil] at hentry
    exact (overList_assoc_nil_iff _ _).mp hentry
  · intro hunset
    refine Layer.eq_of_entries (fun e he => (hset he).mpr ?_) fun e he => ?_
    · by_cases hnil : e.set? c = some []
      · rw [hnil]
        exact (overList_assoc_nil_iff _ _).mpr (hunset e he hnil)
      · exact overList_assoc_of_ne _ _ _ hnil
    · rw [e.set?_over he, e.set?_over he, e.set?_over he, e.set?_over he, Option.or_assoc]

/-- Two layers make of settings what they make one after the other, and what the higher one sets
comes first. The only exception are lists that the higher layer sets to nothing: they are those of
the settings below, whatever the lower layer says, so the law fails where these are not empty.
Likewise it is such lists alone for which it matters in what order three layers are laid on each
other. -/
theorem over_lays_on :
    ((b.over a).applyTo v = b.applyTo (a.applyTo v) ↔ ∀ e ∈ listEntries, e.set? b = some [] →
      e.get v = []) ∧
    (∀ e ∈ entries, e.get ((b.over a).applyTo v) = e.get (b.applyTo (a.applyTo v)) ∧
      ∀ x ∈ e.set? b, e.get ((b.over a).applyTo v) = x) ∧
    (∀ e ∈ listEntries, e.set? b ≠ some [] →
      e.get ((b.over a).applyTo v) = e.get (b.applyTo (a.applyTo v)) ∧
      ∀ items ∈ e.set? b, e.get ((b.over a).applyTo v) = items) ∧
    (∀ e ∈ listEntries, e.set? b = some [] →
      e.get ((b.over a).applyTo v) = e.get v ∧ e.get (b.applyTo (a.applyTo v)) = []) ∧
    ((c.over b).over a = c.over (b.over a) ↔ ∀ e ∈ listEntries, e.set? c = some [] →
      e.set? a = none) := by
  refine ⟨over_applyTo_iff a b v, fun e he => ⟨get_over_applyTo a b v he, fun x hx => ?_⟩,
    fun e he hne => ⟨get_list_over_applyTo a b v he hne, fun items hitems => ?_⟩,
    fun e he => get_list_over_applyTo_of_nil a b v he, over_assoc_iff a b c⟩
  · rw [get_over_applyTo a b v he, e.get_applyTo he, Option.mem_def.mp hx]
    rfl
  · rw [get_list_over_applyTo a b v he hne, e.get_applyTo he, Option.mem_def.mp hitems]
    rfl

def sampleDocument : Layer where
  phpVersions := some ["7.4"]
  includes := some ["src/**"]
  workers := some 2

def sampleFlags : Layer where
  severities := some [.error, .warning]
  mode := some .allErrors
  workers := some 6

theorem over_lays_on_flags :
    (sampleFlags.over sampleDocument).applyTo {} = sampleFlags.applyTo (sampleDocument.applyTo {}) ∧
    ((sampleFlags.over sampleDocument).applyTo {}).workers = 6 ∧
    ((sampleFlags.over sampleDocument).applyTo {}).severities = [.error, .warning] := by
  obtain ⟨happly, hplain, hlists, -, -⟩ := over_lays_on sampleDocument sampleFlags {} {}
  refine ⟨happly.mpr ?_, ?_, ?_⟩
  · simp [listEntries, sampleFlags]
  · exact (hplain ⟨Int, (·.workers), (·.workers)⟩ (by simp [entries])).2 6 rfl
  · exact (hlists ⟨Severity, (·.severities),
      (·.severities)⟩ (by simp [listEntries]) (by simp [sampleFlags])).2 _ rfl

def sampleEmptied : Layer where
  severities := some []
  includes := some []

/-- Severities that the higher layer sets to nothing are the default ones again; a list that a third
layer sets to nothing is the one of the first again. -/
theorem emptied_lists_return :
    (sampleEmptied.over sampleDocument).applyTo {} ≠
      sampleEmptied.applyTo (sampleDocument.applyTo {}) ∧
    (sampleEmptied.over {}).over sampleDocument ≠
      sampleEmptied.over (Layer.over {} sampleDocument) := by
  decide

end Layer

end PluginAudit.Settings
