import PluginAudit.Proofs.WorkerPool

/-!
Selecting detectors. A scan with a part of a registry finds what the whole registry finds, less what
the other detectors contribute: leaving detectors out commutes with the stable sort of findings.
-/

open List

namespace PluginAudit

open Detector (keyOf)
open Detector.Syntax (Memo)

namespace Detector

/-! ### Registries -/

namespace Registry

variable {r : Registry} {ids : List String} {selected : List Detector}

/-- A registry that detectors were registered in, one after the other. -/
inductive Built : Registry → Prop where
  | empty : Built []
  | register {r r' : Registry} {d : Option Detector} (h : Built r) (hnext : r.register d = .ok r') :
      Built r'

lemma isNone_withKey?_iff {key : String} : (withKey? r key).isNone ↔ key ∉ r.map Detector.key := by
  simp [withKey?]

lemma register_eq_ok_iff {r' : Registry} {d : Option Detector} :
    r.register d = .ok r' ↔ ∃ x, d = some x ∧ x.key ≠ "" ∧ x.key ∉ r.map key ∧ r' = r ++ [x] := by
  cases d with
  | none => simp [register]
  | some x =>
    unfold register
    dsimp only
    constructor
    · intro h
      split at h
      case isTrue => cases h
      case isFalse hempty =>
        split at h
        case isTrue => cases h
        case isFalse hnone =>
          cases h
          rw [Bool.not_eq_true, Option.isSome_eq_false_iff, isNone_withKey?_iff] at hnone
          exact ⟨x, rfl, hempty, hnone, rfl⟩
    · rintro ⟨_, ⟨⟩, hempty, hnew, rfl⟩
      rw [← isNone_withKey?_iff, ← Option.isSome_eq_false_iff] at hnew
      rw [if_neg hempty, hnew]
      rfl

lemma Built.nodup_keys (h : Built r) : (r.map key).Nodup := by
  induction h with
  | empty => exact nodup_nil
  | register _ hnext ih =>
    obtain ⟨x, -, -, hnew, rfl⟩ := register_eq_ok_iff.mp hnext
    rw [map_append, map_singleton]
    exact nodup_append_comm.mp (nodup_cons.mpr ⟨hnew, ih⟩)

lemma built_append (h : Built r) (ds : List Detector) (hnew : ((r ++ ds).map key).Nodup)
    (hne : ∀ d ∈ ds, d.key ≠ "") : Built (r ++ ds) := by
  induction ds generalizing r with
  | nil => simpa using h
  | cons d ds ih =>
    have hd : d.key ∉ r.map key := by
      intro hmem
      rw [map_append, map_cons] at hnew
      exact disjoint_of_nodup_append hnew hmem mem_cons_self
    have hnext : Built (r ++ [d]) := .register (d := some d) h
      (register_eq_ok_iff.mpr ⟨d, rfl, hne d mem_cons_self, hd, rfl⟩)
    rw [← singleton_append, ← append_assoc] at hnew ⊢
    exact ih hnext hnew fun e he => hne e (mem_cons_of_mem d he)

/-! ### Selections -/

def isNamed (ids : List String) (key : String) : Bool := ids.isEmpty || (ids.map keyOf).contains key

@[simp] lemma isNamed_iff {key : String} : isNamed ids key ↔ ids = [] ∨ key ∈ ids.map keyOf := by
  simp [isNamed]

/-- A name that is not registered is refused; otherwise the named part of the registry is
selected. -/
lemma select_cases (r : Registry) (ids : List String) :
    (∃ id ∈ ids, keyOf id ∉ r.map key ∧ r.select ids = .error (.unknown id)) ∨
      (∀ id ∈ ids, keyOf id ∈ r.map key) ∧
        r.select ids = .ok (r.filter fun d => isNamed ids d.key) := by
  unfold select
  split
  case isTrue hempty =>
    rw [List.isEmpty_iff] at hempty
    subst hempty
    right
    simp [isNamed]
  case isFalse hempty =>
    split
    case h_1 id hfind =>
      left
      have hid := find?_some hfind
      rw [isNone_withKey?_iff] at hid
      exact ⟨id, mem_of_find?_eq_some hfind, hid, rfl⟩
    case h_2 hfind =>
      right
      simp only [find?_eq_none, isNone_withKey?_iff, not_not] at hfind
      refine ⟨hfind, ?_⟩
      simp [isNamed, hempty]

lemma eq_of_select (h : r.select ids = .ok selected) :
    selected = r.filter fun d => isNamed ids d.key := by
  rcases select_cases r ids with ⟨id, -, -, herror⟩ | ⟨-, hok⟩
  · rw [herror] at h
    cases h
  · rw [hok] at h
    exact (Except.ok.inj h).symm

lemma keys_of_select (h : r.select ids = .ok selected) :
    selected.map key = (r.map key).filter (isNamed ids) := by
  rw [eq_of_select h, filter_map]
  rfl

lemma eq_filter_of_select (h : r.select ids = .ok selected) :
    selected = r.filter fun d => (selected.map key).contains d.key := by
  refine (eq_of_select h).trans (filter_congr fun d hd => ?_)
  have hkey : d.key ∈ r.map key := mem_map_of_mem hd
  rw [keys_of_select h, Bool.eq_iff_iff, contains_iff_mem, mem_filter]
  exact ⟨fun hnamed => ⟨hkey, hnamed⟩, fun hmem => hmem.2⟩

lemma exists_select (hr : Built r) (hall : ∀ id ∈ ids, keyOf id ∈ r.map Detector.key) :
    ∃ selected, r.select ids = .ok selected ∧ selected.Sublist r ∧
      (selected.map Detector.key).Nodup ∧ ∀ key ∈ r.map Detector.key,
        key ∈ selected.map Detector.key ↔ ids = [] ∨ key ∈ ids.map keyOf := by
  rcases select_cases r ids with ⟨id, hid, hnew, -⟩ | ⟨-, hok⟩
  · exact absurd (hall id hid) hnew
  · refine ⟨_, hok, filter_sublist, ?_, ?_⟩
    · exact hr.nodup_keys.sublist (filter_sublist.map _)
    · intro key hkey
      rw [keys_of_select hok, mem_filter, isNamed_iff]
      simp [hkey]

lemma select_congr (r : Registry) {ids' : List String}
    (h : ∀ key, key ∈ ids.map keyOf ↔ key ∈ ids'.map keyOf) :
    (r.select ids).toOption = (r.select ids').toOption := by
  have hempty : ids = [] ↔ ids' = [] := by
    rw [← map_eq_nil_iff (f := keyOf), ← map_eq_nil_iff (f := keyOf) (l := ids'),
      eq_nil_iff_forall_not_mem, eq_nil_iff_forall_not_mem]
    simp only [h]
  have hnamed : ∀ key, isNamed ids key = isNamed ids' key := by
    intro key
    rw [Bool.eq_iff_iff, isNamed_iff, isNamed_iff, hempty, h]
  -- The keys of the names decide whether a selection fails.
  have hknown : ∀ {a b : List String}, (∀ key, key ∈ a.map keyOf ↔ key ∈ b.map keyOf) →
      (∀ id ∈ a, keyOf id ∈ r.map Detector.key) → ∀ id ∈ b, keyOf id ∈ r.map Detector.key := by
    intro a b hab ha id hid
    obtain ⟨other, hother, hkey⟩ := mem_map.mp ((hab _).mpr (mem_map_of_mem hid))
    rw [← hkey]
    exact ha other hother
  rcases select_cases r ids with ⟨id, hid, hnew, herror⟩ | ⟨hall, hok⟩ <;>
    rcases select_cases r ids' with ⟨id', hid', hnew', herror'⟩ | ⟨hall', hok'⟩
  · rw [herror, herror']
    rfl
  · exact absurd (hknown (fun key => (h key).symm) hall' id hid) hnew
  · exact absurd (hknown h hall id' hid') hnew'
  · rw [hok, hok']
    simp only [hnamed]

end Registry

/-! ### Who found what -/

/-- A finding with the key of the detector that made it. -/
structure Credit where
  key : String
  finding : Finding

def credits (results : List Result) : List Credit :=
  results.flatMap fun r => r.findings.map (⟨r.detector.key, ·⟩)

def sortCredits (l : List Credit) : List Credit :=
  l.mergeSort fun a b => a.finding.order b.finding != .gt

lemma filter_credits (results : List Result) (p : String → Bool) : (credits results).filter
      (fun c => p c.key) = credits (results.filter fun r => p r.detector.key) := by
  induction results with
  | nil => rfl
  | cons r results ih =>
    unfold credits at ih ⊢
    rw [flatMap_cons, filter_append, ih, filter_map, filter_cons]
    cases hp : p r.detector.key with
    | true => simp [Function.comp_def, hp]
    | false => simp [Function.comp_def, hp]

lemma map_sortCredits (results : List Result) : (sortCredits (credits results)).map (·.finding) =
      Finding.sort (results.flatMap (·.findings)) := by
  have hfindings : (credits results).map (·.finding) = results.flatMap (·.findings) := by
    simp [credits, map_flatMap, Function.comp_def]
  rw [← hfindings]
  exact map_mergeSort fun _ _ _ _ => rfl

lemma filter_sortCredits (l : List Credit) (p : Credit → Bool) :
    (sortCredits l).filter p = sortCredits (l.filter p) :=
  SortKey.filter_mergeSort (fun a b => Finding.order_bne_gt_iff a.finding b.finding) l p

/-! ### The detectors that come with the program -/

@[simp] lemma keys_builtins (env : Surroundings) (means : Means) : (builtins env means).map key =
    ["syntax", "undefined-function", "class-conflict", "wp-compat", "php-compat",
     "template-method-context", "this-context"] := by
  simp [builtins, plain, key, keyOf_id]

lemma built_builtins (env : Surroundings) (means : Means) :
    Registry.Built (builtins env means) := by
  refine Registry.built_append .empty (builtins env means) ?_ ?_
  · rw [nil_append, keys_builtins]
    decide
  · intro d hd hempty
    have hmem : d.key ∈ (builtins env means).map key := mem_map_of_mem hd
    rw [keys_builtins, hempty] at hmem
    exact absurd hmem (by decide)

end Detector

namespace Scan

open Detector

variable {env : Surroundings} {means : Detector.Means}

def creditsFor (detectors : List Detector) (target : Combination) (files : List Source.File)
    (memo : Memo) : List Detector.Credit :=
  Detector.sortCredits (Detector.credits ((Detector.judgeAll detectors [target] files).run memo).1)

lemma run_findingsFor_eq_credits (p : Plan) (target : Combination) (memo : Memo) :
    ((findingsFor p target).run memo).1 =
      (creditsFor p.detectors target p.files memo).map (·.finding) :=
  (map_sortCredits _).symm

/-- What a selection of detectors is credited with is what the registry is credited with, less what
the other detectors are. -/
lemma creditsFor_of_select {ids : List String} {selected : List Detector}
    (h : Registry.select (builtins env means) ids = .ok selected)
    (target : Combination) (files : List Source.File) {memo memo' : Memo}
    (hmemo : Truthful means memo) (hmemo' : Truthful means memo') :
    creditsFor selected target files memo' =
      (creditsFor (builtins env means) target files memo).filter fun c =>
        (selected.map Detector.key).contains c.key := by
  have hsteady : ∀ d ∈ builtins env means, d.Steady (Truthful means) target :=
    fun d hd => steady_of_mem_builtins hd target
  have hselected := Registry.eq_filter_of_select h
  have hsub : ∀ d ∈ selected, d ∈ builtins env means := by
    intro d hd
    rw [hselected] at hd
    exact mem_of_mem_filter hd
  unfold creditsFor
  rw [filter_sortCredits, filter_credits _ fun key => (selected.map Detector.key).contains key,
    (Pool.results_judgeAll hmemo hsteady hmemo).1,
    (Pool.results_judgeAll hmemo (fun d hd => hsteady d (hsub d hd)) hmemo').1]
  congr 2
  rw [filter_flatMap]
  refine flatMap_congr fun f _ => ?_
  rw [filter_map]
  exact congrArg (List.map (Pool.resultOf target memo f)) hselected

/-! ### Main statement -/

/-- Selecting detectors restricts a scan. In every registry a selection fails exactly if a name is
not registered; otherwise it has each named detector once, in the order of registration, all of them
if no name is given, and it depends only on the set of names up to case and surrounding white space.
A scan with a selection of the detectors that come with the program finds, in the same order, what
is found by the selected ones in a scan with all of them. -/
theorem select_restricts :
    (∀ r, Detector.Registry.Built r → ∀ ids,
      ((∃ id, r.select ids = .error (.unknown id)) ↔ ∃ id ∈ ids, keyOf id ∉ r.map Detector.key) ∧
      ((∀ id ∈ ids, keyOf id ∈ r.map Detector.key) → ∃ selected, r.select ids = .ok selected ∧
        selected.Sublist r ∧ (selected.map Detector.key).Nodup ∧
        ∀ key ∈ r.map Detector.key, key ∈ selected.map Detector.key ↔
          ids = [] ∨ key ∈ ids.map keyOf) ∧
      (∀ ids', (∀ key, key ∈ ids.map keyOf ↔ key ∈ ids'.map keyOf) →
        (r.select ids).toOption = (r.select ids').toOption)) ∧
    (∀ env means ids selected,
      Detector.Registry.select (Detector.builtins env means) ids = .ok selected →
      ∀ (p : Plan) target memo memo', Detector.Truthful means memo → Detector.Truthful means memo' →
        ((findingsFor { p with detectors := Detector.builtins env means } target).run memo).1 =
          (creditsFor (Detector.builtins env means) target p.files memo).map (·.finding) ∧
        ((findingsFor { p with detectors := selected } target).run memo').1 =
          ((creditsFor (Detector.builtins env means) target p.files memo).filter fun c =>
            (selected.map Detector.key).contains c.key).map (·.finding)) := by
  constructor
  · intro r hr ids
    refine ⟨?_, ?_, ?_⟩
    · rcases Registry.select_cases r ids with ⟨id, hid, hnew, herror⟩ | ⟨hall, hok⟩
      · exact ⟨fun _ => ⟨id, hid, hnew⟩, fun _ => ⟨id, herror⟩⟩
      · constructor
        · rintro ⟨id, herror⟩
          rw [hok] at herror
          cases herror
        · rintro ⟨id, hid, hnew⟩
          exact absurd (hall id hid) hnew
    · intro hall
      exact Registry.exists_select hr hall
    · intro ids' hsame
      exact Registry.select_congr r hsame
  · intro env means ids selected hselect p target memo memo' hmemo hmemo'
    constructor
    · exact run_findingsFor_eq_credits _ target memo
    · rw [run_findingsFor_eq_credits]
      exact congrArg _ (creditsFor_of_select hselect target p.files hmemo hmemo')

def mixedNames : List String := [" This-Context ", "SYNTAX", "this-context"]

theorem select_restricts_mixedNames :
    Detector.Registry.Built (Detector.builtins {} strictMeans) ∧
    ∃ selected, Detector.Registry.select (Detector.builtins {} strictMeans) mixedNames =
      .ok selected ∧
      selected.map Detector.key = ["syntax", "this-context"] ∧
      ((findingsFor { twoFiles with detectors := selected } ⟨"8.1", "6.5"⟩).run {}).1 = ((creditsFor
          (Detector.builtins {} strictMeans) ⟨"8.1", "6.5"⟩ twoFiles.files {}).filter fun c =>
          ["syntax", "this-context"].contains c.key).map (·.finding) := by
  have hbuilt := built_builtins {} strictMeans
  obtain ⟨hregistry, hscan⟩ := select_restricts
  have hknown : ∀ id ∈ mixedNames, keyOf id ∈ (builtins {} strictMeans).map Detector.key := by
    rw [Detector.keys_builtins]
    decide
  obtain ⟨selected, hselect, -⟩ := (hregistry _ hbuilt mixedNames).2.1 hknown
  have hselected : selected.map Detector.key = ["syntax", "this-context"] := by
    rw [Registry.keys_of_select hselect, Detector.keys_builtins]
    decide
  have hmemo := truthful_empty strictMeans
  refine ⟨hbuilt, selected, hselect, hselected, ?_⟩
  rw [(hscan _ _ _ _ hselect twoFiles ⟨"8.1", "6.5"⟩ {} {} hmemo hmemo).2, hselected]

end Scan

end PluginAudit
