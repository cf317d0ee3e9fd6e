import Mathlib.Data.List.ProdSigma
import PluginAudit.Proofs.Runs
import PluginAudit.Proofs.Validity

/-!
The combinations of versions of a scan. Main statement: what a scan reports for one of them is what
a scan for this combination alone reports, unless one of its versions is blank.
-/

open List

namespace PluginAudit.Scan

open Detector (plain Registry builtins key)
open Text (isBlank)
open Settings

variable {name value : String} {p : Plan}

def Request.only (q : Request) (php wp : String) : Request :=
  { q with settings := { q.settings with phpVersions := [php], wpVersions := [wp] } }

variable {m : Means} {w : World} {q : Request} {php wp : String}

/-! ### One version of a list -/

lemma checkVersions_singleton {values : List String} (hmem : value ∈ values)
    (hblank : isBlank value = false)
    (h : checkVersions name values = .ok ()) : checkVersions name [value] = .ok () := by
  rw [checkVersions_eq_ok_iff] at h ⊢
  refine ⟨fun v hv => ?_, value, mem_singleton.mpr rfl, hblank⟩
  rw [mem_singleton.mp hv]
  exact h.1 value hmem

lemma checkVersions_blank (hblank : isBlank value) :
    checkVersions name [value] = .error (.noVersion name) := by
  rw [checkVersions, Version.normalizeList_of_blank (by simpa using hblank)]

lemma validate_only (hphp : php ∈ q.settings.phpVersions) (hwp : wp ∈ q.settings.wpVersions)
    (hphpBlank : isBlank php = false) (hwpBlank : isBlank wp = false)
    (hvalid : q.settings.validate = .ok ()) : (q.only php wp).settings.validate = .ok () := by
  rw [validate_eq_ok_iff] at hvalid ⊢
  obtain ⟨hphps, hwps, hsound⟩ := hvalid
  exact ⟨checkVersions_singleton hphp hphpBlank hphps, checkVersions_singleton hwp hwpBlank hwps,
    ⟨hsound.severities, hsound.mode, hsound.workers, hsound.maxEcosystemFiles, hsound.binary,
    hsound.timeout, hsound.rate, hsound.cachePath⟩⟩

lemma run_only_of_blank_php (hblank : isBlank php) :
    (run m w (q.only php wp)).2 = .error (.settings (.noVersion "php_versions")) := by
  have hvalid : (q.only php wp).settings.validate = .error (.noVersion "php_versions") := by
    rw [validate, show (q.only php wp).settings.phpVersions = [php] from rfl,
      checkVersions_blank hblank]
    rfl
  rw [run, survey, hvalid]
  rfl

lemma run_only_of_blank_wp (hphp : php ∈ q.settings.phpVersions) (hphpBlank : isBlank php = false)
    (hvalid : q.settings.validate = .ok ()) (hblank : isBlank wp) :
    (run m w (q.only php wp)).2 = .error (.settings (.noVersion "wp_versions")) := by
  have hphps := checkVersions_singleton hphp hphpBlank (validate_eq_ok_iff.mp hvalid).1
  have hvalid : (q.only php wp).settings.validate = .error (.noVersion "wp_versions") := by
    rw [validate, show (q.only php wp).settings.phpVersions = [php] from rfl, hphps,
      show (q.only php wp).settings.wpVersions = [wp] from rfl, checkVersions_blank hblank]
    rfl
  rw [run, survey, hvalid]
  rfl

/-! ### Outcomes -/

def Plan.outcome (p : Plan) (s : Settings) (target : Combination) : Outcome :=
  let o :=
    (judge p s target (Finding.sort (p.files.flatMap (Pool.foundIn target {} p.detectors)))).outcome
  { o with passed := o.isClean }

lemma outcomes_planReport {tree : Node} (hplan : planned m tree q = .ok p) (s : Settings) :
    (planReport m p s).outcomes = some ((combinations s).map (p.outcome s)) := by
  obtain ⟨found, -, hplan⟩ := exists_of_bind_eq_ok hplan
  obtain ⟨-, rules, detectors, -, hselect, rfl⟩ := planOf_eq_ok_iff.mp hplan
  rw [planReport, judgements_eq_map (Detector.subset_of_select hselect), reportOf, Report.finalize]
  simp only [Option.map_some, map_map]
  rfl

lemma validate_of_planned {tree : Node} (hplan : planned m tree q = .ok p) :
    q.settings.validate = .ok () := by
  obtain ⟨found, hsurvey, -⟩ := exists_of_bind_eq_ok hplan
  exact (survey_eq_ok hsurvey).1

lemma planned_only (hvalid : q.settings.validate = .ok ())
    (honly : (q.only php wp).settings.validate = .ok ())
    (tree : Node) : planned m tree (q.only php wp) = planned m tree q := by
  rw [planned, planned, survey, survey, hvalid, honly]
  rfl

lemma run_only (hcache : q.settings.cache.enabled = false)
    (hdistinct : DistinctRules m w.tree q.settings)
    (order : WidgetRules.Order) (hvalid : q.settings.validate = .ok ())
    (honly : (q.only php wp).settings.validate = .ok ()) :
    (run (m.inOrder order) w (q.only php wp)).2 =
      (planned m w.tree q).map (planReport m · (q.only php wp).settings) := by
  rw [run_uncached (q := q.only php wp) hcache, planned_only hvalid honly, planned_order hdistinct]
  rfl

@[simp] lemma mem_combinations {s : Settings} {target : Combination} :
    target ∈ combinations s ↔ target.php ∈ s.phpVersions ∧ target.wp ∈ s.wpVersions := by
  simp only [combinations, mem_flatMap, mem_map]
  constructor
  · rintro ⟨php, hphp, wp, hwp, rfl⟩
    exact ⟨hphp, hwp⟩
  · rintro ⟨hphp, hwp⟩
    exact ⟨_, hphp, _, hwp, rfl⟩

/-- Outcomes stand in the order of the versions of the language, and for one of these in that of the
versions of the platform. -/
lemma map_versions_outcomes (p : Plan) (s : Settings) :
    ((combinations s).map (p.outcome s)).map (fun o => (o.php, o.wp)) =
      s.phpVersions ×ˢ s.wpVersions := by
  rw [map_map, combinations, map_flatMap]
  simp only [map_map]
  rfl

lemma exists_run_only (hcache : q.settings.cache.enabled = false)
    (hdistinct : DistinctRules m w.tree q.settings)
    (order : WidgetRules.Order) (hvalid : q.settings.validate = .ok ())
    (honly : (q.only php wp).settings.validate = .ok ()) (hplan : planned m w.tree q = .ok p) :
    ∃ single, (run (m.inOrder order) w (q.only php wp)).2 = .ok single ∧
      single.outcomes = some [p.outcome q.settings ⟨php, wp⟩] := by
  refine ⟨planReport m p (q.only php wp).settings, ?_, outcomes_planReport hplan _⟩
  rw [run_only hcache hdistinct order hvalid honly, hplan]
  rfl

/-- Combinations do not influence each other, in whatever order a scan takes the rules for
widgets. -/
theorem combinations_independent (m : Means) (w : World) (q : Request)
    (hcache : q.settings.cache.enabled = false)
    (hdistinct : DistinctRules m w.tree q.settings) (order : WidgetRules.Order) :
    (∀ r, (run m w q).2 = .ok r → ∃ outcomes, r.outcomes = some outcomes ∧
      outcomes.map (fun o => (o.php, o.wp)) = q.settings.phpVersions ×ˢ q.settings.wpVersions ∧
      ∀ o ∈ outcomes, (isBlank o.php = false → isBlank o.wp = false →
          ∃ single, (run (m.inOrder order) w (q.only o.php o.wp)).2 = .ok single ∧
            single.outcomes = some [o]) ∧
        (isBlank o.php = true →
          (run (m.inOrder order) w (q.only o.php o.wp)).2 =
            .error (.settings (.noVersion "php_versions"))) ∧
        (isBlank o.php = false → isBlank o.wp = true →
          (run (m.inOrder order) w (q.only o.php o.wp)).2 =
            .error (.settings (.noVersion "wp_versions")))) ∧
    ∀ cause, (run m w q).2 = .error cause → q.settings.validate = .ok () →
      ∀ php ∈ q.settings.phpVersions, ∀ wp ∈ q.settings.wpVersions, isBlank php = false →
        isBlank wp = false → (run (m.inOrder order) w (q.only php wp)).2 = .error cause := by
  rw [run_uncached hcache]
  cases hplan : planned m w.tree q with
  | error cause =>
    refine ⟨fun r hr => absurd hr (by simp [Except.map]),
      fun e he hvalid php hphp wp hwp hphpBlank hwpBlank => ?_⟩
    cases he
    rw [run_only hcache hdistinct order hvalid (validate_only hphp hwp hphpBlank hwpBlank hvalid),
      hplan]
    rfl
  | ok p =>
    refine ⟨fun r hr => ?_, fun e he => absurd he (by simp [Except.map])⟩
    cases hr
    have hvalid := validate_of_planned hplan
    refine ⟨_, outcomes_planReport hplan _, map_versions_outcomes p _, fun o ho => ?_⟩
    obtain ⟨target, htarget, rfl⟩ := mem_map.mp ho
    obtain ⟨hphp, hwp⟩ := mem_combinations.mp htarget
    refine ⟨fun hphpBlank hwpBlank => ?_, run_only_of_blank_php,
      fun hphpBlank => run_only_of_blank_wp hphp hphpBlank hvalid⟩
    exact exists_run_only hcache hdistinct order hvalid
      (validate_only hphp hwp hphpBlank hwpBlank hvalid) hplan

/-! ### One file for several versions -/

def fallbackFile : Node := .file (bytesOf "<?php\n$a = $b ?? 1;\n") .plain

def fallbackWorld : World := { tree := .dir [("a.php", fallbackFile)] }

def fallbackScan (phpVersions : List String) (cache : CacheSettings := {}) : Request :=
  { path := "/a.php"
    settings :=
      { phpVersions, wpVersions := ["6.5"], lint := { enabled := false }, disableDetection := true
        detectors := ["php-compat"], cache } }

def fallbackMeans : Means := { here := "/", now := ⟨0, 0, 0⟩, runId := "" }

def fallbackPlan : Plan :=
  { root := "/", paths := ["/a.php"]
    files := [⟨"/a.php", ["<?php".toList, "$a = $b ?? 1;".toList, []]⟩]
    ecosystems := [], rules := [], widgets := .builtin, toolchain := {}
    detectors := [plain "php-compat" "PHP Version Compatibility Detector" Detector.Language.detect] }

lemma select_phpCompat (env : Surroundings) (means : Detector.Means) :
    Registry.select (builtins env means) ["php-compat"] = .ok fallbackPlan.detectors := by
  simp [Registry.select, Registry.withKey?, builtins, plain, key, Detector.keyOf_id, fallbackPlan]

lemma isName_fallback : ∀ n ∈ ["a.php"], Path.IsName n := by
  decide

section

variable {tree : Node} (hfile : tree.find? ["a.php"] = some fallbackFile)

include hfile in
lemma exists_leadsTo_fallback :
    ∃ entries, tree = .dir entries ∧ FileTree.LeadsTo tree [] [] entries := by
  obtain ⟨entries, rfl⟩ := Node.exists_dir_of_find?_ne_nil hfile (by simp)
  exact ⟨entries,
    rfl, by simp, by rw [FileTree.resolve_rooted (by simp), FileTree.follow_nil], Node.find?_nil _⟩

include hfile in
lemma ofPath_fallback :
    Target.ofPath tree fallbackMeans.here "/a.php" = .ok ⟨"/", some "/a.php"⟩ := by
  obtain ⟨entries, rfl, hleads⟩ := exists_leadsTo_fallback hfile
  have hplace : Path.absolute fallbackMeans.here (if "/a.php" = "" then "." else "/a.php") =
      Path.rooted ([] ++ ["a.php"]) := by decide
  rw [Target.ofPath, hplace,
    hleads.stat_append ["a.php"] isName_fallback hfile (by simp [fallbackFile])]
  decide

include hfile in
lemma filesOf_fallback : filesOf fallbackMeans tree "/" ["/a.php"] = fallbackPlan.files := by
  obtain ⟨entries, rfl, hleads⟩ := exists_leadsTo_fallback hfile
  have hread : FileTree.readUnder (.dir entries) fallbackMeans.here "/" "/a.php" =
      .ok (bytesOf "<?php\n$a = $b ?? 1;\n") := by
    rw [hleads.readUnder_eq _ (by decide) isName_fallback (by simp) (by decide)]
    exact congrArg _ (FileTree.readConfined_file isName_fallback hfile (by simp))
  have hload : [Source.File.load? (.dir entries) fallbackMeans.here "/" "/a.php"] =
      fallbackPlan.files.map some := by
    rw [Source.File.load?, FileTree.readLines, if_neg (by decide), hread, Except.map,
      decodeBytes_bytesOf]
    decide
  exact filterMap_cons_some (head_eq_of_cons_eq hload)

variable {phpVersions : List String} {cache : CacheSettings}
  (hvalid : (fallbackScan phpVersions cache).settings.validate = .ok ())

include hfile hvalid in
lemma survey_fallbackScan : survey fallbackMeans tree (fallbackScan phpVersions cache) =
    .ok (⟨"/", some "/a.php"⟩, ["/a.php"], []) := by
  rw [survey, hvalid, show (fallbackScan phpVersions cache).path = "/a.php" from rfl, ofPath_fallback hfile]
  rfl

include hfile in
lemma planOf_fallbackScan : planOf fallbackMeans tree "/" ["/a.php"] []
    (fallbackScan phpVersions cache).settings = .ok fallbackPlan := by
  rw [planOf_eq_ok_iff]
  refine ⟨rfl, [], _, rfl, select_phpCompat _ _, ?_⟩
  rw [filesOf_fallback hfile]
  rfl

end

lemma find?_fallbackWorld : fallbackWorld.tree.find? ["a.php"] = some fallbackFile := by
  with_unfolding_all rfl

/-- The file passes for version 8.1 and fails for version 5.6, in one scan as in two. -/
theorem combinations_fallbackScan :
    ∃ r first second, (run fallbackMeans fallbackWorld (fallbackScan ["5.6", "8.1"])).2 = .ok r ∧
      (run fallbackMeans fallbackWorld (fallbackScan ["5.6"])).2 = .ok first ∧
      (run fallbackMeans fallbackWorld (fallbackScan ["8.1"])).2 = .ok second ∧
      (r.outcomes.items.map fun o => (o.php, o.passed)) = [("5.6", false), ("8.1", true)] ∧
      r.outcomes.items = first.outcomes.items ++ second.outcomes.items := by
  have hplan : planned fallbackMeans fallbackWorld.tree (fallbackScan ["5.6", "8.1"]) =
      .ok fallbackPlan := by with_unfolding_all rfl
  have hrun := run_uncached (m := fallbackMeans) (w := fallbackWorld)
    (q := fallbackScan ["5.6", "8.1"]) rfl
  rw [hplan] at hrun
  obtain ⟨outcomes, houtcomes, -, hsingle⟩ :=
    (combinations_independent fallbackMeans fallbackWorld (fallbackScan ["5.6", "8.1"]) rfl
      (fun h => absurd h (by decide +kernel)) .byName).1 _ hrun
  obtain rfl : [fallbackPlan.outcome (fallbackScan ["5.6", "8.1"]).settings ⟨"5.6", "6.5"⟩,
      fallbackPlan.outcome (fallbackScan ["5.6", "8.1"]).settings ⟨"8.1", "6.5"⟩] = outcomes :=
    Option.some_inj.mp ((outcomes_planReport hplan _).symm.trans houtcomes)
  obtain ⟨first, hfirst, hfirstOnly⟩ := (hsingle _ (.head _)).1 (by decide +kernel)
    (by decide +kernel)
  obtain ⟨second, hsecond, hsecondOnly⟩ :=
    (hsingle _ (.tail _ (.head _))).1 (by decide +kernel) (by decide +kernel)
  refine ⟨_, first, second, hrun, hfirst, hsecond, ?_, ?_⟩
  · rw [houtcomes]
    decide +kernel
  · rw [houtcomes, hfirstOnly, hsecondOnly]
    rfl

/-- A blank version is passed over beside another one, and refused alone. -/
theorem blank_version_refused_alone :
    ¬ ∀ r, (run fallbackMeans fallbackWorld (fallbackScan ["8.1", ""])).2 = .ok r →
      ∀ o ∈ r.outcomes.items, ∃ single,
        (run fallbackMeans fallbackWorld ((fallbackScan ["8.1", ""]).only o.php o.wp)).2 =
          .ok single ∧
          single.outcomes = some [o] := by
  intro h
  have hplan : planned fallbackMeans fallbackWorld.tree (fallbackScan ["8.1", ""]) =
      .ok fallbackPlan := by with_unfolding_all rfl
  have hrun := run_uncached (m := fallbackMeans) (w := fallbackWorld)
    (q := fallbackScan ["8.1", ""]) rfl
  rw [hplan] at hrun
  have hmem : fallbackPlan.outcome (fallbackScan ["8.1", ""]).settings ⟨"", "6.5"⟩ ∈ (planReport
      fallbackMeans fallbackPlan (fallbackScan ["8.1", ""]).settings).outcomes.items := by
    rw [outcomes_planReport hplan]
    exact mem_map_of_mem (mem_combinations.mpr ⟨by simp [fallbackScan], by simp [fallbackScan]⟩)
  obtain ⟨single, hsingle, -⟩ := h _ hrun _ hmem
  rw [run_only_of_blank_php (by decide +kernel)] at hsingle
  cases hsingle

end PluginAudit.Scan
