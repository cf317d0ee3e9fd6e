import PluginAudit.Proofs.Combinations
import PluginAudit.Proofs.NormalVersions
import PluginAudit.Report.Baseline

/-!
Taking accepted issues out of a report. Main statement: a baseline takes out exactly the issues that
the report it comes from has for the same versions, and a second time nothing.
-/

open List

namespace PluginAudit

open Version
open Decimal (fitsInt wrapInt)

lemma wrapInt_eq_self {n : Int} (h : fitsInt n) : wrapInt n = n := by
  rw [fitsInt, Bool.and_eq_true, decide_eq_true_eq, decide_eq_true_eq] at h
  exact Int.bmod_eq_of_le h.1 (Int.lt_add_one_of_le h.2)

/-- The report has an issue with this fingerprint for versions of the same normal forms. -/
def Report.HasIssue (r : Report) (php wp fingerprint : String) : Prop :=
  ∃ o ∈ r.outcomes.items, normalize o.php = normalize php ∧ normalize o.wp = normalize wp ∧
    ∃ i ∈ o.issues.items, Baseline.fingerprintOf r.pluginRoot i = fingerprint

instance (r : Report) (php wp fingerprint : String) : Decidable (r.HasIssue php wp fingerprint) :=
  inferInstanceAs (Decidable (∃ o ∈ r.outcomes.items, _ ∧ _ ∧ ∃ i ∈ o.issues.items, _))

def Report.HasVersions (r : Report) : Prop :=
  ∀ o ∈ r.outcomes.items, Version.parse? o.php ≠ none ∧ Version.parse? o.wp ≠ none

/-- An outcome without the issues that another report has, which it counts. -/
def Outcome.without (o : Outcome) (saved : Report) : Outcome :=
  let kept := o.issues.items.filter fun i => ¬ saved.HasIssue o.php o.wp i.fingerprint
  { o with
    issues := some kept
    passed := kept.isEmpty
    baselined := wrapInt (o.baselined + (o.issues.items.length - kept.length : Int)) }

lemma Outcome.without_of_absent {o : Outcome} {saved : Report} (hcount : fitsInt o.baselined)
    (h : ∀ other ∈ saved.outcomes.items,
      ¬ (normalize other.php = normalize o.php ∧ normalize other.wp = normalize o.wp)) :
    o.without saved = { o with issues := some o.issues.items, passed := o.isClean } := by
  have hkept : (o.issues.items.filter fun i => ¬ saved.HasIssue o.php o.wp i.fingerprint) =
      o.issues.items := by
    rw [filter_eq_self]
    rintro i -
    rw [decide_eq_true_iff]
    rintro ⟨other, hother, hphp, hwp, -⟩
    exact h other hother ⟨hphp, hwp⟩
  rw [Outcome.without, hkept]
  simp [Outcome.isClean, wrapInt_eq_self hcount]

namespace Baseline

open Version

variable {value php wp : String}

/-! ### Entries -/

lemma normalVersion_of_normalize {normal : String} (h : normalize value = .ok normal) :
    normalVersion value = normal := by
  rw [normalVersion, h]

lemma normalVersion_of_parse? {v : Version} (h : parse? value = some v) :
    normalVersion value = v.normalText :=
  normalVersion_of_normalize (normalize_of_parse? h)

lemma normalVersion_of_unread (h : parse? value = none) :
    normalVersion value = Text.trim value := by
  rw [normalVersion, Version.normalize, h]

lemma nul_notMem_normalText (v : Version) : '\x00' ∉ v.normalText.toList := by
  intro h
  exact absurd ((isNumeric_normalText v).all _ h) (by decide)

/-- A first part of an entry that starts like one of a readable version is of that version: what
cannot be read does not start so. -/
lemma parse?_of_normalVersion_append {v : Version} (hv : v.Fits) {s t : List Char}
    (h : (normalVersion value).toList ++ '\x00' :: s = v.normalText.toList ++ '\x00' :: t) :
    parse? value = some v ∧ s = t := by
  cases hparse : parse? value with
  | some u =>
    rw [normalVersion_of_parse? hparse] at h
    obtain ⟨htext, hrest⟩ := Text.append_cons_cancel (nul_notMem_normalText u)
      (nul_notMem_normalText v) h
    exact ⟨by rw [normalText_inj (fits_of_parse? hparse) hv (String.toList_inj.mp htext)], hrest⟩
  | none =>
    rw [normalVersion_of_unread hparse, Text.trim, String.toList_ofList] at h
    obtain ⟨rest, htrim, hhead⟩ :
        ∃ rest, Text.trimChars value.toList = v.normalText.toList ++ rest ∧
        ∀ c ∈ rest.head?, (c == '.' || c.isDigit) = false := by
      rcases append_eq_append_iff.mp h with ⟨rest, htext, hrest⟩ | ⟨rest, htrim, hrest⟩
      · -- the normal form holds no null character, so it ends where the text does
        cases rest with
        | nil => exact ⟨[], by rw [htext]; simp, by simp⟩
        | cons c rest =>
          refine absurd ?_ (nul_notMem_normalText v)
          rw [htext, ← (List.cons.inj hrest).1]
          simp
      · refine ⟨rest, htrim, ?_⟩
        cases rest with
        | nil => simp
        | cons c rest =>
          rintro d ⟨⟩
          rw [← (List.cons.inj hrest).1]
          decide
    rw [parse?_of_trimChars hv htrim hhead] at hparse
    cases hparse

lemma toList_entryOf (php wp fingerprint : String) :
    (entryOf php wp fingerprint).toList = (normalVersion php).toList ++ '\x00' ::
        ((normalVersion wp).toList ++ '\x00' :: fingerprint.toList) := by
  simp [entryOf]

lemma entryOf_eq_iff {php' wp' fingerprint fingerprint' : String} (hphp : parse? php ≠ none)
    (hwp : parse? wp ≠ none) : entryOf php' wp' fingerprint' = entryOf php wp fingerprint ↔
      normalize php' = normalize php ∧ normalize wp' = normalize wp ∧
        fingerprint' = fingerprint := by
  obtain ⟨v, hv⟩ := Option.ne_none_iff_exists'.mp hphp
  obtain ⟨w, hw⟩ := Option.ne_none_iff_exists'.mp hwp
  constructor
  · intro h
    rw [← String.toList_inj, toList_entryOf, toList_entryOf, normalVersion_of_parse? hv,
      normalVersion_of_parse? hw] at h
    obtain ⟨hphp', hrest⟩ := parse?_of_normalVersion_append (fits_of_parse? hv) h
    obtain ⟨hwp', hrest⟩ := parse?_of_normalVersion_append (fits_of_parse? hw) hrest
    exact ⟨by rw [normalize_of_parse? hphp', normalize_of_parse? hv],
      by rw [normalize_of_parse? hwp', normalize_of_parse? hw], String.toList_inj.mp hrest⟩
  · rintro ⟨hphp', hwp', rfl⟩
    rw [normalize_of_parse? hv] at hphp'
    rw [normalize_of_parse? hw] at hwp'
    rw [entryOf, entryOf, normalVersion_of_normalize hphp', normalVersion_of_normalize hwp',
      normalVersion_of_parse? hv, normalVersion_of_parse? hw]

lemma mem_entries_ofReport {path key : String} {saved : Report} {entry : String} :
    entry ∈ (ofReport path key saved).entries ↔ ∃ o ∈ saved.outcomes.items, ∃ i ∈ o.issues.items,
      entryOf o.php o.wp (fingerprintOf saved.pluginRoot i) = entry := by
  simp [ofReport, mem_eraseDups]

/-- For readable versions, a baseline accepts the issues of the report it comes from. -/
lemma accepts_ofReport (hphp : parse? php ≠ none) (hwp : parse? wp ≠ none) (path key : String)
    (saved : Report) (fingerprint : String) : (ofReport path key saved).accepts php wp fingerprint =
      decide (saved.HasIssue php wp fingerprint) := by
  rw [Bool.eq_iff_iff, accepts, contains_iff_mem, mem_entries_ofReport, decide_eq_true_iff,
    Report.HasIssue]
  refine exists_congr fun o => and_congr_right fun _ => ?_
  simp only [entryOf_eq_iff hphp hwp]
  constructor
  · rintro ⟨i, hi, hphp', hwp', hfingerprint⟩
    exact ⟨hphp', hwp', i, hi, hfingerprint⟩
  · rintro ⟨hphp', hwp', i, hi, hfingerprint⟩
    exact ⟨i, hi, hphp', hwp', hfingerprint⟩

/-! ### Outcomes without their accepted issues -/

variable (b b' : Baseline) (o : Outcome) (r : Report)

def settle (b : Baseline) (o : Outcome) : Outcome :=
  { b.applyTo o with passed := (b.applyTo o).isClean }

def left (b : Baseline) (o : Outcome) : List Issue :=
  o.issues.items.filter fun i => !b.accepts o.php o.wp i.fingerprint

lemma countP_add_length_left :
    (o.issues.items.countP fun i => b.accepts o.php o.wp i.fingerprint) + (b.left o).length =
      o.issues.items.length := by
  rw [left, ← countP_eq_length_filter,
    length_eq_countP_add_countP (fun i : Issue => b.accepts o.php o.wp i.fingerprint)]
  simp

lemma settle_eq : b.settle o = { o with
    issues := some (b.left o)
    passed := (b.left o).isEmpty
    baselined := wrapInt (o.baselined + (o.issues.items.length - (b.left o).length : Int)) } := by
  have hcount : ((o.issues.items.countP fun i => b.accepts o.php o.wp i.fingerprint : Nat) : Int) =
      o.issues.items.length - (b.left o).length := by
    rw [← countP_add_length_left b o]
    omega
  rw [settle, applyTo, hcount]
  rfl

lemma left_settle :
    b'.left (b.settle o) = (b.left o).filter fun i => !b'.accepts o.php o.wp i.fingerprint := by
  rw [settle_eq]
  rfl

@[simp] lemma left_settle_self : b.left (b.settle o) = b.left o := by
  rw [left_settle, left, filter_filter]
  simp

@[simp] lemma settle_settle_self : b.settle (b.settle o) = b.settle o := by
  rw [settle_eq b (b.settle o), left_settle_self, settle_eq]
  simp [Listing.items, wrapInt]

lemma settle_comm : b'.settle (b.settle o) = b.settle (b'.settle o) := by
  have hleft : b'.left (b.settle o) = b.left (b'.settle o) := by
    rw [left_settle, left_settle, left, left, filter_filter, filter_filter]
    exact filter_congr fun i _ => Bool.and_comm _ _
  rw [settle_eq b' (b.settle o), settle_eq b (b'.settle o), hleft]
  generalize b.left (b'.settle o) = kept
  rw [settle_eq b o, settle_eq b' o]
  simp only [Listing.items, Option.getD_some, Outcome.mk.injEq, true_and, wrapInt,
    Int.bmod_add_bmod]
  congr 1
  omega

lemma settle_ofReport (hphp : parse? o.php ≠ none) (hwp : parse? o.wp ≠ none) (path key : String)
    (saved : Report) : (ofReport path key saved).settle o = o.without saved := by
  have hleft : (ofReport path key saved).left o =
      o.issues.items.filter fun i => ¬ saved.HasIssue o.php o.wp i.fingerprint := by
    refine filter_congr fun i _ => ?_
    rw [accepts_ofReport hphp hwp, decide_not]
  rw [settle_eq, hleft, Outcome.without]

/-! ### Reports without their accepted issues -/

lemma apply_eq : b.apply r = { r with
    outcomes := r.outcomes.map (map b.settle)
    summary := .ofOutcomes (Listing.items (r.outcomes.map (map b.settle)))
    baseline := some ⟨b.path, b.key, b.countIn r⟩ } := by
  simp only [apply, Report.finalize, Option.map_map, map_map, Function.comp_def]
  rfl

@[simp] lemma outcomes_apply : (b.apply r).outcomes = r.outcomes.map (map b.settle) := by
  rw [apply_eq]

@[simp] lemma items_apply : (b.apply r).outcomes.items = r.outcomes.items.map b.settle := by
  rw [outcomes_apply]
  cases r.outcomes with
  | none => rfl
  | some all => rfl

lemma countIn_add_length_issuesOf :
    b.countIn r + (Report.issuesOf (b.apply r).outcomes.items).length =
      (Report.issuesOf r.outcomes.items).length := by
  rw [items_apply, countIn, Report.issuesOf, Report.issuesOf]
  induction r.outcomes.items with
  | nil => rfl
  | cons o all ih =>
    have hcount := countP_add_length_left b o
    have hitems : (b.settle o).issues.items = b.left o := by rw [settle_eq]; rfl
    rw [foldr_cons, map_cons, flatMap_cons, flatMap_cons, length_append, length_append, hitems]
    omega

@[simp] lemma outcomes_apply_self : (b.apply (b.apply r)).outcomes = (b.apply r).outcomes := by
  simp only [outcomes_apply, Option.map_map, Function.comp_def, map_map, settle_settle_self]

@[simp] lemma countIn_apply_self : b.countIn (b.apply r) = 0 := by
  have hcount := b.countIn_add_length_issuesOf (b.apply r)
  rw [outcomes_apply_self] at hcount
  omega

lemma apply_apply_self :
    b.apply (b.apply r) = { b.apply r with baseline := some ⟨b.path, b.key, 0⟩ } := by
  have houtcomes := b.outcomes_apply_self r
  rw [outcomes_apply b (b.apply r)] at houtcomes
  rw [apply_eq b (b.apply r), houtcomes, countIn_apply_self]
  rfl

lemma outcomes_apply_comm : (b'.apply (b.apply r)).outcomes = (b.apply (b'.apply r)).outcomes := by
  simp only [outcomes_apply, Option.map_map, Function.comp_def, map_map, settle_comm b b']

end Baseline

namespace Scan

/-- The versions of a scan that are not blank can be read, so those of its report can. -/
lemma hasVersions_of_run {m : Means} {w : World} {q : Request} {r : Report}
    (hcache : q.settings.cache.enabled = false) (hrun : (run m w q).2 = .ok r)
    (hversions : ∀ value ∈ q.settings.phpVersions ++ q.settings.wpVersions,
      Text.isBlank value = false) : r.HasVersions := by
  rw [run_uncached hcache] at hrun
  cases hplan : planned m w.tree q with
  | error e =>
    rw [hplan] at hrun
    cases hrun
  | ok p =>
    rw [hplan] at hrun
    cases hrun
    obtain ⟨hphps, hwps, -⟩ := Settings.validate_eq_ok_iff.mp (validate_of_planned hplan)
    have hread : ∀ {name value values}, Settings.checkVersions name values = .ok () →
        value ∈ values → Text.isBlank value = false → parse? value ≠ none := by
      intro name value values hcheck hmem hblank
      exact Option.isSome_iff_ne_none.mp
        ((Settings.checkVersions_eq_ok_iff.mp hcheck).1 value hmem hblank)
    intro o ho
    rw [outcomes_planReport hplan] at ho
    obtain ⟨target, htarget, rfl⟩ := mem_map.mp ho
    obtain ⟨hphp, hwp⟩ := mem_combinations.mp htarget
    exact ⟨hread hphps hphp (hversions _ (mem_append_left _ hphp)),
      hread hwps hwp (hversions _ (mem_append_right _ hwp))⟩

end Scan

namespace Baseline

open Version

/-- A baseline leaves of every outcome, in their order, the issues that the report it comes from
does not have for versions of the same normal forms. What it takes out is counted in the outcome, by
a number of sixty-four bits, and noted in the report. A second time it takes nothing out, and only
its note changes; two baselines leave the same outcomes in either order; and issues for versions
that the report does not have are left. The versions of a report can be read if it comes from a scan
for versions that are not blank. -/
theorem apply_ofReport :
    (∀ (r saved : Report) (path key : String), r.HasVersions →
      let b := ofReport path key saved
      (b.apply r).outcomes = r.outcomes.map (List.map (·.without saved)) ∧
      b.countIn r + (Report.issuesOf (b.apply r).outcomes.items).length =
        (Report.issuesOf r.outcomes.items).length ∧
      (b.apply r).baseline = some ⟨path, key, b.countIn r⟩ ∧
      b.countIn (b.apply r) = 0 ∧
      b.apply (b.apply r) = { b.apply r with baseline := some ⟨path, key, 0⟩ } ∧
      (∀ path' key' saved', ((ofReport path' key' saved').apply (b.apply r)).outcomes =
        (b.apply ((ofReport path' key' saved').apply r)).outcomes) ∧
      ∀ (n : Nat) (o : Outcome), r.outcomes.items[n]? = some o → fitsInt o.baselined = true →
        (∀ other ∈ saved.outcomes.items, ¬ (Version.normalize other.php = Version.normalize o.php ∧
          Version.normalize other.wp = Version.normalize o.wp)) →
        (b.apply r).outcomes.items[n]? =
          some { o with issues := some o.issues.items, passed := o.isClean }) ∧
    (∀ (m : Scan.Means) (w : Scan.World) (q : Scan.Request) (r : Report),
      q.settings.cache.enabled = false →
      (Scan.run m w q).2 = .ok r →
      (∀ value ∈ q.settings.phpVersions ++ q.settings.wpVersions, Text.isBlank value = false) →
      r.HasVersions) := by
  refine ⟨?_, fun m w q r hcache hrun hversions => Scan.hasVersions_of_run hcache hrun hversions⟩
  intro r saved path key hread b
  have hsettle : ∀ o ∈ r.outcomes.items, b.settle o = o.without saved := by
    intro o ho
    obtain ⟨hphp, hwp⟩ := hread o ho
    exact settle_ofReport o hphp hwp path key saved
  refine ⟨?_, b.countIn_add_length_issuesOf r, rfl, b.countIn_apply_self r, b.apply_apply_self r,
    fun path' key' saved' => outcomes_apply_comm b _ r, ?_⟩
  · rw [outcomes_apply]
    cases houtcomes : r.outcomes with
    | none => rfl
    | some all =>
      rw [houtcomes] at hsettle
      exact congrArg some (map_congr_left hsettle)
  · intro n o ho hcount habsent
    rw [items_apply, getElem?_map, ho, Option.map_some, hsettle o (mem_of_getElem? ho),
      Outcome.without_of_absent hcount habsent]

def spelledReport (php : String) : Report :=
  { outcomes := some [{ php, wp := "6.4", issues := some [{
      finding :=
        { kind := .removedFunction, message := "m", file := "/p/a.php", line := 3, severity := .error }
      relativePath := "a.php", fingerprint := "f1" }] }] }

lemma hasVersions_spelledReport : (spelledReport "8.1").HasVersions := by
  intro o ho
  obtain rfl := mem_singleton.mp ho
  decide

/-- The issue is taken out although its version is spelled in two ways, and left for another
version; and a scan gives a report whose versions can be read. -/
theorem apply_ofReport_spelled :
    (((ofReport "b.json" "" (spelledReport "v8.1.0")).apply (spelledReport "8.1")).outcomes.items.map
      fun o => (o.issues.items.length, o.passed, o.baselined)) = [(0, true, 1)] ∧
    (((ofReport "b.json" "" (spelledReport "8.2")).apply (spelledReport "8.1")).outcomes.items.map
      fun o => (o.issues.items.length, o.passed, o.baselined)) = [(1, false, 0)] ∧
    ∃ r, (Scan.run Scan.fallbackMeans Scan.fallbackWorld (Scan.fallbackScan ["8.1", "5.6"])).2 = .ok r ∧
      r.HasVersions := by
  refine ⟨?_, ?_, ?_⟩
  · rw [(apply_ofReport.1 _ _ _ _ hasVersions_spelledReport).1]
    decide +kernel
  · rw [(apply_ofReport.1 _ _ _ _ hasVersions_spelledReport).1]
    decide +kernel
  · obtain ⟨r, hrun, -⟩ :
        ∃ r, (Scan.run Scan.fallbackMeans Scan.fallbackWorld (Scan.fallbackScan ["8.1", "5.6"])).2 =
        .ok r ∧ r.filesScanned = 1 := exists_of_toOption_map (by decide +kernel)
    exact ⟨r, hrun, apply_ofReport.2 _ _ _ _ rfl hrun (by decide)⟩

/-- The note of a report counts what was taken out last: a second time, it is set back to zero. -/
theorem baseline_apply_twice :
    ((ofReport "b.json" "" (spelledReport "8.1")).apply (spelledReport "8.1")).baseline = some ⟨"b.json", "", 1⟩ ∧
    ((ofReport "b.json" "" (spelledReport "8.1")).apply
      ((ofReport "b.json" "" (spelledReport "8.1")).apply (spelledReport "8.1"))).baseline =
        some ⟨"b.json", "", 0⟩ := by
  decide +kernel

end Baseline

end PluginAudit
