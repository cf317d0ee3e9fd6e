import PluginAudit.Proofs.Combinations
import PluginAudit.Proofs.DetectorSelection
import PluginAudit.Proofs.EcosystemEvidence

/-!
Scans of a plugin through a link. Source files are listed without following the root. Main
statement: a scan of a link to a directory scans no file, and fails exactly if the scan of the
directory fails.
-/

open List

namespace PluginAudit

open PluginAudit.Path (rooted AreNames IsName isAbsolute)
open Node Selection Target

namespace FileTree

variable {tree : Node} {names place : List String} {entries : Table Node}

/-! ### Links -/

/-- A path whose last name is a link, and which leads to the directory that another path leads
to. -/
structure LinksTo (tree : Node) (link dir : String) : Prop where
  isLink :
    ∃ place target, resolveParent tree link = .ok place ∧ tree.find? place = some (.link target)
  sameDir : ∃ place entries, resolve tree link = .ok place ∧ resolve tree dir = .ok place ∧
    tree.find? place = some (.dir entries)

lemma LeadsTo.exists_resolveParent (h : LeadsTo tree names place entries) :
    ∃ place' n, resolveParent tree (rooted names) = .ok place' ∧ tree.find? place' = some n := by
  rcases eq_nil_or_concat names with rfl | ⟨start, name, rfl⟩
  · exact ⟨[],
      tree, by rw [resolveParent, steps, Path.components_rooted (by simp)]; rfl, find?_nil _⟩
  · rw [concat_eq_append] at h ⊢
    obtain ⟨place', n, hresolve, hfind⟩ := h.exists_start
    exact ⟨place' ++ [name], n, resolveParent_rooted_concat
      (fun n hn => h.isName n (mem_append_left _ hn)) (h.isName name (by simp)) hresolve, hfind⟩

end FileTree

namespace Ecosystem

open FileTree

variable {tree : Node} {names names' place : List String} {entries : Table Node}

def Origin.atRoot : Origin → Bool
  | .header | .composer => true
  | .path | .code => false

lemma searchedFiles_of_link {link : String} {target : String}
    (hplace : resolveParent tree link = .ok place) (hlink : tree.find? place = some (.link target))
    (limit : Nat) : searchedFiles tree link limit = [] := by
  rw [searchedFiles, hplace]
  simp [hlink, leaves]

/-- Through a link to a directory, its ecosystems are seen by headers and packages, not by its
files. -/
lemma detect_of_link (hlink : LinksTo tree (rooted names) (rooted names'))
    (hnames : AreNames names) (hnames' : AreNames names') (hwf : WellFormed tree)
    (hplain : Wildcard.IsPlain (rooted names)) (hplain' : Wildcard.IsPlain (rooted names'))
    (d : Detector) : (detect d tree (rooted names)).evidence =
      (detect d tree (rooted names')).evidence.filter fun e => e.origin.atRoot := by
  obtain ⟨place, entries, hresolve, hresolve', hdir⟩ := hlink.sameDir
  have h : LeadsTo tree names place entries := ⟨hnames, hresolve, hdir⟩
  have h' : LeadsTo tree names' place entries := ⟨hnames', hresolve', hdir⟩
  obtain ⟨above, target, hplace, hfind⟩ := hlink.isLink
  have hcode : codeFound d tree (rooted names) = [] := by
    rw [codeFound, filesFound, searchedFiles_of_link hplace hfind, ite_self, flatMap_nil]
  have hheaders : headerFound d tree (rooted names) = headerFound d tree (rooted names') := by
    rw [headerFound, headerFound, if_pos h.isDir_eq, if_pos h'.isDir_eq,
      rootContents_eq h h' hwf hplain hplain']
  have hpackages : packageFound d tree (rooted names) = packageFound d tree (rooted names') := by
    rw [packageFound, packageFound, if_pos h.isDir_eq, if_pos h'.isDir_eq, packageEvidence_eq h h']
  rw [filter_detect d tree _ Origin.atRoot rfl, evidence_detect, hcode, hheaders, hpackages]
  rfl

end Ecosystem

/-! ### Scans -/

def Target.place (here path : String) : String :=
  Path.absolute here (if path = "" then "." else path)

lemma Target.ofPath_of_dir {tree : Node} {here path : String} {names : List String}
    {entries : Table Node} (hresolve : FileTree.resolve tree (place here path) = .ok names)
    (hdir : tree.find? names = some (.dir entries)) :
    ofPath tree here path = .ok ⟨place here path, none⟩ := by
  have hstat : FileTree.stat tree (place here path) = .ok (.dir entries) := by
    rw [FileTree.stat, hresolve]
    simp only [hdir]
  rw [place] at hstat
  rw [ofPath, hstat, place]

lemma Detector.Registry.select_eq_error_iff {r r' : Registry}
    (h : r.map Detector.key = r'.map Detector.key) (ids : List String) (cause : Error) :
    r.select ids = .error cause ↔ r'.select ids = .error cause := by
  have hnone : ∀ key, (withKey? r key).isNone = (withKey? r' key).isNone := by
    intro key
    rw [Bool.eq_iff_iff, isNone_withKey?_iff, isNone_withKey?_iff, h]
  unfold select
  split_ifs
  · simp
  · simp only [hnone]
    split <;> simp

lemma Detector.select_builtins_eq_error_iff (env env' : Surroundings) (means means' : Means)
    (ids : List String) (cause : Error) : Registry.select (builtins env means) ids = .error cause ↔
      Registry.select (builtins env' means') ids = .error cause :=
  Registry.select_eq_error_iff
    ((keys_builtins env means).trans (keys_builtins env' means').symm) ids cause

namespace Scan

open FileTree

variable {m : Means} {tree : Node} {q : Request}
  {path root : String} {s : Settings} {paths : List String} {ecosystems : Tags}

lemma planOf_eq_error_iff (hlive : m.cancelled = false) {cause : Error} :
    planOf m tree root paths ecosystems s = .error cause ↔
      (∃ e, Suppression.compile s.suppress = .error e ∧ cause = .rule e) ∨
        ∃ rules e, Suppression.compile s.suppress = .ok rules ∧ cause = .detector e ∧
          Detector.Registry.select (registryOf m tree root paths ecosystems s) s.detectors =
            .error e := by
  cases hrules : Suppression.compile s.suppress with
  | error e => simp [planOf, hrules, Except.mapError, bind, Except.bind, eq_comm]
  | ok rules =>
    rw [planOf_of_compile hrules (by rw [hlive, Bool.false_and])]
    cases Detector.Registry.select (registryOf m tree root paths ecosystems s) s.detectors with
    | error e => simp [Except.mapError, Except.map, eq_comm]
    | ok detectors => simp [Except.mapError, Except.map]

lemma sources_of_link {link target : String} {place : List String}
    (hplace : resolveParent tree link = .ok place)
    (hlink : tree.find? place = some (.link target)) (filter : Filter) :
    sources tree link filter = .ok [] := by
  rw [sources, hplace]
  simp [hlink, leaves, sortedNames, Table.ofPairs, Table.names]

lemma exists_sources {names place : List String} {entries : Table Node}
    (h : LeadsTo tree names place entries) (filter : Filter) :
    ∃ paths, sources tree (rooted names) filter = .ok paths := by
  obtain ⟨place', n, hplace, hfind⟩ := h.exists_resolveParent
  rw [sources, hplace]
  simp [hfind]

lemma exists_ecosystemsOf (hlive : m.cancelled = false) (tree : Node) (root : String)
    (s : Settings) : ∃ ecosystems, ecosystemsOf m tree root s = .ok ecosystems := by
  rw [ecosystemsOf, hlive]
  cases s.disableDetection with
  | true => exact ⟨_, rfl⟩
  | false => exact ⟨_, rfl⟩

lemma planned_eq_error_iff {dir root' : String} {config : String}
    (htarget : ofPath tree m.here path = .ok ⟨root, none⟩)
    (htarget' : ofPath tree m.here dir = .ok ⟨root', none⟩)
    (hsources : ∀ filter, ∃ paths, sources tree root filter = .ok paths)
    (hsources' : ∀ filter, ∃ paths, sources tree root' filter = .ok paths) (cause : Error) :
    planned m tree ⟨path, config, s⟩ = .error cause ↔
      planned m tree ⟨dir, config, s⟩ = .error cause := by
  unfold planned survey sourcesOf
  rw [htarget, htarget']
  cases s.validate with
  | error e => exact Iff.rfl
  | ok u =>
    cases Filter.ofTexts m.glob? s.includes s.excludes with
    | error e => exact Iff.rfl
    | ok filter =>
      cases hcancelled : m.cancelled with
      | true => exact Iff.rfl
      | false =>
        obtain ⟨paths, hpaths⟩ := hsources filter
        obtain ⟨paths', hpaths'⟩ := hsources' filter
        obtain ⟨ecosystems, hecosystems⟩ := exists_ecosystemsOf hcancelled tree root s
        obtain ⟨ecosystems', hecosystems'⟩ := exists_ecosystemsOf hcancelled tree root' s
        simp only [Except.mapError, bind, Except.bind, hpaths, hpaths', hecosystems, hecosystems',
          Bool.false_eq_true, if_false, pure, Except.pure]
        rw [planOf_eq_error_iff hcancelled, planOf_eq_error_iff hcancelled]
        simp only [Detector.select_builtins_eq_error_iff (surroundingsOf m tree root paths
          ecosystems s) (surroundingsOf m tree root' paths' ecosystems' s) _ (meansOf m tree s)]

def cleanOutcome (target : Combination) : Outcome :=
  { php := target.php, wp := target.wp, passed := true, issues := some [] }

lemma outcomes_of_no_files {p : Plan} (hplan : planOf m tree root [] ecosystems s = .ok p) :
    (planReport m p s).outcomes = some ((combinations s).map cleanOutcome) := by
  obtain ⟨-, rules, detectors, -, hselect, rfl⟩ := planOf_eq_ok_iff.mp hplan
  rw [planReport, judgements_eq_map (Detector.subset_of_select hselect), reportOf, Report.finalize]
  simp only [Option.map_some, map_map]
  congr 1
  apply map_congr_left
  intro target _
  simp [filesOf, judge, Finding.sort, Suppression.kept, Finding.filterSeverities, Outcome.isClean,
    Listing.items, cleanOutcome]

lemma detected_of_ecosystemsOf (h : ecosystemsOf m tree root s = .ok ecosystems)
    (hdetect : s.disableDetection = false) :
    ecosystems = (Ecosystem.detect (ecosystemDetector s) tree root).ecosystems.union
      (Tags.ofNames s.forceEcosystems) := by
  rw [ecosystemsOf, hdetect] at h
  cases hcancelled : m.cancelled with
  | true => simp [hcancelled] at h
  | false =>
    rw [hcancelled] at h
    exact (Except.ok.inj h).symm

lemma exists_place (hhere : isAbsolute m.here) (path : String) :
    ∃ names, AreNames names ∧ place m.here path = rooted names :=
  Path.exists_absolute_eq_rooted hhere _

section

variable {w : World} {dir : String}
  (hlink : LinksTo w.tree (place m.here q.path) (place m.here dir))

include hlink in
lemma survey_of_link {t : Target} {paths : List String} {ecosystems : Tags}
    (h : survey m w.tree q = .ok (t, paths, ecosystems)) :
    paths = [] ∧ ecosystemsOf m w.tree (place m.here q.path) q.settings = .ok ecosystems := by
  obtain ⟨place, entries, hresolve, -, hdir⟩ := hlink.sameDir
  obtain ⟨above, target, habove, hfind⟩ := hlink.isLink
  obtain ⟨-, htarget, hpaths, hecosystems⟩ := survey_eq_ok h
  rw [ofPath_of_dir hresolve hdir] at htarget
  cases htarget
  refine ⟨?_, hecosystems⟩
  simp only [sourcesOf] at hpaths
  obtain ⟨filter, -, hpaths⟩ := exists_of_bind_eq_ok hpaths
  split at hpaths
  · cases hpaths
  · rw [sources_of_link habove hfind] at hpaths
    exact (Except.ok.inj hpaths).symm

include hlink in
lemma passed_of_link {r : Report} (hrun : (run m w q).2 = .ok r)
    (hfresh : ∀ note ∈ r.cache, note.hit = false) : r.filesScanned = 0 ∧ r.passed ∧
      r.outcomes = some ((combinations q.settings).map cleanOutcome) := by
  obtain ⟨t, paths, ecosystems, tree, p, warnings, note, hsurvey, hplan, rfl⟩ :=
    exists_planReport_of_run hrun hfresh
  obtain ⟨rfl, -⟩ := survey_of_link hlink hsurvey
  have houtcomes := outcomes_of_no_files hplan
  obtain ⟨-, rules, detectors, -, -, rfl⟩ := planOf_eq_ok_iff.mp hplan
  refine ⟨rfl, ?_, houtcomes⟩
  rw [Report.passed, houtcomes]
  simp [Listing.items, cleanOutcome, Outcome.isClean]

include hlink in
lemma ecosystems_of_link (hhere : isAbsolute m.here) (hwf : WellFormed w.tree) {r : Report}
    (hrun : (run m w q).2 = .ok r) (hfresh : ∀ note ∈ r.cache, note.hit = false)
    (hdetect : q.settings.disableDetection = false)
    (hplain : Wildcard.IsPlain (place m.here q.path))
    (hplain' : Wildcard.IsPlain (place m.here dir)) :
    r.ecosystems = some ((Ecosystem.tagsOf ((Ecosystem.detect (ecosystemDetector q.settings) w.tree
      (place m.here dir)).evidence.filter fun e => e.origin.atRoot)).union
        (Tags.ofNames q.settings.forceEcosystems)) := by
  obtain ⟨t, paths, ecosystems, tree, p, warnings, note, hsurvey, hplan, rfl⟩ :=
    exists_planReport_of_run hrun hfresh
  obtain ⟨-, hecosystems⟩ := survey_of_link hlink hsurvey
  obtain ⟨-, rules, detectors, -, -, rfl⟩ := planOf_eq_ok_iff.mp hplan
  have hfound := detected_of_ecosystemsOf hecosystems hdetect
  obtain ⟨names, hnames, hplace⟩ := exists_place hhere q.path
  obtain ⟨names', hnames', hplace'⟩ := exists_place hhere dir
  rw [hplace] at hfound hplain hlink
  rw [hplace'] at hplain' hlink ⊢
  rw [Ecosystem.justified_detect,
    Ecosystem.detect_of_link hlink hnames hnames' hwf hplain hplain'] at hfound
  exact congrArg some hfound

include hlink in
lemma run_eq_error_iff_of_link (hhere : isAbsolute m.here)
    (hcache : q.settings.cache.enabled = false) (cause : Error) :
    (run m w q).2 = .error cause ↔ (run m w { q with path := dir }).2 = .error cause := by
  obtain ⟨place, entries, hresolve, hresolve', hdir⟩ := hlink.sameDir
  obtain ⟨above, target, habove, hfind⟩ := hlink.isLink
  obtain ⟨names, hnames, hplace⟩ := exists_place hhere dir
  have hdirs : LeadsTo w.tree names place entries := ⟨hnames, hplace ▸ hresolve', hdir⟩
  have hplanned :
      planned m w.tree q = .error cause ↔ planned m w.tree { q with path := dir } = .error cause :=
    planned_eq_error_iff (ofPath_of_dir hresolve hdir) (ofPath_of_dir hresolve' hdir)
      (fun filter => ⟨[], sources_of_link habove hfind filter⟩)
      (fun filter => hplace ▸ exists_sources hdirs filter) cause
  have hrun : ∀ q' : Request, q'.settings.cache.enabled = false →
      ((run m w q').2 = .error cause ↔ planned m w.tree q' = .error cause) := by
    intro q' hcache
    rw [run_uncached hcache]
    cases planned m w.tree q' with
    | error e => simp [Except.map]
    | ok p => simp [Except.map]
  rw [hrun q hcache, hrun { q with path := dir } hcache, hplanned]

end

/-- A scan of a link to a directory. It scans nothing and passes; it knows the ecosystems that
headers and packages of the directory speak for; and where no results are kept, it fails as the scan
of the directory does. -/
theorem run_through_link (m : Means) (w : World) (q : Request) (dir : String)
    (hhere : isAbsolute m.here = true) (hwf : WellFormed w.tree)
    (hlink : LinksTo w.tree (Target.place m.here q.path) (Target.place m.here dir)) :
    (∀ r, (run m w q).2 = .ok r → (∀ note ∈ r.cache, note.hit = false) →
      r.filesScanned = 0 ∧ r.passed = true ∧
      r.outcomes = some ((combinations q.settings).map cleanOutcome) ∧
      (q.settings.disableDetection = false → Wildcard.IsPlain (Target.place m.here q.path) →
        Wildcard.IsPlain (Target.place m.here dir) →
        r.ecosystems =
          some ((Ecosystem.tagsOf ((Ecosystem.detect (ecosystemDetector q.settings) w.tree
          (Target.place m.here dir)).evidence.filter fun e => e.origin.atRoot)).union
            (Tags.ofNames q.settings.forceEcosystems)))) ∧
    (q.settings.cache.enabled = false → ∀ cause,
      (run m w q).2 = .error cause ↔ (run m w { q with path := dir }).2 = .error cause) := by
  refine ⟨fun r hrun hfresh => ?_, run_eq_error_iff_of_link hlink hhere⟩
  obtain ⟨hfiles, hpassed, houtcomes⟩ := passed_of_link hlink hrun hfresh
  exact ⟨hfiles, hpassed, houtcomes, ecosystems_of_link hlink hhere hwf hrun hfresh⟩

/-! ### A plugin and a link to it -/

def mirroredWorld : World :=
  { tree := .dir [("link", .link "plugin"), ("plugin", .dir [("a.php", fallbackFile)])] }

def mirroredScan (path : String) : Request :=
  { path, settings := { (fallbackScan ["5.6"]).settings with disableDetection := false } }

lemma wellFormed_mirroredWorld : WellFormed mirroredWorld.tree := by
  simp only [mirroredWorld, fallbackFile, wellFormed_dir_iff, wellFormed_file, wellFormed_link,
    forall_mem_cons, not_mem_nil, false_imp_iff, implies_true, and_true]
  decide

lemma linksTo_plugin : LinksTo mirroredWorld.tree "/link" "/plugin" :=
  ⟨⟨["link"], "plugin", by decide +kernel, rfl⟩,
    ["plugin"], [("a.php", fallbackFile)], by decide +kernel, by decide +kernel, rfl⟩

theorem run_through_link_mirrored :
    WellFormed mirroredWorld.tree ∧ LinksTo mirroredWorld.tree "/link" "/plugin" ∧
    (∃ r, (run fallbackMeans mirroredWorld (mirroredScan "/link")).2 = .ok r ∧ r.cache = none ∧
      r.filesScanned = 0 ∧ r.passed = true ∧
        r.outcomes.items.map (fun o => (o.php, o.wp)) = [("5.6", "6.5")] ∧
      r.ecosystems = some ((Ecosystem.tagsOf
        ((Ecosystem.detect (ecosystemDetector (mirroredScan "/link").settings)
        mirroredWorld.tree "/plugin").evidence.filter fun e => e.origin.atRoot)).union [])) ∧
    ∀ cause, (run fallbackMeans mirroredWorld (mirroredScan "/link")).2 = .error cause ↔
      (run fallbackMeans mirroredWorld (mirroredScan "/plugin")).2 = .error cause := by
  have hplace : place fallbackMeans.here (mirroredScan "/link").path = "/link" ∧
      place fallbackMeans.here "/plugin" = "/plugin" := by decide
  have hplain : Wildcard.IsPlain "/link" ∧ Wildcard.IsPlain "/plugin" := by
    simp [Wildcard.IsPlain, Wildcard.isSpecial]
  have hforced : Tags.ofNames (mirroredScan "/link").settings.forceEcosystems = [] := by decide
  obtain ⟨r, hrun, hcache⟩ :
      ∃ r, (run fallbackMeans mirroredWorld (mirroredScan "/link")).2 = .ok r ∧
      r.cache.isNone = true := exists_of_toOption_map (by decide +kernel)
  rw [Option.isNone_iff_eq_none] at hcache
  obtain ⟨hscan, hfails⟩ :=
    run_through_link fallbackMeans mirroredWorld (mirroredScan "/link") "/plugin"
    (by decide) wellFormed_mirroredWorld (by rw [hplace.1, hplace.2]; exact linksTo_plugin)
  obtain ⟨hfiles, hpassed, houtcomes, hecosystems⟩ := hscan r hrun (by simp [hcache])
  refine ⟨wellFormed_mirroredWorld, linksTo_plugin, ⟨r, hrun, hcache, hfiles, hpassed, ?_, ?_⟩,
    hfails rfl⟩
  · rw [houtcomes]
    decide
  · rw [hplace.1, hplace.2, hforced] at hecosystems
    exact hecosystems rfl hplain.1 hplain.2

/-- The plugin fails, and the link to it passes. -/
theorem link_passes_unscanned :
    ∃ r r', (run fallbackMeans mirroredWorld (mirroredScan "/link")).2 = .ok r ∧
      (run fallbackMeans mirroredWorld (mirroredScan "/plugin")).2 = .ok r' ∧
      (r.filesScanned = 0 ∧ r.passed = true) ∧ r'.filesScanned = 1 ∧ r'.passed = false := by
  obtain ⟨r, hrun, hr⟩ : ∃ r, (run fallbackMeans mirroredWorld (mirroredScan "/link")).2 = .ok r ∧
      (r.filesScanned, r.passed) = (0, true) := exists_of_toOption_map (by decide +kernel)
  obtain ⟨r', hrun', hr'⟩ :
      ∃ r', (run fallbackMeans mirroredWorld (mirroredScan "/plugin")).2 = .ok r' ∧
      (r'.filesScanned, r'.passed) = (1, false) := exists_of_toOption_map (by decide +kernel)
  exact ⟨r, r', hrun, hrun', Prod.mk.inj hr, Prod.mk.inj hr'⟩

end Scan

end PluginAudit
