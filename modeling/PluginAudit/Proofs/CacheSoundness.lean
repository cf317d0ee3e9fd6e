import PluginAudit.Proofs.CacheHistory
import PluginAudit.Proofs.Combinations

/-!
Results that are taken from the directory that scans share. Main statement: such a result is the one
that the scan would find by itself.
-/

open List

namespace PluginAudit.Scan

open Cache (extraDigest fileDigest record pathOf prepare)
open PluginAudit.Path (rooted clean IsName join)
open FileTree Node WidgetRules Decimal PluginAudit.Path Digest

variable {place : List String} {visits : List Visit} {u v : Visit} {tree tree' : Node} {t : Target}
  {paths : List String} {tags : Tags} {path : String} {here digest name : String}

/-! ### What two scans agree on -/

lemma widgetLoad_congr {path' : String}
    (h : (read tree path).toOption = (read tree' path').toOption) :
    load tree path = load tree' path' := by
  unfold load
  cases hread : read tree path with
  | error e =>
    cases hread' : read tree' path' with
    | error e' => rfl
    | ok content => simp [hread, hread', Except.toOption] at h
  | ok content =>
    cases hread' : read tree' path' with
    | error e' => simp [hread, hread', Except.toOption] at h
    | ok content' =>
      rw [hread, hread'] at h
      cases h
      rfl

lemma missing_ne_sha256Hex (bytes : Bytes) : "missing" ≠ sha256Hex bytes := by
  intro h
  have hmem : 'm' ∈ (sha256Hex bytes).toList := by
    rw [← h]
    decide
  obtain ⟨n, hn, heq⟩ := exists_hexDigit_of_mem_sha256Hex hmem
  exact absurd heq ((by decide : ∀ n < 16, 'm' ≠ Text.hexDigit n) n hn)

lemma extraDigest_cases (h : extraDigest tree here path = .ok digest) :
    (∃ e, readBeside tree here path = .error e) ∧ digest = "missing" ∨
      ∃ content, readBeside tree here path = .ok content ∧ digest = sha256Hex content := by
  unfold extraDigest fileDigest at h
  cases hread : readBeside tree here path with
  | error e =>
    rw [hread] at h
    dsimp only [Except.map] at h
    split at h
    · cases h
      exact .inl ⟨⟨e, rfl⟩, rfl⟩
    · cases h
  | ok content =>
    rw [hread] at h
    cases h
    exact .inr ⟨content, rfl, rfl⟩

lemma toOption_eq_of_extraDigest {here' : String} (h : extraDigest tree here path = .ok digest)
    (h' : extraDigest tree' here' path = .ok digest)
    (hinj : ∀ content content', readBeside tree here path = .ok content → readBeside tree' here'
      path = .ok content' → sha256Hex content = sha256Hex content' → content = content') :
    (readBeside tree here path).toOption = (readBeside tree' here' path).toOption := by
  rcases extraDigest_cases h with ⟨⟨e, he⟩, rfl⟩ | ⟨content, hcontent, rfl⟩
  · rcases extraDigest_cases h' with ⟨⟨e', he'⟩, -⟩ | ⟨content', -, hdigest⟩
    · rw [he, he']
      rfl
    · exact absurd hdigest (missing_ne_sha256Hex content')
  · rcases extraDigest_cases h' with ⟨-, hdigest⟩ | ⟨content', hcontent', hdigest⟩
    · exact absurd hdigest.symm (missing_ne_sha256Hex content)
    · rw [hcontent, hcontent', hinj content content' hcontent hcontent' hdigest]

lemma NoCollision.exists_content {i : u.Input} {j : v.Input} (hinj : NoCollision visits)
    (hmem : u ∈ visits) (hmem' : v ∈ visits) (hpaths : i.paths = j.paths) (hpath : path ∈ i.paths)
    (hdigest : fileDigest (u.prepared i.target) u.means.here path =
      fileDigest (v.prepared j.target) v.means.here path) :
    ∃ content, readBeside (u.prepared i.target) u.means.here path = .ok content ∧
      readBeside (v.prepared j.target) v.means.here path = .ok content := by
  obtain ⟨content, hread⟩ := (inputRecords_eq_ok i.reads).2.1 path hpath
  obtain ⟨content', hread'⟩ := (inputRecords_eq_ok j.reads).2.1 path (hpaths ▸ hpath)
  rw [fileDigest, fileDigest, hread, hread'] at hdigest
  obtain rfl : content = content' := hinj.eq hmem hmem' (.source i hpath hread)
    (.source j (hpaths ▸ hpath) hread') (Except.ok.inj hdigest)
  exact ⟨content, hread, hread'⟩

namespace SameDigests

variable {i : u.Input} {j : v.Input}

lemma alike (h : SameDigests i j) : u.request.settings.Alike v.request.settings := by
  have hsame := Settings.alike_of_toJson_eq (Cache.eq_of_keyJson_eq h.key).2
  exact ⟨hsame.phpVersions, hsame.wpVersions, hsame.severities, hsame.mode, hsame.exclusionConfig,
    hsame.forceEcosystems, hsame.ignoreDependencies, hsame.detectors, hsame.suppress⟩

/-- Scans with the same digests have the same root and files, with the same contents. -/
lemma exists_root (h : SameDigests i j) (hu : u.Settled) (hv : v.Settled) (hreg : u.Regular)
    (hreg' : v.Regular) (hcov : u.Covered) (hcov' : v.Covered) :
    ∃ root, i.target.root = rooted root ∧ j.target.root = rooted root ∧ i.paths = j.paths ∧
      i.ecosystems = j.ecosystems ∧
      (∀ path ∈ i.paths, fileDigest (u.prepared i.target) u.means.here path =
        fileDigest (v.prepared j.target) v.means.here path) ∧
      (Text.isBlank u.request.settings.exclusionConfig = false →
        extraDigest (u.prepared i.target) u.means.here u.request.settings.exclusionConfig =
          extraDigest (v.prepared j.target) v.means.here u.request.settings.exclusionConfig) := by
  obtain ⟨root, hroot, hscanned, -⟩ :=
    exists_scanned_of_survey i.surveys hreg.here hu.wellFormed hu.isDir
  obtain ⟨root', hroot', hscanned', -⟩ :=
    exists_scanned_of_survey j.surveys hreg'.here hv.wellFormed hv.isDir
  obtain rfl : root = root' := by
    have hclean := (Cache.eq_of_keyJson_eq h.key).1
    rw [hroot, hroot', clean_rooted hscanned.isName, clean_rooted hscanned'.isName] at hclean
    exact rooted_inj hscanned.isName hscanned'.isName hclean
  have hexclusions := h.alike.exclusionConfig
  have hreads := i.reads
  have hreads' := j.reads
  rw [Visit.Records, hroot] at hreads
  rw [Visit.Records, hroot', ← hexclusions] at hreads'
  have htags := (survey_eq_ok i.surveys).2.2.2
  have htags' := (survey_eq_ok j.surveys).2.2.2
  rw [hroot] at htags
  rw [hroot'] at htags'
  have hframe : frameOf (rooted root) u.request.settings.exclusionConfig v.request.settings =
      frameOf (rooted root) u.request.settings.exclusionConfig u.request.settings := by
    rw [frameOf, frameOf, h.alike.forceEcosystems]
  have hfits := fits_of_mem_inputEntries hscanned htags hreg.config
    (by simpa only [hroot] using hcov.labels i) hreads
  have hfits' := fits_of_mem_inputEntries hscanned' htags' hreg'.config
    (by simpa only [hroot'] using hcov'.labels j) hreads'
  rw [hframe] at hfits'
  obtain ⟨hpaths, htags, hfiles, hextra⟩ :=
    agree_of_recordText_eq hscanned hscanned' hreads hreads' hfits hfits' h.input
  rw [hreg.exclusions] at hextra
  exact ⟨root, hroot, hroot', hpaths, htags, hfiles, hextra⟩

lemma widgetsOf_eq (h : SameDigests i j) (hinj : NoCollision visits) (hmem : u ∈ visits)
    (hmem' : v ∈ visits) (hreg : u.Regular) (hcov : u.Covered) (hcov' : v.Covered)
    (hdigest : Text.isBlank u.request.settings.exclusionConfig = false →
      extraDigest (u.prepared i.target) u.means.here u.request.settings.exclusionConfig =
        extraDigest (v.prepared j.target) v.means.here u.request.settings.exclusionConfig) :
    widgetsOf u.means (u.prepared i.target) u.request.settings =
      widgetsOf v.means (v.prepared j.target) v.request.settings := by
  have hexclusions := h.alike.exclusionConfig
  unfold widgetsOf
  rw [← hexclusions, ← h.alike.mode]
  cases hblank : Text.isBlank u.request.settings.exclusionConfig with
  | true => rfl
  | false =>
    obtain ⟨digest, hextra⟩ :=
      (inputRecords_eq_ok i.reads).2.2 ("exclusions", _) (by simp [labelledPaths]) hblank
    rw [hreg.exclusions] at hextra
    have hsame := toOption_eq_of_extraDigest hextra ((hdigest hblank).symm.trans hextra)
      fun content content' hread hread' =>
        hinj.eq hmem hmem' (.exclusions i hblank hread)
          (.exclusions j (hexclusions ▸ hblank) (hexclusions ▸ hread'))
    have hread' := hcov'.exclusions j (hexclusions ▸ hblank)
    rw [← hexclusions] at hread'
    rw [hcov.exclusions i hblank, hread'] at hsame
    have hdistinct' := hcov'.distinct j (hexclusions ▸ hblank)
    rw [← hexclusions] at hdistinct'
    rw [load_order (hcov.distinct i hblank), load_order hdistinct', widgetLoad_congr hsame]

/-- Scans with the same digests agree on all that a plan is made of, if the runtime is the same. -/
lemma agree (h : SameDigests i j) (hinj : NoCollision visits) (hmem : u ∈ visits)
    (hmem' : v ∈ visits)
    (hu : u.Settled) (hv : v.Settled) (hreg : u.Regular) (hreg' : v.Regular) (hcov : u.Covered)
    (hcov' : v.Covered) (hruntime : SameRuntime u v i.target j.target) :
    i.target.root = j.target.root ∧ i.paths = j.paths ∧ i.ecosystems = j.ecosystems ∧
      Agree i.target.root i.paths u.means v.means (u.prepared i.target) (v.prepared j.target)
        u.request.settings v.request.settings := by
  obtain ⟨root, hroot, hroot', hpaths, htags, hfiles, hextra⟩ :=
    h.exists_root hu hv hreg hreg' hcov hcov'
  have hcontent := fun path hpath =>
    hinj.exists_content hmem hmem' hpaths hpath (hfiles path hpath)
  refine ⟨hroot.trans hroot'.symm, hpaths, htags, h.alike, fun path hpath => ?_, h.widgetsOf_eq hinj
    hmem hmem' hreg hcov hcov' hextra, hruntime.inventory, hruntime.warnings, ?_⟩
  · obtain ⟨-, -, -, hunder⟩ := exists_scanned_of_survey i.surveys hreg.here hu.wellFormed hu.isDir
    obtain ⟨-, -, -, hunder'⟩ :=
      exists_scanned_of_survey j.surveys hreg'.here hv.wellFormed hv.isDir
    have hne : i.target.root ≠ "" := by
      rw [hroot]
      exact ne_empty_of_isAbsolute (isAbsolute_rooted root)
    obtain ⟨content, hread, hread'⟩ := hcontent path hpath
    have hload := hunder _ (hu.grows _ _ _ i.surveys) u.means.here path hpath
    have hload' := hunder' _ (hv.grows _ _ _ j.surveys) v.means.here path (hpaths ▸ hpath)
    rw [hroot', ← hroot] at hload'
    rw [load?_eq_map hne, load?_eq_map hne, hload, hload', hread, hread']
  · intro path hpath
    obtain ⟨content, hread, hread'⟩ := hcontent path hpath
    exact hruntime.linter path content hread hread'

end SameDigests

/-! ### Results that are taken from the directory -/

lemma survey_uncached {m : Means} {q : Request} (h : survey m tree q = .ok (t, paths, tags)) :
    survey m tree q.uncached = .ok (t, paths, tags) := by
  obtain ⟨hvalid, htarget, hpaths, htags⟩ := survey_eq_ok h
  have hvalid' : q.uncached.settings.validate = .ok () := by
    rw [Settings.validate_eq_ok_iff] at hvalid ⊢
    obtain ⟨hphp, hwp, hsound⟩ := hvalid
    exact ⟨hphp, hwp, hsound.severities, hsound.mode, hsound.workers, hsound.maxEcosystemFiles,
      hsound.binary, hsound.timeout, hsound.rate, rfl⟩
  have hpaths' : sourcesOf m tree t q.uncached.settings = .ok paths := hpaths
  have htags' : ecosystemsOf m tree t.root q.uncached.settings = .ok tags := htags
  rw [survey, hvalid', show q.uncached.path = q.path from rfl, htarget]
  simp only [Except.mapError, bind, Except.bind, hpaths', htags']
  rfl

/-- A report that is taken from the directory is the one that the scan finds without it, in whatever
order it takes the rules for widgets. -/
theorem hit_sound {r : Report} (hhistory : History place visits v.world.tree)
    (hshares : v.Shares place)
    (hregular : ∀ u ∈ visits ++ [v], u.Regular) (hcovered : ∀ u ∈ visits ++ [v], u.Covered)
    (hinj : NoCollision (visits ++ [v])) (hruntime : ∀ u ∈ visits, ∀ (i : u.Input) (j : v.Input),
      SameDigests i j → SameRuntime u v i.target j.target)
    (hlive : v.means.cancelled = false) (hhits : v.Hits r) (order : Order) :
    (run (v.means.inOrder order) v.world v.request.uncached).2 = .ok { r with cache := none } := by
  have hv : v ∈ visits ++ [v] := mem_concat_self
  have hconsistent := hhistory.consistent fun u hu => (hregular u (mem_append_left _ hu)).here
  have hhere := (hregular v hv).here
  obtain ⟨u, hu, i, j, found, hfinds, hsame, hprepared, hreport⟩ :=
    hconsistent.exists_finds_of_hits hshares hhere hinj hhits
  have hmem : u ∈ visits ++ [v] := mem_append_left _ hu
  obtain ⟨hroot, hpaths, htags, hagree⟩ := hsame.agree hinj hmem hv (hconsistent.settled u hu)
    (hconsistent.settles hshares hhere) (hregular u hmem) (hregular v hv) (hcovered u hmem)
    (hcovered v hv) (hruntime u hu i j hsame)
  obtain ⟨p, hplan, rfl⟩ := hfinds.plan
  have hagree' : Agree i.target.root i.paths u.means v.means (u.prepared i.target) v.world.tree
      u.request.settings v.request.uncached.settings := by
    rw [hprepared] at hagree
    exact ⟨⟨hagree.settings.phpVersions, hagree.settings.wpVersions, hagree.settings.severities,
      hagree.settings.mode, hagree.settings.exclusionConfig, hagree.settings.forceEcosystems,
      hagree.settings.ignoreDependencies, hagree.settings.detectors, hagree.settings.suppress⟩,
      hagree.file, hagree.widgets, hagree.toolchain⟩
  obtain ⟨p', hplan', hreport'⟩ := hagree'.exists_planReport hlive hplan
  have hsurvey := survey_uncached j.surveys
  have hdistinct : DistinctRules v.means v.world.tree v.request.uncached.settings := by
    rw [← hprepared]
    exact (hcovered v hv).distinct j
  rw [run_uncached rfl, planned_order hdistinct, planned, hsurvey]
  dsimp only [bind, Except.bind]
  rw [← hroot, ← hpaths, ← htags, hplan', hreport]
  exact congrArg Except.ok hreport'

/-! ### A scan that is done again -/

def keptOverlay : Bytes := bytesOf "\x7b\"reporting_mode\": \"all_errors\"\x7d"

def keptTree : Node :=
  .dir
    [("a.php", fallbackFile), ("c", .dir []), ("composer.json", .file (bytesOf "\x7b\x7d") .plain),
    ("overlay.json", .file keptOverlay .plain)]

def keptScan (exclusionConfig : String) (cache : CacheSettings := ⟨true, "/c"⟩) : Request :=
  let q := fallbackScan ["5.6", "8.1"] cache
  { q with settings := { q.settings with exclusionConfig } }

/-- A tree that has the files and a directory for results. -/
structure HasKept (tree : Node) : Prop where
  file : tree.find? ["a.php"] = some fallbackFile
  manifest : tree.find? ["composer.json"] = some (.file (bytesOf "\x7b\x7d") .plain)
  overlay : tree.find? ["overlay.json"] = some (.file keptOverlay .plain)
  store : ∃ entries, tree.find? ["c"] = some (.dir entries)

/-- A path of the rules for widgets, once it is made clean. -/
structure IsOverlayPath (path : String) : Prop where
  given : Text.isBlank path = false
  trimmed : Text.trim path = path
  isAbsolute : Path.isAbsolute path = true
  clean : clean path = "/overlay.json"

lemma HasKept.of_extends (h : HasKept tree) (hext : Extends tree tree') : HasKept tree' := by
  obtain ⟨entries, hstore⟩ := h.store
  exact ⟨hext.leaf _ _ h.file rfl, hext.leaf _ _ h.manifest rfl, hext.leaf _ _ h.overlay rfl,
    hext.dir _ _ hstore⟩

def keptRecords : List String :=
  [record [(relative? "/" "/a.php").getD "/a.php", sha256Hex (bytesOf "<?php\n$a = $b ?? 1;\n")],
    record ["exclusions", "/overlay.json", sha256Hex keptOverlay],
    record ["composer", "/composer.json", sha256Hex (bytesOf "\x7b\x7d")],
    record ["ecosystems", ""]]

def keptPlan (path : String) (tree : Node) : Plan :=
  { fallbackPlan with widgets := load tree path }

lemma leadsTo_top {n : Node} (hfind : tree.find? [name] = some n) :
    ∃ entries, LeadsTo tree [] [] entries ∧ Table.get? name entries = some n := by
  obtain ⟨entries, rfl⟩ := exists_dir_of_find?_ne_nil hfind (by simp)
  refine ⟨entries, ⟨by simp, by rw [resolve_rooted (by simp), follow_nil], find?_nil _⟩, ?_⟩
  rw [← hfind, find?_cons_dir]
  cases Table.get? name entries <;> simp

lemma readBeside_top {target : String} {content : Bytes} (hname : IsName name)
    (hfind : tree.find? [name] = some (.file content .plain))
    (htarget : absolute "/" target = rooted [name]) : readBeside tree "/" target = .ok content := by
  obtain ⟨entries, hleads, hget⟩ := leadsTo_top hfind
  exact hleads.readBeside_file hget hname htarget

namespace HasKept

variable {tree : Node} (h : HasKept tree) {path : String}

include h

lemma readBeside_file : readBeside tree "/" "/a.php" = .ok (bytesOf "<?php\n$a = $b ?? 1;\n") :=
  readBeside_top (by decide) h.file (by decide)

lemma readBeside_overlay (hpath : IsOverlayPath path) :
    readBeside tree "/" path = .ok keptOverlay := by
  refine readBeside_top (by decide) h.overlay ?_
  rw [absolute, if_pos hpath.isAbsolute, hpath.clean]
  decide

lemma inputRecords (hpath : IsOverlayPath path) :
    Cache.inputRecords tree "/" "/" ["/a.php"] "" path [] = .ok keptRecords := by
  have hmanifest : readBeside tree "/" "/composer.json" = .ok (bytesOf "\x7b\x7d") :=
    readBeside_top (by decide) h.manifest (by decide)
  have hjoin : Text.trim (join ["/", "composer.json"]) = "/composer.json" ∧
      clean "/composer.json" = "/composer.json" ∧
      Text.isBlank (join ["/", "composer.json"]) = false ∧ Text.isBlank "" := by
    decide
  simp [Cache.inputRecords, Cache.fileRecord, fileDigest, h.readBeside_file, Cache.extraRecord,
    extraDigest, hjoin, hpath.given, hpath.trimmed, hpath.clean, h.readBeside_overlay hpath,
    hmanifest, Except.map, bind, Except.bind, pure, Except.pure, keptRecords]

lemma resolve_store (path : String) :
    resolve tree (clean (pathOf (keptScan path).settings.cache "/")) = .ok ["c"] := by
  obtain ⟨entries, hstore⟩ := h.store
  have hplace : clean (pathOf ⟨true, "/c"⟩ "/") = rooted ["c"] := by decide
  have hname : ∀ n ∈ ["c"], IsName n := by decide
  rw [show (keptScan path).settings.cache = ⟨true, "/c"⟩ from rfl, hplace, resolve_rooted hname,
    follow_names (by simp) hstore (by simp), nil_append]

lemma planOf_eq (hpath : IsOverlayPath path) (cache : CacheSettings) :
    planOf fallbackMeans tree "/" ["/a.php"] [] (keptScan path cache).settings =
      .ok (keptPlan path tree) := by
  have hwidgets : widgetsOf fallbackMeans tree (keptScan path cache).settings = load tree path := by
    simp [widgetsOf, keptScan, fallbackScan, hpath.given, ne_empty_of_isAbsolute hpath.isAbsolute,
      seenFrom, hpath.isAbsolute, fallbackMeans]
  rw [planOf_eq_ok_iff]
  refine ⟨rfl, [], _, rfl, select_phpCompat _ _, ?_⟩
  rw [filesOf_fallback h.file, hwidgets]
  rfl

end HasKept

def keptVisit (path : String) (now : Moment) (runId : String) (tree : Node) : Visit :=
  ⟨{ fallbackMeans with now, runId }, { tree }, keptScan path⟩

section

variable {path : String} (now : Moment) (runId : String) {tree : Node} (h : HasKept tree)

include h

lemma surveys_keptVisit :
    (keptVisit path now runId tree).Surveys ⟨"/", some "/a.php"⟩ ["/a.php"] [] := by
  have hvalid : (fallbackScan ["5.6", "8.1"] ⟨true, "/c"⟩).settings.validate = .ok () := by decide
  exact survey_fallbackScan h.file hvalid

variable {now runId}

lemma eq_of_surveys_keptVisit (hsurvey : (keptVisit path now runId tree).Surveys t paths tags) :
    t = ⟨"/", some "/a.php"⟩ ∧ paths = ["/a.php"] ∧ tags = [] := by
  have heq := (surveys_keptVisit now runId h).symm.trans hsurvey
  simp only [Except.ok.injEq, Prod.mk.injEq] at heq
  exact ⟨heq.1.symm, heq.2.1.symm, heq.2.2.symm⟩

lemma shares_keptVisit : (keptVisit path now runId tree).Shares ["c"] := by
  refine ⟨rfl, fun t paths tags hsurvey => ?_⟩
  obtain ⟨rfl, -, -⟩ := eq_of_surveys_keptVisit h hsurvey
  exact h.resolve_store path

variable (hpath : IsOverlayPath path)

include hpath in
omit h in
lemma regular_keptVisit : (keptVisit path now runId tree).Regular :=
  ⟨show isAbsolute "/" = true by decide, hpath.trimmed, show '\x00' ∉ "".toList by decide⟩

variable (hsettled : (keptVisit path now runId tree).Settled)

include hsettled in
lemma hasKept_prepared : HasKept ((keptVisit path now runId tree).prepared ⟨"/", some "/a.php"⟩) :=
  h.of_extends (hsettled.grows _ _ _ (surveys_keptVisit now runId h))

def keptInput : (keptVisit path now runId tree).Input where
  target := ⟨"/", some "/a.php"⟩
  paths := ["/a.php"]
  ecosystems := []
  records := keptRecords
  surveys := surveys_keptVisit now runId h
  reads := (hasKept_prepared h hsettled).inputRecords hpath

lemma eq_keptInput (i : (keptVisit path now runId tree).Input) :
    i = keptInput h hpath hsettled := by
  obtain ⟨target, paths, tags, records, hsurveys, hreads⟩ := i
  obtain ⟨rfl, rfl, rfl⟩ := eq_of_surveys_keptVisit h hsurveys
  obtain rfl : keptRecords = records :=
    Except.ok.inj (((hasKept_prepared h hsettled).inputRecords hpath).symm.trans hreads)
  rfl

include hpath hsettled in
lemma planOf_keptVisit : planOf (keptVisit path now runId tree).means
    ((keptVisit path now runId tree).prepared ⟨"/", some "/a.php"⟩) "/" ["/a.php"] []
      (keptScan path).settings =
      .ok (keptPlan path ((keptVisit path now runId tree).prepared ⟨"/", some "/a.php"⟩)) :=
  (hasKept_prepared h hsettled).planOf_eq hpath _

def keptBytes (path : String) (p : Plan) : Digested → Bytes
  | .key => bytesOf (Cache.keyJson "/" (some "/a.php") (keptScan path).settings).compact
  | .records => bytesOf (Cache.recordText keptRecords)
  | .source => bytesOf "<?php\n$a = $b ?? 1;\n"
  | .exclusions => keptOverlay
  | .result => bytesOf (Cache.objectText (planReport fallbackMeans p (keptScan path).settings))

include h hpath hsettled in
lemma eq_keptBytes {kind : Digested} (hkind : kind ≠ .result) {bytes : Bytes}
    (hdigests : (keptVisit path now runId tree).Digests kind bytes) (p : Plan) :
    bytes = keptBytes path p kind := by
  cases hdigests with
  | key i =>
    obtain rfl := eq_keptInput h hpath hsettled i
    rfl
  | records i =>
    obtain rfl := eq_keptInput h hpath hsettled i
    rfl
  | source i hmem hread =>
    obtain rfl := eq_keptInput h hpath hsettled i
    obtain rfl := mem_singleton.mp hmem
    exact Except.ok.inj (hread.symm.trans (hasKept_prepared h hsettled).readBeside_file)
  | exclusions i given hread =>
    obtain rfl := eq_keptInput h hpath hsettled i
    exact Except.ok.inj (hread.symm.trans ((hasKept_prepared h hsettled).readBeside_overlay hpath))
  | result hfinds => exact absurd rfl hkind

end

lemma hasKept_keptTree : HasKept keptTree := by
  refine ⟨?_, ?_, ?_, [], ?_⟩ <;> simp [keptTree, Table.get?]

lemma wellFormed_keptTree : WellFormed keptTree := by
  simp only [keptTree, fallbackFile, wellFormed_dir_iff, wellFormed_file, forall_mem_cons,
    not_mem_nil, false_imp_iff, implies_true, and_true]
  decide

lemma planReport_widgets (m : Means) (p : Plan) (w : WidgetRules) (s : Settings) : planReport m
      { p with widgets := w } s = { planReport m p s with reportingMode := w.mode.word } :=
  rfl

lemma legible_keptReport (path : String) (tree : Node) :
    (planReport fallbackMeans (keptPlan path tree) (keptScan path).settings).Legible := by
  let r := planReport fallbackMeans fallbackPlan (fallbackScan ["5.6", "8.1"] ⟨true, "/c"⟩).settings
  have hplain : r.Plain := plain_planReport (planOf_fallbackScan find?_fallbackWorld)
  have hcounts : ∀ o ∈ r.outcomes.items, fitsInt o.suppressed ∧ fitsInt o.baselined ∧
      ∀ i ∈ o.issues.items, fitsInt i.finding.line := by decide +kernel
  have hsummary : r.summary.Legible := by constructor <;> decide +kernel
  have hlegible : r.Legible := by
    refine ⟨by unfold Moment.Legible; decide +kernel, show fitsInt 1 = true by decide,
      fun o ho => ?_, hsummary, by simp [hplain.baseline]⟩
    obtain ⟨hsuppressed, hbaselined, hline⟩ := hcounts o ho
    exact ⟨fun i hi => ⟨hline i hi, (hplain.finding o ho i hi).legible⟩, hsuppressed, hbaselined⟩
  rw [keptPlan, planReport_widgets]
  exact ⟨hlegible.generatedAt, hlegible.filesScanned, hlegible.outcomes, hlegible.summary,
    hlegible.baseline⟩

abbrev firstVisit (path : String) : Visit := keptVisit path ⟨0, 0, 0⟩ "" keptTree

@[irreducible] def scannedTree (path : String) : Node :=
  (run (firstVisit path).means (firstVisit path).world (firstVisit path).request).1.tree

@[irreducible] def laterTree (path : String) : Node := (scannedTree path).put ["gone"] emptyDir

abbrev secondVisit (path : String) : Visit := keptVisit path ⟨1, 0, 0⟩ "again" (laterTree path)

lemma isFinite_keptScan (path : String) : (keptScan path).settings.lint.rate.isFinite :=
  show ({ enabled := false } : LintSettings).rate.isFinite = true by decide

section

variable {path : String} (hpath : IsOverlayPath path)

lemma history_firstVisit (path : String) : History ["c"] [] (firstVisit path).world.tree :=
  .start wellFormed_keptTree (by simp [keptVisit, keptTree, Table.get?])

lemma consistent_firstVisit (path : String) : Consistent ["c"] [] (firstVisit path).world.tree :=
  (history_firstVisit path).consistent (by simp)

lemma history_scannedTree (path : String) : History ["c"] [firstVisit path] (scannedTree path) := by
  unfold scannedTree
  exact .scan (v := firstVisit path) (history_firstVisit path) (shares_keptVisit hasKept_keptTree)

include hpath

lemma settled_firstVisit : (firstVisit path).Settled :=
  (consistent_firstVisit path).settles (shares_keptVisit hasKept_keptTree)
    (regular_keptVisit hpath).here

lemma consistent_scannedTree : Consistent ["c"] [firstVisit path] (scannedTree path) :=
  (history_scannedTree path).consistent fun u hu => by
    rw [mem_singleton.mp hu]
    exact (regular_keptVisit hpath).here

lemma find?_laterTree {name : String} (hne : "gone" ≠ name) :
    (laterTree path).find? [name] = (scannedTree path).find? [name] := by
  rw [laterTree]
  exact find?_put_of_ne (consistent_scannedTree hpath).isDir hne [] emptyDir

lemma hasKept_scannedTree : HasKept (scannedTree path) := by
  obtain ⟨hext, -⟩ := exists_kept_of_first (consistent_firstVisit path)
    (shares_keptVisit hasKept_keptTree)
    (regular_keptVisit hpath).here (keptInput hasKept_keptTree hpath (settled_firstVisit hpath))
    (isFinite_keptScan path) (planOf_keptVisit hasKept_keptTree hpath (settled_firstVisit hpath))
  unfold scannedTree
  exact hasKept_keptTree.of_extends hext

lemma hasKept_laterTree : HasKept (laterTree path) := by
  have hkept := hasKept_scannedTree hpath
  obtain ⟨entries, hstore⟩ := hkept.store
  exact ⟨(find?_laterTree hpath (by decide)).trans hkept.file,
    (find?_laterTree hpath (by decide)).trans hkept.manifest,
    (find?_laterTree hpath (by decide)).trans hkept.overlay,
    entries, (find?_laterTree hpath (by decide)).trans hstore⟩

lemma history_laterTree : History ["c"] [firstVisit path] (laterTree path) := by
  refine (history_scannedTree path).edit ?_ (find?_laterTree hpath (by decide))
  rw [laterTree]
  refine (consistent_scannedTree hpath).wellFormed.put wellFormed_emptyDir ?_
  decide

lemma settled_secondVisit : (secondVisit path).Settled := by
  refine Consistent.settles ((history_laterTree hpath).consistent fun u hu => ?_)
    (shares_keptVisit (hasKept_laterTree hpath)) (regular_keptVisit hpath).here
  rw [mem_singleton.mp hu]
  exact (regular_keptVisit hpath).here

lemma exists_hits_secondVisit : ∃ r, (secondVisit path).Hits r ∧ r.reportingMode =
    (load ((firstVisit path).prepared ⟨"/", some "/a.php"⟩) path).mode.word := by
  have hsame : (laterTree path).find? ["c"] =
      (run (firstVisit path).means (firstVisit path).world (firstVisit path).request).1.tree.find?
      ["c"] := by
    rw [find?_laterTree hpath (by decide)]
    unfold scannedTree
    rfl
  obtain ⟨r, hhits, hreport⟩ := exists_hits_of_first (consistent_firstVisit path)
    (shares_keptVisit hasKept_keptTree) (regular_keptVisit hpath).here
    (keptInput hasKept_keptTree hpath (settled_firstVisit hpath)) (isFinite_keptScan path)
    (planOf_keptVisit hasKept_keptTree hpath (settled_firstVisit hpath)) (legible_keptReport path _)
    (history_laterTree hpath) hsame (shares_keptVisit (hasKept_laterTree hpath))
    (regular_keptVisit hpath).here (isFinite_keptScan path)
    (keptInput (hasKept_laterTree hpath) hpath (settled_secondVisit hpath)) ⟨rfl, rfl⟩
  exact ⟨r, hhits, (Report.mk.inj hreport).2.2.2.2.2.2.2.1⟩

lemma noCollision_visits : NoCollision ([firstVisit path] ++ [secondVisit path]) := by
  obtain ⟨kept, hkept, -⟩ := exists_hits_secondVisit hpath
  have hfirst := settled_firstVisit hpath
  have hall : ∀ u ∈ [firstVisit path] ++ [secondVisit path], ∀ kind bytes, u.Digests kind bytes →
      bytes =
      keptBytes path (keptPlan path ((firstVisit path).prepared ⟨"/", some "/a.php"⟩)) kind := by
    intro u hu kind bytes hdigests
    rcases mem_append.mp hu with hu | hu
    · obtain rfl := mem_singleton.mp hu
      by_cases hkind : kind = .result
      · subst hkind
        cases hdigests with
        | @result i r hfinds =>
          obtain rfl := eq_keptInput hasKept_keptTree hpath hfirst i
          obtain ⟨p, hplan, rfl⟩ := hfinds.plan
          obtain rfl :=
            Except.ok.inj (hplan.symm.trans (planOf_keptVisit hasKept_keptTree hpath hfirst))
          rfl
      · exact eq_keptBytes hasKept_keptTree hpath hfirst hkind hdigests _
    · obtain rfl := mem_singleton.mp hu
      by_cases hkind : kind = .result
      · -- a scan whose report was kept finds none by itself
        subst hkind
        cases hdigests with
        | result hfinds => exact absurd hkept (hfinds.misses kept)
      · exact eq_keptBytes (hasKept_laterTree hpath) hpath
          (settled_secondVisit hpath) hkind hdigests _
  rintro kind bytes ⟨u, hu, hbytes⟩ bytes' ⟨u', hu', hbytes'⟩ -
  rw [hall u hu kind bytes hbytes, hall u' hu' kind bytes' hbytes']

lemma regular_visits : ∀ u ∈ [firstVisit path] ++ [secondVisit path], u.Regular := by
  simp only [cons_append, nil_append, mem_cons, not_mem_nil, or_false, forall_eq_or_imp, forall_eq]
  exact ⟨regular_keptVisit hpath, regular_keptVisit hpath⟩

end

lemma toolchain_keptVisit (path : String) (now : Moment) (runId : String) (tree : Node)
    (t : Target) : (keptVisit path now runId tree).toolchain t = {} :=
  rfl

lemma sameRuntime_visits (path : String) :
    ∀ u ∈ [firstVisit path], ∀ (i : u.Input) (j : (secondVisit path).Input),
      SameDigests i j → SameRuntime u (secondVisit path) i.target j.target := by
  intro u hu i j _
  obtain rfl := mem_singleton.mp hu
  refine ⟨?_, ?_, fun path content _ _ => ?_⟩
  all_goals rw [toolchain_keptVisit, toolchain_keptVisit]

lemma run_uncached_secondVisit (hpath : IsOverlayPath path) :
    (run (secondVisit path).means (secondVisit path).world (secondVisit path).request.uncached).2 =
      .ok (planReport (secondVisit path).means (keptPlan path (laterTree path))
        (secondVisit path).request.uncached.settings) := by
  have hkept := hasKept_laterTree hpath
  have hvalid : (fallbackScan ["5.6", "8.1"] ⟨false, "/c"⟩).settings.validate = .ok () := by decide
  have hsurvey : survey (secondVisit path).means (laterTree path) (keptScan path ⟨false, "/c"⟩) =
      .ok (⟨"/", some "/a.php"⟩, ["/a.php"], []) := survey_fallbackScan hkept.file hvalid
  have hplan : planned (secondVisit path).means (laterTree path) (keptScan path ⟨false, "/c"⟩) =
      .ok (keptPlan path (laterTree path)) := by
    rw [planned, hsurvey]
    dsimp only [bind, Except.bind]
    exact hkept.planOf_eq hpath ⟨false, "/c"⟩
  exact (run_uncached rfl).trans (congrArg _ hplan)

lemma isOverlayPath_overlay : IsOverlayPath "/overlay.json" :=
  ⟨by decide, by decide, by decide, by decide⟩

lemma HasKept.read_overlay (h : HasKept tree) :
    FileTree.read tree "/overlay.json" = .ok keptOverlay := by
  have hname : ∀ n ∈ ["overlay.json"], IsName n := by decide
  have hresolve : resolve tree "/overlay.json" = .ok ["overlay.json"] := by
    rw [show "/overlay.json" = rooted ["overlay.json"] by decide, resolve_rooted hname]
    exact follow_names (by simp) h.overlay (by simp)
  simp only [FileTree.read, stat, hresolve, h.overlay]
  exact if_neg (by decide)

lemma readOverlay_keptOverlay : readOverlay "\x7b\"reporting_mode\": \"all_errors\"\x7d".toList =
    .ok { mode := some ⟨"all_errors"⟩ } := by
  decide +kernel

lemma covered_keptVisit {now : Moment} {runId : String} (h : HasKept tree)
    (hsettled : (keptVisit "/overlay.json" now runId tree).Settled) :
    (keptVisit "/overlay.json" now runId tree).Covered := by
  have hkept := hasKept_prepared h hsettled
  have hread : read ((keptVisit "/overlay.json" now runId tree).prepared ⟨"/", some "/a.php"⟩)
      (seenFrom "/" "/overlay.json") = .ok keptOverlay := hkept.read_overlay
  refine ⟨fun i path hmem => ?_, fun i _ => ?_, fun i _ content o hcontent ho => ?_⟩
  all_goals obtain rfl := eq_keptInput h isOverlayPath_overlay hsettled i
  · obtain rfl := mem_singleton.mp hmem
    exact show (relative? "/" "/a.php").getD "/a.php" ∉ recordLabels by decide
  · have hbeside := hkept.readBeside_overlay isOverlayPath_overlay
    exact (congrArg Except.toOption hbeside).trans (congrArg Except.toOption hread).symm
  · obtain rfl := Except.ok.inj (hread.symm.trans hcontent)
    rw [keptOverlay, decodeBytes_bytesOf] at ho
    obtain rfl := Except.ok.inj (readOverlay_keptOverlay.symm.trans ho)
    exact nodup_nil

lemma covered_visits :
    ∀ u ∈ [firstVisit "/overlay.json"] ++ [secondVisit "/overlay.json"], u.Covered := by
  simp only [cons_append, nil_append, mem_cons, not_mem_nil, or_false, forall_eq_or_imp, forall_eq]
  exact ⟨covered_keptVisit hasKept_keptTree (settled_firstVisit isOverlayPath_overlay),
    covered_keptVisit (hasKept_laterTree isOverlayPath_overlay)
    (settled_secondVisit isOverlayPath_overlay)⟩

lemma mode_load_overlay (hread : read tree path = .ok keptOverlay) :
    (load tree path).mode.word = "all_errors" := by
  simp only [load, hread, keptOverlay, decodeBytes_bytesOf]
  decide +kernel

lemma outcomes_fallbackPlan : ((planReport fallbackMeans fallbackPlan
      (fallbackScan ["5.6", "8.1"]).settings).outcomes.items.map
      fun o => (o.php, o.passed)) = [("5.6", false), ("8.1", true)] := by
  decide +kernel

lemma outcomes_keptPlan (m : Means) (path : String) (tree : Node) :
    ((planReport m (keptPlan path tree) (keptScan path ⟨false, "/c"⟩).settings).outcomes.items.map
      fun o => (o.php, o.passed)) = [("5.6", false), ("8.1", true)] :=
  outcomes_fallbackPlan

/-- The scan is done, a directory is added, and the scan is done again: its report is taken from the
directory of results, and is the one that it finds without it. -/
theorem hit_secondVisit :
    ∃ r, (secondVisit "/overlay.json").Hits r ∧
      (run (secondVisit "/overlay.json").means (secondVisit "/overlay.json").world
        (secondVisit "/overlay.json").request.uncached).2 = .ok { r with cache := none } ∧
      r.reportingMode = "all_errors" ∧
      (r.outcomes.items.map fun o => (o.php, o.passed)) = [("5.6", false), ("8.1", true)] := by
  have hpath := isOverlayPath_overlay
  obtain ⟨r, hhits, hmode⟩ := exists_hits_secondVisit hpath
  have hsound := hit_sound (history_laterTree hpath) (shares_keptVisit (hasKept_laterTree hpath))
    (regular_visits hpath) covered_visits (noCollision_visits hpath)
    (sameRuntime_visits _) rfl hhits (secondVisit "/overlay.json").means.order
  rw [Means.inOrder_order] at hsound
  have hprepared := hasKept_prepared hasKept_keptTree (settled_firstVisit hpath)
  have hreport := Except.ok.inj (hsound.symm.trans (run_uncached_secondVisit hpath))
  refine ⟨r, hhits, hsound, hmode.trans (mode_load_overlay hprepared.read_overlay), ?_⟩
  exact (congrArg (fun r => r.outcomes.items.map fun o => (o.php, o.passed)) hreport).trans
    (outcomes_keptPlan _ _ _)

lemma isOverlayPath_above : IsOverlayPath "/gone/../overlay.json" :=
  ⟨by decide, by decide, by decide, by decide⟩

lemma steps_above : steps "/gone/../overlay.json" = ["gone", "..", "overlay.json"] := by decide

lemma HasKept.read_above (h : HasKept tree) (hgone : tree.find? ["gone"] = some emptyDir) :
    FileTree.read tree "/gone/../overlay.json" = .ok keptOverlay := by
  have hresolve : resolve tree "/gone/../overlay.json" = .ok ["overlay.json"] := by
    rw [resolve, steps_above, follow_name _ _ (by decide), nil_append, hgone, emptyDir]
    simp [follow_name, h.overlay]
  simp only [FileTree.read, stat, hresolve, h.overlay]
  exact if_neg (by decide)

lemma mode_load_above (hgone : tree.find? ["gone"] = none) :
    (load tree "/gone/../overlay.json").mode.word = "fatal_only" := by
  have hresolve : resolve tree "/gone/../overlay.json" = .error .notFound := by
    rw [resolve, steps_above, follow_name _ _ (by decide), nil_append, hgone]
  simp only [load, FileTree.read, stat, hresolve]
  decide

lemma find?_gone_prepared :
    ((firstVisit "/gone/../overlay.json").prepared ⟨"/", some "/a.php"⟩).find? ["gone"] = none := by
  exact Option.isNone_iff_eq_none.mp (by decide +kernel)

/-- Rules for widgets whose path has a step up from a directory that is made later: they are
digested before they are read, so a report is taken that was found without them. -/
theorem stale_hit :
    ¬ ∀ place visits (v : Visit) r, History place visits v.world.tree → v.Shares place →
      (∀ u ∈ visits ++ [v], u.Regular) → NoCollision (visits ++ [v]) →
      (∀ u ∈ visits, ∀ (i : u.Input) (j : v.Input), SameDigests i j →
        SameRuntime u v i.target j.target) →
      v.means.cancelled = false → v.Hits r →
      (run v.means v.world v.request.uncached).2 = .ok { r with cache := none } := by
  intro h
  have hpath := isOverlayPath_above
  obtain ⟨r, hhits, hmode⟩ := exists_hits_secondVisit hpath
  have hsound := h _ _ _ r (history_laterTree hpath) (shares_keptVisit (hasKept_laterTree hpath))
    (regular_visits hpath) (noCollision_visits hpath) (sameRuntime_visits _) rfl hhits
  have hreport := Except.ok.inj (hsound.symm.trans (run_uncached_secondVisit hpath))
  have hgone : (laterTree "/gone/../overlay.json").find? ["gone"] = some emptyDir := by
    obtain ⟨entries, hentries⟩ :=
      exists_top_of_find?_dir (hasKept_scannedTree hpath).store.choose_spec
    rw [laterTree, hentries, put, find?_cons_dir, Table.get?_insert, if_pos rfl, Option.bind_some,
      put, Node.find?_nil]
  have hfresh := mode_load_overlay ((hasKept_laterTree hpath).read_above hgone)
  have hstale := hmode.trans (mode_load_above find?_gone_prepared)
  rw [keptPlan, planReport_widgets] at hreport
  have hsame := (Report.mk.inj hreport).2.2.2.2.2.2.2.1
  rw [hstale, hfresh] at hsame
  exact absurd hsame (by decide)

end PluginAudit.Scan
