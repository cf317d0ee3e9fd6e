import PluginAudit.Proofs.SourceFiles
import PluginAudit.Proofs.Utf8

/-!
The files that a scan lists. Main statement: below a directory that is no link, the listed paths are
exactly those of the files that can be scanned, in increasing order of their bytes.
-/

open List

namespace PluginAudit

open Text (isBlank trim foldChar)
open PluginAudit.Path (extension rooted AreNames IsName join)
open Node FileTree

namespace Selection

variable {name : String} {tree : Node} {root included excluded more dirs : List String}
  {entries : Table Node} {texts place : List String} {glob? : String → Option Glob}

/-! ### Globs -/

/-- One of some texts is this glob. White space around it does not count, and a blank text is no
glob. -/
def Gives (glob? : String → Option Glob) (texts : List String) (g : Glob) : Prop :=
  ∃ text ∈ texts, isBlank text = false ∧ glob? (trim text) = some g

/-- All texts that are not blank are globs. -/
def Readable (glob? : String → Option Glob) (texts : List String) : Prop :=
  ∀ text ∈ texts, isBlank text = false → ∃ g, glob? (trim text) = some g

lemma Gives.mono (h : texts ⊆ more) {g : Glob} (hg : Gives glob? texts g) : Gives glob? more g := by
  obtain ⟨text, htext, hgiven⟩ := hg
  exact ⟨text, h htext, hgiven⟩

lemma exists_readGlobs (use : String) (h : Readable glob? texts) :
    ∃ globs, readGlobs glob? use texts = .ok globs ∧ ∀ g, g ∈ globs ↔ Gives glob? texts g := by
  induction texts with
  | nil => exact ⟨[], rfl, by simp [Gives]⟩
  | cons text texts ih =>
    obtain ⟨htext, htexts⟩ := forall_mem_cons.mp h
    obtain ⟨globs, hread, hglobs⟩ := ih htexts
    cases hblank : isBlank text with
    | true =>
      refine ⟨globs, ?_, fun g => ?_⟩
      · rw [readGlobs, if_pos (Text.trim_of_isBlank hblank), hread]
      · rw [hglobs, Gives, Gives, exists_mem_cons_iff]
        simp [hblank]
    | false =>
      obtain ⟨first, hfirst⟩ := htext hblank
      refine ⟨first :: globs, ?_, fun g => ?_⟩
      · rw [readGlobs, if_neg (Text.trim_ne_empty hblank), hfirst, hread]
      · rw [mem_cons, hglobs, Gives, Gives, exists_mem_cons_iff, hfirst, Option.some.injEq,
          eq_comm (a := g)]
        simp [hblank]

/-- A relative path passes: no exclude glob covers it, and if there are include globs, one of them
does. -/
structure Passes (glob? : String → Option Glob) (included excluded : List String) (path : String) :
    Prop where
  notExcluded : ∀ g, Gives glob? excluded g → g.covers path = false
  included : (∃ g, Gives glob? included g) → ∃ g, Gives glob? included g ∧ g.covers path = true

lemma exists_ofTexts (hincluded : Readable glob? included) (hexcluded : Readable glob? excluded) :
    ∃ f, Filter.ofTexts glob? included excluded = .ok f ∧ ∀ path, f.passes path ↔
      Passes glob? included excluded path := by
  obtain ⟨takes, htakes, hgives⟩ := exists_readGlobs "include" hincluded
  obtain ⟨drops, hdrops, hgives'⟩ := exists_readGlobs "exclude" hexcluded
  refine ⟨⟨takes, drops⟩, ?_, fun path => ?_⟩
  · rw [Filter.ofTexts, htakes]
    dsimp only
    rw [hdrops]
  · have hnone : drops.any (·.covers path) = false ↔ ∀ g, Gives glob? excluded g →
        g.covers path = false := by
      rw [any_eq_false]
      simp only [hgives', Bool.not_eq_true]
    have hsome : (takes.isEmpty || takes.any (·.covers path)) ↔
        ((∃ g, Gives glob? included g) → ∃ g, Gives glob? included g ∧ g.covers path) := by
      simp only [← hgives]
      cases takes with
      | nil => simp
      | cons first takes => simp
    rw [Filter.passes, Bool.and_eq_true, Bool.not_eq_true', hnone, hsome]
    exact ⟨fun h => ⟨h.1, h.2⟩, fun h => ⟨h.notExcluded, h.included⟩⟩

/-! ### Names -/

/-- A name has the extension of source code, in any letter case. -/
def NamesSource (name : String) : Prop :=
  ∃ stem ext : List Char, name.toList = stem ++ '.' :: ext ∧ ext.map Char.toLower = "php".toList

lemma extension_eq (hslash : '/' ∉ name.toList) {stem ext : List Char}
    (h : name.toList = stem ++ '.' :: ext)
    (hdot : '.' ∉ ext) : (extension name).toList = '.' :: ext := by
  have hlast : name.toList.reverse.takeWhile (· != '/') = ext.reverse ++ '.' :: stem.reverse := by
    rw [takeWhile_eq_self_iff.mpr, h]
    · simp
    · intro c hc
      rw [bne_iff_ne]
      rintro rfl
      exact hslash (mem_reverse.mp hc)
  have hext : (ext.reverse ++ '.' :: stem.reverse).takeWhile (· != '.') = ext.reverse := by
    rw [takeWhile_append_of_pos]
    · simp
    · intro c hc
      rw [bne_iff_ne]
      rintro rfl
      exact hdot (mem_reverse.mp hc)
  rw [extension]
  simp only [hlast, hext]
  rw [if_pos (by simp), String.toList_ofList, reverse_reverse]

lemma isSource_iff (hslash : '/' ∉ name.toList) : isSource name ↔ NamesSource name := by
  have hfold : ∀ ext :
      List Char, ext.map foldChar = "php".toList ↔ ext.map Char.toLower = "php".toList := by
    intro ext
    have hp : ∀ c, foldChar c = 'p' ↔ c.toLower = 'p' :=
      fun c => Text.foldChar_eq_iff (by decide) (by decide)
    have hh : ∀ c, foldChar c = 'h' ↔ c.toLower = 'h' :=
      fun c => Text.foldChar_eq_iff (by decide) (by decide)
    simp [map_eq_cons_iff, hp, hh]
  have hsource : isSource name ↔ (extension name).toList.map foldChar = '.' :: "php".toList := by
    rw [isSource, Text.sameFold, beq_iff_eq]
    rfl
  rw [hsource]
  constructor
  · intro h
    have hdot : '.' ∈ name.toList := by
      by_contra hdot
      have hlast : (name.toList.reverse.takeWhile (· != '/')).contains '.' = false := by
        rw [← Bool.not_eq_true, contains_iff_mem]
        exact fun hmem => hdot (mem_reverse.mp ((takeWhile_sublist _).subset hmem))
      rw [extension, hlast] at h
      cases h
    obtain ⟨ext, stem, hreverse, hext⟩ := eq_append_cons_of_mem (mem_reverse.mpr hdot)
    have hname : name.toList = stem.reverse ++ '.' :: ext.reverse := by
      rw [← reverse_reverse name.toList, hreverse]
      simp
    rw [extension_eq hslash hname (by simpa using hext), map_cons] at h
    exact ⟨_, _, hname, (hfold _).mp (List.cons.inj h).2⟩
  · rintro ⟨stem, ext, hname, hext⟩
    have hdot : '.' ∉ ext := by
      intro hmem
      have := mem_map_of_mem (f := Char.toLower) hmem
      rw [hext] at this
      exact absurd this (by decide)
    rw [extension_eq hslash hname hdot, map_cons, (hfold ext).mpr hext]
    rfl

/-- A file can be scanned by its name. -/
structure ScansName (name : String) : Prop where
  shown : name.toList.head? ≠ some '.'
  notSkipped : name ∉ skippedFiles
  source : NamesSource name

lemma scansFile_iff (hslash : '/' ∉ name.toList) : scansFile name ↔ ScansName name := by
  rw [scansFile, Bool.and_eq_true, Bool.not_eq_true', Bool.or_eq_false_iff, isSource_iff hslash,
    isHidden, beq_eq_false_iff_ne, ← Bool.not_eq_true, contains_iff_mem]
  exact ⟨fun h => ⟨h.1.2, h.1.1, h.2⟩, fun h => ⟨⟨h.notSkipped, h.shown⟩, h.source⟩⟩

/-- A copy of the tool's own package is at a place: it has the package's files, and its manifest has
the package's name. -/
structure IsToolCopy (tree : Node) (place : List String) : Prop where
  files : ∀ names ∈ [["fataltest"], ["src", "FatalTester.php"], ["composer.json"]],
    ∃ n, stat tree (rooted (place ++ names)) = .ok n
  manifest : ∃ content, read tree (rooted (place ++ ["composer.json"])) = .ok content ∧
    manifestName? content = some toolPackage

lemma isToolPackage_iff (hplace : AreNames place) :
    isToolPackage tree (rooted place) ↔ IsToolCopy tree place := by
  have hjoin : ∀ names ∈ [["fataltest"], ["src", "FatalTester.php"], ["composer.json"]],
      join [rooted place, "/".intercalate names] = rooted (place ++ names) := by
    have hnames : ∀ names ∈ [["fataltest"], ["src", "FatalTester.php"], ["composer.json"]],
        AreNames names := by decide
    exact fun names hmem => Path.join_intercalate hplace (hnames names hmem)
  have htexts : toolFiles = [["fataltest"], ["src", "FatalTester.php"],
      ["composer.json"]].map "/".intercalate := by
    decide
  have hstat : (toolFiles.all fun name => (stat tree (join [rooted place, name])).toBool) ↔
      ∀ names ∈ [["fataltest"], ["src", "FatalTester.php"], ["composer.json"]],
        ∃ n, stat tree (rooted (place ++ names)) = .ok n := by
    rw [htexts, all_map, all_eq_true]
    refine forall₂_congr fun names hnames => ?_
    rw [Function.comp_apply, hjoin names hnames]
    cases stat tree (rooted (place ++ names)) <;> simp [Except.toBool]
  have hmanifest := hjoin ["composer.json"] (by simp)
  rw [String.intercalate_singleton] at hmanifest
  rw [isToolPackage, Bool.and_eq_true, hstat, hmanifest]
  cases hread : read tree (rooted (place ++ ["composer.json"])) with
  | error e =>
    constructor
    · rintro ⟨-, hname⟩
      cases hname
    · rintro ⟨-, content, hcontent, -⟩
      cases hread.symm.trans hcontent
  | ok content =>
    refine ⟨fun h => ⟨h.1, content, hread, beq_iff_eq.mp h.2⟩, fun h => ⟨h.files, ?_⟩⟩
    obtain ⟨content', hcontent, hname⟩ := h.manifest
    cases hread.symm.trans hcontent
    exact beq_iff_eq.mpr hname

/-- A directory is walked through, by its name and the names before it. -/
structure WalksInto (tree : Node) (root before : List String) (name : String) : Prop where
  shown : name.toList.head? ≠ some '.'
  notSkipped : name ∉ skippedDirs
  notAt : "/".intercalate (before ++ [name]) ∉ skippedPaths
  notTool : ¬ IsToolCopy tree (root ++ before ++ [name])

lemma skipsDir_or_isToolPackage_iff {before : List String}
    (hplace : ∀ n ∈ root ++ (before ++ [name]), IsName n) :
    (skipsDir name ("/".intercalate (before ++ [name])) ||
      isToolPackage tree (join [rooted root, "/".intercalate (before ++ [name])])) = false ↔
      WalksInto tree root before name := by
  obtain ⟨hroot, hbelow⟩ := forall_mem_append.mp hplace
  have htool := @isToolPackage_iff tree _ hplace
  rw [Path.join_intercalate hroot hbelow,
    Bool.or_eq_false_iff, ← Bool.not_eq_true (isToolPackage _ _), htool, skipsDir,
    Bool.or_eq_false_iff, Bool.or_eq_false_iff, isHidden, beq_eq_false_iff_ne, ← Bool.not_eq_true,
    ← Bool.not_eq_true, contains_iff_mem, contains_iff_mem, ← append_assoc]
  exact ⟨fun h => ⟨h.1.2, h.1.1.1, h.1.1.2, h.2⟩, fun h =>
    ⟨⟨⟨h.notSkipped, h.notAt⟩, h.shown⟩, h.notTool⟩⟩

/-! ### Listing -/

/-- A file below a directory can be scanned: by its name, by the directories on the way to it, and
by the globs. -/
structure Scannable (glob? : String → Option Glob) (tree : Node) (root : List String)
    (entries : List (String × Node))
    (included excluded dirs : List String) (name : String) : Prop where
  file : ∃ content mode, (Node.dir entries).find? (dirs ++ [name]) = some (.file content mode)
  scans : ScansName name
  walks : ∀ before dir after, dirs = before ++ dir :: after → WalksInto tree root before dir
  passes : Passes glob? included excluded ("/".intercalate (dirs ++ [name]))

lemma enters_iff_walksInto (hroot : AreNames root) (hdirs : ∀ n ∈ dirs, ValidName n) :
    FileTree.Enters (fun name path =>
      skipsDir name path || isToolPackage tree (join [rooted root, path])) "" dirs ↔
      ∀ before dir after, dirs = before ++ dir :: after → WalksInto tree root before dir := by
  rw [enters_iff]
  refine forall₄_congr fun before dir after heq => ?_
  have hbelow : ∀ n ∈ before ++ [dir], ValidName n := fun n hn => hdirs n (by
    rw [heq, append_cons]
    exact mem_append_left _ hn)
  rw [pathBelow_top hbelow]
  exact skipsDir_or_isToolPackage_iff (Scan.isName_append hroot hbelow)

lemma exists_sources (hwf : WellFormed tree) (hroot : AreNames root)
    (hplace : resolveParent tree (rooted root) = .ok place)
    (hdir : tree.find? place = some (.dir entries))
    {f : Filter} (hf : ∀ path, f.passes path ↔ Passes glob? included excluded path) :
    ∃ paths, sources tree (rooted root) f = .ok paths ∧ paths.Pairwise (· < ·) ∧
      ∀ path, path ∈ paths ↔ ∃ dirs name, path = rooted (root ++ dirs ++ [name]) ∧
        Scannable glob? tree root entries included excluded dirs name := by
  have hwf' := hwf.of_find? hdir
  rw [sources, hplace]
  dsimp only
  rw [hdir]
  refine ⟨_, rfl, pairwise_sortedNames _, fun path => ?_⟩
  -- what is known of a node below the directory, by the names that lead to it
  have hnames : ∀ {dirs : List String} {name : String} {n : Node},
      (Node.dir entries).find? (dirs ++ [name]) = some n →
      (∀ d ∈ dirs, ValidName d) ∧ ValidName name ∧
      join [rooted root, "/".intercalate (dirs ++ [name])] = rooted (root ++ dirs ++ [name]) ∧
      Path.base ("/".intercalate (dirs ++ [name])) = name := by
    intro dirs name n hfind
    have hvalid := hwf'.validName_of_mem hfind
    obtain ⟨hdirs, hname⟩ := forall_mem_append.mp hvalid
    replace hname := hname name (by simp)
    rw [Path.join_intercalate hroot fun n hn => (hvalid n hn).toIsName, append_assoc]
    exact ⟨hdirs, hname, rfl, Path.base_intercalate_concat dirs hname.toIsName⟩
  rw [mem_sortedNames, mem_map]
  constructor
  · rintro ⟨⟨relative, n⟩, hleaf, rfl⟩
    obtain ⟨hmem, htest⟩ := mem_filter.mp hleaf
    obtain ⟨dirs, name, hfind, -, henters, rfl⟩ := (mem_leaves_iff hwf').mp hmem
    obtain ⟨hdirs, hname, hjoin, hbase⟩ := hnames hfind
    simp only [Bool.and_eq_true, hbase, scansFile_iff hname.no_slash, hf] at htest
    refine ⟨dirs, name, hjoin, ?_, htest.1.2, (enters_iff_walksInto hroot hdirs).mp henters,
      htest.2⟩
    cases n with
    | file content mode => exact ⟨content, mode, hfind⟩
    | dir entries => cases htest.1.1
    | link target => cases htest.1.1
  · rintro ⟨dirs, name, rfl, h⟩
    obtain ⟨content, mode, hfind⟩ := h.file
    obtain ⟨hdirs, hname, hjoin, hbase⟩ := hnames hfind
    refine ⟨("/".intercalate (dirs ++ [name]), .file content mode), mem_filter.mpr ⟨?_, ?_⟩, hjoin⟩
    · exact (mem_leaves_iff hwf').mpr
        ⟨dirs, name, hfind, rfl, (enters_iff_walksInto hroot hdirs).mpr h.walks, rfl⟩
    · simp only [Bool.and_eq_true, hbase, scansFile_iff hname.no_slash, hf]
      exact ⟨⟨rfl, h.scans⟩, h.passes⟩

lemma Scannable.of_excluded (hmore : excluded ⊆ more)
    (h : Scannable glob? tree root entries included more dirs name) :
    Scannable glob? tree root entries included excluded dirs name :=
  { h with passes := ⟨fun g hg => h.passes.notExcluded g (hg.mono hmore), h.passes.included⟩ }

lemma Scannable.of_included (hmore : included ⊆ more) (hsome : ∃ g, Gives glob? included g)
    (h : Scannable glob? tree root entries included excluded dirs name) :
    Scannable glob? tree root entries more excluded dirs name :=
  { h with
    passes := ⟨h.passes.notExcluded, fun _ => by
      obtain ⟨g, hg, hcovers⟩ := h.passes.included hsome
      exact ⟨g, hg.mono hmore, hcovers⟩⟩ }

end Selection

namespace Scan

open Selection

/-- A path leads to a directory, and its last name is no link. -/
structure IsRealDir (tree : Node) (root : List String) (entries : List (String × Node)) : Prop where
  isName : ∀ n ∈ root, IsName n
  isDir :
    ∃ place, resolveParent tree (rooted root) = .ok place ∧ tree.find? place = some (.dir entries)

lemma exists_sourcesOf {m : Means} (hlive : m.cancelled = false) {tree : Node}
    (hwf : WellFormed tree)
    {root : List String} {entries : Table Node} (hdir : IsRealDir tree root entries) {s : Settings}
    (hincludes : Readable m.glob? s.includes) (hexcludes : Readable m.glob? s.excludes) :
    ∃ paths, sourcesOf m tree ⟨rooted root, none⟩ s = .ok paths ∧ paths.Pairwise (· < ·) ∧
      ∀ path, path ∈ paths ↔ ∃ dirs name, path = rooted (root ++ dirs ++ [name]) ∧
        Scannable m.glob? tree root entries s.includes s.excludes dirs name := by
  obtain ⟨f, hfilter, hf⟩ := exists_ofTexts hincludes hexcludes
  obtain ⟨place, hplace, hentries⟩ := hdir.isDir
  obtain ⟨paths, hsources, hpaths⟩ := exists_sources hwf hdir.isName hplace hentries hf
  refine ⟨paths, ?_, hpaths⟩
  simp only [sourcesOf, hfilter, hlive]
  change (sources tree (rooted root) f).mapError Error.files = .ok paths
  rw [hsources]
  rfl

/-- For a directory that is no link, exactly the files are listed that can be scanned, in increasing
order of the bytes of their paths. More exclude globs list no more, and if there is an include glob,
more of them list no less. -/
theorem listing_exact {m : Means} (hlive : m.cancelled = false)
    {tree : Node} (hwf : WellFormed tree) {root : List String} {entries : List (String × Node)}
    (hdir : IsRealDir tree root entries) {s : Settings}
    (hincludes : Readable m.glob? s.includes) (hexcludes : Readable m.glob? s.excludes) :
    ∃ paths, sourcesOf m tree ⟨rooted root, none⟩ s = .ok paths ∧
      paths.Pairwise (fun a b => bytesOf a < bytesOf b) ∧
      (∀ path, path ∈ paths ↔ ∃ dirs name, path = rooted (root ++ dirs ++ [name]) ∧
        Scannable m.glob? tree root entries s.includes s.excludes dirs name) ∧
      (∀ excludes, s.excludes ⊆ excludes → Readable m.glob? excludes →
        ∃ fewer, sourcesOf m tree ⟨rooted root, none⟩ { s with excludes := excludes } = .ok fewer ∧
          fewer ⊆ paths) ∧
      ∀ includes, s.includes ⊆ includes → Readable m.glob? includes →
        (∃ text ∈ s.includes, isBlank text = false) →
        ∃ more, sourcesOf m tree ⟨rooted root, none⟩ { s with includes := includes } = .ok more ∧
          paths ⊆ more := by
  obtain ⟨paths, hsources, hordered, hpaths⟩ := exists_sourcesOf hlive hwf hdir hincludes hexcludes
  refine ⟨paths, hsources, hordered.imp bytesOf_lt, hpaths, fun excludes hsub hread => ?_,
    fun includes hsub hread hsome => ?_⟩
  · obtain ⟨fewer, hfewer, -, hmem⟩ := @exists_sourcesOf m hlive tree hwf root entries hdir
      { s with excludes := excludes } hincludes hread
    refine ⟨fewer, hfewer, fun path hpath => ?_⟩
    obtain ⟨dirs, name, hname, hscan⟩ := (hmem path).mp hpath
    exact (hpaths path).mpr ⟨dirs, name, hname, hscan.of_excluded hsub⟩
  · obtain ⟨more, hmore, -, hmem⟩ := @exists_sourcesOf m hlive tree hwf root entries hdir
      { s with includes := includes } hread hexcludes
    have hgiven : ∃ g, Gives m.glob? s.includes g := by
      obtain ⟨text, htext, hblank⟩ := hsome
      obtain ⟨g, hg⟩ := hincludes text htext hblank
      exact ⟨g, text, htext, hblank, hg⟩
    refine ⟨more, hmore, fun path hpath => ?_⟩
    obtain ⟨dirs, name, hname, hscan⟩ := (hpaths path).mp hpath
    exact (hmem path).mpr ⟨dirs, name, hname, hscan.of_included hsub hgiven⟩

def pluginEntries : List (String × Node) :=
  [("inc", .dir [("a.php", .file [] .plain)]), ("main.php", .file [] .plain),
    ("vendor", .dir [("v.php", .file [] .plain)])]

def pluginTree : Node := .dir [("plugin", .dir pluginEntries)]

lemma wellFormed_pluginTree : WellFormed pluginTree := by
  simp only [pluginTree, pluginEntries, wellFormed_dir_iff, wellFormed_file, forall_mem_cons,
    not_mem_nil, false_imp_iff, implies_true, and_true]
  decide

lemma isRealDir_pluginTree : IsRealDir pluginTree ["plugin"] pluginEntries :=
  ⟨by decide, ["plugin"], by decide +kernel, rfl⟩

def listingMeans : Means := { here := "/", now := ⟨0, 0, 0⟩, runId := "" }

def incSettings : Settings := { includes := [" inc/*.php"] }

theorem listing_exact_inc :
    listingMeans.cancelled = false ∧ WellFormed pluginTree ∧
      IsRealDir pluginTree ["plugin"] pluginEntries ∧
    Readable Glob.parse? incSettings.includes ∧ Readable Glob.parse? incSettings.excludes ∧
    ∃ paths, sourcesOf listingMeans pluginTree ⟨"/plugin", none⟩ incSettings = .ok paths ∧
      paths.Pairwise (fun a b => bytesOf a < bytesOf b) ∧
      ∀ path, path ∈ paths ↔ ∃ dirs name, path = rooted (["plugin"] ++ dirs ++ [name]) ∧
        Scannable Glob.parse? pluginTree ["plugin"] pluginEntries [" inc/*.php"] [] dirs name := by
  have hincludes : Readable Glob.parse? incSettings.includes := by
    rintro text htext -
    rw [mem_singleton.mp htext]
    exact Option.isSome_iff_exists.mp (by decide +kernel)
  have hexcludes : Readable Glob.parse? incSettings.excludes := by simp [Readable, incSettings]
  obtain ⟨paths, hsources, hordered, hpaths, -⟩ :=
    @listing_exact listingMeans rfl _ wellFormed_pluginTree _ _ isRealDir_pluginTree incSettings
      hincludes hexcludes
  exact ⟨rfl, wellFormed_pluginTree, isRealDir_pluginTree, hincludes, hexcludes, paths, hsources,
    hordered, hpaths⟩

/-- A blank include text is passed over: the main file is listed, though the text is a glob that
does not cover it. -/
theorem blank_include_lists_all :
    (∃ g, Glob.parse? " " = some g ∧ g.covers "main.php" = false) ∧
    ∃ paths, sourcesOf listingMeans pluginTree ⟨"/plugin", none⟩ { includes := [" "] } = .ok paths ∧
      "/plugin/main.php" ∈ paths := by
  have hglob : (Glob.parse? " ").map (·.covers "main.php") = some false := by decide +kernel
  obtain ⟨paths, hsources, hpaths⟩ :
      ∃ paths, sourcesOf listingMeans pluginTree ⟨"/plugin", none⟩ { includes := [" "] } =
      .ok paths ∧ decide ("/plugin/main.php" ∈ paths) = true :=
    exists_of_toOption_map (by decide +kernel)
  exact ⟨Option.map_eq_some_iff.mp hglob, paths, hsources, of_decide_eq_true hpaths⟩

end Scan

end PluginAudit
