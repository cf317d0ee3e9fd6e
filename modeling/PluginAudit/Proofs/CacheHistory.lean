import Mathlib.Data.Set.Function
import PluginAudit.Proofs.Decoding
import PluginAudit.Proofs.ResultStore
import PluginAudit.Proofs.Runs

/-!
Scans that share a directory of results, while files outside of it change. The directory only ever
holds what these scans found, and a scan that is done again takes its result from there.
-/

open List

namespace PluginAudit.Scan

open Cache (prepare keyJson recordText objectText pathOf keyDigest digestText Holds)
open PluginAudit.Path (isAbsolute)
open FileTree Node Cache Table

variable {file : String} {n : Node}

/-! ### Scans one after the other -/

def Request.uncached (q : Request) : Request :=
  { q with settings := { q.settings with cache := { q.settings.cache with enabled := false } } }

/-- A scan with the files that it starts from. -/
structure Visit where
  means : Means
  world : World
  request : Request

namespace Visit

variable (v : Visit)

def Surveys (t : Target) (paths : List String) (tags : Tags) : Prop :=
  survey v.means v.world.tree v.request = .ok (t, paths, tags)

def prepared (t : Target) : Node := (prepare v.world.tree v.request.settings.cache t.root).1

def toolchain (t : Target) : Toolchain := toolchainOf v.means (v.prepared t) v.request.settings

def Records (t : Target) (paths : List String) (tags : Tags) (records : List String) : Prop :=
  inputRecords (v.prepared t) v.means.here t.root paths v.request.config
    v.request.settings.exclusionConfig tags = .ok records

/-- What a scan is about, with the records of what it reads. -/
structure Input where
  target : Target
  paths : List String
  ecosystems : Tags
  records : List String
  surveys : v.Surveys target paths ecosystems
  reads : v.Records target paths ecosystems records

/-- The scan returns a report that was kept by an earlier one. -/
def Hits (r : Report) : Prop :=
  (run v.means v.world v.request).2 = .ok r ∧ ∃ note, r.cache = some note ∧ note.hit = true

variable {v} in
/-- The scan finds a report by itself and can keep it. -/
structure Finds (i : v.Input) (r : Report) : Prop where
  misses : ∀ kept, ¬ v.Hits kept
  finite : v.request.settings.lint.rate.isFinite = true
  plan : ∃ p, planOf v.means (v.prepared i.target) i.target.root i.paths i.ecosystems
    v.request.settings = .ok p ∧ r = planReport v.means p v.request.settings

end Visit

/-- What a digest is taken of. -/
inductive Digested where
  | key
  | records
  | source
  | exclusions
  | result

namespace Visit

variable (v : Visit)

/-- The data that a scan digests, as far as a later scan relies on them. -/
inductive Digests (v : Visit) : Digested → Bytes → Prop
  | key (i : v.Input) :
    Digests v .key (bytesOf (keyJson i.target.root i.target.file v.request.settings).compact)
  | records (i : v.Input) : Digests v .records (bytesOf (recordText i.records))
  | source (i : v.Input) {path content} (mem : path ∈ i.paths)
    (reads : readBeside (v.prepared i.target) v.means.here path = .ok content) :
    Digests v .source content
  | exclusions (i : v.Input) {content}
    (given : Text.isBlank v.request.settings.exclusionConfig = false)
    (reads : readBeside (v.prepared i.target) v.means.here v.request.settings.exclusionConfig =
    .ok content) : Digests v .exclusions content
  | result {i : v.Input} {r} (finds : v.Finds i r) : Digests v .result (bytesOf (objectText r))

/-- The scan keeps its results in a directory. -/
def Shares (place : List String) : Prop :=
  v.request.settings.cache.enabled = true ∧ ∀ t paths tags, v.Surveys t paths tags →
    resolve v.world.tree (Path.clean (pathOf v.request.settings.cache t.root)) = .ok place

/-- What callers see to: paths are seen from an absolute directory, the path of the rules for
widgets has no white space around it, and that of the settings is one that a file can have. -/
structure Regular : Prop where
  here : isAbsolute v.means.here = true
  exclusions : Text.trim v.request.settings.exclusionConfig = v.request.settings.exclusionConfig
  config : '\x00' ∉ v.request.config.toList

/-- The digests cover what is read: no scanned file is called like the label of a record, and the
rules for widgets are those at their clean path, the same in whatever order they are taken. -/
structure Covered : Prop where
  labels : ∀ i :
    v.Input, ∀ path ∈ i.paths, (Path.relative? i.target.root path).getD path ∉ recordLabels
  exclusions : ∀ i : v.Input, Text.isBlank v.request.settings.exclusionConfig = false →
    (readBeside (v.prepared i.target) v.means.here v.request.settings.exclusionConfig).toOption =
      (read (v.prepared i.target)
    (Path.seenFrom v.means.here v.request.settings.exclusionConfig)).toOption
  distinct : ∀ i : v.Input, DistinctRules v.means (v.prepared i.target) v.request.settings

end Visit

/-- The runtime is the same in two scans: it knows the same symbols, gives the same warnings, and
says the same of a file with the same content. -/
structure SameRuntime (u v : Visit) (t t' : Target) : Prop where
  inventory : (u.toolchain t).inventory = (v.toolchain t').inventory
  warnings : (u.toolchain t).warnings = (v.toolchain t').warnings
  linter : ∀ path content, readBeside (u.prepared t) u.means.here path = .ok content →
    readBeside (v.prepared t') v.means.here path = .ok content →
    ((u.toolchain t).linter.map fun lint => lint path) = (v.toolchain t').linter.map fun lint =>
    lint path

/-- Scans that share a directory, which is empty at the start, and changes of files outside it. -/
inductive History (place : List String) : List Visit → Node → Prop
  | start {tree} (wellFormed : WellFormed tree) (empty : tree.find? place = some (.dir [])) :
    History place [] tree
  | edit {visits tree tree'} (earlier : History place visits tree) (wellFormed : WellFormed tree')
    (same : tree'.find? place = tree.find? place) : History place visits tree'
  | scan {visits} {v : Visit} (earlier : History place visits v.world.tree)
    (shares : v.Shares place) : History place (visits ++ [v]) (run v.means v.world v.request).1.tree

namespace Visit

variable {v : Visit} {t : Target} {paths : List String} {tags : Tags}

lemma Finds.plain {i : v.Input} {r : Report} (h : v.Finds i r) : r.Plain := by
  obtain ⟨p, hplan, rfl⟩ := h.plan
  exact plain_planReport hplan

lemma isAbsolute_root (hhere : isAbsolute v.means.here) (hwf : WellFormed v.world.tree)
    (htop : v.world.tree.isDir) (hsurvey : v.Surveys t paths tags) : isAbsolute t.root := by
  obtain ⟨root, hroot, -, -⟩ := exists_scanned_of_survey hsurvey hhere hwf htop
  rw [hroot]
  exact Path.isAbsolute_rooted root

end Visit

/-- The pointer to a report that one of the scans found. -/
def IsPointer (visits : List Visit) (file : String) (n : Node) : Prop :=
  ∃ u ∈ visits, ∃ (i : u.Input) (r : Report), u.Finds i r ∧
    file = keyDigest i.target.root i.target.file u.request.settings ++ ".json" ∧
    n = pointerNode (digestText (recordText i.records)) r

/-- A report that one of the scans found. -/
def IsObject (visits : List Visit) (file : String) (n : Node) : Prop :=
  ∃ u ∈ visits, ∃ (i : u.Input) (r : Report), u.Finds i r ∧
    file = digestText (objectText r) ++ ".json" ∧ n = objectNode r

variable {others : List Visit}

lemma IsPointer.mono (h : visits ⊆ others) (hn : IsPointer visits file n) :
    IsPointer others file n := by
  obtain ⟨u, hu, rest⟩ := hn
  exact ⟨u, h hu, rest⟩

lemma IsObject.mono (h : visits ⊆ others) (hn : IsObject visits file n) :
    IsObject others file n := by
  obtain ⟨u, hu, rest⟩ := hn
  exact ⟨u, h hu, rest⟩

lemma IsPointer.exists_file (h : IsPointer visits file n) :
    ∃ content mode, n = .file content mode := by
  obtain ⟨u, -, i, r, -, -, hn⟩ := h
  exact ⟨_, _, hn⟩

lemma IsObject.exists_file (h : IsObject visits file n) :
    ∃ content mode, n = .file content mode := by
  obtain ⟨u, -, i, r, -, -, hn⟩ := h
  exact ⟨_, _, hn⟩

/-- The files that a scan starts from are in order, and making the directories of results took none
away. -/
structure Visit.Settled (u : Visit) : Prop where
  wellFormed : WellFormed u.world.tree
  isDir : u.world.tree.isDir = true
  grows : ∀ t paths tags, u.Surveys t paths tags → Extends u.world.tree (u.prepared t)

/-- The directory holds what the scans kept, and nothing else. -/
structure Consistent (place : List String) (visits : List Visit) (tree : Node) : Prop where
  wellFormed : WellFormed tree
  settled : ∀ u ∈ visits, u.Settled
  kept :
    ∃ entries, tree.find? place = some (.dir entries) ∧ Holds entries "keys" (IsPointer visits) ∧
    Holds entries "objects" (IsObject visits)

variable {place : List String} {visits : List Visit} {v : Visit} {tree : Node} {t : Target}
  {paths : List String} {tags : Tags}

lemma Consistent.isDir (h : Consistent place visits tree) : tree.isDir := by
  obtain ⟨entries, hdir, -⟩ := h.kept
  obtain ⟨first, rfl⟩ := exists_top_of_find?_dir hdir
  rfl

lemma Cache.isAbsolute_pathOf (s : CacheSettings) {root : String} (h : isAbsolute root) :
    isAbsolute (pathOf s root) := by
  unfold pathOf
  generalize (if Text.isBlank s.path then CacheSettings.path {} else Text.trim s.path) = path
  by_cases habs : isAbsolute path
  · simp only [habs, if_true]
  · simp only [habs]
    exact Path.isAbsolute_join h _

section Sharing

variable (h : Consistent place visits v.world.tree) (hshares : v.Shares place)
  (hhere : isAbsolute v.means.here = true)

include h hshares hhere in
lemma Consistent.exists_leadsTo (hsurvey : v.Surveys t paths tags) :
    ∃ entries, isAbsolute (pathOf v.request.settings.cache t.root) ∧ LeadsTo v.world.tree
        (Path.cleanComponents (pathOf v.request.settings.cache t.root)) place entries ∧
      Holds entries "keys" (IsPointer visits) ∧ Holds entries "objects" (IsObject visits) := by
  obtain ⟨entries, hdir, hkeys, hobjects⟩ := h.kept
  have hroot := v.isAbsolute_root hhere h.wellFormed h.isDir hsurvey
  have habs := isAbsolute_pathOf v.request.settings.cache hroot
  refine ⟨entries, habs, ⟨fun n hn => Path.isName_of_mem_cleanComponents habs hn, ?_, hdir⟩, hkeys,
    hobjects⟩
  rw [← Path.clean_of_isAbsolute habs]
  exact hshares.2 t paths tags hsurvey

include h hshares hhere in
lemma Consistent.exists_prepare (hsurvey : v.Surveys t paths tags) :
    ∃ tree' entries keys objects, prepare v.world.tree v.request.settings.cache t.root = (tree',
          { path := pathOf v.request.settings.cache t.root, enabled := true, usable := true }) ∧
      isAbsolute (pathOf v.request.settings.cache t.root) ∧
      LeadsTo tree' (Path.cleanComponents (pathOf v.request.settings.cache t.root)) place entries ∧
      get? "keys" entries = some (.dir keys) ∧ get? "objects" entries = some (.dir objects) ∧
      Holds entries "keys" (IsPointer visits) ∧ Holds entries "objects" (IsObject visits) ∧
      WellFormed tree' ∧ Extends v.world.tree tree' ∧ ∀ file n file' n', get? file keys = some n →
        get? file' objects = some n' → tree' = v.world.tree := by
  obtain ⟨entries, habs, hleads, hkeys, hobjects⟩ := h.exists_leadsTo hshares hhere hsurvey
  obtain ⟨tree', entries', keys, objects, hprepare, hleads', hget, hget', hgrows, hsame⟩ :=
    Cache.exists_prepare habs hshares.1 hleads hkeys hobjects
  refine ⟨tree', entries', keys, objects, hprepare, habs, hleads', hget, hget', hgrows.holds
    _ _ hkeys, hgrows.holds _ _ hobjects, hgrows.wellFormed h.wellFormed, hgrows.extended, ?_⟩
  intro file n file' n' hfile hfile'
  obtain ⟨keys₀, hkeys₀⟩ := hgrows.exists_dir hkeys hget hfile
  obtain ⟨objects₀, hobjects₀⟩ := hgrows.exists_dir hobjects hget' hfile'
  exact hsame keys₀ objects₀ hkeys₀ hobjects₀

/-! ### What the directory holds -/

lemma Consistent.start (hwf : WellFormed tree) (hempty : tree.find? place = some (.dir [])) :
    Consistent place [] tree :=
  ⟨hwf, by simp, [], hempty, holds_nil, holds_nil⟩

lemma Consistent.edit {tree' : Node} (h : Consistent place visits tree) (hwf : WellFormed tree')
    (hsame : tree'.find? place = tree.find? place) : Consistent place visits tree' := by
  refine ⟨hwf, h.settled, ?_⟩
  rw [hsame]
  exact h.kept

include h hshares hhere in
lemma Consistent.settles : v.Settled := by
  refine ⟨h.wellFormed, h.isDir, fun t paths tags hsurvey => ?_⟩
  obtain ⟨tree, -, -, -, hprepare, -, -, -, -, -, -, -, hext, -⟩ :=
    h.exists_prepare hshares hhere hsurvey
  rwa [Visit.prepared, hprepare]

lemma Consistent.of_holds (h : Consistent place visits v.world.tree) (hv : v.Settled) {tree' : Node}
    {entries : Table Node} (hwf : WellFormed tree') (hdir : tree'.find? place = some (.dir entries))
    (hkeys : Holds entries "keys" (IsPointer (visits ++ [v])))
    (hobjects : Holds entries "objects" (IsObject (visits ++ [v]))) :
    Consistent place (visits ++ [v]) tree' := by
  refine ⟨hwf, fun u hu => ?_, entries, hdir, hkeys, hobjects⟩
  rcases mem_append.mp hu with hu | hu
  · exact h.settled u hu
  · rwa [mem_singleton.mp hu]

include h hshares hhere in
lemma Consistent.scan :
    Consistent place (visits ++ [v]) (run v.means v.world v.request).1.tree := by
  have hmono : visits ⊆ visits ++ [v] := subset_append_left _ _
  have hsettled := h.settles hshares hhere
  cases hsurvey : survey v.means v.world.tree v.request with
  | error cause =>
    obtain ⟨entries, hdir, hkeys, hobjects⟩ := h.kept
    rw [run, hsurvey]
    exact h.of_holds hsettled h.wellFormed hdir (hkeys.mono fun _ _ => IsPointer.mono hmono)
      (hobjects.mono fun _ _ => IsObject.mono hmono)
  | ok found =>
    obtain ⟨t, paths, tags⟩ := found
    obtain ⟨tree, entries, keys, objects, hprepare, habs, hleads, hget, hget', hkeys, hobjects, hwf,
        -, -⟩ :=
      h.exists_prepare hshares hhere hsurvey
    replace hkeys := hkeys.mono fun _ _ => IsPointer.mono hmono
    replace hobjects := hobjects.mono fun _ _ => IsObject.mono hmono
    rw [run_of_survey hsurvey]
    rcases runOn_tree v.means paths tags hprepare rfl rfl with
      hsame | ⟨hfinite, hmiss, records, p, c, hrecords, hplan, hpath, hwrite⟩
    · rw [hsame]
      exact h.of_holds hsettled hwf hleads.dir hkeys hobjects
    · have htree : v.prepared t = tree := by rw [Visit.prepared, hprepare]
      let i : v.Input := ⟨t, paths, tags, records, hsurvey, by rw [Visit.Records, htree, hrecords]⟩
      have hfinds : v.Finds i (planReport v.means p v.request.settings) := by
        refine ⟨fun r hr => ?_, hfinite, p, by rw [htree, hplan], rfl⟩
        obtain ⟨hrun, note, hnote, hhit⟩ := hr
        rw [run_of_survey hsurvey] at hrun
        rw [hmiss r note hrun hnote] at hhit
        cases hhit
      have hpath' : c.path = pathOf v.request.settings.cache t.root := hpath
      have hkey := validName_keyDigest t.root t.file v.request.settings
      obtain ⟨entries', hdir, hwf', hkeys', hobjects'⟩ := exists_of_write
        (by rw [hpath', habs]) (by rw [hpath']; exact hleads) hget hget' hfinds.plain.cache hobjects
        (fun file n => IsObject.exists_file) hwrite hkey
      have hv : v ∈ visits ++ [v] := mem_concat_self
      refine h.of_holds hsettled (hwf' hwf) hdir (hkeys' _ ?_ hkeys) (hobjects' _ ?_ hobjects)
      · exact ⟨v, hv, i, _, hfinds, rfl, rfl⟩
      · exact ⟨v, hv, i, _, hfinds, rfl, rfl⟩

lemma History.consistent (h : History place visits tree)
    (hhere : ∀ u ∈ visits, isAbsolute u.means.here) : Consistent place visits tree := by
  induction h with
  | start hwf hempty => exact .start hwf hempty
  | edit earlier hwf hsame ih => exact (ih hhere).edit hwf hsame
  | scan earlier hshares ih =>
    refine (ih fun u hu => hhere u (mem_append_left _ hu)).scan hshares (hhere _ ?_)
    exact mem_concat_self

/-! ### What is taken from the directory -/

/-- No two data that the scans digest for one purpose have one digest. -/
def NoCollision (visits : List Visit) : Prop :=
  ∀ kind, Set.InjOn Digest.sha256Hex {bytes | ∃ u ∈ visits, u.Digests kind bytes}

lemma NoCollision.eq {u' : Visit} (h : NoCollision visits) (hu : u ∈ visits) (hu' : u' ∈ visits)
    {kind : Digested}
    {bytes bytes' : Bytes} (hbytes : u.Digests kind bytes) (hbytes' : u'.Digests kind bytes')
    (hdigest : Digest.sha256Hex bytes = Digest.sha256Hex bytes') : bytes = bytes' :=
  h kind ⟨u, hu, hbytes⟩ ⟨u', hu', hbytes'⟩ hdigest

lemma eq_of_append_json {s s' : String} (h : s ++ ".json" = s' ++ ".json") : s = s' := by
  rw [← String.toList_inj, String.toList_append, String.toList_append] at h
  exact String.toList_inj.mp (append_cancel_right h)

/-- Two scans ask for the same, and the digests of what they read are the same. -/
structure SameDigests {u v : Visit} (i : u.Input) (j : v.Input) : Prop where
  key : keyJson i.target.root i.target.file u.request.settings =
    keyJson j.target.root j.target.file v.request.settings
  input : recordText i.records = recordText j.records

/-- Besides its own marks, a scan that takes a report from the directory reports what was kept. -/
lemma reuse_eq {found : Report} (h : found.Plain) (m : Means) (c : Cache) (moment : Moment) :
    { reuse m c { found with generatedAt := moment } with cache := none } =
      { found with runId := m.runId, generatedAt := m.now } := by
  have hcache := h.cache
  cases found
  subst hcache
  rfl

include h hshares hhere in
/-- A kept report was found by an earlier scan that asked for the same and read the same. -/
lemma Consistent.exists_finds_of_hits (hinj : NoCollision (visits ++ [v])) {r : Report}
    (hhits : v.Hits r) : ∃ u ∈ visits, ∃ (i : u.Input) (j : v.Input) (found : Report),
      u.Finds i found ∧ SameDigests i j ∧
      v.prepared j.target = v.world.tree ∧ { r with cache := none } =
        { found with runId := v.means.runId, generatedAt := v.means.now } := by
  obtain ⟨hrun, note, hnote, hkept⟩ := hhits
  obtain ⟨t, paths, tags, hsurvey, hrun⟩ := exists_survey_of_run hrun
  obtain ⟨tree, entries, keys, objects, hprepare, habs, hleads, hget, hget', hkeys, hobjects, -, -,
      hsame⟩ :=
    h.exists_prepare hshares hhere hsurvey
  have htree : v.prepared t = tree := by rw [Visit.prepared, hprepare]
  obtain ⟨hfinite, records, kept, hrecords, hlookup, rfl⟩ :=
    exists_lookup_of_hit hprepare rfl rfl hrun hnote hkept
  obtain ⟨content, p, content', hread, hpointer, hinput, hread', hobject⟩ := lookup?_eq_ok hlookup
  have hv : v ∈ visits ++ [v] := mem_concat_self
  have hold : ∀ {u}, u ∈ visits → u ∈ visits ++ [v] := fun hu => mem_append_left _ hu
  -- the pointer was written by an earlier scan
  obtain ⟨mode, hfile, u, hu, i, found, hfinds, hkey, hnode⟩ :=
    hkeys.exists_of_readUnder habs hleads validName_keys.toIsName
      (validName_digestText _).toIsName hget (fun file n => IsPointer.exists_file) hread
  obtain ⟨rfl, rfl⟩ := file.inj hnode
  rw [decodeBytes_bytesOf, pointer?_compact_pointerJson, Option.some.injEq] at hpointer
  subst hpointer
  -- and so was the report that it leads to
  obtain ⟨mode', hfile', u', hu', i', found', hfinds', hdigest, hnode'⟩ :=
    hobjects.exists_of_readUnder habs hleads validName_objects.toIsName
      (validName_digestText _).toIsName hget' (fun file n => IsObject.exists_file) hread'
  obtain ⟨rfl, rfl⟩ := file.inj hnode'
  have htext : objectText found = objectText found' :=
    bytesOf_injective
      (hinj.eq (hold hu) (hold hu') (.result hfinds) (.result hfinds') (eq_of_append_json hdigest))
  rw [decodeBytes_bytesOf, ← htext] at hobject
  obtain ⟨moment, rfl⟩ := exists_of_object?_objectText hfinds.plain hobject
  let j : v.Input := ⟨t, paths, tags, records, hsurvey, by rw [Visit.Records, htree, hrecords]⟩
  refine ⟨u, hu, i, j, found, hfinds, ⟨?_, ?_⟩, htree.trans (hsame _ _ _ _ hfile hfile'), ?_⟩
  · have hbytes := hinj.eq (hold hu) hv (.key i) (.key j) (eq_of_append_json hkey).symm
    exact (proper_keyJson hfinds.finite).eq_of_compact_eq (proper_keyJson hfinite)
      (bytesOf_injective hbytes)
  · exact bytesOf_injective (hinj.eq (hold hu) hv (.records i) (.records j) hinput)
  · exact reuse_eq hfinds.plain v.means _ moment

end Sharing

/-! ### Results that are found again -/

section First

variable {u : Visit} (hconsistent : Consistent place [] u.world.tree) (hshares : u.Shares place)
    (hhere : isAbsolute u.means.here = true) (i : u.Input)
    (hfinite : u.request.settings.lint.rate.isFinite = true) {p : Plan} (hplan : planOf u.means
  (u.prepared i.target) i.target.root i.paths i.ecosystems u.request.settings = .ok p)

include hconsistent hshares hhere hfinite hplan

lemma exists_kept_of_first :
    Extends u.world.tree (run u.means u.world u.request).1.tree ∧ ∃ entries keys objects,
      (run u.means u.world u.request).1.tree.find? place = some (.dir entries) ∧
      get? "keys" entries = some (.dir keys) ∧ get? "objects" entries = some (.dir objects) ∧
      get? (keyDigest i.target.root i.target.file u.request.settings ++ ".json") keys =
        some (pointerNode (digestText (recordText i.records))
          (planReport u.means p u.request.settings)) ∧
      get? (digestText (objectText (planReport u.means p u.request.settings)) ++ ".json")
        objects = some (objectNode (planReport u.means p u.request.settings)) := by
  obtain ⟨tree, entries, keys, objects, hprepare, habs, hleads, hget, hget', hkeys, hobjects, -,
      hext, -⟩ :=
    hconsistent.exists_prepare hshares hhere i.surveys
  have htree : u.prepared i.target = tree := by rw [Visit.prepared, hprepare]
  have hkey := validName_keyDigest i.target.root i.target.file u.request.settings
  have hrecords := i.reads
  rw [Visit.Records, htree] at hrecords
  rw [htree] at hplan
  -- no pointer and no result is there yet
  have hnoKey := hkeys.get?_eq_none (fun file n ⟨_, hu, _⟩ => not_mem_nil hu) hget
  have hnoObject := hobjects.get?_eq_none (fun file n ⟨_, hu, _⟩ => not_mem_nil hu) hget'
  -- the results as they are opened, and the entry of the scan
  generalize hc : ({ path := pathOf u.request.settings.cache i.target.root, enabled := true
                     usable := true } : Cache) = c at hprepare
  have hpath : c.path = pathOf u.request.settings.cache i.target.root := by rw [← hc]
  have husable : c.usable := by rw [← hc]
  rw [← hpath] at habs hleads
  obtain ⟨tree', entries', hwrite, hext', hleads', hget₁, hget₂⟩ :=
    exists_write (e := ⟨keyDigest i.target.root i.target.file u.request.settings,
      digestText (recordText i.records)⟩) habs hleads hget hget' (plain_planReport hplan).cache
      (hnoKey _) (hnoObject _) hkey
  have hfinal : (run u.means u.world u.request).1.tree = tree' := by
    rw [run_of_survey i.surveys]
    refine runOn_of_write hprepare (entryOf_eq husable hfinite hrecords) husable
      (fun kept hkept => ?_) hplan hwrite
    obtain ⟨content, p, -, hread, -⟩ := lookup?_eq_ok hkept
    obtain ⟨mode, hfile, -⟩ := hkeys.exists_of_readUnder habs hleads validName_keys.toIsName
      hkey.toIsName hget (fun file n => IsPointer.exists_file) hread
    rw [hnoKey] at hfile
    cases hfile
  rw [hfinal]
  refine ⟨hext.trans hext', entries', _, _, hleads'.dir, hget₁, hget₂, ?_, ?_⟩
  · rw [get?_insert, if_pos rfl]
  · rw [get?_insert, if_pos rfl]

/-- A scan that asks for the same and reads the same as the first one finds what that one kept. -/
lemma exists_hits_of_first (hlegible : (planReport u.means p u.request.settings).Legible)
    (hlater : History place [u] v.world.tree)
    (hsame : v.world.tree.find? place = (run u.means u.world u.request).1.tree.find? place)
    (hshares' : v.Shares place) (hhere' : isAbsolute v.means.here)
    (hfinite' : v.request.settings.lint.rate.isFinite) (j : v.Input) (hdigests : SameDigests i j) :
    ∃ r, v.Hits r ∧ { r with cache := none } =
      { planReport u.means p u.request.settings with runId := v.means.runId, generatedAt := v.means.now } := by
  obtain ⟨-, entries, keys, objects, hdir, hget, hget', hpointer, hobject⟩ :=
    exists_kept_of_first hconsistent hshares hhere i hfinite hplan
  have hconsistent' : Consistent place [u] v.world.tree := hlater.consistent (by simpa using hhere)
  obtain ⟨entries', habs, hleads, hkeys, hobjects⟩ :=
    hconsistent'.exists_leadsTo hshares' hhere' j.surveys
  obtain rfl : entries = entries' := by
    have hdir' := hleads.dir
    rw [hsame, hdir] at hdir'
    exact dir.inj (Option.some.inj hdir')
  obtain ⟨tree, -, -, -, hprepare, -, -, -, -, hunchanged⟩ :=
    exists_prepare habs hshares'.1 hleads hkeys hobjects
  obtain rfl := hunchanged keys objects hget hget'
  generalize hc : ({ path := pathOf v.request.settings.cache j.target.root, enabled := true
                     usable := true } : Cache) = c at hprepare
  have hpath : c.path = pathOf v.request.settings.cache j.target.root := by rw [← hc]
  have husable : c.usable := by rw [← hc]
  have henabled : c.enabled := by rw [← hc]
  rw [← hpath] at habs hleads
  have hrecords := j.reads
  rw [Visit.Records, Visit.prepared, hprepare] at hrecords
  have hkey : keyDigest i.target.root i.target.file u.request.settings =
      keyDigest j.target.root j.target.file v.request.settings := by
    rw [keyDigest, keyDigest, hdigests.key]
  have hvalid := validName_keyDigest j.target.root j.target.file v.request.settings
  rw [hkey, hdigests.input] at hpointer
  obtain ⟨read, hread⟩ := exists_object?_objectText hlegible
  have hlookup := lookup?_of_kept (e := ⟨keyDigest j.target.root j.target.file v.request.settings,
    digestText (recordText j.records)⟩) habs hleads hget hget' husable hpointer hobject hvalid hread
    v.means.here
  have hnote : (reuse v.means c read).cache =
      some ⟨true, c.path, true, c.written, (c.invalidation.map Invalidation.word).getD ""⟩ := by
    simp [reuse, note?, henabled]
  have hplain := plain_planReport hplan
  obtain ⟨moment, rfl⟩ := exists_of_object?_objectText hplain hread
  refine ⟨reuse v.means c _, ⟨?_, _, hnote, rfl⟩, ?_⟩
  · rw [run_of_survey j.surveys]
    exact (runOn_of_hit hprepare (entryOf_eq husable hfinite' hrecords) hlookup).2
  · exact reuse_eq hplain v.means c moment

end First

end PluginAudit.Scan
