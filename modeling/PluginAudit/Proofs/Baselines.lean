import PluginAudit.Proofs.Decoding
import PluginAudit.Proofs.SourceFiles
import PluginAudit.Proofs.WrittenFiles

/-!
Saving a report under a key and reading it back: the versions and fingerprints that a baseline
accepts survive the way through a file.
-/

open List

namespace PluginAudit

open Text (trim isBlank)
open Table (get?)
open PluginAudit.Path (IsName seenFrom isAbsolute absolute)
open Report

/-! ### Fingerprints -/

lemma Digest.sha256Hex_ne_nil (bytes : Bytes) : (Digest.sha256Hex bytes).toList ≠ [] := by
  simp [Digest.sha256Hex, Digest.hex, Digest.sha256, Digest.bigEndian, Text.hexDigits]

lemma Finding.fingerprint_ne_empty (f : Finding) (root : String) : f.fingerprint root ≠ "" := by
  intro h
  have hlist := congrArg String.toList h
  rw [Finding.fingerprint, String.toList_ofList] at hlist
  have hnil := (take_eq_nil_iff.mp hlist).resolve_left (by decide)
  exact Digest.sha256Hex_ne_nil _ hnil

/-- Every issue was made from a finding. -/
def Report.IsMade (r : Report) : Prop :=
  ∀ o ∈ r.outcomes.items, ∀ i ∈ o.issues.items, ∃ root f, i = Issue.ofFinding root f

def Report.IsMarked (r : Report) : Prop := ∀ m ∈ r.marks, "" ∉ m.2.2

lemma Report.IsMade.isMarked {r : Report} (h : r.IsMade) : r.IsMarked := by
  intro m hm hempty
  obtain ⟨o, ho, rfl⟩ := mem_map.mp hm
  obtain ⟨i, hi, hfingerprint⟩ := mem_map.mp hempty
  obtain ⟨root, f, rfl⟩ := h o ho i hi
  exact f.fingerprint_ne_empty root hfingerprint

namespace Baseline

variable {r : Report} {key here dir : String} {now : Moment} {tree : Node}

/-! ### What a baseline accepts -/

lemma entries_ofReport (h : r.IsMarked) (path key : String) : (ofReport path key r).entries =
      (r.marks.flatMap fun m => m.2.2.map (entryOf m.1 m.2.1)).eraseDups := by
  have hentries : (r.outcomes.items.flatMap fun o =>
      o.issues.items.map fun i => entryOf o.php o.wp (fingerprintOf r.pluginRoot i)) =
      r.marks.flatMap fun m => m.2.2.map (entryOf m.1 m.2.1) := by
    rw [marks, flatMap_map]
    refine flatMap_congr fun o ho => ?_
    rw [Outcome.mark, map_map]
    refine map_congr_left fun i hi => ?_
    have hmarked : i.fingerprint ≠ "" := by
      intro hempty
      exact h _ (mem_map_of_mem ho) (hempty ▸ mem_map_of_mem hi)
    rw [fingerprintOf, if_neg hmarked, Function.comp_apply]
  rw [ofReport, hentries]

lemma accepts_ofReport_of_marks {r' : Report} (h : r.IsMarked) (hmarks : r'.marks = r.marks)
    (path key path' key' php wp fingerprint : String) : (ofReport path' key' r').accepts php wp
      fingerprint = (ofReport path key r).accepts php wp fingerprint := by
  have h' : r'.IsMarked := by rwa [Report.IsMarked, hmarks]
  rw [accepts, accepts, entries_ofReport h, entries_ofReport h', hmarks]

lemma accepts_of_mem (h : r.IsMarked) (path key : String) {o : Outcome} (ho : o ∈ r.outcomes.items)
    {i : Issue}
    (hi : i ∈ o.issues.items) : (ofReport path key r).accepts o.php o.wp i.fingerprint := by
  rw [accepts, entries_ofReport h, contains_iff_mem, mem_eraseDups, mem_flatMap]
  exact ⟨o.mark, mem_map_of_mem ho, mem_map_of_mem (mem_map_of_mem hi)⟩

/-! ### Applying a baseline -/

/-- The baseline accepts every issue of a report. -/
def Covers (b : Baseline) (r : Report) : Prop :=
  ∀ o ∈ r.outcomes.items, ∀ i ∈ o.issues.items, b.accepts o.php o.wp i.fingerprint = true

lemma covers_of_marks {r' : Report} (h : r.IsMarked) (hmarks : r'.marks = r.marks)
    (path key : String) : (ofReport path key r').Covers r := by
  intro o ho i hi
  rw [accepts_ofReport_of_marks h hmarks path key]
  exact accepts_of_mem h path key ho hi

lemma Covers.outcomes_apply {b : Baseline} (h : b.Covers r) :
    (b.apply r).outcomes = r.outcomes.map fun all => all.map fun o =>
      { o with
        issues := some []
        passed := true
        baselined := Decimal.wrapInt (o.baselined + o.issues.items.length) } := by
  cases hall : r.outcomes with
  | none => simp [apply, finalize, hall]
  | some all =>
    simp only [apply, finalize, hall, Option.map_some, Option.some.injEq, map_map]
    refine map_congr_left fun o ho => ?_
    have hmem : o ∈ r.outcomes.items := by rw [hall]; exact ho
    have hfilter : o.issues.items.filter (fun i => !b.accepts o.php o.wp i.fingerprint) = [] := by
      rw [filter_eq_nil_iff]
      intro i hi
      simp [h o hmem i hi]
    have hcount : o.issues.items.countP (fun i => b.accepts o.php o.wp i.fingerprint) =
        o.issues.items.length := countP_eq_length.mpr (h o hmem)
    simp only [Function.comp_apply, applyTo, hfilter, hcount]
    rfl

lemma Covers.countIn_eq {b : Baseline} (h : b.Covers r) :
    b.countIn r = (issuesOf r.outcomes.items).length := by
  rw [countIn, issuesOf]
  revert h
  rw [Covers]
  generalize r.outcomes.items = all
  intro h
  induction all with
  | nil => rfl
  | cons o all ih =>
    rw [foldr_cons, ih (forall_mem_cons.mp h).2, flatMap_cons,
      length_append, countP_eq_length.mpr (h o mem_cons_self)]

/-! ### Reading a document -/

@[simp] lemma marks_savedReport (r : Report) : (savedReport r).marks = r.marks := by
  simp [savedReport, finalize, marks, Listing.items, Outcome.mark]

/-- A snapshot is read as a baseline with the versions and fingerprints of its report. -/
lemma exists_ofText_snapshot (h : (snapshotOf key r now).Legible) (path : String) : ∃ read :
    Report, read.marks = r.marks ∧ ofText path (documentText (snapshotOf key r now).toJson).toList =
        .ok (ofReport path (trim (trim key)) read) := by
  have hproper : (snapshotOf key r now).toJson.Proper := by
    refine .obj ?_
    simp only [mem_cons, not_mem_nil, or_false, forall_eq_or_imp, forall_eq]
    exact ⟨.str _, .str _, .str _, h.report.proper⟩
  obtain ⟨read, hread, hschema, hkey, hmarks⟩ :=
    Snapshot.exists_ofJson? h (show isBlank currentSchema = false by decide)
  refine ⟨read.report, hmarks.trans (marks_savedReport r), ?_⟩
  rw [ofText, documentText, Json.parse?_pretty hproper, Option.bind_some, hread]
  simp only
  rw [hschema, hkey]
  rfl

lemma exists_ofText_report (h : r.Legible) (path : String) : ∃ read : Report, read.marks = r.marks ∧
      ofText path (documentText r.toJson).toList = .ok (ofReport path "" read) := by
  obtain ⟨read, hread⟩ := accepts_toJson h {}
  refine ⟨read, marks_of_read hread, ?_⟩
  rw [ofText, documentText, Json.parse?_pretty h.proper, Option.bind_some,
    Snapshot.ofJson?_report, Option.bind_some]
  simp only [ofJson?, hread]

/-! ### The file of a key -/

lemma isNameChar_of_mem_nameOfKey {c : Char} (h : c ∈ (nameOfKey key).toList) : isNameChar c := by
  rw [nameOfKey] at h
  split at h
  · exact all_eq_true.mp (by decide) c h
  · rw [String.toList_ofList] at h
    -- what is trimmed is part of what was there
    have hkept : c ∈ key.toList.map fun c => if isNameChar c then c else '_' := by
      rw [Text.trimBy, Text.trimEndBy, Text.trimStartBy, mem_reverse] at h
      exact (dropWhile_sublist _).mem (mem_reverse.mp ((dropWhile_sublist _).mem h))
    obtain ⟨c', -, rfl⟩ := mem_map.mp hkept
    split
    · assumption
    · decide

lemma isName_fileOfKey (key : String) : IsName (fileOfKey key) := by
  have hlong : ∀ s : String, s.length < 5 → fileOfKey key ≠ s := by
    rintro s hs rfl
    rw [fileOfKey, String.length_append, show ".json".length = 5 by decide] at hs
    omega
  refine ⟨hlong _ (by decide), hlong _ (by decide), hlong _ (by decide), ?_⟩
  rw [fileOfKey, String.toList_append, mem_append, not_or]
  constructor
  · intro h
    exact absurd (isNameChar_of_mem_nameOfKey h) (by decide)
  · decide

def snapshotFile (key : String) (r : Report) (now : Moment) : Node :=
  .file (bytesOf (documentText (snapshotOf key r now).toJson)) .plain

/-- The directory that was named is there, as it was written, and nothing but directories is new. -/
structure HasStore (tree tree' : Node) (here dir : String) (place : List String)
    (entries : Table Node) : Prop where
  extended : Node.Extends tree tree'
  adds : Node.Adds (fun _ => False) tree tree'
  leads : FileTree.resolve tree' (seenFrom here (trim dir)) = .ok place
  isDir : tree'.find? place = some (.dir entries)

/-- How saving a report ends, and what it leaves. -/
inductive Ending (tree : Node) (here dir key : String) (r : Report) (now : Moment) :
    Node × Except SaveError String → Prop
  | refused (e : SaveError) : Ending tree here dir key r now (tree, .error e)
  | unmade {failed : FileTree.Failed}
    (make : FileTree.makeDirs tree (seenFrom here (trim dir)) = .error failed)
    (e : SaveError) : Ending tree here dir key r now (failed.tree, .error e)
  | taken {tree' place entries n} (store : HasStore tree tree' here dir place entries)
    (there : get? (fileOfKey key) entries = some n) :
    Ending tree here dir key r now (tree', .error (.taken (trim key) (snapshotPath dir key)))
  | unwritable {tree' place entries cause} (store : HasStore tree tree' here dir place entries)
    (free : get? (fileOfKey key) entries = none)
    (obstacle : (snapshotOf key r now).obstacle? = some cause) : Ending tree here dir key r now
      (tree'.put (place ++ [fileOfKey key]) (.file [] .plain), .error (.unwritable cause))
  | saved {tree' place entries} (given : isBlank dir = false)
    (store : HasStore tree tree' here dir place entries)
    (free : get? (fileOfKey key) entries = none) : Ending tree here dir key r now
      (tree'.put (place ++ [fileOfKey key]) (snapshotFile key r now), .ok (snapshotPath dir key))

lemma ending_save (htop : tree.isDir) (here dir key : String) (r : Report) (now : Moment) :
    Ending tree here dir key r now (save tree here dir key r now) := by
  unfold save
  by_cases hdir : isBlank dir
  · rw [if_pos hdir]
    exact .refused _
  by_cases hkey : isBlank key
  · rw [if_neg hdir, if_pos hkey]
    exact .refused _
  rw [if_neg hdir, if_neg hkey]
  cases hmake : FileTree.makeDirs tree (seenFrom here (trim dir)) with
  | error failed => exact .unmade hmake _
  | ok tree₁ =>
    obtain ⟨hext, place, entries, hplace, hfind⟩ := FileTree.exists_dir_of_makeDirs htop hmake
    have hadds := FileTree.adds_makeDirs (P := fun _ => False) tree (seenFrom here (trim dir))
    rw [hmake] at hadds
    have hstore : HasStore tree tree₁ here dir place entries := ⟨hext, hadds, hplace, hfind⟩
    dsimp only
    rw [FileTree.createFile_eq hplace (isName_fileOfKey key), Node.find?_concat_of_dir hfind]
    cases hget : get? (fileOfKey key) entries with
    | some n => exact .taken hstore hget
    | none =>
      cases hobstacle : (snapshotOf key r now).obstacle? with
      | some cause => exact .unwritable hstore hget hobstacle
      | none => exact .saved (Bool.eq_false_of_not_eq_true hdir) hstore hget

lemma readBeside_of_save {tree' : Node}
    {path : String} (hhere : isAbsolute here) (htop : tree.isDir)
    (h : save tree here dir key r now = (tree', .ok path))
    (hplace : FileTree.resolve tree' (absolute here (trim dir)) =
      FileTree.resolve tree' (seenFrom here (trim dir))) : FileTree.readBeside tree' here path =
      .ok (bytesOf (documentText (snapshotOf key r now).toJson)) := by
  have hending := ending_save htop here dir key r now
  rw [h] at hending
  cases hending with
  | saved hdir hstore hfree =>
    obtain ⟨names, hnames, habsolute, htarget⟩ :=
      Path.absolute_join_name hhere (Text.trim_ne_empty hdir) (isName_fileOfKey key)
    have hleads' := FileTree.follow_of_extends
      (Node.extends_put hstore.isDir hfree (snapshotFile key r now)) hstore.leads
    rw [habsolute] at hplace
    have hleads : FileTree.LeadsTo _ names _ _ :=
      ⟨hnames, hplace.trans hleads', Node.find?_put_append hstore.isDir _ _⟩
    exact hleads.readBeside_file (by rw [Table.get?_insert, if_pos rfl]; rfl)
      (isName_fileOfKey key) htarget

/-! ### Saving and reading back -/

/-- A report whose issues were made from findings, saved under a key, is read back as a baseline
that accepts all of them, if the clean path of the directory leads where the directory does as it is
written. The baseline that is read from the report's own document accepts the same. -/
theorem load_of_save {tree : Node} {here dir key : String} {r : Report} {now : Moment}
    {tree' : Node} {path : String} (hhere : isAbsolute here = true) (htop : tree.isDir = true)
    (hmade : r.IsMade)
    (hreport : r.Legible) (hsnapshot : (snapshotOf key r now).Legible)
    (hsave : save tree here dir key r now = (tree', .ok path))
    (hplace : FileTree.resolve tree' (absolute here (trim dir)) =
      FileTree.resolve tree' (seenFrom here (trim dir))) :
    ∃ b, load tree' here path = .ok b ∧
      (b.apply r).outcomes = (r.outcomes.map fun all => all.map fun o =>
        { o with
          issues := some []
          passed := true
          baselined := Decimal.wrapInt (o.baselined + o.issues.items.length) }) ∧
      b.countIn r = (Report.issuesOf r.outcomes.items).length ∧
      ∀ tree'' here' path' color,
        FileTree.readBeside tree'' here' path' = .ok (bytesOf (r.write color .json)) → ∃ plain, load tree'' here' path' = .ok plain ∧
          ∀ php wp fingerprint, plain.accepts php wp fingerprint = b.accepts php wp fingerprint := by
  have hmarked := hmade.isMarked
  obtain ⟨read, hmarks, hread⟩ := exists_ofText_snapshot hsnapshot path
  have hcovers := covers_of_marks hmarked hmarks path (trim (trim key))
  refine ⟨_, ?_, hcovers.outcomes_apply, hcovers.countIn_eq, ?_⟩
  · rw [load, readBeside_of_save hhere htop hsave hplace]
    simp only
    rw [decodeBytes_bytesOf, hread]
  · intro tree'' here' path' color hplain
    obtain ⟨read', hmarks', hread'⟩ := exists_ofText_report hreport path'
    refine ⟨ofReport path' "" read', ?_, fun php wp fingerprint => ?_⟩
    · rw [load, hplain]
      simp only
      rw [decodeBytes_bytesOf, Report.write, hread']
    · rw [accepts_ofReport_of_marks hmarked hmarks' path "",
        accepts_ofReport_of_marks hmarked hmarks path ""]

/-! ### A directory behind a link -/

section

open FileTree

def linkedTree (inB besideB : List (String × Node)) : Node :=
  .dir [("a", .dir (("b", .dir inB) :: besideB)), ("link", .link "a/b")]

def sampleReport : Report :=
  { pluginRoot := "/p", phpVersions := some ["8.1"], wpVersions := some ["6.5"]
    generatedAt := ⟨0, 0, 0⟩
    outcomes := some [{
      php := "8.1", wp := "6.5", issues := some [.ofFinding "/p"
        { kind := .undefinedFunction, message := "f is not defined", file := "/p/a.php", line := 3
          severity := .error, context := [("function", .text "f")] }] }] }

lemma isMade_sampleReport : sampleReport.IsMade := by
  intro o ho i hi
  obtain rfl := mem_singleton.mp ho
  obtain rfl := mem_singleton.mp hi
  exact ⟨_, _, rfl⟩

lemma legible_sampleOutcomes : ∀ o ∈ sampleReport.outcomes.items, o.Legible := by
  intro o ho
  obtain rfl := mem_singleton.mp ho
  refine ⟨?_, by decide, by decide⟩
  intro i hi
  obtain rfl := mem_singleton.mp hi
  exact ⟨by decide, .record fun field hfield => mem_singleton.mp hfield ▸ .text "f"⟩

lemma legible_sampleReport : sampleReport.Legible where
  generatedAt := by unfold Moment.Legible; decide +kernel
  filesScanned := by decide
  outcomes := legible_sampleOutcomes
  summary := by constructor <;> decide
  baseline := by simp [sampleReport]

lemma legible_sampleSnapshot : (snapshotOf "k" sampleReport ⟨0, 0, 0⟩).Legible where
  savedAt := by unfold Moment.Legible; decide +kernel
  report :=
    { generatedAt := by unfold Moment.Legible; decide +kernel
      filesScanned := by decide
      outcomes := by
        intro o ho
        obtain rfl := mem_singleton.mp ho
        have := legible_sampleOutcomes _ (mem_singleton.mpr rfl)
        exact ⟨this.issues, this.suppressed, this.baselined⟩
      summary := by constructor <;> decide
      baseline := by simp [sampleReport, snapshotOf, savedReport, finalize] }

def plainTree : Node := .dir [("r.json", .file (bytesOf (sampleReport.write false .json)) .plain)]

lemma readBeside_plainTree :
    readBeside plainTree "/" "/r.json" = .ok (bytesOf (sampleReport.write false .json)) := by
  have hleads : LeadsTo plainTree [] [] _ := ⟨by decide, by decide +kernel, rfl⟩
  have hname : Path.IsName "r.json" := by decide
  exact hleads.readBeside_file rfl hname (by decide)

/-- A report with one issue is saved behind a link, and the issue is not left when it is read
back. -/
theorem load_of_save_behind_link :
    ∃ tree' b plain, save (linkedTree [] []) "/" "/link" "k" sampleReport ⟨0, 0, 0⟩ =
      (tree', .ok "/link/k.json") ∧
      load tree' "/" "/link/k.json" = .ok b ∧ b.countIn sampleReport = 1 ∧
      ((b.apply sampleReport).outcomes.items.map fun o =>
        (o.php, o.issues, o.passed, o.baselined)) = [("8.1", some [], true, 1)] ∧
      load plainTree "/" "/r.json" = .ok plain ∧ ∀ php wp fingerprint,
        plain.accepts php wp fingerprint = b.accepts php wp fingerprint := by
  have hsave := eq_of_toOption_snd (x := save (linkedTree [] []) "/" "/link" "k" sampleReport ⟨0, 0, 0⟩)
    (b := "/link/k.json") (by decide +kernel)
  have hplace : absolute "/" (trim "/link") = seenFrom "/" (trim "/link") := by
    decide +kernel
  obtain ⟨b, hload, happly, hcount, hplain⟩ := load_of_save (by decide) rfl isMade_sampleReport
    legible_sampleReport legible_sampleSnapshot hsave (by rw [hplace])
  obtain ⟨plain, hread, hsame⟩ := hplain _ _ _ _ readBeside_plainTree
  refine ⟨_, b, plain, hsave, hload, hcount, ?_, hread, hsame⟩
  rw [happly]
  rfl

/-- A directory that is named by a step up from a link is made where the step leads, and the clean
path that is given back leads elsewhere. -/
theorem not_load_of_save_above_link :
    ¬ ∀ r now tree' path,
      save (linkedTree [] []) "/" "/link/../store" "k" r now = (tree', .ok path) →
      ∃ b, load tree' "/" path = .ok b := by
  intro h
  have hsave :=
    eq_of_toOption_snd (x := save (linkedTree [] []) "/" "/link/../store" "k" {} ⟨0, 0, 0⟩)
    (b := "/store/k.json") (by decide +kernel)
  have hfails : (load (save (linkedTree [] []) "/" "/link/../store" "k" {} ⟨0, 0, 0⟩).1 "/"
      "/store/k.json").toOption.isNone = true := by decide +kernel
  obtain ⟨b, hload⟩ := h _ _ _ _ hsave
  rw [hload] at hfails
  cases hfails

end

end Baseline

end PluginAudit
