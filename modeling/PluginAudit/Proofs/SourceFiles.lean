import PluginAudit.Proofs.ConfinedFiles
import PluginAudit.Scan

/-!
The files of a scan. Each is reached from the root by names alone, without a link, so it reads the
same confined to the root and confined to its own directory.
-/

open List

namespace PluginAudit

open PluginAudit.Path (AreNames IsName rooted absolute_rooted absolute)
open Node

namespace FileTree

variable {skip : String → String → Bool} {leaf : String × Node} {path : String}
  {entries : Table Node}

/-! ### Walking -/

def pathBelow (path : String) (names : List String) : String := names.foldl childPath path

def Enters (skip : String → String → Bool) (path : String) : List String → Prop
  | [] => True
  | name :: rest => skip name (childPath path name) = false ∧ Enters skip (childPath path name) rest

lemma enters_iff {dirs : List String} : Enters skip path dirs ↔ ∀ before dir after,
        dirs = before ++ dir :: after → skip dir (pathBelow path (before ++ [dir])) = false := by
  induction dirs generalizing path with
  | nil => simp [Enters]
  | cons name rest ih =>
    rw [Enters, ih]
    constructor
    · rintro ⟨hname, hrest⟩ before dir after heq
      cases before with
      | nil =>
        cases heq
        exact hname
      | cons first before =>
        obtain ⟨rfl, htail⟩ := List.cons.inj heq
        exact hrest before dir after htail
    · intro h
      exact ⟨h [] name rest rfl, fun before dir after heq =>
        h (name :: before) dir after (heq ▸ rfl)⟩

lemma mem_leavesIn {dir : String} : leaf ∈ leavesIn skip dir entries ↔
      ∃ e ∈ entries, leaf ∈ leavesAt skip e.1 (childPath dir e.1) e.2 := by
  induction entries with
  | nil => simp [leavesIn]
  | cons entry entries ih => rw [leavesIn, mem_append, ih, exists_mem_cons_iff, leavesOf]

lemma mem_leavesAt {name : String} {n : Node} :
    leaf ∈ leavesAt skip name path n ↔ n.isDir = false ∧ leaf = (path, n) ∨
      ∃ entries, n = .dir entries ∧ skip name path = false ∧ leaf ∈ leavesIn skip path entries := by
  cases n with
  | dir entries =>
    rw [leavesAt]
    split_ifs with hskip
    · simp [Node.isDir, hskip]
    · simp [Node.isDir, hskip]
  | file content mode => simp [leavesAt, Node.isDir]
  | link target => simp [leavesAt, Node.isDir]

lemma sizeOf_lt_of_mem {name : String} {inner : Table Node}
    (h : (name, Node.dir inner) ∈ entries) : sizeOf inner < sizeOf entries := by
  have hlt := List.sizeOf_lt_of_mem h
  simp only [Prod.mk.sizeOf_spec, Node.dir.sizeOf_spec] at hlt
  omega

/-- The leaves of a directory are the nodes below it that are no directories and are reached without
a skipped directory. -/
lemma mem_leavesIn_iff {skip : String → String → Bool} {path : String} {entries : Table Node}
    (hwf : WellFormed (.dir entries)) {leaf : String × Node} : leaf ∈ leavesIn skip path entries ↔
      ∃ dirs name, (dir entries).find? (dirs ++ [name]) = some leaf.2 ∧
      leaf.2.isDir = false ∧ Enters skip path dirs ∧ leaf.1 = pathBelow path (dirs ++ [name]) := by
  have hordered := (hwf [] entries (find?_nil _)).1
  constructor
  · intro h
    obtain ⟨⟨first, n⟩, hmem, h⟩ := mem_leavesIn.mp h
    have hget := hordered.get?_of_mem hmem
    rcases mem_leavesAt.mp h with ⟨hleaf, rfl⟩ | ⟨inner, rfl, hskip, h⟩
    · exact ⟨[], first, (find?_concat_of_dir (find?_nil _) first).trans hget, hleaf, trivial, rfl⟩
    · obtain ⟨dirs, name, hfind, hleaf, henters, hpath⟩ :=
        (mem_leavesIn_iff (hwf.of_get? hget)).mp h
      refine ⟨first :: dirs, name, ?_, hleaf, ⟨hskip, henters⟩, hpath⟩
      rw [cons_append, find?_cons_dir, hget, Option.bind_some, hfind]
  · rintro ⟨dirs, name, hfind, hleaf, henters, hpath⟩
    rw [mem_leavesIn]
    cases dirs with
    | nil =>
      have hget := (find?_concat_of_dir (find?_nil _) name).symm.trans hfind
      exact ⟨(name, leaf.2), Table.mem_of_get? hget,
        mem_leavesAt.mpr (.inl ⟨hleaf, Prod.ext hpath rfl⟩)⟩
    | cons dir dirs =>
      rw [cons_append, find?_cons_dir] at hfind
      obtain ⟨child, hget, hfind⟩ := Option.bind_eq_some_iff.mp hfind
      obtain ⟨inner, rfl⟩ := exists_dir_of_find?_ne_nil hfind (by simp)
      refine ⟨(dir, .dir inner), Table.mem_of_get? hget,
        mem_leavesAt.mpr (.inr ⟨inner, rfl, henters.1, ?_⟩)⟩
      exact (mem_leavesIn_iff (hwf.of_get? hget)).mpr ⟨dirs, name, hfind, hleaf, henters.2, hpath⟩
termination_by sizeOf entries
decreasing_by
  · exact sizeOf_lt_of_mem hmem
  · exact sizeOf_lt_of_mem (Table.mem_of_get? hget)

lemma pathBelow_eq (hpath : path ≠ "") (names : List String) :
    pathBelow path names = "/".intercalate (path :: names) := by
  induction names generalizing path with
  | nil => simp [pathBelow]
  | cons name names ih =>
    have hne : path ++ "/" ++ name ≠ "" := by
      intro h
      have := congrArg String.toList h
      simp at this
    have hchild : childPath path name = path ++ "/" ++ name := by rw [childPath, if_neg hpath]
    rw [pathBelow, foldl_cons, hchild]
    refine (ih hne).trans ?_
    cases names with
    | nil => simp
    | cons next names => simp [String.append_assoc]

lemma pathBelow_top {names : List String} (hvalid : ∀ n ∈ names, ValidName n) :
    pathBelow "" names = "/".intercalate names := by
  cases names with
  | nil => rfl
  | cons first names =>
    have hchild : childPath "" first = first := by rw [childPath, if_pos rfl]
    rw [pathBelow, foldl_cons, hchild]
    exact pathBelow_eq (hvalid first mem_cons_self).ne_empty names

lemma mem_leaves_iff (hwf : WellFormed (.dir entries)) : leaf ∈ leaves skip (.dir entries) ↔
      ∃ dirs name, (dir entries).find? (dirs ++ [name]) = some leaf.2 ∧
      leaf.2.isDir = false ∧ Enters skip "" dirs ∧ leaf.1 = "/".intercalate (dirs ++ [name]) := by
  rw [leaves, mem_leavesIn_iff hwf]
  refine exists₂_congr fun dirs name => and_congr_right fun hfind => ?_
  rw [pathBelow_top (hwf.validName_of_mem hfind)]

lemma exists_names_of_mem_leaves {top : Node} (hwf : WellFormed top) (h : leaf ∈ leaves skip top) :
    ∃ names, names ≠ [] ∧ (∀ n ∈ names, ValidName n) ∧ top.find? names = some leaf.2 ∧
      leaf.1 = "/".intercalate names := by
  cases top with
  | dir entries =>
    obtain ⟨dirs, name, hfind, -, -, hpath⟩ := (mem_leaves_iff hwf).mp h
    exact ⟨dirs ++ [name], by simp, hwf.validName_of_mem hfind, hfind, hpath⟩
  | file content mode => cases h
  | link target => cases h

end FileTree

/-! ### Scanned files -/

namespace Scan

open FileTree

variable {tree : Node} {root paths : List String} {t : Target} {tags : Tags}

/-- The paths of scanned files: in increasing order, each below the root. -/
structure Scanned (root : List String) (paths : List String) : Prop where
  isName : ∀ n ∈ root, IsName n
  ordered : paths.Pairwise (· < ·)
  below :
    ∀ path ∈ paths, ∃ names, names ≠ [] ∧ (∀ n ∈ names, ValidName n) ∧ path = rooted (root ++ names)

lemma isName_append {names : List String} (hroot : AreNames root)
    (hnames : ∀ n ∈ names, ValidName n) : AreNames (root ++ names) :=
  fun n hn => (mem_append.mp hn).elim (hroot n) fun hn => (hnames n hn).toIsName

/-- A file below a directory, with no link on the way, reads the same confined to the directory and
confined to its own one. -/
lemma readUnder_eq_readBeside {place names : List String} {entries : Table Node}
    (h : LeadsTo tree root place entries) (hnames : ∀ n ∈ names, ValidName n) (hne : names ≠ [])
    {content : Bytes}
    {mode : FileMode} (hfind : (dir entries).find? names = some (.file content mode))
    (here : String) : readUnder tree here (rooted root) (rooted (root ++ names)) =
      readBeside tree here (rooted (root ++ names)) := by
  have hall := isName_append h.isName hnames
  have hnames' : AreNames names := fun n hn => (hnames n hn).toIsName
  rw [h.readUnder_eq here (absolute_rooted here h.isName) hnames' hne
    (absolute_rooted here hall), readConfined_file hnames' hfind hne]
  -- the directory of the file is reached by the names before the last one
  obtain ⟨init, last, rfl⟩ := (eq_nil_or_concat names).resolve_left hne
  rw [concat_eq_append] at *
  have hinner : ∃ inner, LeadsTo tree (root ++ init) (place ++ init) inner ∧
      Table.get? last inner = some (.file content mode) := by
    obtain ⟨inner, hinner, hget⟩ := exists_dir_of_find?_concat hfind
    exact ⟨inner, h.append (fun n hn => hnames' n (mem_append_left _ hn)) hinner, hget⟩
  obtain ⟨inner, hleads, hget⟩ := hinner
  rw [← append_assoc] at hall ⊢
  have hlast := hnames' last (by simp)
  rw [hleads.readBeside_eq here hlast (absolute_rooted here hall)]
  have hfile : (dir inner).find? [last] = some (.file content mode) := by
    rw [find?_cons_dir, hget]
    simp
  have hread := @readConfined_file _ [last] _ _ (rooted (root ++ init))
    (by simpa using hlast) hfile (by simp)
  rw [String.intercalate_singleton] at hread
  rw [hread]

/-- Confined to the directory it is in, a file reads as it does beside the others there. -/
lemma toOption_readUnder_dir (tree : Node) (here : String) {name : String} (hroot : AreNames root)
    (hname : IsName name) : (readUnder tree here (rooted root) (rooted (root ++ [name]))).toOption =
      (readBeside tree here (rooted (root ++ [name]))).toOption := by
  have hname' : ∀ n ∈ [name], IsName n := by simpa using hname
  have hall : AreNames (root ++ [name]) :=
    forall_mem_append.mpr ⟨hroot, hname'⟩
  have hrelative := Path.relative?_rooted_append hroot hname' (by simp)
  have hstays := not_leaves_intercalate hname'
  rw [String.intercalate_singleton] at hrelative hstays
  unfold readUnder readBeside
  rw [absolute_rooted here hroot, absolute_rooted here hall]
  dsimp only
  rw [hrelative, Path.dir_rooted_concat hroot hname, Path.base_rooted_concat root hname]
  dsimp only
  rw [if_neg (by rw [hstays]; exact Bool.false_ne_true)]
  cases openDir tree (rooted root) with
  | error e => rfl
  | ok top => rfl

lemma load?_eq_map {here root path : String} (hroot : root ≠ "") : Source.File.load? tree here root
      path = (readUnder tree here root path).toOption.map fun content =>
      ⟨path, Text.lineChars (Text.decodeBytes content)⟩ := by
  unfold Source.File.load? readLines
  rw [if_neg hroot]
  cases readUnder tree here root path <;> rfl

lemma survey_eq_ok {m : Means} {q : Request} (h : survey m tree q = .ok (t, paths, tags)) :
    q.settings.validate = .ok () ∧ Target.ofPath tree m.here q.path = .ok t ∧
      sourcesOf m tree t q.settings = .ok paths ∧
      ecosystemsOf m tree t.root q.settings = .ok tags := by
  obtain ⟨u, hvalid, h⟩ := exists_of_bind_eq_ok h
  obtain ⟨t', htarget, h⟩ := exists_of_bind_eq_ok h
  obtain ⟨paths', hpaths, h⟩ := exists_of_bind_eq_ok h
  obtain ⟨tags', htags, h⟩ := exists_of_bind_eq_ok h
  cases h
  exact ⟨mapError_eq_ok hvalid, mapError_eq_ok htarget, hpaths, htags⟩

lemma ofPath_eq_ok {here path : String} (h : Target.ofPath tree here path = .ok t) : ∃ given n,
      stat tree (absolute here given) = .ok n ∧ (n.isDir ∧ t = ⟨absolute here given, none⟩ ∨
        n.isDir = false ∧ t = ⟨Path.dir (absolute here given), some (absolute here given)⟩) := by
  unfold Target.ofPath at h
  dsimp only at h
  generalize (if path = "" then "." else path) = given at h
  refine ⟨given, ?_⟩
  split at h
  · cases h
  · cases h
  · rename_i entries hstat
    exact ⟨_, hstat, .inl ⟨rfl, (Except.ok.inj h).symm⟩⟩
  · rename_i n hdir hstat
    refine ⟨n, hstat, .inr ⟨?_, (Except.ok.inj h).symm⟩⟩
    cases n with
    | dir entries => exact absurd rfl (hdir entries)
    | file content mode => rfl
    | link target => rfl

lemma exists_of_mem_sources (hroot : AreNames root) (hwf : WellFormed tree)
    {filter : Selection.Filter} (h : Selection.sources tree (rooted root) filter = .ok paths) :
    paths.Pairwise (· < ·) ∧ ∀ path ∈ paths, ∃ place entries names content mode,
      LeadsTo tree root place entries ∧ names ≠ [] ∧ (∀ n ∈ names, ValidName n) ∧
      (dir entries).find? names = some (.file content mode) ∧ path = rooted (root ++ names) := by
  unfold Selection.sources at h
  split at h
  · cases h
  · rename_i place hplace
    split at h
    · cases h
    · rename_i top htop
      dsimp only at h
      cases h
      refine ⟨pairwise_sortedNames _, fun path hpath => ?_⟩
      rw [mem_sortedNames, mem_map] at hpath
      obtain ⟨leaf, hleaf, rfl⟩ := hpath
      obtain ⟨hmem, htest⟩ := mem_filter.mp hleaf
      obtain ⟨names, hne, hnames, hfind, hpath⟩ :=
        exists_names_of_mem_leaves (hwf.of_find? htop) hmem
      obtain ⟨entries, rfl⟩ := exists_dir_of_find?_ne_nil hfind hne
      have hfile : ∃ content mode, leaf.2 = .file content mode := by
        cases hn : leaf.2 with
        | file content mode => exact ⟨content, mode, rfl⟩
        | dir entries => simp [hn, isFile] at htest
        | link target => simp [hn, isFile] at htest
      obtain ⟨content, mode, hfile⟩ := hfile
      refine ⟨place, entries, names, content, mode, leadsTo_of_resolveParent hroot hplace htop, hne,
        hnames, hfile ▸ hfind, ?_⟩
      rw [hpath, Path.join_intercalate hroot fun n hn => (hnames n hn).toIsName]

/-- What is scanned for a request, and that each file reads the same confined to the root and to its
directory, also when the tree has got more. -/
lemma exists_scanned_of_survey {m : Means} {q : Request}
    (h : survey m tree q = .ok (t, paths, tags))
    (hhere : Path.isAbsolute m.here) (hwf : WellFormed tree) (htop : tree.isDir) :
    ∃ root, t.root = rooted root ∧ Scanned root paths ∧ ∀ tree', Extends tree tree' →
      ∀ here, ∀ path ∈ paths,
        (readUnder tree' here t.root path).toOption = (readBeside tree' here path).toOption := by
  obtain ⟨-, htarget, hpaths, -⟩ := survey_eq_ok h
  obtain ⟨given, n, hstat, hcases⟩ := ofPath_eq_ok htarget
  obtain ⟨names, hnames, habsolute⟩ := Path.exists_absolute_eq_rooted hhere given
  rw [habsolute] at hstat hcases
  rcases hcases with ⟨-, rfl⟩ | ⟨hfile, rfl⟩
  · -- a directory
    simp only [sourcesOf] at hpaths
    obtain ⟨filter, -, hpaths⟩ := exists_of_bind_eq_ok hpaths
    split at hpaths
    · cases hpaths
    obtain ⟨hordered, hbelow⟩ := exists_of_mem_sources hnames hwf (mapError_eq_ok hpaths)
    refine ⟨names, rfl, ⟨hnames, hordered, fun path hpath => ?_⟩, fun tree' hext here path hpath =>
      ?_⟩
    · obtain ⟨-, -, inner, -, -, -, hne, hvalid, -, rfl⟩ := hbelow path hpath
      exact ⟨inner, hne, hvalid, rfl⟩
    · obtain ⟨place, entries, inner, content, mode, hleads, hne, hvalid, hfind, rfl⟩ :=
        hbelow path hpath
      obtain ⟨entries', hleads'⟩ := hleads.exists_of_extends hext
      have hleaf := hext.leaf (place ++ inner) (.file content mode)
        (by rw [Node.find?_append, hleads.dir, Option.bind_some, hfind]) rfl
      rw [Node.find?_append, hleads'.dir, Option.bind_some] at hleaf
      rw [readUnder_eq_readBeside hleads' hvalid hne hleaf]
  · -- one file
    have hne : names ≠ [] := by
      rintro rfl
      rw [stat, resolve_rooted (by simp), follow_nil] at hstat
      dsimp only at hstat
      rw [Node.find?_nil] at hstat
      cases hstat
      simp [htop] at hfile
    obtain ⟨root, last, rfl⟩ := (eq_nil_or_concat names).resolve_left hne
    rw [concat_eq_append] at *
    have hroot : AreNames root := fun n hn => hnames n (mem_append_left _ hn)
    have hlast : IsName last := hnames last (by simp)
    have hvalid : ValidName last := by
      rw [stat] at hstat
      split at hstat
      · cases hstat
      · rename_i place hplace
        rw [resolve_rooted hnames] at hplace
        obtain ⟨place', found, hfind⟩ := exists_find?_of_follow_concat hplace hlast.ne_dots htop
        exact hwf.validName_of_mem hfind last (by simp)
    simp only [sourcesOf, Except.ok.injEq] at hpaths
    subst hpaths
    rw [Path.dir_rooted_concat hroot hlast]
    refine ⟨root, rfl, ⟨hroot, pairwise_singleton _ _, ?_⟩, ?_⟩
    · intro path hpath
      exact ⟨[last], by simp, by simpa using hvalid, mem_singleton.mp hpath⟩
    · intro tree' _ here path hpath
      rw [mem_singleton.mp hpath]
      exact toOption_readUnder_dir tree' here hroot hlast

end Scan

end PluginAudit
