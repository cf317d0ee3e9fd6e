import PluginAudit.Proofs.Baselines

/-!
Files of saved reports. Main statement: saving a report makes one new file, directly in the
directory that was named, and changes no file that was there, however it ends.
-/

open List

namespace PluginAudit.Baseline

open Text (trim isBlank trimBy)
open PluginAudit.Path (seenFrom isAbsolute absolute rooted)
open FileTree (resolve resolveParent)

variable {r : Report} {key here dir : String} {now : Moment} {tree : Node}

/-! ### The name of a file -/

/-- Letters, digits, dots, underscores and dashes, with a letter or a digit first and last. -/
structure IsStem (s : List Char) : Prop where
  first : ∃ c, s.head? = some c ∧ c.isAlphanum = true
  last : ∃ c, s.getLast? = some c ∧ c.isAlphanum = true
  all : ∀ c ∈ s, c.isAlphanum = true ∨ c ∈ ['.', '_', '-']

lemma exists_head?_dropWhile {p : Char → Bool} {s : List Char} (h : s.dropWhile p ≠ []) :
    ∃ c, (s.dropWhile p).head? = some c ∧ p c = false := by
  obtain ⟨c, rest, hcons⟩ := exists_cons_of_ne_nil h
  have hnot := head?_dropWhile_not p s
  rw [hcons, head?_cons] at hnot ⊢
  exact ⟨c, rfl, hnot⟩

lemma edges_of_trimBy {p : Char → Bool} {s : List Char} (h : trimBy p s ≠ []) :
    (∃ c, (trimBy p s).head? = some c ∧ p c = false) ∧ ∃ c, (trimBy p s).getLast? = some c ∧
      p c = false := by
  rw [trimBy, Text.trimEndBy, Text.trimStartBy] at *
  rw [getLast?_reverse]
  refine ⟨?_, exists_head?_dropWhile (by simpa using h)⟩
  -- what is kept at the end is a start of what is kept at the start
  obtain ⟨before, hbefore⟩ := reverse_prefix.mpr (dropWhile_suffix p (l := (s.dropWhile p).reverse))
  rw [reverse_reverse] at hbefore
  obtain ⟨c, hc, hp⟩ := exists_head?_dropWhile (p := p) (s := s) fun hnil => by simp [hnil] at h
  rw [← hbefore, head?_append_of_ne_nil _ h] at hc
  exact ⟨c, hc, hp⟩

lemma isStem_nameOfKey (key : String) : IsStem (nameOfKey key).toList := by
  have hall : ∀ c ∈ (nameOfKey key).toList, c.isAlphanum ∨ c ∈ ['.', '_', '-'] := by
    intro c hc
    have hname := isNameChar_of_mem_nameOfKey hc
    simp only [isNameChar, Bool.or_eq_true, beq_iff_eq] at hname
    rcases hname with ((h | rfl) | rfl) | rfl
    · exact .inl h
    all_goals simp
  have halnum :
      ∀ c ∈ (nameOfKey key).toList, (c == '.' || c == '_' || c == '-') = false → c.isAlphanum := by
    intro c hc hnot
    refine (hall c hc).resolve_right fun hmem => ?_
    simp only [mem_cons, not_mem_nil, or_false] at hmem
    rcases hmem with rfl | rfl | rfl <;> cases hnot
  have hedges :
      (∃ c, (nameOfKey key).toList.head? = some c ∧ (c == '.' || c == '_' || c == '-') = false) ∧
      ∃ c, (nameOfKey key).toList.getLast? = some c ∧
      (c == '.' || c == '_' || c == '-') = false := by
    rw [nameOfKey]
    split
    · exact ⟨⟨'b', rfl, rfl⟩, 'e', rfl, rfl⟩
    · rename_i hne
      rw [String.toList_ofList]
      exact edges_of_trimBy fun hnil => hne (by rw [hnil]; rfl)
  obtain ⟨⟨c, hc, hcnot⟩, d, hd, hdnot⟩ := hedges
  exact ⟨⟨c, hc, halnum c (mem_of_head? hc) hcnot⟩, ⟨d, hd, halnum d (mem_of_getLast? hd) hdnot⟩,
    hall⟩

/-! ### The place of a file -/

/-- The clean path of a directory leads where the directory does as it is written. -/
def LeadsClean (tree : Node) (here dir : String) : Prop :=
  resolve tree (absolute here (trim dir)) = resolve tree (seenFrom here (trim dir))

lemma exists_of_resolveParent {names place : List String} {name : String}
    (hnames : ∀ n ∈ names, Path.IsName n)
    (hname : Path.IsName name) (h : resolveParent tree (rooted (names ++ [name])) = .ok place) :
    ∃ parent, resolve tree (rooted names) = .ok parent ∧ place = parent ++ [name] := by
  have hall : ∀ n ∈ names ++ [name], Path.IsName n :=
    forall_mem_append.mpr ⟨hnames, forall_mem_singleton.mpr hname⟩
  rw [resolveParent, FileTree.steps, Path.components_rooted hall, getLast?_concat,
    dropLast_concat] at h
  rw [FileTree.resolve_rooted hnames]
  dsimp only at h
  split at h
  · cases h
  · rename_i parent hparent
    cases h
    exact ⟨parent, hparent, rfl⟩

/-- The files and links are the same in both trees. -/
def KeepsFiles (tree tree' : Node) : Prop :=
  ∀ q m, m.isDir = false → (tree'.find? q = some m ↔ tree.find? q = some m)

/-- The files and links are the same in both trees, besides one file, which is new. -/
structure AddsFile (tree tree' : Node) (place : List String) (n : Node) : Prop where
  new : tree.find? place = none
  files :
    ∀ q m, m.isDir = false → (tree'.find? q = some m ↔ tree.find? q = some m ∨ q = place ∧ m = n)

lemma keepsFiles_of_extends {tree' : Node} (hext : Node.Extends tree tree')
    (hadds : Node.Adds (fun _ => False) tree tree') : KeepsFiles tree tree' :=
  fun q m hm => ⟨fun hq => by simpa [hm] using hadds q m hq, fun hq => hext.leaf q m hq hm⟩

lemma find?_eq_none_of_extends {tree' : Node} {place : List String} (hext : Node.Extends tree tree')
    (hnone : tree'.find? place = none) : tree.find? place = none := by
  by_contra hold
  obtain ⟨m, hm⟩ := Option.ne_none_iff_exists'.mp hold
  cases hleaf : m.isDir with
  | false => cases hnone.symm.trans (hext.leaf _ _ hm hleaf)
  | true =>
    obtain ⟨inner, rfl⟩ := Node.exists_of_isDir hleaf
    obtain ⟨inner', hinner⟩ := hext.dir _ _ hm
    cases hnone.symm.trans hinner

namespace HasStore

variable {tree' : Node} {place : List String} {entries : Table Node}
  (h : HasStore tree tree' here dir place entries)
  (hfree : Table.get? (fileOfKey key) entries = none)

include h

lemma keepsFiles : KeepsFiles tree tree' := keepsFiles_of_extends h.extended h.adds

include hfree

lemma addsFile (content : Bytes) :
    AddsFile tree (tree'.put (place ++ [fileOfKey key]) (.file content .plain))
    (place ++ [fileOfKey key]) (.file content .plain) := by
  refine ⟨find?_eq_none_of_extends h.extended (by rw [Node.find?_concat_of_dir h.isDir, hfree]),
    fun q m hm => ?_⟩
  rw [← h.keepsFiles q m hm]
  constructor
  · intro hq
    rcases Node.find?_of_put h.isDir hq hm with hold | ⟨below, rfl, hbelow⟩
    · exact .inl hold
    · cases below with
      | nil =>
        rw [Node.find?_nil, Option.some.injEq] at hbelow
        exact .inr ⟨rfl, hbelow.symm⟩
      | cons name below => simp [Node.find?] at hbelow
  · rintro (hold | ⟨rfl, rfl⟩)
    · exact (Node.extends_put h.isDir hfree _).leaf q m hold hm
    · rw [Node.find?_concat_of_dir (Node.find?_put_append h.isDir _ _), Table.get?_insert,
        if_pos rfl]
      rfl

lemma resolve_put (n : Node) :
    resolve (tree'.put (place ++ [fileOfKey key]) n) (seenFrom here (trim dir)) = .ok place :=
  FileTree.follow_of_extends (Node.extends_put h.isDir hfree n) h.leads

end HasStore

lemma save_of_taken {place : List String} {n : Node} (hdir : isBlank dir = false)
    (hkey : isBlank key = false) (hplace : resolve tree (seenFrom here (trim dir)) = .ok place)
    (htaken : tree.find? (place ++ [fileOfKey key]) = some n) :
    save tree here dir key r now = (tree, .error (.taken (trim key) (snapshotPath dir key))) := by
  obtain ⟨entries, hfind, -⟩ := Node.exists_dir_of_find?_concat htaken
  have hmake := FileTree.makeDirs_of_resolve hplace hfind
  rw [save, if_neg (by simp [hdir]), if_neg (by simp [hkey])]
  simp only [hmake, FileTree.createFile_eq hplace (isName_fileOfKey key), htaken,
    Option.isSome_some, if_true]

/-- Saving a report under a key makes directories and one file, which was not there. It lies
directly in the directory that was named, its name has a letter or a digit first and last, and the
path that is given back leads to it if the clean path of the directory leads where the directory
does as it is written. If the path leads to something already, saving fails and says so. Whenever it
fails, no file is new, besides an empty one if no document can hold the report. All other files and
links are the same as before, however it ends. -/
theorem snapshot_in_new_file (hhere : isAbsolute here = true) (htop : tree.isDir = true)
    (hdir : isBlank dir = false) (hkey : isBlank key = false) :
    (∃ stem, fileOfKey key = stem ++ ".json" ∧ IsStem stem.toList) ∧
    (∀ tree' path, save tree here dir key r now = (tree', .ok path) → path = snapshotPath dir key ∧
      ∃ place, resolve tree' (seenFrom here (trim dir)) = .ok place ∧
        (LeadsClean tree' here dir →
          resolveParent tree' (absolute here path) = .ok (place ++ [fileOfKey key])) ∧
        AddsFile tree tree' (place ++ [fileOfKey key]) (snapshotFile key r now)) ∧
    (∀ place n, LeadsClean tree here dir →
      resolveParent tree (absolute here (snapshotPath dir key)) = .ok place →
      tree.find? place = some n →
        save tree here dir key r now = (tree, .error (.taken (trim key) (snapshotPath dir key)))) ∧
    ∀ tree' e, save tree here dir key r now = (tree', .error e) → KeepsFiles tree tree' ∨
      ∃ cause place, e = .unwritable cause ∧ (snapshotOf key r now).obstacle? = some cause ∧
        resolve tree' (seenFrom here (trim dir)) = .ok place ∧
        AddsFile tree tree' (place ++ [fileOfKey key]) (.file [] .plain) := by
  obtain ⟨names, hnames, habsolute, htarget⟩ :=
    Path.absolute_join_name hhere (Text.trim_ne_empty hdir) (isName_fileOfKey key)
  have hending := ending_save htop here dir key r now
  refine ⟨⟨nameOfKey (trim key), rfl, isStem_nameOfKey _⟩, fun tree' path hsave => ?_,
    fun place n hclean hplace hfind => ?_, fun tree' e hsave => ?_⟩
  · rw [hsave] at hending
    cases hending with
    | saved _ hstore hfree =>
      refine ⟨rfl, _, hstore.resolve_put hfree _, fun hclean => ?_, hstore.addsFile hfree _⟩
      rw [LeadsClean, habsolute] at hclean
      rw [snapshotPath, htarget]
      exact FileTree.resolveParent_rooted_concat hnames (isName_fileOfKey key)
        (hclean.trans (hstore.resolve_put hfree _))
  · rw [snapshotPath, htarget] at hplace
    obtain ⟨parent, hparent, rfl⟩ := exists_of_resolveParent hnames (isName_fileOfKey key) hplace
    rw [← habsolute, hclean] at hparent
    exact save_of_taken hdir hkey hparent hfind
  · rw [hsave] at hending
    cases hending with
    | refused => exact .inl fun _ _ _ => Iff.rfl
    | unmade hmake =>
      have hext := FileTree.extends_makeDirs htop (seenFrom here (trim dir))
      have hadds := FileTree.adds_makeDirs (P := fun _ => False) tree (seenFrom here (trim dir))
      rw [hmake] at hext hadds
      exact .inl (keepsFiles_of_extends hext hadds)
    | taken hstore => exact .inl hstore.keepsFiles
    | unwritable hstore hfree hobstacle =>
      exact .inr ⟨_, _, rfl, hobstacle, hstore.resolve_put hfree _, hstore.addsFile hfree _⟩

/-- A directory behind a link gets a file, once. In the year 10000, which no document can hold, it
gets an empty one. -/
theorem snapshot_in_new_file_behind_link :
    isBlank "/link" = false ∧ isBlank "k" = false ∧ (∃ tree' place,
      save (linkedTree [] []) "/" "/link" "k" {} ⟨0, 0, 0⟩ = (tree', .ok "/link/k.json") ∧
      (linkedTree [] []).find? (place ++ [fileOfKey "k"]) = none ∧
      tree'.find? (place ++ [fileOfKey "k"]) = some (snapshotFile "k" {} ⟨0, 0, 0⟩)) ∧
    (save (linkedTree [] []) "/" "/link" "k" {} ⟨253402300800, 0, 0⟩).2.toOption = none ∧
    ((save (linkedTree [] []) "/" "/link" "k" {} ⟨253402300800, 0, 0⟩).1.find? ["a", "b",
      "k.json"]).map (·.isFile) = some true := by
  have hblank : isBlank "/link" = false ∧ isBlank "k" = false := by decide +kernel
  obtain ⟨-, hsaved, -, -⟩ := @snapshot_in_new_file {} "k" "/" "/link" ⟨0, 0, 0⟩ (linkedTree [] [])
    (by decide) rfl hblank.1 hblank.2
  have hsave := eq_of_toOption_snd (x := save (linkedTree [] []) "/" "/link" "k" {} ⟨0, 0, 0⟩)
    (b := "/link/k.json") (by decide +kernel)
  obtain ⟨-, place, -, -, hadds⟩ := hsaved _ _ hsave
  exact ⟨hblank.1, hblank.2, ⟨_, place, hsave, hadds.new,
    (hadds.files _ _ rfl).mpr (.inr ⟨rfl, rfl⟩)⟩, by decide +kernel, by decide +kernel⟩

/-- The file that is made in a directory above a link is not where its path says. -/
theorem snapshot_elsewhere_above_link :
    ∃ tree', save (linkedTree [] []) "/" "/link/../store" "k" {} ⟨0, 0, 0⟩ =
      (tree', .ok (snapshotPath "/link/../store" "k")) ∧
    FileTree.stat tree' (snapshotPath "/link/../store" "k") = .error .notFound := by
  have hresolve : resolve (save (linkedTree [] []) "/" "/link/../store" "k" {} ⟨0, 0, 0⟩).1
      (snapshotPath "/link/../store" "k") = .error .notFound := by decide +kernel
  exact ⟨_, eq_of_toOption_snd (by decide +kernel), by rw [FileTree.stat, hresolve]⟩

end PluginAudit.Baseline
