import PluginAudit.Proofs.FollowedPaths

/-!
Making directories and files. Whether it fails or not, a change leaves all files that it does not
write, and what it makes lies where its path leads.
-/

open List

namespace PluginAudit

open Table (get? get?_insert insert)
open PluginAudit.Path

namespace FileTree

open Node

variable {tree tree' : Node} {place names : List String} {entries : Table Node} {name path : String}
  {links : Nat} {content : Bytes} {parts : List String}

@[simp] lemma left_ok (tree : Node) : left (.ok tree) = tree := rfl

@[simp] lemma left_error (failed : Failed) : left (.error failed) = failed.tree := rfl

lemma makeDirs_eq_ok_iff :
    makeDirs tree path = .ok tree' ↔ (prefixes path).foldlM makeDir tree = .ok tree' := by
  unfold makeDirs
  generalize prefixes path = paths
  induction paths generalizing tree with
  | nil => exact ⟨fun h => congrArg _ (Except.ok.inj h), fun h => congrArg _ (Except.ok.inj h)⟩
  | cons first rest ih =>
    rw [foldlM_cons, foldlM_cons]
    cases makeDir tree first with
    | error e => simp [Except.mapError, bind, Except.bind]
    | ok tree₁ => exact ih

lemma exists_foldlM_makeDir (tree : Node) (path : String) : ∃ n ≤ (steps path).length,
    ((prefixes path).take n).foldlM makeDir tree = .ok (left (makeDirs tree path)) := by
  have hlength : (prefixes path).length = (steps path).length := by simp [prefixes]
  unfold makeDirs
  rw [← hlength]
  generalize prefixes path = paths
  induction paths generalizing tree with
  | nil => exact ⟨0, le_rfl, rfl⟩
  | cons first rest ih =>
    cases hfirst : makeDir tree first with
    | error e => exact ⟨0, Nat.zero_le _, by rw [foldlM_cons, hfirst]; rfl⟩
    | ok tree₁ =>
      obtain ⟨n, hn, hfold⟩ := ih tree₁
      refine ⟨n + 1, Nat.succ_le_succ hn, ?_⟩
      rw [take_succ_cons, foldlM_cons, foldlM_cons, hfirst]
      exact hfold

lemma makeDirs_of_resolve (h : resolve tree path = .ok place)
    (hdir : tree.find? place = some (.dir entries)) : makeDirs tree path = .ok tree := by
  rw [makeDirs_eq_ok_iff]
  have hmake : ∀ n, makeDir tree (ofComponents true ((steps path).take n)) = .ok tree := by
    intro n
    rw [resolve, ← take_append_drop n (steps path)] at h
    obtain ⟨place', entries', hfollow, hfind⟩ := exists_dir_of_follow_append h hdir
    rw [makeDir, stat, resolve, steps_ofComponents fun m hm =>
      components_of_mem_steps m (mem_of_mem_take hm), hfollow]
    simp only [hfind]
  rw [prefixes]
  generalize range (steps path).length = counts
  induction counts with
  | nil => rfl
  | cons n counts ih =>
    rw [map_cons, foldlM_cons, hmake]
    exact ih

namespace LeadsTo

variable (h : LeadsTo tree names place entries)

include h

omit h in
lemma prefixes_rooted (h : AreNames names) :
    prefixes (rooted names) = (range names.length).map fun n => rooted (names.take (n + 1)) := by
  rw [prefixes, steps, components_rooted h]

lemma makeDirs : makeDirs tree (rooted names) = .ok tree := makeDirs_of_resolve h.resolved h.dir

variable (hname : IsName name)

include hname

lemma makeDirs_concat : FileTree.makeDirs tree (rooted (names ++ [name])) =
    (makeDir tree (rooted (names ++ [name]))).mapError (⟨·, tree⟩) := by
  have hall : AreNames (names ++ [name]) :=
    forall_mem_append.mpr ⟨h.isName, forall_mem_singleton.mpr hname⟩
  have hold := h.makeDirs
  have hprefixes : prefixes (rooted (names ++ [name])) =
      prefixes (rooted names) ++ [rooted (names ++ [name])] := by
    have hsame : ((range names.length).map fun n => rooted ((names ++ [name]).take (n + 1))) =
        (range names.length).map fun n => rooted (names.take (n + 1)) :=
      map_congr_left fun n hn => by rw [take_append_of_le_length (mem_range.mp hn)]
    rw [prefixes_rooted hall, prefixes_rooted h.isName, length_append, length_singleton,
      range_succ, map_append, hsame, map_singleton, take_of_length_le (by simp)]
  rw [FileTree.makeDirs] at hold
  rw [FileTree.makeDirs, hprefixes, foldlM_append, hold]
  simp only [foldlM_cons, foldlM_nil, bind_pure]
  rfl

lemma makeDirs_missing (hget : get? name entries = none) : FileTree.makeDirs tree
      (rooted (names ++ [name])) = .ok (tree.put (place ++ [name]) .emptyDir) := by
  rw [h.makeDirs_concat hname, makeDir, h.stat_missing hname hget]
  simp only
  rw [resolveParent_rooted_concat h.isName hname h.resolved]
  simp only
  rw [find?_concat_of_dir h.dir, hget]
  rfl

lemma overwrite_cases (content : Bytes) : (∃ inner, get? name entries = some (.dir inner)) ∧
        overwrite tree (rooted (names ++ [name])) content =
          .error ⟨⟨"open", rooted (names ++ [name]), .isDirectory⟩, tree⟩ ∨
      (∀ inner, get? name entries ≠ some (.dir inner)) ∧
        overwrite tree (rooted (names ++ [name])) content =
          .ok (tree.put (place ++ [name]) (.file content .plain)) := by
  have hmake := h.makeDirs
  rw [← dir_rooted_concat h.isName hname] at hmake
  rw [← find?_concat_of_dir h.dir]
  unfold FileTree.overwrite
  rw [hmake]
  dsimp only
  rw [resolveParent_rooted_concat h.isName hname h.resolved]
  dsimp only
  split
  · rename_i inner hfind
    exact .inl ⟨⟨inner, hfind⟩, rfl⟩
  · rename_i hfind
    exact .inr ⟨hfind, rfl⟩

end LeadsTo

lemma exists_dir_of_makeDir (hparts : ∀ n ∈ parts ++ [name], components n = [n])
    (hplace : follow tree maxLinks [] parts = .ok place)
    (hdir : tree.find? place = some (.dir entries))
    (h : makeDir tree (ofComponents true (parts ++ [name])) = .ok tree') : Extends tree tree' ∧
      ∃ place' entries', follow tree' maxLinks [] (parts ++ [name]) = .ok place' ∧
      tree'.find? place' = some (.dir entries') := by
  have hsteps := steps_ofComponents hparts
  unfold makeDir at h
  split at h
  · -- there is a directory already
    rename_i found hstat
    cases h
    obtain ⟨place', hresolve, hfind⟩ := exists_dir_of_stat hstat
    rw [resolve, hsteps] at hresolve
    exact ⟨.refl _, place', found, hresolve, hfind⟩
  · cases h
  · rename_i hstat
    rw [resolveParent, hsteps, getLast?_concat, dropLast_concat] at h
    dsimp only at h
    rw [hplace] at h
    dsimp only at h
    split at h
    · cases h
    · rename_i hfree
      cases h
      rw [Option.not_isSome_iff_eq_none, find?_concat_of_dir hdir] at hfree
      obtain ⟨links, hstep⟩ := exists_follow_append hplace hdir [name]
      have hname : name ≠ ".." := by
        -- a step up from a directory leads to one
        rintro rfl
        obtain ⟨up, hup⟩ := exists_dir_of_dropLast hdir
        rw [stat, resolve, hsteps, hstep, follow_up, follow_nil] at hstat
        dsimp only at hstat
        rw [hup] at hstat
        cases hstat
      have hext := extends_put hdir hfree .emptyDir
      have hplace' := follow_of_extends hext hplace
      have hdir' := find?_put_append hdir [name] .emptyDir
      have hnew :
          (tree.put (place ++ [name]) .emptyDir).find? (place ++ [name]) = some (.dir []) := by
        rw [Node.find?_append, hdir', Option.bind_some, put, find?_cons_dir, get?_insert,
          if_pos rfl]
        rfl
      obtain ⟨links', hstep'⟩ := exists_follow_append hplace' hdir' [name]
      exact ⟨hext, place ++ [name],
        [], by rw [hstep', follow_name _ _ hname, hnew]; exact follow_nil, hnew⟩
  · cases h

lemma take_prefixes {n : Nat} (hn : n ≤ (steps path).length) : (prefixes path).take n =
      (range n).map fun k => ofComponents true ((steps path).take (k + 1)) := by
  rw [prefixes, ← map_take, take_range, Nat.min_eq_left hn]

lemma exists_dir_of_foldlM_makeDir (htop : tree.isDir) {n : Nat} (hn : n ≤ (steps path).length)
    (h : ((prefixes path).take n).foldlM makeDir tree = .ok tree') : Extends tree tree' ∧
      ∃ place entries, follow tree' maxLinks [] ((steps path).take n) = .ok place ∧
      tree'.find? place = some (.dir entries) := by
  rw [take_prefixes hn] at h
  induction n generalizing tree' with
  | zero =>
    cases h
    obtain ⟨entries, rfl⟩ := exists_of_isDir htop
    exact ⟨.refl _, [], entries, follow_nil, find?_nil _⟩
  | succ n ih =>
    rw [range_succ, map_append, foldlM_append] at h
    have htake : (steps path).take (n + 1) = (steps path).take n ++ [(steps path)[n]] :=
      take_succ_eq_append_getElem hn
    obtain ⟨tree₁, hfold, h⟩ := exists_of_bind_eq_ok h
    obtain ⟨hext, place, entries, hplace, hdir⟩ := ih (Nat.le_of_succ_le hn) hfold
    rw [map_singleton, htake] at h
    simp only [foldlM_cons, foldlM_nil, bind_pure] at h
    rw [htake]
    have hparts : ∀ m ∈ (steps path).take n ++ [(steps path)[n]], components m = [m] := fun m hm =>
      components_of_mem_steps m (mem_of_mem_take (htake ▸ hm))
    exact (exists_dir_of_makeDir hparts hplace hdir h).imp_left hext.trans

lemma exists_dir_of_makeDirs (htop : tree.isDir) (h : makeDirs tree path = .ok tree') :
    Extends tree tree' ∧ ∃ place entries, resolve tree' path = .ok place ∧
      tree'.find? place = some (.dir entries) := by
  have hall : (prefixes path).take (steps path).length = prefixes path :=
    take_of_length_le (by simp [prefixes])
  rw [makeDirs_eq_ok_iff, ← hall] at h
  simpa [resolve] using exists_dir_of_foldlM_makeDir htop le_rfl h

lemma extends_makeDirs (htop : tree.isDir) (path : String) :
    Extends tree (left (makeDirs tree path)) := by
  obtain ⟨n, hn, hfold⟩ := exists_foldlM_makeDir tree path
  exact (exists_dir_of_foldlM_makeDir htop hn hfold).1

section

variable {P : Node → Prop}

lemma adds_makeDir (h : makeDir tree path = .ok tree') : Adds P tree tree' := by
  unfold makeDir at h
  split at h
  · cases h
    exact .refl tree
  · cases h
  · split at h
    · cases h
    · split at h
      · cases h
      · cases h
        exact adds_put_emptyDir _ _
  · cases h

lemma adds_makeDirs (tree : Node) (path : String) : Adds P tree (left (makeDirs tree path)) := by
  obtain ⟨n, -, h⟩ := exists_foldlM_makeDir tree path
  generalize (prefixes path).take n = paths at h
  generalize left (makeDirs tree path) = tree' at h ⊢
  induction paths generalizing tree with
  | nil =>
    cases h
    exact .refl _
  | cons first rest ih =>
    rw [foldlM_cons] at h
    obtain ⟨tree₁, hfirst, hrest⟩ := exists_of_bind_eq_ok h
    exact (adds_makeDir hfirst).trans (ih _ hrest)

end

lemma createFile_eq (hplace : resolve tree path = .ok place) (hname : IsName name)
    (content : Bytes) :
    createFile tree (path ++ "/" ++ name) content = if (tree.find? (place ++ [name])).isSome then
        .error ⟨"open", path ++ "/" ++ name, .alreadyExists⟩
      else .ok (tree.put (place ++ [name]) (.file content .plain)) := by
  have hsteps : steps (path ++ "/" ++ name) = steps path ++ [name] := by
    rw [steps, components_append_slash, hname.components, steps]
  rw [resolve] at hplace
  rw [createFile, resolveParent, hsteps, getLast?_concat, dropLast_concat, hplace]

end FileTree

end PluginAudit
