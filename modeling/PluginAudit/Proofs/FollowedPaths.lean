import PluginAudit.Proofs.FileTrees

/-!
Where paths lead. Names, steps up and links are followed one after the other, and a path that leads
to a directory leads there in every tree that has more files.
-/

open List

namespace PluginAudit

open Table (get? get?_insert insert)
open PluginAudit.Path
open Option (bind_eq_some_iff bind_some)

namespace FileTree

open Node

variable {tree tree' top : Node} {place names here todo : List String} {entries : Table Node}
  {name path target : String} {links : Nat} {content : Bytes} {mode : FileMode}
  {start more parts : List String}

/-! ### Following paths -/

@[simp] lemma follow_nil : follow tree links here [] = .ok here := by
  cases links <;> simp only [follow_zero, follow_succ, followNames]

@[simp] lemma follow_up (rest : List String) :
    follow tree links here (".." :: rest) = follow tree links here.dropLast rest := by
  cases links <;> simp only [follow_zero, follow_succ, followNames]

lemma follow_name (links : Nat) (here : List String) (h : name ≠ "..") (rest : List String) :
    follow tree links here (name :: rest) =
      match tree.find? (here ++ [name]) with
      | none => .error .notFound
      | some (.dir _) => follow tree links (here ++ [name]) rest
      | some (.file _ _) => if rest.isEmpty then .ok (here ++ [name]) else .error .notDirectory
      | some (.link target) =>
        match links with
        | 0 => .error .tooManyLinks
        | links + 1 =>
          follow tree links (if isAbsolute target then [] else here) (steps target ++ rest) := by
  cases links with
  | zero => rewrite [follow_zero, followNames.eq_3 _ _ _ _ _ h]; rfl
  | succ links => rewrite [follow_succ, followNames.eq_3 _ _ _ _ _ h]; rfl

/-- Induction along a path that leads to a place: over the names that are left, and over the
links. -/
lemma follow_ok_induction {motive : (links : Nat) → (here todo : List String) →
      follow tree links here todo = .ok place → Prop}
    (nil : ∀ links, motive links place [] follow_nil)
    (up : ∀ links here rest h h', motive links here.dropLast rest h →
      motive links here (".." :: rest) h') (dir : ∀ links here name rest entries, name ≠ ".." →
      tree.find? (here ++ [name]) = some (.dir entries) →
      ∀ h h', motive links (here ++ [name]) rest h → motive links here (name :: rest) h')
    (file : ∀ links here name content mode, name ≠ ".." →
      tree.find? (here ++ [name]) = some (.file content mode) → here ++ [name] = place →
      ∀ h, motive links here [name] h) (link : ∀ links here name rest target, name ≠ ".." →
      tree.find? (here ++ [name]) = some (.link target) →
      ∀ h h', motive links (if isAbsolute target then [] else here) (steps target ++ rest) h →
        motive (links + 1) here (name :: rest) h')
    (links : Nat) (here todo : List String) (h : follow tree links here todo = .ok place) :
    motive links here todo h := by
  induction links using Nat.strong_induction_on generalizing here todo with
  | _ links ihlinks =>
  induction todo generalizing here with
  | nil =>
    cases follow_nil.symm.trans h
    exact nil links
  | cons name rest ih =>
    by_cases hname : name = ".."
    · subst hname
      exact up links here rest _ h (ih _ (follow_up rest ▸ h))
    have hstep := follow_name links here hname rest ▸ h
    cases hfind : tree.find? (here ++ [name]) with
    | none => simp [hfind] at hstep
    | some n =>
      rw [hfind] at hstep
      cases n with
      | dir entries => exact dir links here name rest entries hname hfind _ h (ih _ hstep)
      | file content mode =>
        cases rest with
        | nil => exact file links here name content mode hname hfind (Except.ok.inj hstep) h
        | cons other rest => cases hstep
      | link target =>
        cases links with
        | zero => cases hstep
        | succ links =>
          exact link links here name rest target hname hfind _ h
            (ihlinks links (Nat.lt_succ_self _) _ _ hstep)

lemma exists_follow_append (h : follow tree links here todo = .ok place)
    (hdir : tree.find? place = some (.dir entries)) (more : List String) :
    ∃ links', follow tree links here (todo ++ more) = follow tree links' place more := by
  induction links, here, todo, h using follow_ok_induction with
  | nil links => exact ⟨links, rfl⟩
  | up links here rest h h' ih => rwa [cons_append, follow_up]
  | dir links here name rest entries' hname hfind h h' ih =>
    rwa [cons_append, follow_name _ _ hname, hfind]
  | file links here name content mode hname hfind hplace h =>
    -- a file is no directory
    rw [← hplace, hfind] at hdir
    cases hdir
  | link links here name rest target hname hfind h h' ih =>
    rw [cons_append, follow_name _ _ hname, hfind]
    rwa [append_assoc] at ih

/-- A path is followed part by part: the first part leads to a directory, and the rest is followed
from there. -/
lemma exists_follow_of_append (h : follow tree links here todo = .ok place) {first : Table Node}
    (hhere : tree.find? here = some (.dir first)) (htodo : todo = start ++ more)
    (hmore : more ≠ []) : ∃ links' place' entries', follow tree links here start = .ok place' ∧
      tree.find? place' = some (.dir entries') ∧ follow tree links' place' more = .ok place := by
  induction links, here, todo, h using follow_ok_induction generalizing start first with
  | nil => exact absurd (append_eq_nil_iff.mp htodo.symm).2 hmore
  | up links here rest h h' ih =>
    rcases start with - | ⟨name, start⟩
    · exact ⟨links, here, first, follow_nil, hhere, by rwa [htodo] at h'⟩
    obtain ⟨rfl, rfl⟩ := List.cons.inj htodo
    obtain ⟨up, hup⟩ := exists_dir_of_dropLast hhere
    rw [follow_up]
    exact ih hup rfl
  | dir links here name rest entries' hname hfind h h' ih =>
    rcases start with - | ⟨other, start⟩
    · exact ⟨links, here, first, follow_nil, hhere, by rwa [htodo] at h'⟩
    obtain ⟨rfl, rfl⟩ := List.cons.inj htodo
    rw [follow_name _ _ hname, hfind]
    exact ih hfind rfl
  | file links here name content mode hname hfind hplace h =>
    rcases start with - | ⟨other, start⟩
    · exact ⟨links, here, first, follow_nil, hhere, by rwa [htodo] at h⟩
    exact absurd (append_eq_nil_iff.mp (List.cons.inj htodo).2.symm).2 hmore
  | link links here name rest target hname hfind h h' ih =>
    rcases start with - | ⟨other, start⟩
    · exact ⟨links + 1, here, first, follow_nil, hhere, by rwa [htodo] at h'⟩
    obtain ⟨rfl, rfl⟩ := List.cons.inj htodo
    obtain ⟨es, hes⟩ :
        ∃ es, tree.find? (if isAbsolute target then [] else here) = some (.dir es) := by
      split
      · -- the top of the tree has an entry
        obtain ⟨es, hes⟩ := exists_dir_of_find?_ne_nil hfind (by simp)
        exact ⟨es, by rw [Node.find?_nil, hes]⟩
      · exact ⟨first, hhere⟩
    rw [follow_name _ _ hname, hfind]
    exact ih hes (append_assoc _ _ _).symm

lemma exists_find?_of_follow_concat (h : follow tree links [] (start ++ [name]) = .ok place)
    (hname : name ≠ "..")
    (htop : tree.isDir) : ∃ place' n, tree.find? (place' ++ [name]) = some n := by
  obtain ⟨first, rfl⟩ := exists_of_isDir htop
  obtain ⟨links', place', -, -, -, hlast⟩ := exists_follow_of_append h (find?_nil _) rfl (by simp)
  rw [follow_name _ _ hname] at hlast
  cases hfind : (dir first).find? (place' ++ [name]) with
  | none =>
    rw [hfind] at hlast
    cases hlast
  | some n => exact ⟨place', n, hfind⟩

lemma follow_of_covers (hcovers : Covers tree tree') (h : follow tree links here todo = .ok place) :
    follow tree' links here todo = .ok place := by
  induction links, here, todo, h using follow_ok_induction with
  | nil => exact follow_nil
  | up links here rest h h' ih => rwa [follow_up]
  | dir links here name rest entries hname hfind h h' ih =>
    obtain ⟨entries', hfind'⟩ := hcovers.dir _ _ hfind
    rwa [follow_name _ _ hname, hfind']
  | file links here name content mode hname hfind hplace h =>
    obtain ⟨content', mode', hfind'⟩ := hcovers.file _ _ _ hfind
    rw [follow_name _ _ hname, hfind', ← hplace]
    rfl
  | link links here name rest target hname hfind h h' ih =>
    rwa [follow_name _ _ hname, hcovers.link _ _ hfind]

lemma follow_of_extends (hext : Extends tree tree') (h : follow tree links here todo = .ok place) :
    follow tree' links here todo = .ok place := follow_of_covers hext.covers h

lemma follow_dirs (hnames : ∀ name ∈ names, name ≠ "..")
    (hfind : tree.find? (here ++ names) = some (.dir entries)) (rest : List String) :
    follow tree links here (names ++ rest) = follow tree links (here ++ names) rest := by
  induction names generalizing here with
  | nil => simp
  | cons name names ih =>
    rw [append_cons] at hfind
    obtain ⟨es, hchild⟩ := exists_dir_of_find?_append hfind
    rw [cons_append, follow_name _ _ (hnames name mem_cons_self), hchild,
      append_cons here name names]
    exact ih (forall_mem_cons.mp hnames).2 hfind

lemma follow_names {n : Node} (hnames : ∀ name ∈ names, name ≠ "..")
    (hfind : tree.find? (here ++ names) = some n)
    (hlink : ∀ target, n ≠ .link target) : follow tree links here names = .ok (here ++ names) := by
  rcases eq_nil_or_concat names with rfl | ⟨init, last, rfl⟩
  · rw [follow_nil, append_nil]
  · rw [concat_eq_append, forall_mem_append, forall_mem_singleton] at hnames
    rw [concat_eq_append, ← append_assoc] at hfind ⊢
    obtain ⟨entries, hdir, -⟩ := exists_dir_of_find?_concat hfind
    rw [follow_dirs hnames.1 hdir, follow_name _ _ hnames.2, hfind]
    cases n with
    | dir entries => exact follow_nil
    | file content mode => rfl
    | link target => exact absurd rfl (hlink target)

/-! ### Paths as lists of names -/

lemma resolve_rooted (h : AreNames names) :
    resolve tree (rooted names) = follow tree maxLinks [] names := by
  rw [resolve, steps, components_rooted h]

lemma resolveParent_rooted_concat (h : AreNames names) (hname : IsName name)
    (hplace : resolve tree (rooted names) = .ok place) :
    resolveParent tree (rooted (names ++ [name])) = .ok (place ++ [name]) := by
  have hsteps : steps (rooted (names ++ [name])) = names ++ [name] :=
    components_rooted (forall_mem_append.mpr ⟨h, forall_mem_singleton.mpr hname⟩)
  rw [resolve_rooted h] at hplace
  rw [resolveParent, hsteps, getLast?_concat, dropLast_concat]
  simp only
  rw [hplace]

lemma exists_dir_of_follow_append (h : follow tree links [] (start ++ more) = .ok place)
    (hdir : tree.find? place = some (.dir entries)) : ∃ place' entries',
      follow tree links [] start = .ok place' ∧ tree.find? place' = some (.dir entries') := by
  obtain ⟨first, rfl⟩ := exists_top_of_find?_dir hdir
  rcases eq_or_ne more [] with rfl | hmore
  · exact ⟨place, entries, append_nil start ▸ h, hdir⟩
  · obtain ⟨-, place', entries', hfollow, hdir, -⟩ :=
      exists_follow_of_append h (find?_nil _) rfl hmore
    exact ⟨place', entries', hfollow, hdir⟩

lemma components_of_mem_steps : ∀ n ∈ steps path, components n = [n] := by
  intro n hn
  obtain ⟨hempty, hdot, hslash⟩ := mem_components hn
  exact components_of_part hempty hdot hslash

lemma steps_ofComponents (h : ∀ n ∈ parts, components n = [n]) :
    steps (ofComponents true parts) = parts := by
  rw [steps, ofComponents, if_pos rfl, components_slash_append, components_intercalate h]

/-- A path leads to the directory at a place. -/
structure LeadsTo (tree : Node) (names place : List String) (entries : List (String × Node)) :
    Prop where
  isName : ∀ n ∈ names, IsName n
  resolved : resolve tree (rooted names) = .ok place
  dir : tree.find? place = some (.dir entries)

lemma leadsTo_of_resolveParent (h : AreNames names)
    (hplace : resolveParent tree (rooted names) = .ok place)
    (hdir : tree.find? place = some (.dir entries)) : LeadsTo tree names place entries := by
  refine ⟨h, ?_, hdir⟩
  rw [resolve_rooted h]
  rw [resolveParent, steps, components_rooted h] at hplace
  rcases eq_nil_or_concat names with rfl | ⟨init, last, rfl⟩
  · cases hplace
    exact follow_nil
  · rw [concat_eq_append] at h hplace ⊢
    rw [getLast?_concat, dropLast_concat] at hplace
    dsimp only at hplace
    split at hplace
    · cases hplace
    · rename_i parent hparent
      cases hplace
      obtain ⟨outer, houter, -⟩ := exists_dir_of_find?_concat hdir
      obtain ⟨links, hfollow⟩ := exists_follow_append hparent houter [last]
      rw [hfollow, follow_names (by simpa using (h last (by simp)).ne_dots) hdir (by simp)]

namespace LeadsTo

lemma of_append (h : LeadsTo tree (start ++ more) place entries) :
    ∃ place' entries', LeadsTo tree start place' entries' := by
  have hstart := (forall_mem_append.mp h.isName).1
  have hfollow : follow tree maxLinks [] (start ++ more) = .ok place := by
    rw [← resolve_rooted h.isName, h.resolved]
  obtain ⟨place', entries', hfollow, hdir⟩ := exists_dir_of_follow_append hfollow h.dir
  exact ⟨place', entries', hstart, by rw [resolve_rooted hstart, hfollow], hdir⟩

variable (h : LeadsTo tree names place entries)

include h

lemma followed : follow tree maxLinks [] names = .ok place := by
  rw [← resolve_rooted h.isName, h.resolved]

lemma stat_eq : stat tree (rooted names) = .ok (.dir entries) := by
  rw [stat, h.resolved]
  simp only [h.dir]

lemma isDir_eq : FileTree.isDir tree (rooted names) := by
  rw [FileTree.isDir, h.stat_eq]
  rfl

lemma openDir : openDir tree (rooted names) = .ok (.dir entries) := by
  rw [FileTree.openDir, h.stat_eq]
  rfl

lemma resolve_append (below : List String) (hbelow : AreNames below) :
    ∃ links, resolve tree (rooted (names ++ below)) = follow tree links place below := by
  obtain ⟨links, hfollow⟩ := exists_follow_append h.followed h.dir below
  refine ⟨links, ?_⟩
  rw [resolve_rooted (forall_mem_append.mpr ⟨h.isName, hbelow⟩), hfollow]

lemma stat_append (below : List String) (hbelow : AreNames below) {n : Node}
    (hfind : (Node.dir entries).find? below = some n) (hlink : ∀ target, n ≠ .link target) :
    stat tree (rooted (names ++ below)) = .ok n := by
  have hfind' : tree.find? (place ++ below) = some n := by
    rw [Node.find?_append, h.dir, bind_some, hfind]
  obtain ⟨links, hresolve⟩ := h.resolve_append below hbelow
  rw [stat, hresolve, follow_names (fun m hm => (hbelow m hm).ne_dots) hfind' hlink]
  simp only
  rw [hfind']

lemma append {below : List String} (hbelow : AreNames below) {inner : Table Node}
    (hinner : (Node.dir entries).find? below = some (.dir inner)) :
    LeadsTo tree (names ++ below) (place ++ below) inner := by
  have hfind : tree.find? (place ++ below) = some (.dir inner) := by
    rw [Node.find?_append, h.dir, bind_some, hinner]
  refine ⟨forall_mem_append.mpr ⟨h.isName, hbelow⟩, ?_, hfind⟩
  obtain ⟨links, hresolve⟩ := h.resolve_append below hbelow
  rw [hresolve, follow_names (fun m hm => (hbelow m hm).ne_dots) hfind (by simp)]

lemma exists_of_covers (hcovers : Covers tree tree') :
    ∃ entries', LeadsTo tree' names place entries' := by
  obtain ⟨entries', hdir⟩ := hcovers.dir _ _ h.dir
  refine ⟨entries', h.isName, ?_, hdir⟩
  rw [resolve_rooted h.isName, follow_of_covers hcovers h.followed]

lemma exists_of_extends (hext : Extends tree tree') :
    ∃ entries', LeadsTo tree' names place entries' :=
  h.exists_of_covers hext.covers

lemma put_missing (hget : get? name entries = none) (n : Node) :
    Extends tree (tree.put (place ++ [name]) n) ∧
      LeadsTo (tree.put (place ++ [name]) n) names place (insert name n entries) := by
  have hdir : (tree.put (place ++ [name]) n).find? place = some (.dir (insert name n entries)) := by
    rw [find?_put_append h.dir, put, put]
  have hext := extends_put h.dir hget n
  obtain ⟨_, hleads⟩ := h.exists_of_extends hext
  exact ⟨hext, h.isName, hleads.resolved, hdir⟩

lemma stat_missing (hname : IsName name) (hget : get? name entries = none) :
    stat tree (rooted (names ++ [name])) = .error .notFound := by
  obtain ⟨links, hresolve⟩ := h.resolve_append [name] (by simpa using hname)
  rw [stat, hresolve, follow_name _ _ hname.ne_dots, find?_concat_of_dir h.dir, hget]

end LeadsTo

lemma exists_dir_of_stat (h : stat tree path = .ok (.dir entries)) :
    ∃ place, resolve tree path = .ok place ∧ tree.find? place = some (.dir entries) := by
  unfold stat at h
  split at h
  · cases h
  · rename_i place hplace
    split at h
    · rename_i n hn
      cases h
      exact ⟨place, hplace, hn⟩
    · cases h

end FileTree

end PluginAudit
