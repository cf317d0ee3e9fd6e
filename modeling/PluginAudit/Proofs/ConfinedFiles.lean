import PluginAudit.Proofs.FollowedPaths

/-!
Reading below a directory, which links must not leave.
-/

open List

namespace PluginAudit

open Table (get? get?_insert insert)
open PluginAudit.Path

namespace FileTree

open Node

variable {tree top : Node} {place names here : List String} {entries : Table Node}
  {name target : String} {links : Nat} {content : Bytes} {mode : FileMode} {topPath : String}

lemma followConfined_name (links : Nat) (here : List String) (h : name ≠ "..")
    (rest : List String) : followConfined top links here (name :: rest) =
      match top.find? (here ++ [name]) with
      | none => .error .notFound
      | some (.dir _) => followConfined top links (here ++ [name]) rest
      | some (.file _ _) => if rest.isEmpty then .ok (here ++ [name]) else .error .notDirectory
      | some (.link target) =>
        match links with
        | 0 => .error .tooManyLinks
        | links + 1 =>
          if isAbsolute target then .error .leavesRoot
          else followConfined top links here (steps target ++ rest) := by
  cases links with
  | zero => rewrite [followConfined_zero, followNamesConfined.eq_3 _ _ _ _ _ h]; rfl
  | succ links => rewrite [followConfined_succ, followNamesConfined.eq_3 _ _ _ _ _ h]; rfl

lemma followConfined_dirs (hnames : ∀ name ∈ names, name ≠ "..")
    (hfind : top.find? (here ++ names) = some (.dir entries)) (rest : List String) : followConfined
      top links here (names ++ rest) = followConfined top links (here ++ names) rest := by
  induction names generalizing here with
  | nil => simp
  | cons name names ih =>
    rw [append_cons] at hfind
    obtain ⟨es, hchild⟩ := exists_dir_of_find?_append hfind
    rw [cons_append, followConfined_name _ _ (hnames name mem_cons_self), hchild,
      append_cons here name names]
    exact ih (forall_mem_cons.mp hnames).2 hfind

lemma readConfined_file (hnames : AreNames names)
    (hfind : top.find? names = some (.file content mode))
    (hne : names ≠ []) : readConfined top topPath ("/".intercalate names) = .ok content := by
  have hsteps : steps ("/".intercalate names) = names :=
    components_intercalate fun n hn => (hnames n hn).components
  obtain ⟨init, last, rfl⟩ := (eq_nil_or_concat names).resolve_left hne
  rw [concat_eq_append] at hnames hfind hsteps ⊢
  obtain ⟨entries, hdir, -⟩ := exists_dir_of_find?_concat hfind
  rw [← nil_append init] at hdir
  rw [readConfined, hsteps,
    followConfined_dirs (fun m hm => (hnames m (mem_append_left _ hm)).ne_dots) hdir,
    followConfined_name _ _ (hnames last mem_concat_self).ne_dots, nil_append, hfind]
  simp only [isEmpty_nil, if_true]
  rw [hfind]

lemma readConfined_missing {inner : Table Node} (hnames : AreNames names) (hname : IsName name)
    (hfind : top.find? names = some (.dir inner)) (hget : get? name inner = none) :
    ∃ e, readConfined top topPath ("/".intercalate (names ++ [name])) = .error e := by
  have hsteps : steps ("/".intercalate (names ++ [name])) = names ++ [name] :=
    components_intercalate (forall_mem_append.mpr
      ⟨fun n hn => (hnames n hn).components, forall_mem_singleton.mpr hname.components⟩)
  rw [← nil_append names] at hfind
  rw [readConfined, hsteps, followConfined_dirs (fun m hm => (hnames m hm).ne_dots) hfind,
    followConfined_name _ _ hname.ne_dots, find?_concat_of_dir hfind, hget]
  exact ⟨_, rfl⟩

lemma not_leaves_intercalate (h : AreNames names) :
    Path.leaves ("/".intercalate names) = false := by
  rw [Path.leaves, Bool.or_eq_false_iff, beq_eq_false_iff_ne, ← Bool.not_eq_true,
    String.startsWith_string_iff]
  have hcomponents := components_intercalate fun n hn => (h n hn).components
  constructor
  · intro heq
    rw [heq] at hcomponents
    have hmem : ".." ∈ names := by rw [← hcomponents]; decide
    exact (h _ hmem).ne_dots rfl
  · rintro ⟨rest, hrest⟩
    have heq : "/".intercalate names = ".." ++ "/" ++ String.ofList rest := by
      rw [← String.toList_inj, ← hrest]
      simp
    rw [heq, components_append_slash] at hcomponents
    have hmem : ".." ∈ names := by
      rw [← hcomponents, show components ".." = [".."] by decide]
      exact mem_append_left _ (mem_singleton.mpr rfl)
    exact (h _ hmem).ne_dots rfl

lemma LeadsTo.readUnder_eq (h : LeadsTo tree names place entries) (here : String) {root : String}
    (hroot : absolute here root = rooted names) {below : List String} (hbelow : AreNames below)
    (hne : below ≠ []) (htarget : absolute here target = rooted (names ++ below)) :
    readUnder tree here root target =
      (readConfined (.dir entries) (rooted names) ("/".intercalate below)).mapError .file := by
  have hrelative := relative?_rooted_append h.isName hbelow hne
  have hstays := not_leaves_intercalate hbelow
  have hopen := h.openDir
  unfold readUnder
  rw [hroot, htarget]
  dsimp only
  rw [hrelative]
  dsimp only
  rw [if_neg (by rw [hstays]; exact Bool.false_ne_true), hopen]
  dsimp only
  cases readConfined (.dir entries) (rooted names) ("/".intercalate below) <;> rfl

lemma LeadsTo.readBeside_eq (h : LeadsTo tree names place entries) (here : String)
    (hname : IsName name) (htarget : absolute here target = rooted (names ++ [name])) : readBeside
      tree here target = (readConfined (.dir entries) (rooted names) name).mapError .file := by
  unfold readBeside
  rw [htarget]
  dsimp only
  rw [dir_rooted_concat h.isName hname, base_rooted_concat _ hname, h.openDir]
  dsimp only
  cases readConfined (.dir entries) (rooted names) name <;> rfl

lemma LeadsTo.readBeside_file (h : LeadsTo tree names place entries)
    (hget : get? name entries = some (.file content mode)) {here : String} (hname : IsName name)
    (htarget : absolute here target = rooted (names ++ [name])) :
    readBeside tree here target = .ok content := by
  have hfind : (Node.dir entries).find? [name] = some (.file content mode) := by
    rw [find?_cons_dir, hget, Option.bind_some, Node.find?_nil]
  have hread : readConfined (.dir entries) (rooted names) ("/".intercalate [name]) = .ok content :=
    readConfined_file (by simpa using hname) hfind (by simp)
  rw [String.intercalate_singleton] at hread
  rw [h.readBeside_eq here hname htarget, hread]
  rfl

end FileTree

end PluginAudit
