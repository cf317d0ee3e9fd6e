import PluginAudit.FileTree.Write
import PluginAudit.Proofs.Paths
import PluginAudit.Proofs.Tables

/-!
Places in a file tree, and what a change at one place does to the others.
-/

open List

namespace PluginAudit

open Table (get? get?_insert insert)
open PluginAudit.Path
open Option (bind_eq_some_iff bind_some)

namespace Node

variable {n child : Node} {place : List String} {entries : Table Node} {name : String}

/-! ### Places -/

@[simp] lemma find?_nil (n : Node) : n.find? [] = some n := by simp [find?]

@[simp] lemma find?_cons_dir (name : String) (rest : List String) (entries : Table Node) :
    (dir entries).find? (name :: rest) = (get? name entries).bind (find? rest) := by
  rw [find?]
  split <;> simp [*]

lemma exists_of_find?_cons (h : n.find? (name :: place) = some child) : ∃ entries next,
      n = dir entries ∧ get? name entries = some next ∧ next.find? place = some child := by
  cases n with
  | dir entries =>
    rw [find?_cons_dir, bind_eq_some_iff] at h
    obtain ⟨next, hget, hnext⟩ := h
    exact ⟨entries, next, rfl, hget, hnext⟩
  | file content mode => simp [find?] at h
  | link target => simp [find?] at h

lemma find?_append (n : Node) (place below : List String) :
    n.find? (place ++ below) = (n.find? place).bind (find? below) := by
  induction place generalizing n with
  | nil => simp
  | cons name place ih =>
    cases n with
    | dir entries =>
      rw [cons_append, find?_cons_dir, find?_cons_dir, Option.bind_assoc]
      congr 1
      funext child
      exact ih child
    | file content mode => simp [find?]
    | link target => simp [find?]

lemma exists_dir_of_find?_concat (h : n.find? (place ++ [name]) = some child) :
    ∃ entries, n.find? place = some (dir entries) ∧ get? name entries = some child := by
  rw [Node.find?_append, bind_eq_some_iff] at h
  obtain ⟨parent, hparent, hchild⟩ := h
  obtain ⟨entries, found, rfl, hfound, hnil⟩ := exists_of_find?_cons hchild
  rw [Node.find?_nil, Option.some.injEq] at hnil
  exact ⟨entries, hparent, hnil ▸ hfound⟩

lemma find?_concat_of_dir (h : n.find? place = some (dir entries)) (name : String) :
    n.find? (place ++ [name]) = get? name entries := by
  rw [Node.find?_append, h, bind_some, find?_cons_dir]
  cases get? name entries <;> simp

lemma exists_dir_of_dropLast (h : n.find? place = some (dir entries)) :
    ∃ entries', n.find? place.dropLast = some (dir entries') := by
  rcases eq_nil_or_concat place with rfl | ⟨init, last, rfl⟩
  · exact ⟨entries, h⟩
  · rw [concat_eq_append] at h ⊢
    rw [dropLast_concat]
    obtain ⟨entries', hdir, -⟩ := exists_dir_of_find?_concat h
    exact ⟨entries', hdir⟩

lemma exists_dir_of_find?_ne_nil (h : n.find? place = some child) (hne : place ≠ []) :
    ∃ entries, n = dir entries := by
  cases place with
  | nil => exact absurd rfl hne
  | cons name place =>
    obtain ⟨entries, -, rfl, -⟩ := exists_of_find?_cons h
    exact ⟨entries, rfl⟩

lemma exists_of_isDir (h : n.isDir) : ∃ entries, n = dir entries := by
  cases n with
  | dir entries => exact ⟨entries, rfl⟩
  | file content mode => cases h
  | link target => cases h

lemma exists_top_of_find?_dir (h : n.find? place = some (dir entries)) :
    ∃ first, n = dir first := by
  cases place with
  | nil =>
    rw [Node.find?_nil, Option.some.injEq] at h
    exact ⟨entries, h⟩
  | cons name place => exact exists_dir_of_find?_ne_nil h (by simp)

lemma exists_dir_of_find?_append {below : List String}
    (h : n.find? (place ++ below) = some (dir entries)) :
    ∃ entries', n.find? place = some (dir entries') := by
  rw [Node.find?_append, bind_eq_some_iff] at h
  obtain ⟨child, hchild, hbelow⟩ := h
  obtain ⟨first, rfl⟩ := exists_top_of_find?_dir hbelow
  exact ⟨first, hchild⟩

/-! ### Changes -/

lemma find?_put_append {d : Node} (h : n.find? place = some d) (below : List String) (new : Node) :
    (put (place ++ below) n new).find? place = some (put below d new) := by
  induction place generalizing n with
  | nil =>
    rw [Node.find?_nil, Option.some.injEq] at h
    simp [h]
  | cons name place ih =>
    obtain ⟨entries, child, rfl, hget, hchild⟩ := exists_of_find?_cons h
    rw [cons_append, put, find?_cons_dir, get?_insert, if_pos rfl, hget]
    exact ih hchild

lemma find?_put_of_ne (h : n.isDir) {other : String} (hne : other ≠ name) (below : List String)
    (new : Node) : (put (other :: below) n new).find? [name] = n.find? [name] := by
  obtain ⟨entries, rfl⟩ := exists_of_isDir h
  rw [put, find?_cons_dir, find?_cons_dir, get?_insert, if_neg hne]

/-- A tree has all that another one has, and maybe more in its directories. -/
structure Extends (n n' : Node) : Prop where
  leaf : ∀ place m, n.find? place = some m → m.isDir = false → n'.find? place = some m
  dir : ∀ place entries, n.find? place = some (.dir entries) →
    ∃ entries', n'.find? place = some (.dir entries')

lemma Extends.refl (n : Node) : Extends n n where
  leaf := fun _ _ h _ => h
  dir := fun _ entries h => ⟨entries, h⟩

lemma Extends.trans {n' n'' : Node} (h : Extends n n') (h' : Extends n' n'') : Extends n n'' where
  leaf := fun place m hm hdir => h'.leaf place m (h.leaf place m hm hdir) hdir
  dir := fun place entries hd => by
    obtain ⟨entries', hd'⟩ := h.dir place entries hd
    exact h'.dir place entries' hd'

/-- After a change in a directory there is below the changed name what was put there, and all else
is as it was. -/
lemma find?_put_concat (h : n.find? place = some (.dir entries))
    (name : String) (new : Node) (q : List String) : (∃ below, q = place ++ name :: below ∧
      (put (place ++ [name]) n new).find? q = new.find? below) ∨ (∃ old es,
        n.find? q = some (.dir old) ∧ (put (place ++ [name]) n new).find? q = some (.dir es)) ∨
      (put (place ++ [name]) n new).find? q = n.find? q := by
  induction place generalizing n q with
  | nil =>
    rw [Node.find?_nil, Option.some.injEq] at h
    subst h
    rw [nil_append, put]
    cases q with
    | nil => exact .inr (.inl ⟨_, _, Node.find?_nil _, Node.find?_nil _⟩)
    | cons a q =>
      rw [find?_cons_dir, find?_cons_dir, get?_insert]
      by_cases heq : name = a
      · exact .inl ⟨q, by rw [heq, nil_append], by rw [if_pos heq, put, bind_some]⟩
      · exact .inr (.inr (by rw [if_neg heq]))
  | cons b place ih =>
    obtain ⟨es, child, rfl, hget, hchild⟩ := exists_of_find?_cons h
    rw [cons_append, put, hget, Option.getD_some]
    cases q with
    | nil => exact .inr (.inl ⟨_, _, Node.find?_nil _, Node.find?_nil _⟩)
    | cons a q =>
      rw [find?_cons_dir, find?_cons_dir, get?_insert]
      by_cases heq : b = a
      · subst heq
        rw [hget, if_pos rfl, bind_some, bind_some]
        refine (ih hchild q).imp_left ?_
        rintro ⟨below, rfl, hbelow⟩
        exact ⟨below, rfl, hbelow⟩
      · exact .inr (.inr (by rw [if_neg heq]))

lemma find?_concat_append (h : n.find? place = some (.dir entries)) (name : String)
    (below : List String) :
    n.find? (place ++ name :: below) = (get? name entries).bind (find? below) := by
  rw [Node.find?_append, h, bind_some, find?_cons_dir]

lemma extends_put (h : n.find? place = some (.dir entries)) (hnew : get? name entries = none)
    (new : Node) : Extends n (put (place ++ [name]) n new) := by
  constructor
  · intro q m hm hdir
    rcases find?_put_concat h name new q with ⟨below, rfl, -⟩ | ⟨old, es, hold, -⟩ | hsame
    · simp [find?_concat_append h, hnew] at hm
    · rw [hold] at hm
      cases hm
      cases hdir
    · rw [hsame, hm]
  · intro q es hm
    rcases find?_put_concat h name new q with ⟨below, rfl, -⟩ | ⟨-, es', -, hnew⟩ | hsame
    · simp [find?_concat_append h, hnew] at hm
    · exact ⟨es', hnew⟩
    · exact ⟨es, hsame.trans hm⟩

lemma find?_of_put {m : Node} {q : List String} (h : n.find? place = some (.dir entries))
    {new : Node} (hm : (put (place ++ [name]) n new).find? q = some m) (hdir : m.isDir = false) :
    n.find? q = some m ∨ ∃ below, q = place ++ name :: below ∧ new.find? below = some m := by
  rcases find?_put_concat h name new q with ⟨below, rfl, hbelow⟩ | ⟨old, es, -, hes⟩ | hsame
  · exact .inr ⟨below, rfl, hbelow.symm.trans hm⟩
  · rw [hes] at hm
    cases hm
    cases hdir
  · exact .inl (hsame.symm.trans hm)

/-- A tree has the directories and the links of another one, and files where that one has files. -/
structure Covers (n n' : Node) : Prop where
  file : ∀ place content mode, n.find? place = some (.file content mode) →
    ∃ content' mode', n'.find? place = some (.file content' mode')
  link : ∀ place target, n.find? place = some (.link target) → n'.find? place = some (.link target)
  dir : ∀ place entries, n.find? place = some (.dir entries) →
    ∃ entries', n'.find? place = some (.dir entries')

lemma Extends.covers {n' : Node} (h : Extends n n') : Covers n n' where
  file := fun place content mode hfile => ⟨content, mode, h.leaf place _ hfile rfl⟩
  link := fun place _ hlink => h.leaf place _ hlink rfl
  dir := h.dir

lemma covers_put_file (h : n.find? place = some (.dir entries))
    (hold : ∀ old, get? name entries = some old → ∃ content mode, old = .file content mode)
    (content : Bytes)
    (mode : FileMode) : Covers n (put (place ++ [name]) n (.file content mode)) := by
  -- below the name there was a file at most
  have hbelow : ∀ below m, n.find? (place ++ name :: below) = some m →
      below = [] ∧ ∃ content mode, m = .file content mode := by
    intro below m hm
    rw [find?_concat_append h, bind_eq_some_iff] at hm
    obtain ⟨old, hget, hm⟩ := hm
    obtain ⟨content', mode', rfl⟩ := hold old hget
    cases below with
    | nil =>
      rw [Node.find?_nil, Option.some.injEq] at hm
      exact ⟨rfl, content', mode', hm.symm⟩
    | cons next below => simp [find?] at hm
  constructor
  · intro q old oldMode hm
    rcases find?_put_concat h name (.file content mode) q with ⟨below, rfl, hnew⟩ | ⟨_, _, hdir,
      -⟩ | hsame
    · obtain ⟨rfl, -⟩ := hbelow below _ hm
      exact ⟨content, mode, by rw [hnew, Node.find?_nil]⟩
    · cases hm.symm.trans hdir
    · exact ⟨old, oldMode, hsame.trans hm⟩
  · intro q target hm
    rcases find?_put_concat h name (.file content mode) q with ⟨below, rfl, -⟩ | ⟨_, _, hdir,
      -⟩ | hsame
    · obtain ⟨-, _, _, hfile⟩ := hbelow below _ hm
      cases hfile
    · cases hm.symm.trans hdir
    · exact hsame.trans hm
  · intro q es hm
    rcases find?_put_concat h name (.file content mode) q with ⟨below, rfl, -⟩ | ⟨-, es', -,
      hnew⟩ | hsame
    · obtain ⟨-, _, _, hfile⟩ := hbelow below _ hm
      cases hfile
    · exact ⟨es', hnew⟩
    · exact ⟨es, hsame.trans hm⟩

/-! ### Well-formed trees -/

/-- The name of an entry: a name in paths without a zero character. -/
structure ValidName (name : String) : Prop extends IsName name where
  no_nul : '\x00' ∉ name.toList

instance (name : String) : Decidable (ValidName name) :=
  decidable_of_iff (IsName name ∧ '\x00' ∉ name.toList)
    ⟨fun ⟨hname, hnul⟩ => ⟨hname, hnul⟩, fun h => ⟨h.toIsName, h.no_nul⟩⟩

/-- The entries of every directory have valid names in increasing order. -/
def WellFormed (n : Node) : Prop :=
  ∀ place entries, n.find? place = some (.dir entries) →
    Table.Ordered entries ∧ ∀ e ∈ entries, ValidName e.1

lemma wellFormed_file (content : Bytes) (mode : FileMode) : WellFormed (.file content mode) := by
  intro place entries h
  cases place <;> simp [find?] at h

lemma wellFormed_link (target : String) : WellFormed (.link target) := by
  intro place entries h
  cases place <;> simp [find?] at h

lemma WellFormed.of_find? (h : WellFormed n) (hchild : n.find? place = some child) :
    WellFormed child := by
  intro below entries hbelow
  exact h (place ++ below) entries (by rw [Node.find?_append, hchild, bind_some, hbelow])

lemma WellFormed.of_get? (h : WellFormed (.dir entries))
    (hget : get? name entries = some child) : WellFormed child := by
  have hfind : (Node.dir entries).find? [name] = some child := by
    rw [find?_cons_dir, hget]
    simp
  exact h.of_find? hfind

lemma wellFormed_dir_iff : WellFormed (.dir entries) ↔
      Table.Ordered entries ∧ ∀ e ∈ entries, ValidName e.1 ∧ WellFormed e.2 := by
  constructor
  · intro h
    obtain ⟨hordered, hvalid⟩ := h [] entries (Node.find?_nil _)
    exact ⟨hordered, fun e he => ⟨hvalid e he, h.of_get? (hordered.get?_of_mem he)⟩⟩
  · rintro ⟨hordered, hentries⟩ place es hplace
    cases place with
    | nil =>
      cases hplace
      exact ⟨hordered, fun e he => (hentries e he).1⟩
    | cons name place =>
      obtain ⟨_, child, heq, hget, hchild⟩ := exists_of_find?_cons hplace
      cases heq
      exact (hentries _ (Table.mem_of_get? hget)).2 place es hchild

instance : Decidable (Table.Ordered entries) := inferInstanceAs (Decidable (entries.Pairwise _))

lemma wellFormed_emptyDir : WellFormed emptyDir := wellFormed_dir_iff.mpr ⟨.nil, by simp⟩

lemma WellFormed.validName_of_mem (h : WellFormed n)
    (hchild : n.find? place = some child) : ∀ name ∈ place, ValidName name := by
  induction place generalizing n with
  | nil => simp
  | cons name place ih =>
    obtain ⟨entries, next, rfl, hget, hnext⟩ := exists_of_find?_cons hchild
    intro other hother
    rcases mem_cons.mp hother with rfl | hother
    · exact (h [] entries (Node.find?_nil _)).2 _ (Table.mem_of_get? hget)
    · exact ih (h.of_get? hget) hnext other hother

lemma WellFormed.put {new : Node} (h : WellFormed n) (hnew : WellFormed new)
    (hplace : ∀ name ∈ place, ValidName name) : WellFormed (put place n new) := by
  induction place generalizing n with
  | nil => simpa [Node.put] using hnew
  | cons name place ih =>
    have hname := hplace name mem_cons_self
    have hrest : ∀ m : Node, WellFormed m → WellFormed (Node.put place m new) := fun m hm =>
      ih hm (forall_mem_cons.mp hplace).2
    -- a directory with one entry replaced, or a new one with this entry only
    have hdir : ∀ (entries : Table Node) (child : Node), WellFormed (.dir entries) →
        WellFormed child → WellFormed (.dir (insert name (Node.put place child new) entries)) := by
      intro entries child hentries hchild
      obtain ⟨hordered, hvalid⟩ := wellFormed_dir_iff.mp hentries
      refine wellFormed_dir_iff.mpr ⟨hordered.insert _ _, fun e he => ?_⟩
      rcases Table.mem_insert he with rfl | he
      · exact ⟨hname, hrest child hchild⟩
      · exact hvalid e he
    cases n with
    | dir entries =>
      rw [Node.put]
      refine hdir entries _ h ?_
      cases hget : get? name entries with
      | none => exact wellFormed_emptyDir
      | some child => exact h.of_get? hget
    | file content mode => exact hdir [] emptyDir wellFormed_emptyDir wellFormed_emptyDir
    | link target => exact hdir [] emptyDir wellFormed_emptyDir wellFormed_emptyDir

/-! ### What is added to a tree -/

section

variable {P : Node → Prop} {tree tree' tree'' : Node}

/-- Besides directories, all that is new in a tree is of some kind. -/
def Adds (P : Node → Prop) (tree tree' : Node) : Prop :=
  ∀ place n, tree'.find? place = some n → n.isDir = true ∨ tree.find? place = some n ∨ P n

lemma Adds.refl (tree : Node) : Adds P tree tree := fun _ _ h => .inr (.inl h)

lemma Adds.trans (h : Adds P tree tree') (h' : Adds P tree' tree'') : Adds P tree tree'' := by
  intro place n hn
  rcases h' place n hn with hdir | hold | hnew
  · exact .inl hdir
  · exact h place n hold
  · exact .inr (.inr hnew)

lemma isDir_of_find?_emptyDir {place : List String} {n : Node} (h : emptyDir.find? place = some n) :
    n.isDir := by
  cases place with
  | nil =>
    cases h
    rfl
  | cons name place => simp [emptyDir] at h

lemma adds_put {new : Node} (hnew : ∀ place n, new.find? place = some n → n.isDir ∨ P n)
    (place : List String) (tree : Node) : Adds P tree (put place tree new) := by
  induction place generalizing tree with
  | nil =>
    intro q n hn
    rw [put] at hn
    exact (hnew q n hn).imp_right .inr
  | cons name rest ih =>
    -- in the directory of some entries, what the name leads to is replaced
    have hdir : ∀ (entries : Table Node) (q : List String) (n : Node),
        (Node.dir (insert name (put rest ((get? name entries).getD emptyDir) new) entries)).find?
        q = some n → n.isDir ∨ (Node.dir entries).find? q = some n ∨ P n := by
      intro entries q n hn
      cases q with
      | nil =>
        cases hn
        exact .inl rfl
      | cons a q =>
        rw [find?_cons_dir, get?_insert] at hn
        rw [find?_cons_dir]
        split at hn
        · rename_i heq
          subst heq
          rcases ih _ q n hn with hdir | hold | hnew
          · exact .inl hdir
          · cases hget : get? name entries with
            | none =>
              rw [hget] at hold
              exact .inl (isDir_of_find?_emptyDir hold)
            | some child =>
              rw [hget] at hold
              exact .inr (.inl hold)
          · exact .inr (.inr hnew)
        · exact .inr (.inl hn)
    have hfresh :
        ∀ q n, (Node.dir [(name, put rest emptyDir new)]).find? q = some n → n.isDir ∨ P n := by
      intro q n hn
      rcases hdir [] q n hn with h | h | h
      · exact .inl h
      · exact .inl (isDir_of_find?_emptyDir h)
      · exact .inr h
    intro q n hn
    cases tree with
    | dir entries => exact hdir entries q n hn
    | file content mode => exact (hfresh q n hn).imp_right .inr
    | link target => exact (hfresh q n hn).imp_right .inr

lemma adds_put_emptyDir (place : List String) (tree : Node) :
    Adds P tree (put place tree emptyDir) :=
  adds_put (fun _ _ h => .inl (isDir_of_find?_emptyDir h)) place tree

end

end Node

end PluginAudit
