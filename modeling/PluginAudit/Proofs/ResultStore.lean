import PluginAudit.Proofs.CacheDocuments
import PluginAudit.Proofs.InputRecords
import PluginAudit.Proofs.WrittenFiles

/-!
The directories of kept results. Making them takes nothing away, reading finds only what was written
there, and writing a result adds its file and its pointer.
-/

open List

namespace PluginAudit.Scan.Cache

open Table (get? insert get?_insert)
open PluginAudit.Path (isAbsolute cleanComponents IsName join rooted)
open FileTree Node

variable {tree : Node} {place : List String} {r : Report} {keys objects : Table Node}

/-! ### What a directory of results holds -/

/-- If the directory is there, each of its files has a property. -/
def Holds (entries : List (String × Node)) (name : String) (P : String → Node → Prop) : Prop :=
  ∀ child, get? name entries = some child → ∃ inner, child = .dir inner ∧
    ∀ file n, get? file inner = some n → P file n

variable {entries inner : Table Node} {name other file : String} {P Q : String → Node → Prop}

lemma holds_nil : Holds [] name P := fun _ h => by cases h

section

variable (h : Holds entries name P)

include h

lemma Holds.mono (himp : ∀ file n, P file n → Q file n) : Holds entries name Q := by
  intro child hchild
  obtain ⟨inner, rfl, hinner⟩ := h child hchild
  exact ⟨inner, rfl, fun file n hget => himp file n (hinner file n hget)⟩

lemma Holds.of_mem (hdir : get? name entries = some (.dir inner)) {n : Node}
    (hfile : get? file inner = some n) : P file n := by
  obtain ⟨found, heq, hfound⟩ := h _ hdir
  cases heq
  exact hfound file n hfile

lemma Holds.get?_eq_none (hnone : ∀ file n, ¬ P file n)
    (hdir : get? name entries = some (.dir inner)) (file : String) : get? file inner = none := by
  by_contra hsome
  obtain ⟨n, hn⟩ := Option.ne_none_iff_exists'.mp hsome
  exact hnone file n (h.of_mem hdir hn)

lemma Holds.insert_emptyDir (new : String) : Holds (insert new .emptyDir entries) name P := by
  intro child hchild
  rw [get?_insert] at hchild
  split at hchild
  · cases hchild
    exact ⟨[], rfl, fun _ _ hget => by cases hget⟩
  · exact h child hchild

lemma Holds.insert_of_ne (hne : other ≠ name) (n : Node) :
    Holds (insert other n entries) name P := by
  intro child hchild
  rw [get?_insert, if_neg hne] at hchild
  exact h child hchild

lemma Holds.insert_file (hdir : get? name entries = some (.dir inner)) {n : Node} (hn : P file n) :
    Holds (insert name (.dir (insert file n inner)) entries) name P := by
  intro child hchild
  rw [get?_insert, if_pos rfl] at hchild
  cases hchild
  refine ⟨_, rfl, fun f m hget => ?_⟩
  rw [get?_insert] at hget
  split at hget
  case isTrue heq =>
    cases hget
    rwa [← heq]
  case isFalse => exact h.of_mem hdir hget

end

/-! ### Names -/

lemma validName_json {digest : String} (h : ∀ c ∈ digest.toList, c ≠ '/' ∧ c ≠ '\x00') :
    ValidName (digest ++ ".json") := by
  have hmem : ∀ c ∈ (digest ++ ".json").toList, c ≠ '/' ∧ c ≠ '\x00' := by
    intro c hc
    rw [String.toList_append, mem_append] at hc
    rcases hc with hc | hc
    · exact h c hc
    · have hjson : ".json".toList.all (fun c => c != '/' && c != '\x00') := by decide
      simpa using all_eq_true.mp hjson c hc
  have hlength : 5 ≤ (digest ++ ".json").length := by
    rw [String.length_append]
    exact Nat.le_add_left 5 _
  refine ⟨⟨?_, ?_, ?_, fun hc => (hmem _ hc).1 rfl⟩, fun hc => (hmem _ hc).2 rfl⟩
  all_goals
    intro heq
    rw [heq] at hlength
    revert hlength
    decide

lemma validName_digestText (s : String) : ValidName (digestText s ++ ".json") := by
  have hdigit : ∀ n < 16, Text.hexDigit n ≠ '/' ∧ Text.hexDigit n ≠ '\x00' := by decide
  refine validName_json fun c hc => ?_
  obtain ⟨n, hn, rfl⟩ := exists_hexDigit_of_mem_sha256Hex hc
  exact hdigit n hn

lemma validName_keyDigest (root : String) (file : Option String) (s : Settings) :
    ValidName (keyDigest root file s ++ ".json") := by
  rw [keyDigest]
  exact validName_digestText _

lemma validName_keys : ValidName "keys" := by decide

lemma validName_objects : ValidName "objects" := by decide

/-! ### Reading and making -/

section Directory

variable {path : String} {content : Bytes} {mode : FileMode} {tree' : Node}
  (habs : isAbsolute path = true) (hleads : LeadsTo tree (cleanComponents path) place entries)

section File

variable (hname : IsName name) (hfile : IsName file) (hdir : get? name entries = some (.dir inner))

include hleads hname hdir in
lemma leadsTo_dir : LeadsTo tree (cleanComponents path ++ [name]) (place ++ [name]) inner :=
  hleads.append (by simpa using hname)
    (by rw [find?_cons_dir, hdir, Option.bind_some, Node.find?_nil])

include hdir in
lemma find?_file {n : Node} (hget : get? file inner = some n) :
    (Node.dir entries).find? [name, file] = some n := by
  rw [find?_cons_dir, hdir, Option.bind_some, find?_cons_dir, hget, Option.bind_some,
    Node.find?_nil]

include habs hname hfile

lemma join_eq_rooted : join [path, name, file] = rooted (cleanComponents path ++ [name, file]) :=
  Path.join_names habs (by simpa using ⟨hname, hfile⟩)

include hleads

lemma readUnder_eq (here : String) : readUnder tree here path (join [path, name, file]) =
      (readConfined (.dir entries) (rooted (cleanComponents path))
        ("/".intercalate [name, file])).mapError .file := by
  have hnames : ∀ n ∈ [name, file], IsName n := by simpa using ⟨hname, hfile⟩
  have hall : ∀ n ∈ cleanComponents path ++ [name, file], IsName n :=
    forall_mem_append.mpr ⟨hleads.isName, hnames⟩
  exact hleads.readUnder_eq here (Path.absolute_of_isAbsolute here habs) hnames (by simp)
    (by rw [join_eq_rooted habs hname hfile, Path.absolute_rooted here hall])

include hdir

lemma readUnder_file (hget : get? file inner = some (.file content mode)) (here : String) :
    readUnder tree here path (join [path, name, file]) = .ok content := by
  rw [readUnder_eq habs hleads hname hfile,
    readConfined_file (by simpa using ⟨hname, hfile⟩) (find?_file hdir hget) (by simp)]
  rfl

lemma exists_readUnder_missing (hget : get? file inner = none) (here : String) :
    ∃ e, readUnder tree here path (join [path, name, file]) = .error e := by
  have hfind : (Node.dir entries).find? [name] = some (.dir inner) := by
    rw [find?_cons_dir, hdir, Option.bind_some, Node.find?_nil]
  obtain ⟨e, he⟩ : ∃ e, readConfined (.dir entries) (rooted (cleanComponents path))
      ("/".intercalate ([name] ++ [file])) = .error e :=
    readConfined_missing (by simpa using hname) hfile hfind hget
  rw [cons_append, nil_append] at he
  rw [readUnder_eq habs hleads hname hfile, he]
  exact ⟨_, rfl⟩

lemma Holds.exists_of_readUnder (h : Holds entries name P)
    (hplain : ∀ file n, P file n → ∃ content mode, n = .file content mode) {here : String}
    (hread : readUnder tree here path (join [path, name, file]) = .ok content) :
    ∃ mode, get? file inner = some (.file content mode) ∧ P file (.file content mode) := by
  cases hget : get? file inner with
  | none =>
    obtain ⟨e, he⟩ := exists_readUnder_missing habs hleads hname hfile hdir hget here
    rw [he] at hread
    cases hread
  | some n =>
    have hn := h.of_mem hdir hget
    obtain ⟨found, mode, rfl⟩ := hplain file n hn
    rw [readUnder_file habs hleads hname hfile hdir hget] at hread
    cases hread
    exact ⟨mode, rfl, hn⟩

lemma stat_file (hget : get? file inner = some (.file content mode)) :
    stat tree (join [path, name, file]) = .ok (.file content mode) := by
  rw [join_eq_rooted habs hname hfile]
  exact hleads.stat_append [name, file] (by simpa using ⟨hname, hfile⟩) (find?_file hdir hget)
    (by simp)

lemma stat_fileMissing (hget : get? file inner = none) :
    stat tree (join [path, name, file]) = .error .notFound := by
  rw [join_eq_rooted habs hname hfile, append_cons]
  exact (leadsTo_dir hleads hname hdir).stat_missing hfile hget

lemma Holds.get?_eq_none_of_stat (h : Holds entries name P)
    (hplain : ∀ file n, P file n → ∃ content mode, n = .file content mode) {cause : FsCause}
    (hstat : stat tree (join [path, name, file]) = .error cause) : get? file inner = none := by
  cases hget : get? file inner with
  | none => rfl
  | some n =>
    obtain ⟨content, mode, rfl⟩ := hplain file n (h.of_mem hdir hget)
    rw [stat_file habs hleads hname hfile hdir hget] at hstat
    cases hstat

lemma overwrite_cases (content : Bytes) : (∃ sub, get? file inner = some (.dir sub)) ∧
      left (overwrite tree (join [path, name, file]) content) = tree ∨
      (∀ sub, get? file inner ≠ some (.dir sub)) ∧
        overwrite tree (join [path, name, file]) content =
        .ok (tree.put (place ++ [name, file]) (.file content .plain)) := by
  rw [join_eq_rooted habs hname hfile, append_cons]
  rcases (leadsTo_dir hleads hname hdir).overwrite_cases hfile content with ⟨hold, hwrite⟩ | ⟨hold,
    hwrite⟩
  · exact .inl ⟨hold, by rw [hwrite, left_error]⟩
  · rw [append_assoc place, cons_append, nil_append] at hwrite
    exact .inr ⟨hold, hwrite⟩

lemma left_overwrite (content : Bytes) :
    left (overwrite tree (join [path, name, file]) content) = tree ∨
    left (overwrite tree (join [path, name, file]) content) =
      tree.put (place ++ [name, file]) (.file content .plain) := by
  rcases overwrite_cases habs hleads hname hfile hdir content with ⟨-, hwrite⟩ | ⟨-, hwrite⟩
  · exact .inl hwrite
  · exact .inr (by rw [hwrite, left_ok])

/-- A file can be written into a directory of results where there is none, and in place of a
file. -/
lemma overwrite_file (hold : ∀ old, get? file inner = some old → ∃ content mode, old =
      .file content mode) (content : Bytes) : overwrite tree (join [path, name, file]) content =
      .ok (tree.put (place ++ [name, file]) (.file content .plain)) := by
  rcases overwrite_cases habs hleads hname hfile hdir content with ⟨⟨sub, hsub⟩, -⟩ | ⟨-, hwrite⟩
  · obtain ⟨content, mode, hfile⟩ := hold _ hsub
    cases hfile
  · exact hwrite

lemma overwrite_missing (hget : get? file inner = none) (content : Bytes) :
    stat tree (join [path, name, file]) = .error .notFound ∧
      overwrite tree (join [path, name, file]) content =
        .ok (tree.put (place ++ [name, file]) (.file content .plain)) :=
  ⟨stat_fileMissing habs hleads hname hfile hdir hget,
    overwrite_file habs hleads hname hfile hdir (by simp [hget]) content⟩

end File

/-- A tree after directories of results were made: nothing is lost, and they hold what they held. -/
structure Grows (tree tree' : Node) (entries entries' : List (String × Node)) : Prop where
  extended : Extends tree tree'
  wellFormed : WellFormed tree → WellFormed tree'
  holds : ∀ name P, Holds entries name P → Holds entries' name P
  dir : ∀ name inner, get? name entries = some (.dir inner) → get? name entries' = some (.dir inner)

lemma Grows.refl (tree : Node) (entries : Table Node) : Grows tree tree entries entries :=
  ⟨Extends.refl tree, id, fun _ _ => id, fun _ _ => id⟩

lemma Grows.trans {tree'' : Node} {entries' entries'' : Table Node}
    (h : Grows tree tree' entries entries')
    (h' : Grows tree' tree'' entries' entries'') : Grows tree tree'' entries entries'' :=
  ⟨h.extended.trans h'.extended, h'.wellFormed ∘ h.wellFormed, fun _ _ =>
    h'.holds _ _ ∘ h.holds _ _, fun _ _ => h'.dir _ _ ∘ h.dir _ _⟩

lemma Grows.exists_dir {entries' : Table Node} (h : Grows tree tree' entries entries')
    (hold : Holds entries name P) (hdir : get? name entries' = some (.dir inner)) {n : Node}
    (hfile : get? file inner = some n) : ∃ inner', get? name entries = some (.dir inner') := by
  by_contra hmissing
  rw [not_exists] at hmissing
  have hnone : Holds entries name fun _ _ => False := by
    intro child hchild
    obtain ⟨inner', rfl, -⟩ := hold child hchild
    exact absurd hchild (hmissing inner')
  exact (h.holds _ _ hnone).of_mem hdir hfile

include habs hleads in
lemma exists_makeDirs (hname : ValidName name) (h : Holds entries name P) :
    ∃ tree' entries' inner, makeDirs tree (join [path, name]) = .ok tree' ∧
      LeadsTo tree' (cleanComponents path) place entries' ∧
      get? name entries' = some (.dir inner) ∧ Grows tree tree' entries entries' ∧
      (∀ inner, get? name entries = some (.dir inner) → tree' = tree) := by
  have hjoin : join [path, name] = rooted (cleanComponents path ++ [name]) :=
    Path.join_names habs (by simpa using hname.toIsName)
  rw [hjoin]
  cases hget : get? name entries with
  | none =>
    obtain ⟨hext, hleads'⟩ := hleads.put_missing hget .emptyDir
    refine ⟨_, _, [], hleads.makeDirs_missing hname.toIsName hget, hleads', ?_, ⟨hext, fun hwf =>
      ?_, fun _ _ hholds => hholds.insert_emptyDir name, fun other inner hother => ?_⟩, ?_⟩
    · rw [get?_insert, if_pos rfl]
      rfl
    · exact hwf.put wellFormed_emptyDir
        (forall_mem_append.mpr ⟨hwf.validName_of_mem hleads.dir, forall_mem_singleton.mpr hname⟩)
    · rw [get?_insert, if_neg, hother]
      rintro rfl
      rw [hget] at hother
      cases hother
    · rintro inner ⟨⟩
  | some child =>
    obtain ⟨inner, rfl, -⟩ := h child hget
    exact ⟨tree, entries, inner, (leadsTo_dir hleads hname.toIsName hget).makeDirs, hleads, hget,
      Grows.refl tree entries, fun _ _ => rfl⟩

include hleads in
lemma find?_put_file (hdir : get? name entries = some (.dir inner)) (n : Node) :
    (tree.put (place ++ [name, file]) n).find? place =
      some (.dir (insert name (.dir (insert file n inner)) entries)) := by
  rw [find?_put_append hleads.dir, put, hdir, Option.getD_some, put, put]

include hleads in
lemma leadsTo_put_file (hdir : get? name entries = some (.dir inner))
    (hnew : get? file inner = none) (n : Node) : Extends tree (tree.put (place ++ [name, file]) n) ∧
      LeadsTo (tree.put (place ++ [name, file]) n) (cleanComponents path) place
        (insert name (.dir (insert file n inner)) entries) := by
  have hinner : tree.find? (place ++ [name]) = some (.dir inner) := by
    rw [find?_concat_of_dir hleads.dir, hdir]
  have hext := extends_put hinner hnew n
  rw [append_assoc, cons_append, nil_append] at hext
  obtain ⟨_, hleads'⟩ := hleads.exists_of_extends hext
  exact ⟨hext, hleads.isName, hleads'.resolved, find?_put_file hleads hdir n⟩

include hleads in
lemma leadsTo_put_over (hdir : get? name entries = some (.dir inner))
    (hold : ∀ old, get? file inner = some old → ∃ content mode, old = .file content mode)
    (content : Bytes) (mode : FileMode) :
    LeadsTo (tree.put (place ++ [name, file]) (.file content mode)) (cleanComponents path) place
      (insert name (.dir (insert file (.file content mode) inner)) entries) := by
  have hinner : tree.find? (place ++ [name]) = some (.dir inner) := by
    rw [find?_concat_of_dir hleads.dir, hdir]
  have hcovers := covers_put_file hinner hold content mode
  rw [append_assoc, cons_append, nil_append] at hcovers
  obtain ⟨_, hleads'⟩ := hleads.exists_of_covers hcovers
  exact ⟨hleads.isName, hleads'.resolved, find?_put_file hleads hdir _⟩

include hleads in
lemma wellFormed_put_file (hname : ValidName name) (hfile : ValidName file) (hwf : WellFormed tree)
    (content : Bytes) (mode : FileMode) :
    WellFormed (tree.put (place ++ [name, file]) (.file content mode)) := by
  refine hwf.put (wellFormed_file content mode)
    (forall_mem_append.mpr ⟨hwf.validName_of_mem hleads.dir, ?_⟩)
  exact forall_mem_cons.mpr ⟨hname, forall_mem_singleton.mpr hfile⟩

end Directory

/-! ### Preparing, and keeping a result -/

lemma exists_prepare {s : CacheSettings} {root : String} (habs : isAbsolute (pathOf s root))
    (henabled : s.enabled) (hleads : LeadsTo tree (cleanComponents (pathOf s root)) place entries)
    (hkeys : Holds entries "keys" P) (hobjects : Holds entries "objects" Q) :
    ∃ tree' entries' keys objects,
      prepare tree s root = (tree', { path := pathOf s root, enabled := true, usable := true }) ∧
      LeadsTo tree' (cleanComponents (pathOf s root)) place entries' ∧
      get? "keys" entries' = some (.dir keys) ∧
      get? "objects" entries' = some (.dir objects) ∧ Grows tree tree' entries entries' ∧
      (∀ keys objects, get? "keys" entries = some (.dir keys) →
        get? "objects" entries = some (.dir objects) → tree' = tree) := by
  obtain ⟨tree₁, entries₁, keys, hmake₁, hleads₁, hget₁, hgrows₁, hsame₁⟩ :=
    exists_makeDirs habs hleads validName_keys hkeys
  obtain ⟨tree₂, entries₂, objects, hmake₂, hleads₂, hget₂, hgrows₂, hsame₂⟩ :=
    exists_makeDirs habs hleads₁ validName_objects (hgrows₁.holds _ _ hobjects)
  refine ⟨tree₂, entries₂, keys, objects, ?_, hleads₂, hgrows₂.dir _ _ hget₁, hget₂,
    hgrows₁.trans hgrows₂, fun keys objects hk ho => ?_⟩
  · simp only [prepare, henabled, Bool.not_true, Bool.false_eq_true, if_false, hmake₁, hmake₂]
  · rw [hsame₂ objects (hgrows₁.dir _ _ ho), hsame₁ keys hk]

def pointerNode (input : String) (r : Report) : Node :=
  .file (bytesOf (Json.compact (pointerJson ⟨input, digestText (objectText r)⟩))) .plain

def objectNode (r : Report) : Node := .file (bytesOf (objectText r)) .plain

/-- A result is kept in two steps, its file, unless it is there, and its pointer; what the first
step did stays if the second fails. -/
lemma exists_left_write (c : Cache) (tree : Node) (e : CacheEntry) (hcache : r.cache = none) :
    ∃ tree₁, (tree₁ = tree ∨
      stat tree (c.objectPath (digestText (objectText r))) = .error .notFound ∧ tree₁ = left
            (overwrite tree (c.objectPath (digestText (objectText r))) (bytesOf (objectText r)))) ∧
      (left (c.write tree e r) = tree₁ ∨
        left (c.write tree e r) = left (overwrite tree₁ (c.pointerPath e.key)
        (bytesOf (Json.compact (pointerJson ⟨e.input, digestText (objectText r)⟩))))) := by
  have hsame : { r with cache := none } = r := by rw [← hcache]
  unfold write
  rw [hsame]
  cases hstat : stat tree (c.objectPath (digestText (objectText r))) with
  | ok n => exact ⟨tree, .inl rfl, .inr (by simp only [hstat, bind, Except.bind])⟩
  | error cause =>
    by_cases hcause : cause = .notFound
    · subst hcause
      refine ⟨_, .inr ⟨rfl, rfl⟩, ?_⟩
      simp only [hstat]
      cases overwrite tree (c.objectPath (digestText (objectText r))) (bytesOf (objectText r)) with
      | error failed => exact .inl (by simp only [bind, Except.bind, left_error])
      | ok tree₁ => exact .inr (by simp only [bind, Except.bind, left_ok])
    · refine ⟨tree, .inl rfl, .inl ?_⟩
      cases cause with
      | notFound => exact absurd rfl hcause
      | _ => simp only [hstat, bind, Except.bind, left_error]

section Kept

variable {c : Cache} {e : CacheEntry} (habs : isAbsolute c.path = true)
  (hleads : LeadsTo tree (cleanComponents c.path) place entries)
  (hkeys : get? "keys" entries = some (.dir keys))
  (hobjects : get? "objects" entries = some (.dir objects))

include habs hleads hkeys hobjects

lemma exists_of_write {tree' : Node} (hcache : r.cache = none) (hheld : Holds entries "objects" Q)
    (hplain : ∀ file n, Q file n → ∃ content mode, n = .file content mode)
    (hwrite : left (c.write tree e r) = tree') (hkey : ValidName (e.key ++ ".json")) :
    ∃ entries', tree'.find? place = some (.dir entries') ∧ (WellFormed tree → WellFormed tree') ∧
      (∀ P, P (e.key ++ ".json") (pointerNode e.input r) → Holds entries "keys" P →
        Holds entries' "keys" P) ∧
      (∀ P, P (digestText (objectText r) ++ ".json") (objectNode r) → Holds entries "objects" P →
        Holds entries' "objects" P) := by
  have hobject := validName_digestText (objectText r)
  obtain ⟨tree₁, htree₁, hpointer⟩ := exists_left_write c tree e hcache
  rw [hwrite] at hpointer
  -- the tree with the file of the result
  obtain ⟨entries₁, hleads₁, hkeys₁, hwf₁, hpointers₁, hobjects₁⟩ : ∃ entries₁,
      LeadsTo tree₁ (cleanComponents c.path) place entries₁ ∧
      get? "keys" entries₁ = some (.dir keys) ∧ (WellFormed tree → WellFormed tree₁) ∧
      (∀ P, Holds entries "keys" P → Holds entries₁ "keys" P) ∧
      (∀ P, P (digestText (objectText r) ++ ".json") (objectNode r) → Holds entries "objects" P →
        Holds entries₁ "objects" P) := by
    rcases htree₁ with rfl | ⟨hstat, htree₁⟩
    · exact ⟨entries, hleads, hkeys, id, fun _ => id, fun _ _ => id⟩
    · have hnew : get? (digestText (objectText r) ++ ".json") objects = none :=
        hheld.get?_eq_none_of_stat habs hleads validName_objects.toIsName hobject.toIsName hobjects
          hplain hstat
      have hput := overwrite_file habs hleads validName_objects.toIsName hobject.toIsName hobjects
        (by simp [hnew]) (bytesOf (objectText r))
      rw [htree₁, objectPath, hput, left_ok]
      refine ⟨_, (leadsTo_put_file hleads hobjects hnew (objectNode r)).2, ?_,
        fun hwf => wellFormed_put_file hleads validName_objects hobject hwf _ _,
        fun P hP => hP.insert_of_ne (by decide) _, fun P hnode hP => hP.insert_file hobjects hnode⟩
      rw [get?_insert, if_neg (by decide), hkeys]
  -- the tree with the pointer
  have hput : tree' = tree₁ ∨
      tree' = tree₁.put (place ++ ["keys", e.key ++ ".json"]) (pointerNode e.input r) := by
    rcases hpointer with hsame | hnew
    · exact .inl hsame
    · rw [hnew]
      exact left_overwrite habs hleads₁ validName_keys.toIsName hkey.toIsName hkeys₁ _
  rcases hput with rfl | rfl
  · exact ⟨entries₁, hleads₁.dir, hwf₁, fun P _ => hpointers₁ P, hobjects₁⟩
  exact ⟨_, find?_put_file hleads₁ hkeys₁ _, fun hwf => wellFormed_put_file hleads₁ validName_keys
    hkey (hwf₁ hwf) _ _, fun P hnode hP => (hpointers₁ P hP).insert_file hkeys₁ hnode,
    fun P hnode hP => (hobjects₁ P hnode hP).insert_of_ne (by decide) _⟩

lemma exists_write (hcache : r.cache = none) (hpointer : get? (e.key ++ ".json") keys = none)
    (hobject : get? (digestText (objectText r) ++ ".json") objects = none)
    (hkey : ValidName (e.key ++ ".json")) :
    ∃ tree' entries', c.write tree e r = .ok tree' ∧ Extends tree tree' ∧
      LeadsTo tree' (cleanComponents c.path) place entries' ∧
      get? "keys" entries' = some (.dir (insert (e.key ++ ".json") (pointerNode e.input r) keys)) ∧
      get? "objects" entries' =
        some (.dir (insert (digestText (objectText r) ++ ".json") (objectNode r) objects)) := by
  have hsame : { r with cache := none } = r := by rw [← hcache]
  have hfile := (validName_digestText (objectText r)).toIsName
  obtain ⟨hstat, hwrite⟩ :=
    overwrite_missing habs hleads validName_objects.toIsName hfile hobjects hobject
      (bytesOf (objectText r))
  obtain ⟨hext₁, hleads₁⟩ := leadsTo_put_file hleads hobjects hobject (objectNode r)
  have hkeys₁ : get? "keys" (insert "objects"
      (.dir (insert (digestText (objectText r) ++ ".json") (objectNode r) objects)) entries) =
      some (.dir keys) := by rw [get?_insert, if_neg (by decide), hkeys]
  obtain ⟨-, hwrite₂⟩ :=
    overwrite_missing habs hleads₁ validName_keys.toIsName hkey.toIsName hkeys₁ hpointer
    (bytesOf (Json.compact (pointerJson ⟨e.input, digestText (objectText r)⟩)))
  obtain ⟨hext₂, hleads₂⟩ := leadsTo_put_file hleads₁ hkeys₁ hpointer (pointerNode e.input r)
  refine ⟨_, _, ?_, hext₁.trans hext₂, hleads₂, ?_, ?_⟩
  · rw [write, hsame]
    simp only [objectPath, pointerPath]
    rw [hstat, hwrite]
    simp only [bind, Except.bind]
    exact hwrite₂
  · rw [get?_insert, if_pos rfl]
  · rw [get?_insert, if_neg (by decide), get?_insert, if_pos rfl]

lemma lookup?_of_kept {read : Report} (husable : c.usable)
    (hpointer : get? (e.key ++ ".json") keys = some (pointerNode e.input r))
    (hobject : get? (digestText (objectText r) ++ ".json") objects = some (objectNode r))
    (hkey : ValidName (e.key ++ ".json")) (hread : object? (objectText r).toList = some read)
    (here : String) : c.lookup? tree here e = some (.ok read) := by
  have hfile := (validName_digestText (objectText r)).toIsName
  have hread₁ :=
    readUnder_file habs hleads validName_keys.toIsName hkey.toIsName hkeys hpointer here
  have hread₂ := readUnder_file habs hleads validName_objects.toIsName hfile hobjects hobject here
  rw [lookup?, husable, pointerPath, hread₁]
  simp only [Bool.not_true, Bool.false_eq_true, if_false, decodeBytes_bytesOf,
    pointer?_compact_pointerJson, Cache.follow, ne_eq, not_true_eq_false, objectPath, hread₂, hread]

end Kept

end PluginAudit.Scan.Cache
