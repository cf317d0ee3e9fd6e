import PluginAudit.Proofs.PlanAgreement

/-!
Reading below a root. Main statement: a scan depends on nothing outside of the directory that the
root leads to, whatever links there are.
-/

namespace PluginAudit

open PluginAudit.Path (isAbsolute absolute IsName rooted)

namespace Node

variable {place : List String}

/-- What reading sees of a node. -/
inductive Sight where
  | file (content : Bytes)
  | link (target : String)
  | dir
deriving DecidableEq

/-- Of a file reading sees the content, and of a directory only that it is one. -/
def sight : Node → Sight
  | file content _ => .file content
  | link target => .link target
  | dir _ => .dir

def seen (n : Node) (place : List String) : Option Sight := (n.find? place).map sight

/-- Trees that look the same at a place and everywhere below it. -/
def SameBelow (place : List String) (tree tree' : Node) : Prop :=
  ∀ below, tree.seen (place ++ below) = tree'.seen (place ++ below)

lemma seen_append {tree top : Node} (h : tree.find? place = some top) (below : List String) :
    tree.seen (place ++ below) = top.seen below := by
  rw [seen, find?_append, h, Option.bind_some, seen]

lemma isDir_eq_of_sight_eq {n n' : Node} (h : n.sight = n'.sight) : n.isDir = n'.isDir := by
  cases n <;> cases n' <;> first | rfl | cases h

lemma SameBelow.find?_cases {tree tree' : Node} (h : SameBelow place tree tree') :
    (tree.find? place = none ∧ tree'.find? place = none) ∨ ∃ top top', tree.find? place = some top ∧
        tree'.find? place = some top' ∧ top.sight = top'.sight ∧ top.seen = top'.seen := by
  have hplace := h []
  rw [List.append_nil, seen, seen] at hplace
  cases hfind : tree.find? place with
  | none =>
    rw [hfind, Option.map_none, eq_comm, Option.map_eq_none_iff] at hplace
    exact .inl ⟨rfl, hplace⟩
  | some top =>
    rw [hfind, Option.map_some, eq_comm, Option.map_eq_some_iff] at hplace
    obtain ⟨top', hfind', hsight⟩ := hplace
    refine .inr ⟨top, top', rfl, hfind', hsight.symm, funext fun below => ?_⟩
    rw [← seen_append hfind, ← seen_append hfind', h below]

end Node

namespace FileTree

open Node

variable {path here root : String} {place : List String} {content : Bytes}

/-! ### Readings that see the same -/

lemma followNamesConfined_seen {top : Node}
    (leap : String → List String → List String → Except FsCause (List String))
    (here : List String) {name : String} (h : name ≠ "..") (rest : List String) :
    followNamesConfined top leap here (name :: rest) =
      match top.seen (here ++ [name]) with
      | none => .error .notFound
      | some .dir => followNamesConfined top leap (here ++ [name]) rest
      | some (.file _) => if rest.isEmpty then .ok (here ++ [name]) else .error .notDirectory
      | some (.link target) => leap target here rest := by
  rw [followNamesConfined.eq_3 _ _ _ _ _ h, seen]
  rcases top.find? (here ++ [name]) with _ | (_ | _ | _) <;> rfl

variable {tree tree' top top' : Node}

lemma followNamesConfined_eq_of_seen_eq (h : top.seen = top'.seen)
    (leap : String → List String → List String → Except FsCause (List String))
    (here todo : List String) :
    followNamesConfined top leap here todo = followNamesConfined top' leap here todo := by
  induction todo generalizing here with
  | nil => rfl
  | cons name rest ih =>
    by_cases hname : name = ".."
    · rw [hname, followNamesConfined, followNamesConfined, ih]
    · simp only [followNamesConfined_seen _ _ hname, h, ih]

lemma followConfined_eq_of_seen_eq (h : top.seen = top'.seen) (links : Nat) :
    followConfined top links = followConfined top' links := by
  induction links with
  | zero =>
    rw [followConfined_zero, followConfined_zero]
    exact funext₂ (followNamesConfined_eq_of_seen_eq h _)
  | succ links ih =>
    rw [followConfined_succ, followConfined_succ, ih]
    exact funext₂ (followNamesConfined_eq_of_seen_eq h _)

lemma readConfined_seen (topPath relative : String) :
    readConfined top topPath relative =
      match followConfined top maxConfinedLinks [] (steps relative) with
      | .error cause => .error ⟨"openat", relative, cause⟩
      | .ok place => match top.seen place with
        | some (.file content) => .ok content
        | some _ => .error ⟨"read", Path.join [topPath, relative], .isDirectory⟩
        | none => .error ⟨"openat", relative, .notFound⟩ := by
  rw [readConfined]
  cases followConfined top maxConfinedLinks [] (steps relative) with
  | error cause => rfl
  | ok place =>
    dsimp only [seen]
    rcases top.find? place with _ | (_ | _ | _) <;> rfl

lemma readConfined_eq_of_seen_eq (h : top.seen = top'.seen) (topPath relative : String) :
    readConfined top topPath relative = readConfined top' topPath relative := by
  rw [readConfined_seen, readConfined_seen, followConfined_eq_of_seen_eq h, h]

lemma openDir_of_resolve (h : resolve tree path = .ok place) :
    openDir tree path = match tree.find? place with
      | none => .error ⟨"open", path, .notFound⟩
      | some n => if n.isDir then .ok n else .error ⟨"open", path, .notDirectory⟩ := by
  rw [openDir, stat, h]
  dsimp only
  cases tree.find? place <;> rfl

lemma exists_find?_of_openDir (h : openDir tree path = .ok top) :
    ∃ place, resolve tree path = .ok place ∧ tree.find? place = some top := by
  unfold openDir at h
  split at h
  · cases h
  · rename_i hstat
    split at h
    · rename_i hdir
      cases h
      cases top with
      | dir entries => exact exists_dir_of_stat hstat
      | file content mode => cases hdir
      | link target => cases hdir
    · cases h

lemma readUnder_eq_of_sameBelow (hroot : resolve tree (absolute here root) = .ok place)
    (hroot' : resolve tree' (absolute here root) = .ok place) (h : SameBelow place tree tree')
    (target : String) : readUnder tree here root target = readUnder tree' here root target := by
  unfold readUnder
  dsimp only
  rw [openDir_of_resolve hroot, openDir_of_resolve hroot']
  rcases h.find?_cases with ⟨hnone, hnone'⟩ | ⟨top, top', htop, htop', hsight, hsame⟩
  · rw [hnone, hnone']
  · rw [htop, htop']
    dsimp only
    rw [isDir_eq_of_sight_eq hsight]
    cases top'.isDir with
    | false => rfl
    | true => simp only [if_true, readConfined_eq_of_seen_eq hsame]

/-! ### Where content comes from -/

lemma exists_find?_of_readConfined {topPath relative : String}
    (h : readConfined top topPath relative = .ok content) :
    ∃ below mode, top.find? below = some (.file content mode) := by
  unfold readConfined at h
  split at h
  · cases h
  · rename_i below hbelow
    split at h
    · rename_i mode hfind
      cases h
      exact ⟨below, mode, hfind⟩
    · cases h
    · cases h

lemma exists_find?_of_readUnder {target : String}
    (h : readUnder tree here root target = .ok content) :
    ∃ place below mode, resolve tree (absolute here root) = .ok place ∧
      tree.find? (place ++ below) = some (.file content mode) := by
  unfold readUnder at h
  dsimp only at h
  split at h
  · cases h
  · split at h
    · cases h
    · split at h
      · cases h
      · rename_i top hopen
        split at h
        · cases h
        · rename_i found hread
          cases h
          obtain ⟨place, hplace, htop⟩ := exists_find?_of_openDir hopen
          obtain ⟨below, mode, hbelow⟩ := exists_find?_of_readConfined hread
          exact ⟨place, below, mode, hplace, by rw [find?_append, htop, Option.bind_some, hbelow]⟩

end FileTree

/-! ### Scans below a root -/

namespace Scan

open FileTree Node

variable {tree tree' : Node} {here root : String} {place : List String}

lemma agree_of_sameBelow {m : Means} (hroot : resolve tree (absolute m.here root) = .ok place)
    (hroot' : resolve tree' (absolute m.here root) = .ok place) (h : SameBelow place tree tree')
    (hne : root ≠ "") {s : Settings} {paths : List String}
    (hwidgets : widgetsOf m tree s = widgetsOf m tree' s)
    (htoolchain : Toolchain.Agrees paths (toolchainOf m tree s) (toolchainOf m tree' s)) :
    Agree root paths m m tree tree' s s where
  settings := Settings.alike_of_toJson_eq rfl
  file := fun path _ => by
    rw [load?_eq_map hne, load?_eq_map hne, readUnder_eq_of_sameBelow hroot hroot' h]
  widgets := hwidgets
  toolchain := htoolchain

/-- Where a root leads to the same directory of two trees that look the same below it, whatever else
is in them, every path reads the same below the root; what is read is the content of a file below
that directory; and scans with the same runtime and the same rules for widgets load the same source
files and make the same report of them. -/
theorem confined_to_root (hroot : resolve tree (absolute here root) = .ok place)
    (hroot' : resolve tree' (absolute here root) = .ok place) (hsame : SameBelow place tree tree') :
    (∀ target, readUnder tree here root target = readUnder tree' here root target) ∧
    (∀ target content, readUnder tree here root target = .ok content →
      ∃ below mode, tree.find? (place ++ below) = some (.file content mode)) ∧
    (root ≠ "" →
      (∀ path, Source.File.load? tree here root path = Source.File.load? tree' here root path) ∧
      ∀ (m : Means) (s : Settings) (paths : List String) (ecosystems : Tags) (p : Plan),
        m.here = here →
        m.cancelled = false → widgetsOf m tree s = widgetsOf m tree' s →
        Toolchain.Agrees paths (toolchainOf m tree s) (toolchainOf m tree' s) →
        planOf m tree root paths ecosystems s = .ok p →
        ∃ p', planOf m tree' root paths ecosystems s = .ok p' ∧ p'.files = p.files ∧
          planReport m p' s = planReport m p s) := by
  refine ⟨readUnder_eq_of_sameBelow hroot hroot' hsame, fun target content hread => ?_, fun hne =>
    ⟨?_, ?_⟩⟩
  · obtain ⟨found, below, mode, hfound, hfile⟩ := exists_find?_of_readUnder hread
    obtain rfl : place = found := Except.ok.inj (hroot.symm.trans hfound)
    exact ⟨below, mode, hfile⟩
  · intro path
    rw [load?_eq_map hne, load?_eq_map hne, readUnder_eq_of_sameBelow hroot hroot' hsame]
  · rintro m s paths ecosystems p rfl hlive hwidgets htoolchain hplan
    have hagree := agree_of_sameBelow hroot hroot' hsame hne hwidgets htoolchain
    obtain ⟨p', hplan', hreport⟩ := hagree.exists_planReport hlive hplan
    refine ⟨p', hplan', ?_, hreport⟩
    obtain ⟨-, _, _, -, -, rfl⟩ := planOf_eq_ok_iff.mp hplan
    obtain ⟨-, _, _, -, -, rfl⟩ := planOf_eq_ok_iff.mp hplan'
    exact hagree.filesOf_eq.symm

def linkedEntries (content : Bytes) : List (String × Node) :=
  [("a.php", .file content .plain), ("in", .link "sub/../a.php"), ("out", .link "../secret"),
    ("sub", .dir [])]

def linkedPlugin (content secret : Bytes) : Node :=
  .dir [("link", .link "plugin"), ("plugin", .dir (linkedEntries content)),
    ("secret", .file secret .plain)]

def linkedMeans : Means := { here := "/", now := ⟨0, 0, 0⟩, runId := "" }

def linkedSettings : Settings :=
  { phpVersions := ["8.1"], wpVersions := ["6.5"], lint := { enabled := false } }

/-- What is outside of the plugin differs, a link to it is refused, and a scan of the plugin sees no
difference. -/
theorem confined_to_linkedPlugin :
    (linkedPlugin [60] [1]).seen ["secret"] ≠ (linkedPlugin [60] [2]).seen ["secret"] ∧
    readUnder (linkedPlugin [60] [1]) "/" "/link" "/link/sub/../in" = .ok [60] ∧
    readUnder (linkedPlugin [60] [1]) "/" "/link" "/link/out" =
      .error (.file ⟨"openat", "out", .leavesRoot⟩) ∧
    (∀ target, readUnder (linkedPlugin [60] [1]) "/" "/link" target =
      readUnder (linkedPlugin [60] [2]) "/" "/link" target) ∧
    (∃ below mode, (linkedPlugin [60] [1]).find? (["plugin"] ++ below) = some (.file [60] mode)) ∧
    ∃ p p', planOf linkedMeans (linkedPlugin [60] [1]) "/link" ["/link/sub/../in", "/link/out"] []
        linkedSettings = .ok p ∧
      planOf linkedMeans (linkedPlugin [60] [2]) "/link" ["/link/sub/../in",
        "/link/out"] [] linkedSettings = .ok p' ∧
      p.files = [⟨"/link/sub/../in", [['<']]⟩] ∧ p'.files = p.files ∧
      planReport linkedMeans p' linkedSettings = planReport linkedMeans p linkedSettings := by
  have hroot : ∀ secret ∈ [[1], [2]],
      resolve (linkedPlugin [60] secret) (absolute "/" "/link") = .ok ["plugin"] := by
    decide +kernel
  have hsame : SameBelow ["plugin"] (linkedPlugin [60] [1]) (linkedPlugin [60] [2]) := fun _ => rfl
  have hinside : readUnder (linkedPlugin [60] [1]) "/" "/link" "/link/sub/../in" = .ok [60] := by
    decide +kernel
  obtain ⟨hread, hbelow, hscan⟩ := confined_to_root (hroot [1] (by simp))
    (hroot [2] (by simp)) hsame
  obtain ⟨p, hplan, hfiles⟩ :
      ∃ p, planOf linkedMeans (linkedPlugin [60] [1]) "/link" ["/link/sub/../in", "/link/out"] []
      linkedSettings = .ok p ∧ p.files = [⟨"/link/sub/../in", [['<']]⟩] :=
    exists_of_toOption_map (by decide +kernel)
  obtain ⟨p', hplan', hfiles', hreport⟩ :=
    (hscan (by decide)).2 linkedMeans linkedSettings _ [] p rfl rfl rfl ⟨rfl, rfl, fun _ _ =>
      rfl⟩ hplan
  exact ⟨by decide, hinside, by decide +kernel, hread, hbelow _ _ hinside, p, p', hplan,
    hplan', hfiles, hfiles', hreport⟩

end Scan

end PluginAudit
