import PluginAudit.Ecosystem
import PluginAudit.Proofs.ConfinedFiles
import PluginAudit.Proofs.PatternSearch

/-!
The evidence for ecosystems, which is added piece by piece, one for each ecosystem and origin. Main
statement: more searched files never take evidence away, and no ecosystem is detected without
evidence.
-/

open List

namespace PluginAudit

open Node Source.Manifest PluginAudit.Path

lemma CharSet.compl_ofString_mem {s : String} {c : Char} (h : c ∉ s.toList) :
    (ofString s).compl.mem c := by
  have hnot := mt ofString_mem_iff.mp h
  simpa [mem, compl, ofString, inRanges] using hnot

lemma Path.join_rooted {names : List String} (h : AreNames names) {name : String}
    (hname : IsName name) : join [rooted names, name] = rooted (names ++ [name]) := by
  rw [join_names (isAbsolute_rooted names) (by simpa using hname), cleanComponents_rooted h]

namespace FileTree

variable {tree : Node} {names place : List String} {entries : Table Node}

lemma LeadsTo.exists_start {start more : List String} {name : String}
    (h : LeadsTo tree (start ++ name :: more) place entries) : ∃ place' n,
      resolve tree (rooted start) = .ok place' ∧ tree.find? (place' ++ [name]) = some n := by
  obtain ⟨place', entries', hstart⟩ := h.of_append
  obtain ⟨links, hrest⟩ := exists_follow_append hstart.followed hstart.dir (name :: more)
  rw [h.followed, follow_name _ _ (h.isName name (by simp)).ne_dots] at hrest
  cases hfind : tree.find? (place' ++ [name]) with
  | none => simp [hfind] at hrest
  | some n => exact ⟨place', n, hstart.resolved, hfind⟩

/-! ### Wildcards -/

namespace Wildcard

open Pattern

variable {name : String}

/-- A text without characters that make it a pattern. -/
def IsPlain (text : String) : Prop := ∀ c ∈ text.toList, isSpecial c = false

lemma isSome_parse? {s : List Char} (h : ∀ c ∈ s, isSpecial c = false) {fuel : Nat}
    (hfuel : s.length < fuel) : (parse? fuel s).isSome := by
  induction s generalizing fuel with
  | nil =>
    obtain ⟨fuel, rfl⟩ : ∃ n, fuel = n + 1 := ⟨fuel - 1, by omega⟩
    rfl
  | cons c s ih =>
    obtain ⟨fuel, rfl⟩ : ∃ n, fuel = n + 1 := ⟨fuel - 1, by omega⟩
    obtain ⟨hc, hs⟩ := forall_mem_cons.mp h
    have hrest : (parse? fuel s).isSome := ih hs (by simpa using hfuel)
    unfold parse?
    split
    case h_1 hcons => cases hcons
    case h_7 hcons =>
      cases hcons
      rw [Option.isSome_map]
      exact hrest
    all_goals
      rename_i hcons
      cases hcons
      exact absurd hc (by decide)

lemma isSome_ofName? (h : IsPlain name) : (ofName? name).isSome := by
  rw [ofName?, Option.isSome_map]
  exact isSome_parse? h (by rw [String.length_toList]; exact Nat.lt_succ_self _)

lemma isPlain_of_mem (h : IsPlain (rooted names)) (hname : name ∈ names) : IsPlain name := by
  intro c hc
  apply h c
  rw [toList_rooted (ne_nil_of_mem hname)]
  exact mem_flatMap.mpr ⟨name, hname, mem_cons_of_mem _ hc⟩

lemma isSome_matchAt_ending {p : Pattern} (hp : ofName? "*.php" = some p) {name : List Char}
    (h : '/' ∉ name) : (p.matchAt (Cursor.start name)).isSome ↔ ['.', 'p', 'h', 'p'] <:+ name := by
  have hp' : ofName? "*.php" = some (.cat [Pattern.star (noneOf "/"), .set (.single '.'),
      .set (.single 'p'), .set (.single 'h'), .set (.single 'p'), textEnd]) := rfl
  obtain rfl := Option.some.inj (hp.symm.trans hp')
  constructor
  · intro hsome
    obtain ⟨m, hm⟩ := Option.isSome_iff_exists.mp hsome
    obtain ⟨d, groups, hmatch, -⟩ := exists_matches_of_run hm
    simp only [matches_cat_cons_iff, Pattern.star, noneOf, matches_many_set_iff, matches_set_iff,
      textEnd, CharSet.single_mem_iff, matches_edge_iff, matches_cat_nil_iff] at hmatch
    obtain ⟨c, -, ⟨-, front, -, hfront⟩, c₁, -, ⟨-, _, rfl, h₁⟩, c₂, -, ⟨-, _, rfl, h₂⟩, c₃, -,
        ⟨-, _, rfl, h₃⟩, c₄, -, ⟨-, _, rfl, h₄⟩, c₅, -, ⟨hend, rfl, -⟩, -⟩ := hmatch
    have hrest := ((((hfront.trans h₁).trans h₂).trans h₃).trans h₄).rest_eq
    rw [List.isEmpty_iff.mp hend] at hrest
    exact ⟨front, by simpa [Cursor.start] using hrest.symm⟩
  · rintro ⟨front, rfl⟩
    have hall : ∀ x ∈ front, (CharSet.ofString "/").compl.mem x := by
      intro x hx
      refine CharSet.compl_ofString_mem fun hslash => h (mem_append_left _ ?_)
      exact (mem_singleton.mp hslash : x = '/') ▸ hx
    have hfront : Matches (Pattern.star (noneOf "/")) ⟨[], front ++ ['.', 'p', 'h', 'p']⟩ []
        ⟨front.reverse ++ [], ['.', 'p', 'h', 'p']⟩ [] :=
      matches_many_set_iff.mpr ⟨rfl, front, hall, .of_rest _ _ _⟩
    have hsingle : ∀ c : Char, (CharSet.single c).mem c := fun c => CharSet.single_mem_iff.mpr rfl
    exact (hfront.seq (.seq (.set (hsingle _)) (.seq (.set (hsingle _)) (.seq (.set (hsingle _))
      (.seq (.set (hsingle _)) (.edge rfl)))))).isSome_run rfl

lemma foldl_step {start more : List String} (h : LeadsTo tree (start ++ more) place entries)
    (hplain : ∀ name ∈ more, IsPlain name) :
    more.foldl (step tree) [rooted start] = [rooted (start ++ more)] := by
  induction more generalizing start with
  | nil => rw [foldl_nil, append_nil]
  | cons name more ih =>
    have hstart : AreNames start := fun n hn => h.isName n (mem_append_left _ hn)
    have hname : IsName name := h.isName name (by simp)
    obtain ⟨hplainName, hplainMore⟩ := forall_mem_cons.mp hplain
    obtain ⟨place', n, hresolve, hfind⟩ := h.exists_start
    have hnot : name.toList.any isSpecial = false := by simpa [IsPlain] using hplainName
    have hstep : step tree [rooted start] name = [rooted (start ++ [name])] := by
      rw [step, hnot]
      simp [join_rooted hstart hname, resolveParent_rooted_concat hstart hname hresolve, hfind]
    have hsplit : start ++ name :: more = (start ++ [name]) ++ more := by simp
    rw [hsplit] at h
    rw [foldl_cons, hstep, hsplit, ih h hplainMore]

/-- The last name of a path may have wildcards, which stand for entries of the directory before
it. -/
lemma expand_eq (h : LeadsTo tree names place entries) (hplain : IsPlain (Path.rooted names))
    (hname : Path.IsName name)
    (hspecial : name.toList.any isSpecial) {p : Pattern} (hp : ofName? name = some p) :
    expand tree (Path.join [Path.rooted names, name]) =
      (entries.filter fun e => (p.matchAt (Cursor.start e.1.toList)).isSome).map
        fun e => Path.join [Path.rooted names, e.1] := by
  have hsteps : steps (Path.rooted (names ++ [name])) = names ++ [name] :=
    Path.components_rooted (forall_mem_append.mpr ⟨h.isName, forall_mem_singleton.mpr hname⟩)
  have hall : (names ++ [name]).all (fun name => (ofName? name).isSome) := by
    simp only [all_append, all_cons, all_nil, Bool.and_true, all_eq_true, hp, Option.isSome_some]
    exact fun n hn => isSome_ofName? (isPlain_of_mem hplain hn)
  have hroot : LeadsTo tree ([] ++ names) place entries := h
  have htop : names.foldl (step tree) ["/"] = [Path.rooted names] :=
    foldl_step hroot fun n hn => isPlain_of_mem hplain hn
  rw [Path.join_rooted h.isName hname, expand, hsteps, if_pos hall, foldl_append, htop, foldl_cons,
    foldl_nil, step, if_pos hspecial, hp]
  simp [h.stat_eq, Node.entries]

end Wildcard

lemma toOption_readUnder_eq {names' : List String} (h : LeadsTo tree names place entries)
    (h' : LeadsTo tree names' place entries) {name : String} (hname : IsName name) :
    (readUnder tree (rooted names) (rooted names) (rooted (names ++ [name]))).toOption =
      (readUnder tree (rooted names') (rooted names') (rooted (names' ++ [name]))).toOption := by
  have hread : ∀ {names : List String}, LeadsTo tree names place entries →
      (readUnder tree (rooted names) (rooted names) (rooted (names ++ [name]))).toOption =
        (readConfined (.dir entries) "" name).toOption := by
    intro names h
    have hall : AreNames (names ++ [name]) :=
      forall_mem_append.mpr ⟨h.isName, forall_mem_singleton.mpr hname⟩
    rw [h.readUnder_eq _ (absolute_rooted _ h.isName) (by simpa using hname) (by simp)
      (absolute_rooted _ hall), String.intercalate_singleton]
    unfold readConfined
    split
    · rfl
    · split <;> rfl
  rw [hread h, hread h']

end FileTree

/-! ### Ecosystems -/

namespace Ecosystem

open FileTree

variable {tree : Node} {names names' place : List String} {entries : Table Node}
  {signatures : Table Signature} {e : Evidence}
  {content : List Char} {path tag : String} {all found : List Evidence} {m n : Nat}

lemma filter_addEvidence (keep : Origin → Bool) (found : List Evidence) (e : Evidence) :
    (addEvidence found e).filter (fun e => keep e.origin) =
      if keep e.origin then addEvidence (found.filter fun e => keep e.origin) e
      else found.filter fun e => keep e.origin := by
  unfold addEvidence
  by_cases hkeep : keep e.origin
  · -- whether there is such evidence already is seen in what is kept
    have hany : ((found.filter fun e => keep e.origin).any fun old =>
        old.ecosystem == e.ecosystem && old.origin == e.origin) =
          found.any fun old => old.ecosystem == e.ecosystem && old.origin == e.origin := by
      rw [any_filter]
      congr 1
      funext old
      by_cases hsame : old.origin = e.origin
      · simp [hsame, hkeep]
      · simp [hsame]
    rw [if_pos hkeep, hany]
    split_ifs
    · rfl
    · simp [hkeep]
  · rw [if_neg hkeep]
    split_ifs
    · rfl
    · simp [hkeep]

lemma filter_foldl_addEvidence (keep : Origin → Bool) (all found : List Evidence) :
    (all.foldl addEvidence found).filter (fun e => keep e.origin) = (all.filter fun e =>
        keep e.origin).foldl addEvidence (found.filter fun e => keep e.origin) := by
  induction all generalizing found with
  | nil => rfl
  | cons e all ih =>
    rw [foldl_cons, ih, filter_addEvidence, filter_cons]
    split_ifs <;> rfl

lemma rooted_concat_lt {a b : String} (names : List String) (h : a < b) :
    rooted (names ++ [a]) < rooted (names ++ [b]) := by
  rw [String.lt_iff_toList_lt, toList_rooted_concat, toList_rooted_concat]
  exact append_left_lt (cons_lt_cons_self.mpr (String.lt_iff_toList_lt.mp h))

/-- What an entry of a root says if it is a source file that can be read. -/
def rootText? (tree : Node) (names : List String) (e : String × Node) : Option (List Char) :=
  if ['.', 'p', 'h', 'p'].isSuffixOf e.1.toList then
    (readUnder tree (Path.rooted names) (Path.rooted names)
      (Path.rooted (names ++ [e.1]))).toOption.map Text.decodeBytes
  else none

lemma rootContents_of_leadsTo (h : LeadsTo tree names place entries) (hwf : WellFormed tree)
    (hplain : Wildcard.IsPlain (rooted names)) :
    rootContents tree (rooted names) = entries.filterMap (rootText? tree names) := by
  obtain ⟨hordered, hvalid⟩ := hwf place entries h.dir
  obtain ⟨p, hp⟩ : ∃ p, Wildcard.ofName? "*.php" = some p := Option.isSome_iff_exists.mp (by decide)
  have hmatch : ∀ e ∈ entries, (p.matchAt (Cursor.start e.1.toList)).isSome =
      ['.', 'p', 'h', 'p'].isSuffixOf e.1.toList := by
    intro e he
    rw [Bool.eq_iff_iff, Wildcard.isSome_matchAt_ending hp (hvalid e he).no_slash,
      isSuffixOf_iff_suffix]
  have hexpand : Wildcard.expand tree (join [rooted names, "*.php"]) =
      (entries.filter fun e => ['.', 'p', 'h', 'p'].isSuffixOf e.1.toList).map
        fun e => rooted (names ++ [e.1]) := by
    rw [Wildcard.expand_eq h hplain (by decide) (by decide) hp, filter_congr hmatch]
    apply map_congr_left
    intro e he
    exact join_rooted h.isName (hvalid e (mem_filter.mp he).1).toIsName
  have hsorted : sortedNames (Wildcard.expand tree (join [rooted names, "*.php"])) =
      Wildcard.expand tree (join [rooted names, "*.php"]) := by
    rw [hexpand]
    apply (pairwise_sortedNames _).eq_of_mem_iff
    · apply pairwise_map.mpr
      exact (hordered.filter _).imp fun hlt => rooted_concat_lt names hlt
    · exact fun name => mem_sortedNames
  rw [rootContents, hsorted, hexpand, filterMap_map, filterMap_filter]
  rfl

/-- The headers of a plugin are the same through all paths that lead there, unless a path has
characters that stand for others. -/
lemma rootContents_eq (h : LeadsTo tree names place entries)
    (h' : LeadsTo tree names' place entries)
    (hwf : WellFormed tree) (hplain : Wildcard.IsPlain (rooted names))
    (hplain' : Wildcard.IsPlain (rooted names')) :
    rootContents tree (rooted names) = rootContents tree (rooted names') := by
  rw [rootContents_of_leadsTo h hwf hplain, rootContents_of_leadsTo h' hwf hplain']
  apply filterMap_congr
  intro e he
  rw [rootText?, rootText?, toOption_readUnder_eq h h' ((hwf place entries h.dir).2 e he).toIsName]

lemma packageEvidence_eq (h : LeadsTo tree names place entries)
    (h' : LeadsTo tree names' place entries) (signatures : Table Signature) : packageEvidence tree
      (rooted names) signatures = packageEvidence tree (rooted names') signatures := by
  have hname : IsName fileName := by decide
  have hread := toOption_readUnder_eq h h' hname
  rw [← join_rooted h.isName hname, ← join_rooted h'.isName hname] at hread
  unfold packageEvidence load
  generalize readUnder tree (rooted names) (rooted names)
    (join [rooted names, fileName]) = left at hread
  generalize readUnder tree (rooted names') (rooted names')
    (join [rooted names', fileName]) = right at hread
  cases left with
  | error e =>
    cases right with
    | error e' =>
      -- it does not matter why a manifest cannot be read
      dsimp only
      split_ifs <;> rfl
    | ok content => cases hread
  | ok content =>
    cases right with
    | error e => cases hread
    | ok content' =>
      cases hread
      rfl

lemma spec_of_mem_headerEvidence (h : e ∈ headerEvidence signatures content) :
    e.ecosystem ∈ signatures.names ∧ e.origin = .header := by
  obtain ⟨entry, hentry, hsome⟩ := mem_filterMap.mp h
  obtain ⟨line, -, rfl⟩ := Option.map_eq_some_iff.mp hsome
  exact ⟨mem_map_of_mem hentry, rfl⟩

lemma spec_of_mem_packageEvidence {root : String} (h : e ∈ packageEvidence tree root signatures) :
    e.ecosystem ∈ signatures.names ∧ e.origin = .composer := by
  unfold packageEvidence at h
  split at h
  · obtain ⟨entry, hentry, hsome⟩ := mem_filterMap.mp h
    obtain ⟨package, -, rfl⟩ := Option.map_eq_some_iff.mp hsome
    exact ⟨mem_map_of_mem hentry, rfl⟩
  · cases h

lemma spec_of_fileEvidence? {s : Signature} (h : fileEvidence? path content tag s = some e) :
    e.ecosystem = tag ∧ (e.origin = .path ∨ e.origin = .code) := by
  unfold fileEvidence? at h
  dsimp only at h
  split at h
  · cases h
    exact ⟨rfl, .inl rfl⟩
  · split at h
    · cases h
      exact ⟨rfl, .inr rfl⟩
    · obtain ⟨hit, -, rfl⟩ := Option.map_eq_some_iff.mp h
      exact ⟨rfl, .inr rfl⟩

lemma spec_of_mem_codeEvidence {root : String} (h : e ∈ codeEvidence tree root signatures path) :
    e.ecosystem ∈ signatures.names ∧ (e.origin = .path ∨ e.origin = .code) := by
  unfold codeEvidence at h
  split at h
  · cases h
  · obtain ⟨entry, hentry, hsome⟩ := mem_filterMap.mp h
    obtain ⟨heco, horigin⟩ := spec_of_fileEvidence? hsome
    exact ⟨heco ▸ mem_map_of_mem hentry, horigin⟩

/-! ### Collecting -/

/-- Whether two pieces of evidence speak for one ecosystem from one origin. -/
def Evidence.Agrees (a b : Evidence) : Prop := a.ecosystem = b.ecosystem ∧ a.origin = b.origin

lemma addEvidence_cases (found : List Evidence) (e : Evidence) :
    addEvidence found e = found ∧ (∃ old ∈ found, old.Agrees e) ∨
      addEvidence found e = found ++ [e] ∧ ∀ old ∈ found, ¬ old.Agrees e := by
  unfold addEvidence
  split_ifs with h
  · exact .inl ⟨rfl, by simpa [Evidence.Agrees] using h⟩
  · exact .inr ⟨rfl, by simpa [Evidence.Agrees] using h⟩

lemma prefix_addEvidence (found : List Evidence) (e : Evidence) :
    found <+: addEvidence found e := by
  unfold addEvidence
  split_ifs
  · exact prefix_refl found
  · exact prefix_append _ _

lemma prefix_foldl_addEvidence (all found : List Evidence) :
    found <+: all.foldl addEvidence found := by
  induction all generalizing found with
  | nil => exact prefix_refl found
  | cons e all ih => exact (prefix_addEvidence found e).trans (ih _)

lemma pairwise_foldl_addEvidence (h : found.Pairwise fun a b => ¬ a.Agrees b) :
    (all.foldl addEvidence found).Pairwise fun a b => ¬ a.Agrees b := by
  induction all generalizing found with
  | nil => exact h
  | cons e all ih =>
    apply ih
    obtain ⟨heq, -⟩ | ⟨heq, hnew⟩ := addEvidence_cases found e
    · rwa [heq]
    · rw [heq, pairwise_append]
      exact ⟨h, pairwise_singleton _ _, fun old hold x hx => mem_singleton.mp hx ▸ hnew old hold⟩

lemma mem_of_mem_foldl_addEvidence (h : e ∈ all.foldl addEvidence found) : e ∈ found ∨ e ∈ all := by
  induction all generalizing found with
  | nil => exact .inl h
  | cons x all ih =>
    obtain hmem | hmem := ih h
    · obtain ⟨heq, -⟩ | ⟨heq, -⟩ := addEvidence_cases found x
      · exact .inl (heq ▸ hmem)
      · rw [heq, mem_append, mem_singleton] at hmem
        exact hmem.imp_right fun (hx : e = x) => hx ▸ mem_cons_self
    · exact .inr (mem_cons_of_mem _ hmem)

lemma exists_agrees_of_mem (h : e ∈ all) (found : List Evidence) :
    ∃ e' ∈ all.foldl addEvidence found, e'.Agrees e := by
  induction all generalizing found with
  | nil => cases h
  | cons x all ih =>
    obtain rfl | h := mem_cons.mp h
    · have hkept := (prefix_foldl_addEvidence all (addEvidence found e)).subset
      obtain ⟨heq, old, hold, hagrees⟩ | ⟨heq, -⟩ := addEvidence_cases found e
      · exact ⟨old, hkept (by rwa [heq]), hagrees⟩
      · exact ⟨e, hkept (by simp [heq]), rfl, rfl⟩
    · exact ih h _

@[simp] lemma evidence_foldl_add (all : List Evidence) (r : Result) :
    (all.foldl Result.add r).evidence = all.foldl addEvidence r.evidence := by
  induction all generalizing r with
  | nil => rfl
  | cons e all ih => exact ih (r.add e)

/-! ### Ecosystems and their evidence -/

def tagsOf (found : List Evidence) : Tags := Tags.ofNames (found.map (·.ecosystem))

lemma mem_tagsOf_iff : tag ∈ tagsOf found ↔ tag ≠ "" ∧ ∃ e ∈ found, tagOf e.ecosystem = tag := by
  simp [tagsOf, Tags.ofNames, and_comm]

@[simp] lemma mem_tagsOf_addEvidence : tag ∈ tagsOf (addEvidence found e) ↔
      tag ∈ tagsOf found ∨ tag ≠ "" ∧ tagOf e.ecosystem = tag := by
  rw [mem_tagsOf_iff, mem_tagsOf_iff]
  obtain ⟨heq, old, hold, hagrees⟩ | ⟨heq, -⟩ := addEvidence_cases found e
  · rw [heq, or_iff_left_of_imp]
    rintro ⟨hne, rfl⟩
    exact ⟨hne, old, hold, congrArg tagOf hagrees.1⟩
  · simp only [heq, mem_append, mem_singleton, or_and_right, exists_or, exists_eq_left, and_or_left]

/-- The ecosystems of a result are exactly those that its evidence names. -/
def Result.Justified (r : Result) : Prop := r.ecosystems = tagsOf r.evidence

lemma Result.Justified.add {r : Result} (h : r.Justified) (e : Evidence) : (r.add e).Justified := by
  refine (pairwise_sortedNames _).eq_of_mem_iff (pairwise_sortedNames _) fun tag => ?_
  change tag ∈ sortedNames (r.ecosystems ++ Tags.ofNames [e.ecosystem]) ↔
    tag ∈ tagsOf (addEvidence r.evidence e)
  rw [mem_sortedNames, mem_append, mem_tagsOf_addEvidence, ← h, Tags.ofNames, mem_sortedNames]
  simp only [map_cons, map_nil, mem_filter, mem_singleton, bne_iff_ne]
  rw [and_comm, eq_comm (a := tag)]

lemma Result.Justified.foldl_add {r : Result} (h : r.Justified) (all : List Evidence) :
    (all.foldl Result.add r).Justified := by
  induction all generalizing r with
  | nil => exact h
  | cons e all ih => exact ih (h.add e)

/-! ### Searching more files -/

lemma searchedFiles_prefix (tree : Node) (root : String) (h : m ≤ n) :
    searchedFiles tree root m <+: searchedFiles tree root n := by
  unfold searchedFiles
  split
  · exact prefix_refl []
  · split
    · exact prefix_refl []
    · exact take_prefix_take_left h

/-! ### What is found -/

variable {d : Detector} {root : String}

def headerFound (d : Detector) (tree : Node) (root : String) : List Evidence :=
  (if isDir tree root then mainContents [] (rootContents tree root) else []).flatMap
    (headerEvidence d.signatures)

def filesFound (d : Detector) (tree : Node) (root : String) : List String :=
  if isDir tree root then searchedFiles tree root d.maxFiles else []

def codeFound (d : Detector) (tree : Node) (root : String) : List Evidence :=
  (filesFound d tree root).flatMap (codeEvidence tree root d.signatures)

def packageFound (d : Detector) (tree : Node) (root : String) : List Evidence :=
  if isDir tree root then packageEvidence tree root d.signatures else []

lemma filesFound_spec (d : Detector) (tree : Node) (root : String) :
    (filesFound d tree root).length ≤ d.maxFiles ∧
      ∀ path ∈ filesFound d tree root, Selection.isSource path := by
  unfold filesFound searchedFiles
  split_ifs
  · split
    · simp
    · split
      · simp
      · exact ⟨length_take_le _ _, fun path hpath => (mem_filter.mp (mem_of_mem_take hpath)).2⟩
  · simp

lemma detect_eq (d : Detector) (tree : Node) (root : String) : detect d tree root =
    (headerFound d tree root ++ codeFound d tree root ++ packageFound d tree root).foldl
      Result.add {} := by
  unfold detect headerFound codeFound filesFound packageFound
  split_ifs <;> rfl

lemma evidence_detect (d : Detector) (tree : Node) (root : String) :
    (detect d tree root).evidence = (headerFound d tree root ++ codeFound d tree root ++
      packageFound d tree root).foldl addEvidence [] := by
  rw [detect_eq, evidence_foldl_add]

lemma justified_detect (d : Detector) (tree : Node) (root : String) :
    (detect d tree root).Justified := by
  rw [detect_eq]
  exact Result.Justified.foldl_add (r := {}) rfl _

lemma spec_of_mem_headerFound (h : e ∈ headerFound d tree root) :
    e.ecosystem ∈ d.signatures.names ∧ e.origin = .header := by
  obtain ⟨content, -, h⟩ := mem_flatMap.mp h
  exact spec_of_mem_headerEvidence h

lemma spec_of_mem_codeFound (h : e ∈ codeFound d tree root) :
    e.ecosystem ∈ d.signatures.names ∧ (e.origin = .path ∨ e.origin = .code) := by
  obtain ⟨path, -, h⟩ := mem_flatMap.mp h
  exact spec_of_mem_codeEvidence h

lemma spec_of_mem_packageFound (h : e ∈ packageFound d tree root) :
    e.ecosystem ∈ d.signatures.names ∧ e.origin = .composer := by
  rw [packageFound] at h
  split_ifs at h
  · exact spec_of_mem_packageEvidence h
  · cases h

lemma mem_detect_cases (h : e ∈ (detect d tree root).evidence) :
    e ∈ headerFound d tree root ∨ e ∈ codeFound d tree root ∨ e ∈ packageFound d tree root := by
  rw [evidence_detect] at h
  have hmem := (mem_of_mem_foldl_addEvidence h).resolve_left not_mem_nil
  simpa only [mem_append, or_assoc] using hmem

lemma ecosystem_mem_names (h : e ∈ (detect d tree root).evidence) :
    e.ecosystem ∈ d.signatures.names := by
  obtain h | h | h := mem_detect_cases h
  · exact (spec_of_mem_headerFound h).1
  · exact (spec_of_mem_codeFound h).1
  · exact (spec_of_mem_packageFound h).1

lemma filter_of_origins {keep : Origin → Bool} {b : Bool} (h : ∀ e ∈ found, keep e.origin = b) :
    found.filter (fun e => keep e.origin) = if b then found else [] := by
  cases b with
  | true => exact filter_eq_self.mpr h
  | false => exact filter_eq_nil_iff.mpr fun e he => by simp [h e he]

/-- The evidence of some origins, those of files kept together, is collected by itself. -/
lemma filter_detect (d : Detector) (tree : Node) (root : String) (keep : Origin → Bool)
    (hkeep : keep .path = keep .code) :
    (detect d tree root).evidence.filter (fun e => keep e.origin) =
      ((if keep .header then headerFound d tree root else []) ++
        (if keep .code then codeFound d tree root else []) ++
        if keep .composer then packageFound d tree root else []).foldl addEvidence [] := by
  have hcode : ∀ e ∈ codeFound d tree root, keep e.origin = keep .code := by
    intro e he
    obtain h | h := (spec_of_mem_codeFound he).2
    · rw [h, hkeep]
    · rw [h]
  rw [evidence_detect, filter_foldl_addEvidence, filter_append, filter_append, filter_of_origins
    hcode, filter_of_origins fun e he => congrArg keep (spec_of_mem_headerFound he).2,
    filter_of_origins fun e he => congrArg keep (spec_of_mem_packageFound he).2, filter_nil]

/-- With more files to search, the evidence of headers, paths and code goes on where it ended. -/
lemma prefix_filter_detect (tree : Node) (root : String) (d : Detector) (h : m ≤ n) :
    (detect { d with maxFiles := m } tree root).evidence.filter (fun e => e.origin != .composer) <+:
      (detect { d with maxFiles := n } tree root).evidence.filter (fun e =>
        e.origin != .composer) := by
  have hfiles : filesFound { d with maxFiles := m } tree root <+: filesFound
    { d with maxFiles := n } tree root := by
    unfold filesFound
    split_ifs
    · exact searchedFiles_prefix tree root h
    · exact prefix_refl []
  obtain ⟨more, hmore⟩ := hfiles
  have hfilter : ∀ k, (detect { d with maxFiles := k } tree root).evidence.filter (fun e =>
    e.origin != .composer) = (codeFound { d with maxFiles := k } tree root).foldl addEvidence
        ((headerFound d tree root).foldl addEvidence []) := by
    intro k
    rw [filter_detect _ tree root (· != .composer) rfl, foldl_append, foldl_append]
    rfl
  rw [hfilter, hfilter, codeFound, codeFound, ← hmore, flatMap_append, foldl_append]
  exact prefix_foldl_addEvidence _ _

lemma filter_packages_detect (tree : Node) (root : String) (d : Detector) (n : Nat) :
    (detect { d with maxFiles := n } tree root).evidence.filter (fun e => e.origin == .composer) =
      (packageFound d tree root).foldl addEvidence [] :=
  filter_detect _ tree root (· == .composer) rfl

lemma mem_detect_of_le (tree : Node) (root : String) (d : Detector) (h : m ≤ n)
    (he : e ∈ (detect { d with maxFiles := m } tree root).evidence) :
    e ∈ (detect { d with maxFiles := n } tree root).evidence := by
  by_cases horigin : e.origin = .composer
  · have hmem : e ∈ (detect { d with maxFiles := m } tree root).evidence.filter fun e =>
      e.origin == .composer :=
      mem_filter.mpr ⟨he, beq_iff_eq.mpr horigin⟩
    rw [filter_packages_detect, ← filter_packages_detect tree root d n] at hmem
    exact (mem_filter.mp hmem).1
  · have hmem : e ∈ (detect { d with maxFiles := m } tree root).evidence.filter fun e =>
      e.origin != .composer :=
      mem_filter.mpr ⟨he, bne_iff_ne.mpr horigin⟩
    exact (mem_filter.mp ((prefix_filter_detect tree root d h).subset hmem)).1

def detectUpTo (limit : Int) (tree : Node) (root : String) : Result :=
  detect (({} : Detector).withMaxFiles limit) tree root

lemma detectUpTo_eq {limit : Int} (h : 0 < limit) (tree : Node) (root : String) :
    detectUpTo limit tree root = detect { maxFiles := limit.toNat } tree root := by
  rw [detectUpTo, Detector.withMaxFiles, if_neg (by omega)]

lemma tagOf_of_mem_detectUpTo {limit : Int} (h : e ∈ (detectUpTo limit tree root).evidence) :
    tagOf e.ecosystem = e.ecosystem ∧ e.ecosystem ≠ "" := by
  have hnames : ∀ name ∈ ["elementor", "woocommerce"], tagOf name = name ∧ name ≠ "" := by decide
  exact hnames _ (ecosystem_mem_names h)

/-- Detection is monotone in the number of files to search, and justified. With a larger number no
ecosystem is lost, and the evidence of headers, paths and code goes on where it ended; no more files
than that number give evidence of paths and code. There is one piece of evidence at most for an
ecosystem and an origin, and the ecosystems are those that it names. -/
theorem detection_monotone (tree : Node) (root : String) :
    (∀ m n : Int, 0 < m → m ≤ n →
      (detectUpTo m tree root).ecosystems ⊆ (detectUpTo n tree root).ecosystems ∧
      (detectUpTo m tree root).evidence.filter (fun e => e.origin != .composer) <+:
        (detectUpTo n tree root).evidence.filter (fun e => e.origin != .composer) ∧
      ∃ files : List String, files.length ≤ m ∧ (∀ path ∈ files, Selection.isSource path = true) ∧
        (detectUpTo m tree root).evidence.filter (fun e => e.origin == .path || e.origin == .code) =
          (files.flatMap (codeEvidence tree root ({} : Detector).signatures)).foldl addEvidence
            []) ∧
    ∀ m : Int, (detectUpTo m tree root).evidence.Pairwise (fun a b =>
      ¬ (a.ecosystem = b.ecosystem ∧ a.origin = b.origin)) ∧
      ∀ tag, tag ∈ (detectUpTo m tree root).ecosystems ↔
        ∃ e ∈ (detectUpTo m tree root).evidence, e.ecosystem = tag := by
  refine ⟨fun m n hm hmn => ?_, fun m => ⟨?_, fun tag => ?_⟩⟩
  · rw [detectUpTo_eq hm, detectUpTo_eq (hm.trans_le hmn)]
    have hnat : m.toNat ≤ n.toNat := Int.toNat_le_toNat hmn
    obtain ⟨hlength, hsource⟩ := filesFound_spec { maxFiles := m.toNat } tree root
    have hcode := filter_detect { maxFiles := m.toNat } tree root
      (fun origin => origin == .path || origin == .code) rfl
    refine ⟨fun tag htag => ?_, prefix_filter_detect tree root {} hnat, filesFound
      { maxFiles := m.toNat } tree root, ?_, hsource, hcode.trans (by rw [foldl_append]; rfl)⟩
    · rw [justified_detect] at htag ⊢
      obtain ⟨hne, e, he, hname⟩ := mem_tagsOf_iff.mp htag
      exact mem_tagsOf_iff.mpr ⟨hne, e, mem_detect_of_le tree root {} hnat he, hname⟩
    · exact Int.le_toNat hm.le |>.mp hlength
  · rw [detectUpTo, evidence_detect]
    exact pairwise_foldl_addEvidence .nil
  · rw [detectUpTo, justified_detect, mem_tagsOf_iff]
    constructor
    · rintro ⟨-, e, he, rfl⟩
      exact ⟨e, he, (tagOf_of_mem_detectUpTo he).1.symm⟩
    · rintro ⟨e, he, rfl⟩
      obtain ⟨htag, hne⟩ := tagOf_of_mem_detectUpTo he
      exact ⟨hne, e, he, htag⟩

def sliderTree : Node :=
  .dir [("plugin", .dir [("a.php", .file (bytesOf "<?php\n$cart = new WC_Cart();\n") .plain),
    ("b.php", .file (bytesOf "<?php\nclass Slider extends Widget_Base \x7b\x7d\n") .plain)])]

theorem detection_monotone_slider :
    (0 : Int) < 1 ∧ (1 : Int) ≤ 2 ∧
      (detectUpTo 1 sliderTree "/plugin").ecosystems ⊆
        (detectUpTo 2 sliderTree "/plugin").ecosystems :=
  ⟨by decide, by decide,
    ((detection_monotone sliderTree "/plugin").1 1 2 (by decide) (by decide)).1⟩

end Ecosystem

end PluginAudit
