import PluginAudit.Proofs.EcosystemEvidence
import PluginAudit.Proofs.Utf8

/-!
Headers of plugins. Main statement: the signature of an ecosystem in the first comment of a main
file is found, unless the path of the root has characters that stand for others.
-/

open List

namespace PluginAudit

open PluginAudit.Path (join rooted AreNames IsName)
open Text

/-! ### Comments -/

namespace Source

variable {before body text block rest : List Char}

/-- The body of the first block comment, which ends where it is closed for the first time. -/
def FirstComment (content body : List Char) : Prop :=
  ∃ before after, content = before ++ '/' :: '*' :: (body ++ '*' :: '/' :: after) ∧
    ¬ ['/', '*'] <:+: before ∧ ¬ ['*', '/'] <:+: body

lemma isPrefixOf_pair_append {a b c : Char} (h : ¬ [a, b] <:+: c :: text)
    (hrest : rest.head? ≠ some b) : [a, b].isPrefixOf (c :: (text ++ rest)) = false := by
  rw [← Bool.not_eq_true, isPrefixOf_iff_prefix, cons_prefix_cons]
  rintro ⟨rfl, hb⟩
  cases text with
  | nil =>
    obtain ⟨after, rfl⟩ := hb
    exact hrest rfl
  | cons d text =>
    obtain ⟨rfl, -⟩ := cons_prefix_cons.mp hb
    exact h ⟨[], text, rfl⟩

lemma upToClose?_append (h : ¬ ['*', '/'] <:+: body) (after : List Char) :
    upToClose? (body ++ '*' :: '/' :: after) = some body := by
  induction body with
  | nil => rfl
  | cons c body ih =>
    rw [cons_append, upToClose?, isPrefixOf_pair_append h (by simp),
      ih fun hbody => h (hbody.trans (suffix_cons c body).isInfix)]
    rfl

lemma commentBody?_append (h : ¬ ['*', '/'] <:+: body) (hne : body ≠ []) (after : List Char) :
    commentBody? (body ++ '*' :: '/' :: after) =
      some (if body.head? = some '*' then body.tail else body) := by
  obtain ⟨c, body, rfl⟩ := exists_cons_of_ne_nil hne
  by_cases hc : c = '*'
  · subst hc
    have hbody :=
      upToClose?_append (fun hbody => h (hbody.trans (suffix_cons '*' body).isInfix)) after
    simp [commentBody?, hbody]
  · rw [commentBody?.eq_2, upToClose?_append h]
    · simp [hc]
    · intro rest hrest
      exact hc (List.cons.inj hrest).1

lemma headerBlock?_append (h : ¬ ['/', '*'] <:+: before) (hblock : commentBody? text = some block) :
    headerBlock? (before ++ '/' :: '*' :: text) = some block := by
  induction before with
  | nil => simp [headerBlock?, hblock]
  | cons c before ih =>
    rw [cons_append, headerBlock?, isPrefixOf_pair_append h (by simp),
      ih fun hbefore => h (hbefore.trans (suffix_cons c before).isInfix)]
    rfl

end Source

namespace Ecosystem

open FileTree

variable {content line : List Char} {needle s : List Char} {contents : List (List Char)}

lemma map_trimBy_splitOnChar (body : List Char) :
    (splitOnChar '\n' ('*' :: body)).map (trimBy isHeaderEdge) =
      (splitOnChar '\n' body).map (trimBy isHeaderEdge) := by
  obtain ⟨part, parts, hparts⟩ := exists_cons_of_ne_nil (splitOnChar_ne_nil '\n' body)
  rw [splitOnChar, if_neg (by decide), hparts]
  rfl

lemma headerLines_of_firstComment {body : List Char} (h : Source.FirstComment content body)
    (hne : body ≠ []) :
    headerLines content = ((splitOnChar '\n' body).map (trimBy isHeaderEdge)).filterMap fun line =>
      if line.isEmpty then none else some (String.ofList line) := by
  obtain ⟨before, after, rfl, hbefore, hbody⟩ := h
  rw [headerLines, Source.headerBlock?_append hbefore (Source.commentBody?_append hbody hne after)]
  obtain ⟨c, body, rfl⟩ := exists_cons_of_ne_nil hne
  by_cases hc : c = '*'
  · subst hc
    simp only [head?_cons, if_pos, tail_cons, map_trimBy_splitOnChar]
  · simp [hc]

/-! ### Signatures in lines -/

/-- A text that neither starts nor ends with a character that is trimmed from lines. -/
def IsSolid (needle : List Char) : Prop :=
  needle ≠ [] ∧ needle.head?.any isHeaderEdge = false ∧ needle.getLast?.any isHeaderEdge = false

instance (needle : List Char) : Decidable (IsSolid needle) :=
  inferInstanceAs (Decidable (_ ∧ _ ∧ _))

lemma isHeaderEdge_lowerChar {c : Char} (h : isHeaderEdge c) : isHeaderEdge (lowerChar c) := by
  simp only [isHeaderEdge, Bool.or_eq_true, beq_iff_eq, or_assoc] at h
  rcases h with rfl | rfl | rfl | rfl | rfl | rfl <;> decide

lemma infix_map_dropWhile (hne : needle ≠ []) (hhead : needle.head?.any isHeaderEdge = false)
    (h : needle <:+: s.map lowerChar) : needle <:+: (s.dropWhile isHeaderEdge).map lowerChar := by
  induction s with
  | nil => exact h
  | cons c s ih =>
    rw [dropWhile_cons]
    split_ifs with hc
    · apply ih
      refine (infix_cons_iff.mp h).resolve_left fun hprefix => ?_
      obtain ⟨d, needle, rfl⟩ := exists_cons_of_ne_nil hne
      obtain ⟨rfl, -⟩ := cons_prefix_cons.mp hprefix
      exact Bool.false_ne_true (hhead.symm.trans (isHeaderEdge_lowerChar hc))
    · exact h

lemma infix_map_trimBy (hsolid : IsSolid needle) (h : needle <:+: s.map lowerChar) :
    needle <:+: (trimBy isHeaderEdge s).map lowerChar := by
  obtain ⟨hne, hhead, hlast⟩ := hsolid
  have hstart := infix_map_dropWhile hne hhead h
  have hend := infix_map_dropWhile (s := (s.dropWhile isHeaderEdge).reverse)
    (reverse_ne_nil_iff.mpr hne) (by rwa [head?_reverse]) (by simpa [map_reverse] using hstart)
  rw [trimBy, trimStartBy, trimEndBy, map_reverse]
  exact reverse_infix.mp (by simpa using hend)

/-- A line of the first comment contains a signature, letter case aside. -/
def HasHeader (s : Signature) (content : List Char) : Prop :=
  ∃ body, Source.FirstComment content body ∧ ∃ line ∈ splitOnChar '\n' body, ∃ needle ∈ s.headers,
    needle.toList.map lowerChar <:+: line.map lowerChar

lemma HasHeader.exists_mem_headerEvidence {s : Signature} (h : HasHeader s content)
    (hsolid : ∀ needle ∈ s.headers, IsSolid (needle.toList.map lowerChar))
    {signatures : Table Signature} {tag : String} (hs : (tag, s) ∈ signatures) :
    ∃ line, ⟨tag, .header, line⟩ ∈ headerEvidence signatures content := by
  obtain ⟨body, hbody, line, hline, needle, hneedle, hin⟩ := h
  have hne : body ≠ [] := by
    rintro rfl
    obtain rfl := mem_singleton.mp hline
    exact (hsolid needle hneedle).1 (eq_nil_of_infix_nil hin)
  have htrim := infix_map_trimBy (hsolid needle hneedle) hin
  have hmem : String.ofList (trimBy isHeaderEdge line) ∈ headerLines content := by
    rw [headerLines_of_firstComment hbody hne]
    refine mem_filterMap.mpr ⟨_, mem_map_of_mem hline, if_neg fun hempty => ?_⟩
    rw [List.isEmpty_iff.mp hempty] at htrim
    exact (hsolid needle hneedle).1 (eq_nil_of_infix_nil htrim)
  have hmentions : mentions (String.ofList (trimBy isHeaderEdge line)) needle := by
    rw [mentions, Text.contains, occursIn_iff]
    simpa using htrim
  have hsome : (firstMention? (headerLines content) s.headers).isSome := by
    rw [firstMention?, findSome?_isSome_iff]
    exact ⟨needle, hneedle, find?_isSome.mpr ⟨_, hmem, hmentions⟩⟩
  obtain ⟨found, hfound⟩ := Option.isSome_iff_exists.mp hsome
  exact ⟨found, mem_filterMap.mpr ⟨(tag, s), hs, by simp [hfound]⟩⟩

/-! ### Main files -/

lemma mainContents_of_main {after : List (List Char)}
    (h : ∀ other ∈ contents, nameField.test other = false)
    (hmain : nameField.test content) (before : List (List Char)) :
    mainContents before (contents ++ content :: after) = [content] := by
  induction contents generalizing before with
  | nil => simp [mainContents, hmain]
  | cons other contents ih =>
    obtain ⟨hother, h⟩ := forall_mem_cons.mp h
    simp [mainContents, hother, ih h]

lemma mainContents_of_none (h : ∀ other ∈ contents, nameField.test other = false)
    (before : List (List Char)) : mainContents before contents = before ++ contents := by
  induction contents generalizing before with
  | nil => simp [mainContents]
  | cons other contents ih =>
    obtain ⟨hother, h⟩ := forall_mem_cons.mp h
    simp [mainContents, hother, ih h]

/-- A readable source file right below a root, by its name, with its text. -/
structure RootFile (tree : Node) (root name : String) (content : List Char) : Prop where
  entry : ∃ entries n, stat tree root = .ok (.dir entries) ∧ (name, n) ∈ entries
  ending : ['.', 'p', 'h', 'p'] <:+ name.toList
  readable :
    ∃ bytes, readUnder tree root root (join [root, name]) = .ok bytes ∧ content = decodeBytes bytes

variable {tree : Node} {names place : List String} {entries : Table Node} {name : String}

lemma exists_leadsTo (hnames : AreNames names) (hdir : isDir tree (rooted names)) :
    ∃ place entries, LeadsTo tree names place entries := by
  unfold isDir stat at hdir
  cases hresolve : resolve tree (rooted names) with
  | error cause => simp [hresolve] at hdir
  | ok place =>
    cases hfind : tree.find? place with
    | none => simp [hresolve, hfind] at hdir
    | some n =>
      cases n with
      | dir entries => exact ⟨place, entries, hnames, hresolve, hfind⟩
      | _ => simp [hresolve, hfind, Node.isDir] at hdir

lemma rootFile_iff (h : LeadsTo tree names place entries) (hwf : Node.WellFormed tree) :
    RootFile tree (rooted names) name content ↔
      ∃ n, (name, n) ∈ entries ∧ rootText? tree names (name, n) = some content := by
  have hread : ∀ n, (name, n) ∈ entries → join [rooted names, name] = rooted (names ++ [name]) :=
    fun n hn => Path.join_rooted h.isName ((hwf place entries h.dir).2 _ hn).toIsName
  have hok : ∀ (x : Except ReadError Bytes), x.toOption.map decodeBytes = some content ↔
      ∃ bytes, x = .ok bytes ∧ content = decodeBytes bytes := by
    rintro (cause | bytes) <;> simp [Except.toOption, eq_comm]
  constructor
  · rintro ⟨⟨entries', n, hstat, hn⟩, hending, hreadable⟩
    obtain rfl := Node.dir.inj (Except.ok.inj (h.stat_eq.symm.trans hstat))
    rw [hread n hn] at hreadable
    refine ⟨n, hn, ?_⟩
    rw [rootText?, if_pos (isSuffixOf_iff_suffix.mpr hending), hok]
    exact hreadable
  · rintro ⟨n, hn, htext⟩
    rw [rootText?, Option.ite_none_right_eq_some, isSuffixOf_iff_suffix, hok, ← hread n hn] at htext
    exact ⟨⟨entries, n, h.stat_eq, hn⟩, htext.1, htext.2⟩

/-- A header is found in every directory whose path has no characters that stand for others. If the
first main file right below the root has a signature in a line of its first comment, or if there is
no main file and some file there has, then the ecosystem of the signature is detected by a
header. -/
theorem header_detected (hwf : Node.WellFormed tree) (hnames : ∀ n ∈ names, IsName n)
    (hdir : FileTree.isDir tree (rooted names) = true) (hplain : Wildcard.IsPlain (rooted names))
    (d : Detector) {tag : String} {s : Signature} (hs : (tag, s) ∈ d.signatures)
    (hsolid : ∀ needle ∈ s.headers, IsSolid (needle.toList.map lowerChar))
    (hfile : RootFile tree (rooted names) name content) (hheader : HasHeader s content)
    (hmain : (nameField.test content = true ∧
      ∀ name' content', RootFile tree (rooted names) name' content' →
        name' < name → nameField.test content' = false) ∨
      ∀ name' content', RootFile tree (rooted names) name' content' →
        nameField.test content' = false) :
    ∃ e ∈ (detect d tree (rooted names)).evidence, e.ecosystem = tag ∧ e.origin = .header := by
  obtain ⟨place, entries, h⟩ := exists_leadsTo hnames hdir
  have hmem : content ∈ mainContents [] (rootContents tree (rooted names)) := by
    rw [rootContents_of_leadsTo h hwf hplain]
    obtain ⟨n, hn, htext⟩ := (rootFile_iff h hwf).mp hfile
    obtain ⟨hname, hfirst⟩ | hnone := hmain
    · -- the texts before this one are those of files with smaller names
      obtain ⟨front, back, rfl⟩ := append_of_mem hn
      rw [filterMap_append, filterMap_cons_some htext,
        mainContents_of_main (fun other hother => ?_) hname]
      · exact mem_singleton_self content
      · obtain ⟨e, he, hother⟩ := mem_filterMap.mp hother
        have hlt := (pairwise_append.mp (hwf place _ h.dir).1).2.2 e he _ mem_cons_self
        exact hfirst e.1 other ((rootFile_iff h hwf).mpr ⟨e.2, mem_append_left _ he, hother⟩) hlt
    · rw [mainContents_of_none fun other hother => ?_]
      · exact mem_filterMap.mpr ⟨(name, n), hn, htext⟩
      · obtain ⟨e, he, hother⟩ := mem_filterMap.mp hother
        exact hnone e.1 other ((rootFile_iff h hwf).mpr ⟨e.2, he, hother⟩)
  obtain ⟨line, hline⟩ := hheader.exists_mem_headerEvidence hsolid hs
  have hfound : ⟨tag, .header, line⟩ ∈ headerFound d tree (rooted names) :=
    mem_flatMap.mpr ⟨content, by rwa [if_pos hdir], hline⟩
  rw [evidence_detect]
  exact exists_agrees_of_mem (mem_append_left _ (mem_append_left _ hfound)) []

def sliderMain : String :=
  "<?php\n/**\n * Plugin Name: Slider\n * ELEMENTOR tested up to: 3.2\n */\n"

def headedTree (dir : String) : Node :=
  .dir [(dir, .dir [("main.php", .file (bytesOf sliderMain) .plain)])]

lemma hasHeader_sliderMain : HasHeader elementor sliderMain.toList := by
  exact ⟨"*\n * Plugin Name: Slider\n * ELEMENTOR tested up to: 3.2\n ".toList,
    ⟨"<?php\n".toList, "\n".toList, by decide +kernel, by decide +kernel, by decide +kernel⟩,
    " * ELEMENTOR tested up to: 3.2".toList, by decide +kernel,
    "Elementor tested up to", by decide, by decide +kernel⟩

theorem header_detected_slider :
    Node.WellFormed (headedTree "slider") ∧
      FileTree.isDir (headedTree "slider") (rooted ["slider"]) = true ∧
      Wildcard.IsPlain (rooted ["slider"]) ∧
      RootFile (headedTree "slider") (rooted ["slider"]) "main.php" sliderMain.toList ∧
      HasHeader elementor sliderMain.toList ∧ nameField.test sliderMain.toList = true ∧
      ∃ e ∈ (detect {} (headedTree "slider") (rooted ["slider"])).evidence,
        e.ecosystem = "elementor" ∧ e.origin = .header := by
  have hwf : Node.WellFormed (headedTree "slider") := by
    simp only [headedTree, Node.wellFormed_dir_iff, Node.wellFormed_file, forall_mem_cons,
      not_mem_nil, false_imp_iff, implies_true, and_true]
    decide
  have hleads : LeadsTo (headedTree "slider") ["slider"] ["slider"]
      [("main.php", .file (bytesOf sliderMain) .plain)] :=
    ⟨by decide, by decide +kernel, rfl⟩
  have hfile : RootFile (headedTree "slider") (rooted ["slider"]) "main.php" sliderMain.toList :=
    ⟨⟨_, _, hleads.stat_eq,
      .head _⟩, by decide, bytesOf sliderMain, by decide +kernel, by decide +kernel⟩
  have hname : nameField.test sliderMain.toList = true := by decide +kernel
  have hplain : Wildcard.IsPlain (rooted ["slider"]) := by
    rw [show rooted ["slider"] = "/slider" by decide]
    simp [Wildcard.IsPlain, Wildcard.isSpecial]
  refine ⟨hwf, hleads.isDir_eq, hplain, hfile, hasHeader_sliderMain, hname, ?_⟩
  refine header_detected hwf (by decide) hleads.isDir_eq hplain {} (s := elementor)
    (by decide) ?_ hfile hasHeader_sliderMain (.inl ⟨hname, fun name' content' hother hlt => ?_⟩)
  · decide +kernel
  · obtain ⟨entries, n, hstat, hmem⟩ := hother.entry
    obtain rfl := Node.dir.inj (Except.ok.inj (hleads.stat_eq.symm.trans hstat))
    obtain ⟨rfl, -⟩ := Prod.mk.inj (mem_singleton.mp hmem)
    exact absurd hlt (lt_irrefl _)

/-- In a directory whose name has brackets the header is not found. -/
theorem header_missed_in_brackets :
    FileTree.isDir (headedTree "a[b]") (rooted ["a[b]"]) = true ∧
      RootFile (headedTree "a[b]") (rooted ["a[b]"]) "main.php" sliderMain.toList ∧
      HasHeader elementor sliderMain.toList ∧ nameField.test sliderMain.toList = true ∧
      ∀ e ∈ (detect {} (headedTree "a[b]") (rooted ["a[b]"])).evidence, e.origin ≠ .header := by
  have hleads : LeadsTo (headedTree "a[b]") ["a[b]"] ["a[b]"]
      [("main.php", .file (bytesOf sliderMain) .plain)] :=
    ⟨by decide, by decide +kernel, rfl⟩
  have hfile : RootFile (headedTree "a[b]") (rooted ["a[b]"]) "main.php" sliderMain.toList :=
    ⟨⟨_, _, hleads.stat_eq,
      .head _⟩, by decide, bytesOf sliderMain, by decide +kernel, by decide +kernel⟩
  exact ⟨hleads.isDir_eq, hfile, hasHeader_sliderMain, by decide +kernel, by decide +kernel⟩

end Ecosystem

end PluginAudit
