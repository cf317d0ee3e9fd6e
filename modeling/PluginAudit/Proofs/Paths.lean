import PluginAudit.Path
import PluginAudit.Proofs.Texts

/-!
Absolute paths as lists of names: joining, taking the directory or the last name, and the way from
one path to another are operations on the lists.
-/

open List

namespace PluginAudit.Path

variable {path name here : String} {names root target parts : List String}
  {before other : List String}

/-- What can stand between two slashes of a clean absolute path. -/
structure IsName (name : String) : Prop where
  ne_empty : name ≠ ""
  ne_dot : name ≠ "."
  ne_dots : name ≠ ".."
  no_slash : '/' ∉ name.toList

instance (name : String) : Decidable (IsName name) :=
  decidable_of_iff (name ≠ "" ∧ name ≠ "." ∧ name ≠ ".." ∧ '/' ∉ name.toList)
    ⟨fun ⟨hempty, hdot, hdots, hslash⟩ => ⟨hempty, hdot, hdots, hslash⟩,
      fun h => ⟨h.ne_empty, h.ne_dot, h.ne_dots, h.no_slash⟩⟩

@[simp] abbrev AreNames (names : List String) : Prop := ∀ n ∈ names, IsName n

/-- The path with some names from the top of the tree. -/
abbrev rooted (names : List String) : String := ofComponents true names

/-! ### Components -/

@[simp] lemma components_append_slash (a b : String) :
    components (a ++ "/" ++ b) = components a ++ components b := by
  have hsplit : Text.split '/' (a ++ "/" ++ b) = Text.split '/' a ++ Text.split '/' b := by
    simp only [Text.split, String.toList_append, String.reduceToList, append_assoc,
      singleton_append]
    rw [Text.splitOnChar_append, map_append]
  rw [components, hsplit, filter_append]
  rfl

@[simp] lemma components_empty : components "" = [] := by decide

@[simp] lemma components_slash_append (s : String) : components ("/" ++ s) = components s := by
  have h := components_append_slash "" s
  rwa [components_empty, nil_append, String.empty_append] at h

lemma mem_components (h : name ∈ components path) : name ≠ "" ∧ name ≠ "." ∧ '/' ∉ name.toList := by
  obtain ⟨hsplit, hpart⟩ := mem_filter.mp h
  obtain ⟨part, hmem, rfl⟩ := mem_map.mp hsplit
  simp only [Bool.and_eq_true, bne_iff_ne] at hpart
  refine ⟨hpart.1, hpart.2, ?_⟩
  rw [String.toList_ofList]
  exact (Text.mem_splitOnChar hmem).1

lemma components_of_part (hempty : name ≠ "") (hdot : name ≠ ".")
    (hslash : '/' ∉ name.toList) : components name = [name] := by
  simp [components, Text.split, Text.splitOnChar_of_notMem hslash, hempty, hdot]

lemma IsName.components (h : IsName name) : components name = [name] :=
  components_of_part h.ne_empty h.ne_dot h.no_slash

lemma components_intercalate (h : ∀ n ∈ names, components n = [n]) :
    components ("/".intercalate names) = names := by
  induction names with
  | nil => exact components_empty
  | cons name names ih =>
    have hname := h name mem_cons_self
    cases names with
    | nil => simpa using hname
    | cons next names =>
      rw [String.intercalate_cons_cons, components_append_slash, hname, ih (forall_mem_cons.mp h).2]
      rfl

lemma isAbsolute_slash_append (s : String) : isAbsolute ("/" ++ s) := by
  simp [isAbsolute]

@[simp] lemma isAbsolute_rooted (names : List String) : isAbsolute (rooted names) :=
  isAbsolute_slash_append _

lemma components_rooted (h : AreNames names) : components (rooted names) = names := by
  rw [rooted, ofComponents, if_pos rfl, components_slash_append, components_intercalate fun n hn =>
    (h n hn).components]

lemma isAbsolute_append {a : String} (h : isAbsolute a) (b : String) : isAbsolute (a ++ b) := by
  rw [isAbsolute, String.toList_append, head?_append]
  rw [isAbsolute] at h
  simp [beq_iff_eq.mp h]

/-! ### Cleaning -/

lemma isName_of_mem_foldl_pushComponent (hbefore : AreNames before)
    (hparts : ∀ n ∈ parts, n ≠ "" ∧ n ≠ "." ∧ '/' ∉ n.toList) :
    ∀ n ∈ parts.foldl (pushComponent true) before, IsName n := by
  induction parts generalizing before with
  | nil => exact hbefore
  | cons part parts ih =>
    refine ih ?_ (forall_mem_cons.mp hparts).2
    obtain ⟨hempty, hdot, hslash⟩ := hparts part mem_cons_self
    unfold pushComponent
    split
    · simp
    · rename_i last before'
      rw [if_neg (hbefore last mem_cons_self).ne_dots]
      exact (forall_mem_cons.mp hbefore).2
    · rename_i hne _
      intro n hn
      rcases mem_cons.mp hn with rfl | hn
      · refine ⟨hempty, hdot, ?_, hslash⟩
        rintro rfl
        cases before with
        | nil => simp_all
        | cons => simp_all
      · exact hbefore n hn

lemma isName_of_mem_cleanComponents (habs : isAbsolute path)
    (h : name ∈ cleanComponents path) : IsName name := by
  rw [cleanComponents, habs, mem_reverse] at h
  exact isName_of_mem_foldl_pushComponent (by simp) (fun n hn => mem_components hn) name h

lemma foldl_pushComponent_of_isName (before : List String) (h : AreNames names) :
    names.foldl (pushComponent true) before = names.reverse ++ before := by
  induction names generalizing before with
  | nil => rfl
  | cons name names ih =>
    have hpush : pushComponent true before name = name :: before := by
      have hne := (h name mem_cons_self).ne_dots
      unfold pushComponent
      split <;> simp_all
    rw [foldl_cons, hpush, ih _ (forall_mem_cons.mp h).2]
    simp

lemma cleanComponents_rooted (h : AreNames names) : cleanComponents (rooted names) = names := by
  rw [cleanComponents, isAbsolute_rooted, components_rooted h, foldl_pushComponent_of_isName [] h]
  simp

lemma clean_of_isAbsolute (habs : isAbsolute path) :
    clean path = rooted (cleanComponents path) := by
  rw [clean, habs]

lemma clean_rooted (h : AreNames names) : clean (rooted names) = rooted names := by
  rw [clean_of_isAbsolute (isAbsolute_rooted names), cleanComponents_rooted h]

lemma rooted_inj {others : List String} (h : AreNames names) (h' : AreNames others)
    (heq : rooted names = rooted others) : names = others := by
  rw [← components_rooted h, heq, components_rooted h']

lemma mem_of_mem_foldl_pushComponent {absolute : Bool}
    (h : name ∈ parts.foldl (pushComponent absolute) before) : name ∈ before ∨ name ∈ parts := by
  induction parts generalizing before with
  | nil => exact .inl h
  | cons part parts ih =>
    rcases ih h with h | h
    · unfold pushComponent at h
      split at h
      · split_ifs at h
        · cases h
        · exact .inr (mem_singleton.mp h ▸ mem_cons_self)
      · split_ifs at h
        · exact (mem_cons.mp h).elim (fun h => .inr (h ▸ mem_cons_self)) .inl
        · exact .inl (mem_cons_of_mem _ h)
      · exact (mem_cons.mp h).elim (fun h => .inr (h ▸ mem_cons_self)) .inl
    · exact .inr (mem_cons_of_mem _ h)

lemma mem_toList_intercalate {c : Char}
    (h : c ∈ ("/".intercalate parts).toList) : c = '/' ∨ ∃ part ∈ parts, c ∈ part.toList := by
  rw [String.toList_intercalate] at h
  simpa using Text.mem_intercalate h

lemma mem_toList_clean {c : Char} (h : c ∈ (clean path).toList) :
    c = '/' ∨ c = '.' ∨ c ∈ path.toList := by
  have hcomponent : ∀ name ∈ cleanComponents path, c ∈ name.toList → c ∈ path.toList := by
    intro name hname hc
    have hmem := (mem_of_mem_foldl_pushComponent (mem_reverse.mp hname)).resolve_left (by simp)
    obtain ⟨part, hpart, rfl⟩ := mem_map.mp (mem_filter.mp hmem).1
    rw [String.toList_ofList] at hc
    exact (Text.mem_splitOnChar hpart).2 hc
  unfold clean ofComponents at h
  split_ifs at h
  · rw [String.toList_append, mem_append] at h
    rcases h with h | h
    · exact .inl (by simpa using h)
    · exact (mem_toList_intercalate h).imp_right fun ⟨name, hname, hc⟩ =>
        .inr (hcomponent name hname hc)
  · exact .inr (.inl (by simpa using h))
  · exact (mem_toList_intercalate h).imp_right fun ⟨name, hname, hc⟩ =>
      .inr (hcomponent name hname hc)

/-! ### Joining -/

lemma ne_empty_of_isAbsolute (habs : isAbsolute path) : path ≠ "" := by
  rintro rfl
  exact absurd habs (by decide)

lemma isAbsolute_intercalate (habs : isAbsolute path) (parts : List String) :
    isAbsolute ("/".intercalate (path :: parts)) := by
  cases parts with
  | nil => simpa using habs
  | cons next parts =>
    rw [String.intercalate_cons_cons, String.append_assoc]
    exact isAbsolute_append habs _

lemma isAbsolute_join (habs : isAbsolute path) (parts : List String) :
    isAbsolute (join (path :: parts)) := by
  rw [join, filter_cons_of_pos (by simpa using ne_empty_of_isAbsolute habs)]
  simp only
  rw [clean_of_isAbsolute (isAbsolute_intercalate habs _)]
  exact isAbsolute_rooted _

lemma join_cons (habs : isAbsolute path) (parts : List String)
    (h : ∀ part ∈ parts, ∀ n ∈ components part, IsName n) :
    join (path :: parts) = rooted (cleanComponents path ++ parts.flatMap components) := by
  have hgiven : ∀ given : List String, components ("/".intercalate (path :: given)) =
      components path ++ given.flatMap components := by
    intro given
    have htail : ∀ rest :
        List String, rest ≠ [] → components ("/".intercalate rest) = rest.flatMap components := by
      intro rest hrest
      induction rest with
      | nil => exact absurd rfl hrest
      | cons part rest ih =>
        cases rest with
        | nil => simp
        | cons next rest =>
          rw [String.intercalate_cons_cons, components_append_slash, ih (by simp)]
          rfl
    rw [htail _ (by simp), flatMap_cons]
  -- parts that are left out have no components
  have hfilter : (parts.filter (· != "")).flatMap components = parts.flatMap components := by
    clear h hgiven
    induction parts with
    | nil => rfl
    | cons part parts ih =>
      by_cases hpart : part = ""
      · simp [hpart, ih]
      · simp [hpart, ih]
  have habs' := isAbsolute_intercalate habs (parts.filter (· != ""))
  have hnames : ∀ n ∈ parts.flatMap components, IsName n := by
    intro n hn
    obtain ⟨part, hpart, hn⟩ := mem_flatMap.mp hn
    exact h part hpart n hn
  rw [join, filter_cons_of_pos (by simpa using ne_empty_of_isAbsolute habs)]
  simp only
  rw [clean_of_isAbsolute habs', cleanComponents, habs', hgiven, hfilter, foldl_append,
    foldl_pushComponent_of_isName _ hnames, reverse_append, reverse_reverse, cleanComponents, habs]

lemma join_intercalate (hroot : AreNames root) (hnames : AreNames names) :
    join [rooted root, "/".intercalate names] = rooted (root ++ names) := by
  have hcomponents := components_intercalate fun n hn => (hnames n hn).components
  rw [join_cons (isAbsolute_rooted root), cleanComponents_rooted hroot, flatMap_singleton,
    hcomponents]
  intro part hpart n hn
  rw [mem_singleton.mp hpart, hcomponents] at hn
  exact hnames n hn

lemma join_names (habs : isAbsolute path)
    (h : AreNames names) : join (path :: names) = rooted (cleanComponents path ++ names) := by
  rw [join_cons habs names fun part hpart n hn => ?_]
  · congr 2
    induction names with
    | nil => rfl
    | cons name names ih =>
      rw [flatMap_cons, (h name mem_cons_self).components, ih (forall_mem_cons.mp h).2]
      rfl
  · rw [(h part hpart).components, mem_singleton] at hn
    exact hn ▸ h part hpart

lemma exists_absolute_eq_rooted (habs : isAbsolute here) (path : String) :
    ∃ names, AreNames names ∧ absolute here path = rooted names := by
  have hclean : ∀ p, isAbsolute p → ∃ names, AreNames names ∧ clean p = rooted names :=
    fun p hp => ⟨_, fun _ hn => isName_of_mem_cleanComponents hp hn, clean_of_isAbsolute hp⟩
  rw [absolute]
  split
  · exact hclean path ‹_›
  · rw [join, filter_cons_of_pos (by simpa using ne_empty_of_isAbsolute habs)]
    exact hclean _ (isAbsolute_intercalate habs _)

lemma absolute_of_isAbsolute (here : String) (h : isAbsolute path) :
    absolute here path = rooted (cleanComponents path) := by
  rw [absolute, if_pos h, clean_of_isAbsolute h]

lemma absolute_rooted (here : String) (h : AreNames names) :
    absolute here (rooted names) = rooted names := by
  rw [absolute_of_isAbsolute here (isAbsolute_rooted names), cleanComponents_rooted h]

/-! ### Names below a directory -/

@[simp] lemma foldl_pushComponent_foldl (parts before : List String) :
    (parts.foldl (pushComponent false) []).reverse.foldl (pushComponent true) before =
      parts.foldl (pushComponent true) before := by
  induction parts using reverseRecOn with
  | nil => rfl
  | append_singleton parts part ih =>
    rw [foldl_append, foldl_append, foldl_cons, foldl_nil, foldl_cons, foldl_nil, ← ih]
    generalize parts.foldl (pushComponent false) [] = kept
    by_cases hpart : part = ".."
    · subst hpart
      cases kept with
      | nil => simp [pushComponent]
      | cons last kept => by_cases hlast : last = ".." <;> simp [pushComponent, hlast, foldl_append]
    · have hpush (top : Bool) (names : List String) :
          pushComponent top names part = part :: names := by
        simp [pushComponent, hpart]
      simp [hpush, foldl_append]

lemma mem_cleanComponents (h : name ∈ cleanComponents path) :
    name ≠ "" ∧ name ≠ "." ∧ '/' ∉ name.toList :=
  mem_components ((mem_of_mem_foldl_pushComponent (mem_reverse.mp h)).resolve_left (by simp))

@[simp] lemma components_clean (path : String) :
    components (clean path) = cleanComponents path := by
  have hparts : ∀ n ∈ cleanComponents path, components n = [n] := by
    intro n hn
    obtain ⟨hempty, hdot, hslash⟩ := mem_cleanComponents hn
    exact components_of_part hempty hdot hslash
  unfold clean ofComponents
  split_ifs with habs hnil
  · rw [components_slash_append, components_intercalate hparts]
  · rw [isEmpty_iff.mp hnil]
    decide
  · exact components_intercalate hparts

lemma isAbsolute_clean_of_relative (h : isAbsolute path = false) :
    isAbsolute (clean path) = false ∧ clean path ≠ "" := by
  rw [clean, h, ofComponents, if_neg (by simp)]
  split_ifs with hnil
  · decide
  · cases hparts : cleanComponents path with
    | nil => simp [hparts] at hnil
    | cons first rest =>
      obtain ⟨hempty, -, hslash⟩ :=
        mem_cleanComponents (hparts ▸ mem_cons_self : first ∈ cleanComponents path)
      obtain ⟨c, t, hfirst⟩ : ∃ c t, first.toList = c :: t := by
        cases hchars : first.toList with
        | nil => exact absurd (String.toList_eq_nil_iff.mp hchars) hempty
        | cons c t => exact ⟨c, t, rfl⟩
      obtain ⟨tail, htail⟩ : ∃ tail, ("/".intercalate (first :: rest)).toList = c :: tail := by
        cases rest with
        | nil => exact ⟨t, by rw [String.intercalate_singleton, hfirst]⟩
        | cons next rest =>
          rw [String.intercalate_cons_cons, String.toList_append, String.toList_append, hfirst]
          exact ⟨_, rfl⟩
      have hc : c ≠ '/' := by
        rintro rfl
        exact hslash (hfirst ▸ mem_cons_self)
      refine ⟨?_, fun hnone => ?_⟩
      · rw [isAbsolute, htail]
        simpa using hc
      · rw [hnone] at htail
        cases htail

lemma absolute_of_relative (habs : isAbsolute here) (hrel : isAbsolute path = false)
    (hne : path ≠ "") : absolute here path = rooted ((components path).foldl (pushComponent true)
      ((components here).foldl (pushComponent true) [])).reverse := by
  have hhere := ne_empty_of_isAbsolute habs
  have hjoin : isAbsolute (here ++ "/" ++ path) := isAbsolute_append (isAbsolute_append habs _) _
  rw [absolute, hrel]
  simp only [Bool.false_eq_true, if_false, join, bne_iff_ne, ne_eq, hhere, not_false_eq_true, hne,
    filter_cons_of_pos, filter_nil]
  rw [String.intercalate_cons_cons, String.intercalate_singleton, clean_of_isAbsolute hjoin,
    cleanComponents, hjoin, components_append_slash, foldl_append]

lemma absolute_join_name {dir : String} (habs : isAbsolute here) (hdir : dir ≠ "")
    (hname : IsName name) : ∃ names, AreNames names ∧ absolute here dir = rooted names ∧
      absolute here (join [dir, name]) = rooted (names ++ [name]) := by
  cases hrel : isAbsolute dir with
  | true =>
    have hnames := fun n (hn : n ∈ cleanComponents dir) => isName_of_mem_cleanComponents hrel hn
    refine ⟨cleanComponents dir, hnames, absolute_of_isAbsolute here hrel, ?_⟩
    rw [join_names hrel (by simpa using hname), absolute_rooted here]
    simpa [or_imp, forall_and] using ⟨hnames, hname⟩
  | false =>
    have hjoin : join [dir, name] = clean (dir ++ "/" ++ name) := by
      simp [join, hdir, hname.ne_empty, String.intercalate_cons_cons]
    have hrelative : isAbsolute (dir ++ "/" ++ name) = false := by
      cases hchars : dir.toList with
      | nil => exact absurd (String.toList_eq_nil_iff.mp hchars) hdir
      | cons c t => simpa [isAbsolute, hchars] using hrel
    obtain ⟨hclean, hne⟩ := isAbsolute_clean_of_relative hrelative
    have hpush (top : Bool) (names : List String) :
        pushComponent top names name = name :: names := by
      simp [pushComponent, hname.ne_dots]
    have habsolute := absolute_of_relative habs hrel hdir
    refine ⟨_, ?_, habsolute, ?_⟩
    · intro n hn
      exact isName_of_mem_foldl_pushComponent (isName_of_mem_foldl_pushComponent (by simp) fun n =>
        mem_components) (fun n => mem_components) n (mem_reverse.mp hn)
    · rw [hjoin, absolute_of_relative habs hclean hne, components_clean, cleanComponents, hrelative,
        foldl_pushComponent_foldl, components_append_slash, hname.components, foldl_append]
      simp [hpush]

/-! ### The last name -/

lemma toList_rooted (hne : names ≠ []) :
    (rooted names).toList = names.flatMap fun n => '/' :: n.toList := by
  have hjoin : ∀ rest : List String, rest ≠ [] →
      '/' :: ("/".intercalate rest).toList = rest.flatMap fun n => '/' :: n.toList := by
    intro rest hrest
    induction rest with
    | nil => exact absurd rfl hrest
    | cons name rest ih =>
      cases rest with
      | nil => simp
      | cons next rest =>
        rw [String.intercalate_cons_cons, flatMap_cons, ← ih (by simp)]
        simp
  rw [rooted, ofComponents, if_pos rfl, String.toList_append, ← hjoin names hne]
  rfl

@[simp] lemma toList_rooted_concat (names : List String) (name : String) :
    (rooted (names ++ [name])).toList = (names.flatMap fun n => '/' :: n.toList) ++ '/' ::
      name.toList := by
  rw [toList_rooted (by simp), flatMap_append]
  simp

lemma dropWhile_ne_slash_reverse (h : IsName name) (start : List Char) :
    (start ++ '/' :: name.toList).reverse.dropWhile (· != '/') = '/' :: start.reverse := by
  rw [reverse_append, reverse_cons, append_assoc, dropWhile_append_of_pos]
  · simp
  · intro c hc
    rw [bne_iff_ne]
    rintro rfl
    exact h.no_slash (mem_reverse.mp hc)

lemma dir_rooted_concat (h : AreNames names)
    (hname : IsName name) : dir (rooted (names ++ [name])) = rooted names := by
  rw [dir, toList_rooted_concat, dropWhile_ne_slash_reverse hname]
  simp only [reverse_cons, reverse_reverse]
  -- what is left is the path of the directory with one more slash
  have hpath : String.ofList ((names.flatMap fun n => '/' :: n.toList) ++ ['/']) =
      if names = [] then "/" else rooted names ++ "/" := by
    split
    · simp [*]
    · rw [← String.toList_inj, String.toList_append, toList_rooted ‹_›]
      simp
  rw [hpath]
  split
  · subst_vars
    decide
  · have habs := isAbsolute_append (isAbsolute_rooted names) "/"
    have hcomponents : components (rooted names ++ "/") = names := by
      have hslash := components_append_slash (rooted names) ""
      rw [String.append_empty, components_empty, append_nil, components_rooted h] at hslash
      exact hslash
    rw [clean_of_isAbsolute habs, cleanComponents, habs, hcomponents,
      foldl_pushComponent_of_isName [] h]
    simp

lemma base_of_toList {start : List Char} (hpath : path.toList = start ++ name.toList)
    (hname : IsName name) (hstart : start = [] ∨ start.getLast? = some '/') : base path = name := by
  have hne : path ≠ "" := by
    rintro rfl
    simp [hname.ne_empty] at hpath
  have hlast : ∃ c t, name.toList.reverse = c :: t ∧ c ≠ '/' := by
    cases hrev : name.toList.reverse with
    | nil => exact absurd (by simpa using hrev) hname.ne_empty
    | cons c t =>
      refine ⟨c, t, rfl, ?_⟩
      rintro rfl
      exact hname.no_slash (mem_reverse.mp (hrev ▸ mem_cons_self))
  obtain ⟨c, t, hrev, hc⟩ := hlast
  have htrim : Text.trimEndBy (· == '/') path.toList = path.toList := by
    have hback : path.toList.reverse = c :: (t ++ start.reverse) := by
      rw [hpath, reverse_append, hrev, cons_append]
    rw [Text.trimEndBy, hback, dropWhile_cons_of_neg (by simpa using hc), ← hback, reverse_reverse]
  have hbefore : start.reverse.takeWhile (· != '/') = [] := by
    rcases hstart with rfl | hslash
    · rfl
    · obtain ⟨before, rfl⟩ := getLast?_eq_some_iff.mp hslash
      simp
  rw [base, if_neg hne]
  simp only [htrim]
  rw [if_neg (by simpa using hne), hpath, reverse_append, takeWhile_append_of_pos, hbefore]
  · simp
  · intro d hd
    rw [bne_iff_ne]
    rintro rfl
    exact hname.no_slash (mem_reverse.mp hd)

lemma base_rooted_concat (names : List String) (hname : IsName name) :
    base (rooted (names ++ [name])) = name := by
  refine @base_of_toList _ _ ((names.flatMap fun n => '/' :: n.toList) ++ ['/']) ?_ hname (by simp)
  rw [toList_rooted_concat]
  simp

lemma base_intercalate_concat (names : List String) (hname : IsName name) :
    base ("/".intercalate (names ++ [name])) = name := by
  have hrooted := toList_rooted_concat names name
  rw [rooted, ofComponents, if_pos rfl, String.toList_append] at hrooted
  cases names with
  | nil =>
    refine @base_of_toList _ _ [] ?_ hname (.inl rfl)
    simp
  | cons first names =>
    refine @base_of_toList _ _ (first.toList ++ (names.flatMap fun n => '/' :: n.toList) ++ ['/'])
      ?_ hname (by simp)
    simpa using hrooted

/-! ### From one path to another -/

lemma exists_common (as bs : List String) :
    ∃ common, as = common ++ (dropCommon as bs).1 ∧ bs = common ++ (dropCommon as bs).2 := by
  fun_induction dropCommon as bs with
  | case1 as b bs ih =>
    obtain ⟨common, has, hbs⟩ := ih
    exact ⟨b :: common, by rw [cons_append, ← has], by rw [cons_append, ← hbs]⟩
  | case2 a as b bs hne => exact ⟨[], rfl, rfl⟩
  | case3 as bs h => exact ⟨[], rfl, rfl⟩

def wayNames (root target : List String) : List String :=
  (dropCommon root target).1.map (fun _ => "..") ++ (dropCommon root target).2

lemma relative?_rooted (hroot : AreNames root) (htarget : AreNames target) (hne : root ≠ target) :
    relative? (rooted root) (rooted target) = some ("/".intercalate (wayNames root target)) := by
  have hdot : rooted target ≠ "." := by
    intro h
    exact absurd (h ▸ isAbsolute_rooted target) (by decide)
  rw [relative?, clean_rooted hroot, clean_rooted htarget, cleanComponents_rooted hroot,
    cleanComponents_rooted htarget]
  simp only [isAbsolute_rooted, bne_self_eq_false, Bool.false_eq_true, if_false, if_neg hdot]
  rw [if_neg fun h => hne (rooted_inj hroot htarget h)]
  obtain ⟨common, hup, -⟩ := exists_common root target
  split
  · rename_i down heq
    -- no name of the root is a step up
    rw [heq] at hup
    exact absurd rfl (hroot ".." (by rw [hup]; simp)).ne_dots
  · rename_i up down _ heq
    rw [wayNames, heq]

@[simp] lemma relative?_self (path : String) : relative? path path = some "." := by
  simp [relative?]

lemma components_of_mem_wayNames (root : List String) (htarget : AreNames target) :
    ∀ n ∈ wayNames root target, components n = [n] := by
  obtain ⟨common, -, hdown⟩ := exists_common root target
  intro n hn
  rcases mem_append.mp hn with hn | hn
  · obtain ⟨-, -, rfl⟩ := mem_map.mp hn
    decide
  · exact (htarget n (by rw [hdown]; exact mem_append_right _ hn)).components

@[simp] lemma dropCommon_append (root names : List String) :
    dropCommon root (root ++ names) = ([], names) := by
  induction root with
  | nil => cases names <;> rfl
  | cons name root ih => simp [dropCommon, ih]

@[simp] lemma wayNames_append (root names : List String) :
    wayNames root (root ++ names) = names := by
  rw [wayNames, dropCommon_append]
  rfl

lemma relative?_rooted_append (hroot : AreNames root) (hnames : AreNames names) (hne : names ≠ []) :
    relative? (rooted root) (rooted (root ++ names)) = some ("/".intercalate names) := by
  rw [relative?_rooted hroot, wayNames_append]
  · exact forall_mem_append.mpr ⟨hroot, hnames⟩
  · intro h
    exact hne (self_eq_append_right.mp h)

lemma wayNames_injective (root : List String) (htarget : AreNames target) (hother : AreNames other)
    (h : wayNames root target = wayNames root other) : target = other := by
  obtain ⟨common, hup, hdown⟩ := exists_common root target
  obtain ⟨common', hup', hdown'⟩ := exists_common root other
  -- the steps up are those before the first name
  have hsteps : ∀ (up down : List String), (AreNames down) →
      (up.map (fun _ => "..") ++ down).takeWhile (· == "..") = up.map fun _ => ".." := by
    intro up down hd
    rw [takeWhile_append_of_pos (by simp)]
    cases down with
    | nil => simp
    | cons name down =>
      rw [takeWhile_cons_of_neg (by simpa using (hd name mem_cons_self).ne_dots), append_nil]
  have hd : ∀ n ∈ (dropCommon root target).2, IsName n :=
    fun n hn => htarget n (by rw [hdown]; exact mem_append_right _ hn)
  have hd' : ∀ n ∈ (dropCommon root other).2, IsName n :=
    fun n hn => hother n (by rw [hdown']; exact mem_append_right _ hn)
  have hups : (dropCommon root target).1.map (fun _ => "..") =
      (dropCommon root other).1.map fun _ => ".." := by
    have htake := congrArg (takeWhile (· == "..")) h
    rwa [wayNames, wayNames, hsteps _ _ hd, hsteps _ _ hd'] at htake
  have hdowns : (dropCommon root target).2 = (dropCommon root other).2 := by
    rw [wayNames, wayNames, hups] at h
    exact append_cancel_left h
  have hlength : (dropCommon root target).1.length = (dropCommon root other).1.length := by
    simpa using congrArg length hups
  have hcommon : common = common' := by
    exact (append_inj' (hup.symm.trans hup') hlength).1
  rw [hdown, hdown', hcommon, hdowns]

lemma relative?_injective (hroot : AreNames root) (htarget : AreNames target)
    (hother : AreNames other)
    (h : relative? (rooted root) (rooted target) = relative? (rooted root) (rooted other)) :
    target = other := by
  have hway : ∀ t :
      List String, (AreNames t) → root ≠ t → relative? (rooted root) (rooted t) ≠ some "." := by
    intro t ht hne heq
    rw [relative?_rooted hroot ht hne, Option.some.injEq] at heq
    have hnil : wayNames root t = [] := by
      rw [← components_intercalate (components_of_mem_wayNames root ht), heq]
      decide
    obtain ⟨common, hup, hdown⟩ := exists_common root t
    simp only [wayNames, append_eq_nil_iff, map_eq_nil_iff] at hnil
    rw [hnil.1] at hup
    rw [hnil.2] at hdown
    exact hne (hup.trans hdown.symm)
  by_cases h1 : root = target
  · by_cases h2 : root = other
    · exact h1.symm.trans h2
    · subst h1
      rw [relative?_self] at h
      exact absurd h.symm (hway other hother h2)
  · by_cases h2 : root = other
    · subst h2
      rw [relative?_self] at h
      exact absurd h (hway target htarget h1)
    · rw [relative?_rooted hroot htarget h1, relative?_rooted hroot hother h2,
        Option.some.injEq] at h
      refine wayNames_injective root htarget hother ?_
      rw [← components_intercalate (components_of_mem_wayNames root htarget), h,
        components_intercalate (components_of_mem_wayNames root hother)]

end PluginAudit.Path
