import Mathlib.Data.List.Dedup
import PluginAudit.Proofs.Names

/-!
The index of declared symbols. Main statement: what the index answers is fixed by the declarations
that were added, whatever their order and however often they were added.
-/

open List

namespace PluginAudit

/-! ### Parts between separators -/

namespace Text

variable {sep : Char}

@[simp] lemma intercalate_splitOnChar (sep : Char) (s : List Char) :
    [sep].intercalate (splitOnChar sep s) = s := by
  induction s with
  | nil => rfl
  | cons c s ih =>
    rw [splitOnChar]
    obtain ⟨part, parts, hs⟩ := exists_cons_of_ne_nil (splitOnChar_ne_nil sep s)
    rw [hs] at ih ⊢
    split_ifs with hc
    · rw [intercalate_cons_cons, ih, hc]
      rfl
    · cases parts with
      | nil => simpa using ih
      | cons next parts =>
        rw [intercalate_cons_cons] at ih ⊢
        rw [← ih]
        rfl

lemma splitOnChar_intercalate {parts : List (List Char)} (hne : parts ≠ [])
    (h : ∀ part ∈ parts, sep ∉ part) : splitOnChar sep ([sep].intercalate parts) = parts := by
  induction parts with
  | nil => exact absurd rfl hne
  | cons part parts ih =>
    obtain ⟨hpart, hparts⟩ := forall_mem_cons.mp h
    cases parts with
    | nil => simpa using splitOnChar_of_notMem hpart
    | cons next parts =>
      rw [intercalate_cons_cons, append_assoc, singleton_append, splitOnChar_append,
        splitOnChar_of_notMem hpart, ih (cons_ne_nil _ _) hparts]
      rfl

lemma split_ne_nil (sep : Char) (s : String) : split sep s ≠ [] := by
  rw [split, ne_eq, map_eq_nil_iff]
  exact splitOnChar_ne_nil sep s.toList

@[simp] lemma intercalate_split (sep : Char) (s : String) :
    (String.singleton sep).intercalate (split sep s) = s := by
  rw [← String.toList_inj, String.toList_intercalate, split, map_map, String.toList_singleton]
  have hid : String.toList ∘ String.ofList = id := funext fun _ => String.toList_ofList
  rw [hid, map_id, intercalate_splitOnChar]

lemma split_intercalate {parts : List String} (hne : parts ≠ [])
    (h : ∀ part ∈ parts, sep ∉ part.toList) :
    split sep ((String.singleton sep).intercalate parts) = parts := by
  rw [split, String.toList_intercalate, String.toList_singleton,
    splitOnChar_intercalate (by simpa using hne) (forall_mem_map.mpr h), map_map]
  have hid : String.ofList ∘ String.toList = id := funext fun _ => String.ofList_toList
  rw [hid, map_id]

lemma notMem_of_mem_split {s part : String} (h : part ∈ split sep s) : sep ∉ part.toList := by
  obtain ⟨chars, hchars, rfl⟩ := mem_map.mp h
  rw [String.toList_ofList]
  exact (mem_splitOnChar hchars).1

end Text

namespace SymbolIndex

open Source Text

variable {name : String} {files : List File} {d : Declaration} {names all : List String}

@[simp] lemma mem_enclosing_iff {inside : String} :
    name ∈ enclosing inside ↔ split '\\' name <+: split '\\' (lower inside) := by
  have hsep : "\\" = String.singleton '\\' := rfl
  rw [enclosing, mem_map]
  constructor
  · rintro ⟨n, hn, rfl⟩
    have htake : (split '\\' (lower inside)).take (n + 1) ≠ [] := by
      rw [ne_eq, take_eq_nil_iff, not_or]
      exact ⟨n.succ_ne_zero, split_ne_nil _ _⟩
    rw [hsep, split_intercalate htake fun part hpart => notMem_of_mem_split (mem_of_mem_take hpart)]
    exact take_prefix _ _
  · intro hprefix
    have hpos := length_pos_of_ne_nil (split_ne_nil '\\' name)
    have hle := hprefix.length_le
    refine ⟨(split '\\' name).length - 1, mem_range.mpr (by omega), ?_⟩
    rw [Nat.sub_add_cancel hpos, ← prefix_iff_eq_take.mp hprefix, hsep, intercalate_split]

/-! ### What an index has -/

lemma mem_foldl_insert :
    name ∈ names.foldl (fun all n => all.insert n) all ↔ name ∈ names ∨ name ∈ all := by
  induction names generalizing all with
  | nil => simp
  | cons n names ih =>
    rw [foldl_cons, ih, mem_insert_iff, mem_cons]
    tauto

lemma foldl_insert_eq (h : ∀ name ∈ names, name ∈ all) :
    names.foldl (fun all n => all.insert n) all = all := by
  induction names with
  | nil => rfl
  | cons n names ih =>
    obtain ⟨hn, hnames⟩ := forall_mem_cons.mp h
    rw [foldl_cons, insert_of_mem hn, ih hnames]

/-- A list has the names of the declarations of some kind, and no others. -/
def NamesOf (keep : Declaration → Bool) (nameOf : Declaration → String) (ds : List Declaration)
    (names : List String) : Prop :=
  ∀ name, name ∈ names ↔ ∃ d ∈ ds, keep d = true ∧ nameOf d = name

namespace NamesOf

variable {keep : Declaration → Bool} {nameOf : Declaration → String} {ds : List Declaration}
  {names : List String} {d : Declaration} (h : NamesOf keep nameOf ds names)

include h

lemma insert (hd : keep d) : NamesOf keep nameOf (d :: ds) (names.insert (nameOf d)) := by
  intro name
  rw [mem_insert_iff, h, exists_mem_cons_iff, eq_comm]
  simp only [hd, true_and]

lemma cons (hd : keep d = false) : NamesOf keep nameOf (d :: ds) names := by
  intro name
  rw [h, exists_mem_cons_iff, hd]
  simp only [Bool.false_eq_true, false_and, false_or]

lemma mem (hmem : d ∈ ds) (hd : keep d) : nameOf d ∈ names :=
  (h _).mpr ⟨d, hmem, hd, rfl⟩

lemma contains_iff (name : String) : names.contains name ↔ ∃ d ∈ ds, keep d ∧ nameOf d = name := by
  rw [contains_iff_mem, h]

lemma perm {ds' : List Declaration} {names' : List String} (h' : NamesOf keep nameOf ds' names')
    (hsame : ∀ d, d ∈ ds ↔ d ∈ ds') (hnodup : names.Nodup) (hnodup' : names'.Nodup) :
    names.Perm names' := by
  rw [perm_ext_iff_of_nodup hnodup hnodup']
  intro name
  simp only [h name, h' name, hsame]

omit h in
lemma dedup (keep : Declaration → Bool) (nameOf : Declaration → String) (ds : List Declaration) :
    NamesOf keep nameOf ds ((ds.filter keep).map nameOf).dedup := by
  intro name
  rw [mem_dedup, mem_map]
  simp only [mem_filter, and_assoc]

end NamesOf

def isFunction (d : Declaration) : Bool := !d.isType

def fullKey (d : Declaration) : String := lower d.fullName

/-- The tables of an index are those of some declarations. -/
structure Describes (index : SymbolIndex) (ds : List Declaration) : Prop where
  classes : NamesOf Declaration.isType fullKey ds index.classes
  shortClasses : ∀ short, index.shortCount short = index.classes.countP (lastSegment · == short)
  functions : NamesOf isFunction fullKey ds index.functions
  shortFunctions : NamesOf isFunction (lower ·.name) ds index.shortFunctions
  namespaces :
    ∀ name, name ∈ index.namespaces ↔ ∃ d ∈ ds, d.namespace ≠ "" ∧ name ∈ enclosing d.namespace
  nodup_classes : index.classes.Nodup
  nodup_functions : index.functions.Nodup

/-- The last segment of the full name of a declaration is its name. -/
def Segmented (d : Declaration) : Prop := lastSegment (fullKey d) = lower d.name

namespace Describes

variable {index : SymbolIndex} {ds : List Declaration} {d : Declaration} {new : List Declaration}

lemma empty : Describes {} [] := by
  constructor <;> simp [NamesOf, shortCount]

variable (h : Describes index ds)

include h

lemma withFiles (n : Nat) : Describes { index with files := n } ds :=
  ⟨h.classes, h.shortClasses, h.functions, h.shortFunctions, h.namespaces, h.nodup_classes,
    h.nodup_functions⟩

/-! #### One declaration -/

lemma mem_namespaces_step (d : Declaration) (name : String) :
    name ∈ (index.addDeclaration d).namespaces ↔ ∃ e ∈ d :: ds, e.namespace ≠ "" ∧
      name ∈ enclosing e.namespace := by
  have hstep : (index.addDeclaration d).namespaces = if d.namespace = "" then index.namespaces
      else (enclosing d.namespace).foldl (fun all n => all.insert n) index.namespaces := by
    unfold addDeclaration
    dsimp only
    split <;> rfl
  rw [hstep, exists_mem_cons_iff, ← h.namespaces]
  split_ifs with hempty
  · simp [hempty]
  · simp [hempty, mem_foldl_insert]

lemma shortCount_step (hd : Segmented d) (htype : d.isType) (short : String) :
    (index.addDeclaration d).shortCount short =
      (index.classes.insert (fullKey d)).countP (lastSegment · == short) := by
  have hcounts : (index.addDeclaration d).shortClasses =
      if index.classes.contains (fullKey d) then index.shortClasses else
      Table.insert (lower d.name) (index.shortCount (lower d.name) + 1) index.shortClasses := by
    unfold addDeclaration
    rw [htype]
    rfl
  rw [shortCount, hcounts]
  by_cases hmem : fullKey d ∈ index.classes
  · rw [if_pos (contains_iff_mem.mpr hmem), insert_of_mem hmem]
    exact h.shortClasses short
  · rw [if_neg (by rwa [contains_iff_mem]), insert_of_not_mem hmem, countP_cons,
      Table.get?_insert, hd, ← h.shortClasses short]
    by_cases heq : lower d.name = short
    · subst heq
      simp
    · simp [heq, shortCount]

lemma addDeclaration (hd : Segmented d) : Describes (index.addDeclaration d) (d :: ds) := by
  have hnamespaces := h.mem_namespaces_step d
  cases htype : d.isType with
  | true =>
    have hcounts := h.shortCount_step hd htype
    have hother : isFunction d = false := by rw [isFunction, htype]; rfl
    unfold SymbolIndex.addDeclaration at hnamespaces hcounts ⊢
    rw [htype] at hnamespaces hcounts ⊢
    exact ⟨h.classes.insert htype, hcounts, h.functions.cons hother, h.shortFunctions.cons hother,
      hnamespaces, h.nodup_classes.insert, h.nodup_functions⟩
  | false =>
    have hfunction : isFunction d := by rw [isFunction, htype]; rfl
    unfold SymbolIndex.addDeclaration at hnamespaces ⊢
    rw [htype] at hnamespaces ⊢
    exact ⟨h.classes.cons htype, h.shortClasses, h.functions.insert hfunction,
      h.shortFunctions.insert hfunction, hnamespaces, h.nodup_classes, h.nodup_functions.insert⟩

lemma addDeclaration_eq_self (hmem : d ∈ ds) : index.addDeclaration d = index := by
  have hnamespaces : (if d.namespace = "" then index.namespaces
      else (enclosing d.namespace).foldl (fun all n => all.insert n) index.namespaces) =
      index.namespaces := by
    split_ifs with hempty
    · rfl
    · exact foldl_insert_eq fun name hname => (h.namespaces name).mpr ⟨d, hmem, hempty, hname⟩
  unfold SymbolIndex.addDeclaration
  dsimp only
  rw [hnamespaces]
  cases htype : d.isType with
  | true =>
    have hclass : lower d.fullName ∈ index.classes := h.classes.mem hmem htype
    rw [if_pos rfl, insert_of_mem hclass, if_pos (contains_iff_mem.mpr hclass)]
  | false =>
    have hfunction : isFunction d := by rw [isFunction, htype]; rfl
    have hfull : lower d.fullName ∈ index.functions := h.functions.mem hmem hfunction
    have hshort : lower d.name ∈ index.shortFunctions := h.shortFunctions.mem hmem hfunction
    rw [if_neg Bool.false_ne_true, insert_of_mem hfull, insert_of_mem hshort]

/-! #### Files -/

lemma of_mem_iff {ds' : List Declaration} (hsame : ∀ d, d ∈ ds ↔ d ∈ ds') :
    Describes index ds' := by
  refine ⟨?_, h.shortClasses, ?_, ?_, ?_, h.nodup_classes, h.nodup_functions⟩
  · simpa only [NamesOf, hsame] using h.classes
  · simpa only [NamesOf, hsame] using h.functions
  · simpa only [NamesOf, hsame] using h.shortFunctions
  · simpa only [hsame] using h.namespaces

lemma foldl_addDeclaration (hnew : ∀ d ∈ new, Segmented d) :
    Describes (new.foldl SymbolIndex.addDeclaration index) (new ++ ds) := by
  induction new generalizing index ds with
  | nil => exact h
  | cons d new ih =>
    obtain ⟨hd, hnew⟩ := forall_mem_cons.mp hnew
    rw [foldl_cons]
    refine (ih (h.addDeclaration hd) hnew).of_mem_iff fun e => ?_
    rw [mem_append, mem_cons, cons_append, mem_cons, mem_append]
    exact or_left_comm

lemma foldl_addDeclaration_eq_self (hnew : ∀ d ∈ new, d ∈ ds) :
    new.foldl SymbolIndex.addDeclaration index = index := by
  induction new with
  | nil => rfl
  | cons d new ih =>
    obtain ⟨hd, hnew⟩ := forall_mem_cons.mp hnew
    rw [foldl_cons, h.addDeclaration_eq_self hd, ih hnew]

lemma addFiles {files : List File} :
    Describes (index.addFiles files) (ds ++ files.flatMap (declarations ·.content)) := by
  induction files generalizing index ds with
  | nil => exact h.of_mem_iff fun d => by rw [flatMap_nil, append_nil]
  | cons f files ih =>
    have hfile : Describes (index.add (declarations f.content)) (declarations f.content ++ ds) :=
      (h.withFiles _).foldl_addDeclaration fun d hd => lastSegment_lower_fullName hd
    refine (ih hfile).of_mem_iff fun e => ?_
    rw [flatMap_cons, mem_append, mem_append, mem_append, mem_append, or_assoc]
    exact or_left_comm

lemma addFiles_singleton {f : File} (hf : ∀ d ∈ declarations f.content, d ∈ ds) :
    index.addFiles [f] = { index with files := index.files + 1 } :=
  (h.withFiles (index.files + 1)).foldl_addDeclaration_eq_self hf

end Describes

lemma describes_addFiles (files : List File) :
    Describes (addFiles {} files) (files.flatMap (declarations ·.content)) :=
  Describes.empty.addFiles

/-! ### Answers -/

/-- What an index answers, in terms of declarations. -/
structure Answers (index : SymbolIndex) (ds : List Declaration) : Prop where
  hasClass : ∀ name, index.hasClass name = true ↔ ∃ d ∈ ds, d.isType = true ∧
    lower d.fullName = lower (normalName name)
  hasClassShort : ∀ name, index.hasClassShort name = true ↔
    ∃ d ∈ ds, d.isType = true ∧ lower d.name = lower (lastSegment name)
  shortCount : ∀ short, index.shortCount short =
    ((ds.filter fun d => d.isType && lower d.name == short).map fun d =>
    lower d.fullName).dedup.length
  hasNamespace : ∀ name, index.hasNamespace name = true ↔ ∃ d ∈ ds, d.namespace ≠ "" ∧
    split '\\' (lower (normalName name)) <+: split '\\' (lower d.namespace)
  hasFunction : ∀ name, index.hasFunction name = true ↔ ∃ d ∈ ds, d.isType = false ∧
      (lower d.fullName = lower (normalName name) ∨ lower d.name = lower (lastSegment name))
  classes : index.classes.length = ((ds.filter fun d => d.isType).map fun d =>
    lower d.fullName).dedup.length
  functions : index.functions.length = ((ds.filter fun d => !d.isType).map fun d =>
    lower d.fullName).dedup.length

/-- Two indexes that cannot be told apart by looking names up and counting. -/
structure SameAnswers (a b : SymbolIndex) : Prop where
  hasClass : ∀ name, a.hasClass name = b.hasClass name
  hasClassShort : ∀ name, a.hasClassShort name = b.hasClassShort name
  shortCount : ∀ short, a.shortCount short = b.shortCount short
  hasNamespace : ∀ name, a.hasNamespace name = b.hasNamespace name
  hasFunction : ∀ name, a.hasFunction name = b.hasFunction name
  classes : a.classes.length = b.classes.length
  functions : a.functions.length = b.functions.length

namespace Describes

variable {index : SymbolIndex} {ds : List Declaration} (h : Describes index ds)
  (hseg : ∀ d ∈ ds, Segmented d)

include h

lemma hasFunction_iff (name : String) : index.hasFunction name ↔ ∃ d ∈ ds, d.isType = false ∧
      (lower d.fullName = lower (normalName name) ∨ lower d.name = lower (lastSegment name)) := by
  rw [hasFunction, Bool.or_eq_true, h.functions.contains_iff, h.shortFunctions.contains_iff]
  simp only [isFunction, Bool.not_eq_true', fullKey, key, shortKey]
  grind

include hseg

lemma filter_classes (short : String) :
    NamesOf (fun d => d.isType && lower d.name == short) fullKey ds
      (index.classes.filter (lastSegment · == short)) := by
  intro name
  rw [mem_filter, h.classes]
  constructor
  · rintro ⟨⟨d, hd, htype, rfl⟩, hlast⟩
    rw [hseg d hd] at hlast
    exact ⟨d, hd, Bool.and_eq_true_iff.mpr ⟨htype, hlast⟩, rfl⟩
  · rintro ⟨d, hd, hkeep, rfl⟩
    rw [Bool.and_eq_true] at hkeep
    refine ⟨⟨d, hd, hkeep.1, rfl⟩, ?_⟩
    rw [hseg d hd]
    exact hkeep.2

lemma shortCount_eq (short : String) : index.shortCount short =
      ((ds.filter fun d => d.isType && lower d.name == short).map fullKey).dedup.length := by
  rw [h.shortClasses, countP_eq_length_filter]
  exact ((h.filter_classes hseg short).perm (NamesOf.dedup _ _ ds) (fun _ => Iff.rfl)
    (h.nodup_classes.filter _) (nodup_dedup _)).length_eq

lemma hasClassShort_iff (name : String) :
    index.hasClassShort name ↔ ∃ d ∈ ds, d.isType ∧ lower d.name = lower (lastSegment name) := by
  rw [hasClassShort, decide_eq_true_iff, h.shortCount_eq hseg, length_pos_iff_exists_mem]
  simp only [mem_dedup, mem_map, mem_filter, Bool.and_eq_true, beq_iff_eq, shortKey]
  constructor
  · rintro ⟨-, d, ⟨hd, hkeep⟩, -⟩
    exact ⟨d, hd, hkeep⟩
  · rintro ⟨d, hd, hkeep⟩
    exact ⟨_, d, ⟨hd, hkeep⟩, rfl⟩

lemma answers : Answers index ds where
  hasClass name := h.classes.contains_iff (key name)
  hasClassShort := h.hasClassShort_iff hseg
  shortCount := h.shortCount_eq hseg
  hasNamespace name := by
    rw [hasNamespace, contains_iff_mem, h.namespaces]
    simp only [mem_enclosing_iff, key]
  hasFunction := h.hasFunction_iff
  classes := (h.classes.perm (NamesOf.dedup _ _ ds) (fun _ =>
    Iff.rfl) h.nodup_classes (nodup_dedup _)).length_eq
  functions := (h.functions.perm (NamesOf.dedup _ _ ds) (fun _ =>
    Iff.rfl) h.nodup_functions (nodup_dedup _)).length_eq

omit h hseg in
lemma sameAnswers {a b : SymbolIndex} (ha : Describes a ds) (hb : Describes b ds) :
    SameAnswers a b := by
  have hclasses := ha.classes.perm hb.classes (fun _ => Iff.rfl) ha.nodup_classes hb.nodup_classes
  have hfunctions :=
    ha.functions.perm hb.functions (fun _ => Iff.rfl) ha.nodup_functions hb.nodup_functions
  have hcounts : ∀ short, a.shortCount short = b.shortCount short := by
    intro short
    rw [ha.shortClasses, hb.shortClasses, hclasses.countP_eq]
  refine ⟨fun name => ?_, fun name => ?_, hcounts, fun name => ?_, fun name => ?_,
    hclasses.length_eq, hfunctions.length_eq⟩
  · exact hclasses.contains_eq
  · rw [hasClassShort, hasClassShort, hcounts]
  · rw [Bool.eq_iff_iff, hasNamespace, hasNamespace, contains_iff_mem, contains_iff_mem,
      ha.namespaces, hb.namespaces]
  · rw [Bool.eq_iff_iff, ha.hasFunction_iff, hb.hasFunction_iff]

end Describes

lemma segmented_of_mem (h : d ∈ files.flatMap (declarations ·.content)) : Segmented d := by
  obtain ⟨f, -, hd⟩ := mem_flatMap.mp h
  exact lastSegment_lower_fullName hd

lemma hasClassShort_of_mem {f : File} (hf : f ∈ files) (hd : d ∈ declarations f.content)
    (htype : d.isType)
    (hname : lower d.name = lower (lastSegment name)) : (addFiles {} files).hasClassShort name :=
  ((describes_addFiles files).hasClassShort_iff (fun _ => segmented_of_mem) name).mpr
    ⟨d, mem_flatMap.mpr ⟨f, hf, hd⟩, htype, hname⟩

lemma hasFunction_of_mem {f : File} (hf : f ∈ files) (hd : d ∈ declarations f.content)
    (htype : d.isType = false)
    (hname : lower d.name = lower (lastSegment name)) : (addFiles {} files).hasFunction name :=
  ((describes_addFiles files).hasFunction_iff name).mpr ⟨d, mem_flatMap.mpr ⟨f, hf, hd⟩, htype,
    .inr hname⟩

/-! ### Files in any order -/

def ingested (read : String → Option File) (paths : List String) : SymbolIndex :=
  addFiles {} (paths.filterMap read)

def declared (read : String → Option File) (paths : List String) : List Declaration :=
  (paths.filterMap read).flatMap (declarations ·.content)

/-- The index answers from the declarations of the files that can be read. The order of the files
does not matter, and a file that comes again adds to the number of files only. -/
theorem ingested_answers (read : String → Option File) (paths : List String) :
    Answers (ingested read paths) (declared read paths) ∧
      (∀ order : List String, order.Perm paths →
        SameAnswers (ingested read order) (ingested read paths)) ∧
      ∀ path ∈ paths, ∀ f, read path = some f → (ingested read paths).addFiles [f] =
          { ingested read paths with files := (ingested read paths).files + 1 } := by
  have hindex := describes_addFiles (paths.filterMap read)
  refine ⟨hindex.answers fun _ => segmented_of_mem, fun order horder => ?_, fun path hpath f hf =>
    ?_⟩
  · refine ((describes_addFiles (order.filterMap read)).of_mem_iff fun d => ?_).sameAnswers hindex
    exact ((horder.filterMap read).flatMap_right _).mem_iff
  · refine hindex.addFiles_singleton fun d hd => ?_
    exact mem_flatMap.mpr ⟨f, mem_filterMap.mpr ⟨path, hpath, hf⟩, hd⟩

/-- Two files with one class, written in two ways, and no others. -/
def sample? (path : String) : Option File :=
  if path = "a.php" then some ⟨path, ["<?php".toList, "namespace A;".toList, "class B {}".toList]⟩
  else if path = "b.php" then
    some ⟨path, ["<?php".toList, "namespace a;".toList, "class b {}".toList]⟩
  else none

theorem ingested_answers_sample :
    (ingested sample? ["a.php", "b.php", "c.php"]).shortCount "b" = 1 ∧
      (ingested sample? ["a.php", "b.php", "c.php"]).hasNamespace "\\A\\" = true ∧
      SameAnswers (ingested sample? ["c.php", "b.php", "a.php"])
        (ingested sample? ["a.php", "b.php", "c.php"]) :=
  ⟨by decide +kernel, by decide +kernel,
    (ingested_answers sample? ["a.php", "b.php", "c.php"]).2.1
      ["c.php", "b.php", "a.php"] (by decide)⟩

end SymbolIndex

end PluginAudit
