import PluginAudit.Inventory
import PluginAudit.Proofs.PatternSemantics
import PluginAudit.Proofs.Tables
import PluginAudit.Proofs.Texts
import PluginAudit.Source.Import
import PluginAudit.SymbolIndex

/-!
Names, their segments, and where they are looked up. What a file declares or imports is found again
by the last segment or the alias, whatever the case of its letters.
-/

open List

namespace PluginAudit.Source

open CharSet (letter wordChar mem inRanges)
open Text Pattern

variable {name : String} {code content : List Char} {kind : DeclarationKind} {d : Declaration}

/-! ### Identifiers -/

/-- A letter or underscore, then letters, digits and underscores. -/
def IsIdentifier (name : String) : Prop :=
  ∃ x text, name.toList = x :: text ∧ letter.mem x = true ∧ ∀ y ∈ text, wordChar.mem y = true

lemma mem_iff_ranges {ranges : List (Char × Char)} {c : Char} :
    mem ⟨ranges, false, false⟩ c ↔ ∃ r ∈ ranges, r.1.toNat ≤ c.toNat ∧ c.toNat ≤ r.2.toNat := by
  simp [mem, inRanges, Char.le_def, UInt32.le_iff_toNat_le]

lemma wordChar_mem_spec {c : Char} (h : wordChar.mem c) :
    isSpace c = false ∧ c ≠ '\\' ∧ lowerChar c ≠ '\\' := by
  have hlt : c.toNat < 0x80 := by
    rw [wordChar, mem_iff_ranges] at h
    simp at h
    omega
  have hall : ∀ n < 0x80, wordChar.mem (Char.ofNat n) →
      isSpace (Char.ofNat n) = false ∧ Char.ofNat n ≠ '\\' ∧ lowerChar (Char.ofNat n) ≠ '\\' := by
    decide +kernel
  simpa using hall c.toNat hlt (by simpa using h)

lemma wordChar_of_letter {c : Char} (h : letter.mem c) : wordChar.mem c := by
  simp only [mem, letter, wordChar, inRanges] at *
  simp at *
  tauto

lemma IsIdentifier.forall_wordChar (h : IsIdentifier name) : ∀ c ∈ name.toList, wordChar.mem c := by
  obtain ⟨x, text, hname, hx, htext⟩ := h
  rw [hname]
  exact forall_mem_cons.mpr ⟨wordChar_of_letter hx, htext⟩

lemma IsIdentifier.toList_ne_nil (h : IsIdentifier name) : name.toList ≠ [] := by
  obtain ⟨x, text, hname, -⟩ := h
  rw [hname]
  exact cons_ne_nil x text

/-! ### Segments -/

/-- A text without separators and without white space at its ends is its own last segment. -/
structure IsSegment (s : List Char) : Prop where
  trimmed : Trimmed s
  notMem : '\\' ∉ s

lemma IsIdentifier.isSegment (h : IsIdentifier name) : IsSegment name.toList where
  trimmed := trimmed_of_forall fun c hc => (wordChar_mem_spec (h.forall_wordChar c hc)).1
  notMem := fun hc => (wordChar_mem_spec (h.forall_wordChar _ hc)).2.1 rfl

lemma IsIdentifier.isSegment_lower (h : IsIdentifier name) : IsSegment (lower name).toList where
  trimmed := by
    refine trimmed_of_forall fun c hc => ?_
    rw [toList_lower] at hc
    obtain ⟨d, hd, rfl⟩ := mem_map.mp hc
    rw [isSpace_lowerChar]
    exact (wordChar_mem_spec (h.forall_wordChar d hd)).1
  notMem := by
    rw [toList_lower]
    intro hc
    obtain ⟨d, hd, heq⟩ := mem_map.mp hc
    exact (wordChar_mem_spec (h.forall_wordChar d hd)).2.2 heq

lemma toList_normalName (name : String) : (normalName name).toList =
    let t := trimChars name.toList
    let t := if t.head? = some '\\' then t.tail else t
    if t.getLast? = some '\\' then t.dropLast else t := by
  have hsep : "\\" = String.singleton '\\' := rfl
  rw [normalName, hsep, toList_dropTail_singleton, toList_dropLead_singleton, toList_trim]

lemma normalName_of_isSegment (h : IsSegment name.toList) : normalName name = name := by
  rw [← String.toList_inj, toList_normalName, trimChars_of_trimmed h.trimmed]
  have hhead : name.toList.head? ≠ some '\\' := fun hc => h.notMem (mem_of_head? hc)
  have hlast : name.toList.getLast? ≠ some '\\' := fun hc => h.notMem (mem_of_getLast? hc)
  dsimp only
  rw [if_neg hhead, if_neg hlast]

lemma lastSegment_eq {last : List Char}
    (h : (splitOnChar '\\' (normalName name).toList).getLast? = some last) :
    lastSegment name = String.ofList (trimChars last) := by
  unfold lastSegment
  rw [split, getLast?_map, h]
  exact congrArg (fun s => String.ofList (trimChars s)) String.toList_ofList

lemma lastSegment_of_isSegment (h : IsSegment name.toList) : lastSegment name = name := by
  have hlast : (splitOnChar '\\' (normalName name).toList).getLast? = some name.toList := by
    rw [normalName_of_isSegment h, splitOnChar_of_notMem h.notMem]
    rfl
  rw [lastSegment_eq hlast, trimChars_of_trimmed h.trimmed, String.ofList_toList]

lemma isSegment_lastSegment (name : String) : IsSegment (lastSegment name).toList := by
  have hlast := getLast?_eq_some_getLast (splitOnChar_ne_nil '\\' (normalName name).toList)
  rw [lastSegment_eq hlast, String.toList_ofList]
  refine ⟨trimmed_trimChars _, fun hc => ?_⟩
  exact (mem_splitOnChar (mem_of_getLast? hlast)).1 (trimChars_subset _ hc)

lemma exists_toList_normalName_append {name : List Char} (pre : List Char) (h : IsSegment name)
    (hne : name ≠ []) : (normalName (String.ofList (pre ++ '\\' :: name))).toList = name ∨
      ∃ pre', (normalName (String.ofList (pre ++ '\\' :: name))).toList = pre' ++ '\\' :: name := by
  have hlast : ∀ front, (front ++ name).getLast? ≠ some '\\' := by
    intro front hc
    rw [getLast?_append_of_ne_nil _ hne] at hc
    exact h.notMem (mem_of_getLast? hc)
  have htrim : trimChars (pre ++ '\\' :: name) = pre.dropWhile isSpace ++ '\\' :: name := by
    rw [trimChars_eq]
    have hstart :
        (pre ++ '\\' :: name).dropWhile isSpace = pre.dropWhile isSpace ++ '\\' :: name := by
      rw [dropWhile_append]
      split
      case isTrue hnil =>
        rw [isEmpty_iff.mp hnil]
        rfl
      case isFalse => rfl
    rw [hstart, rdropWhile_eq_self_iff]
    intro hne'
    have hmem := h.trimmed.last _ (getLast?_eq_some_getLast hne)
    simp only [getLast_append_of_ne_nil _ (cons_ne_nil _ name), getLast_cons hne, hmem,
      Bool.false_eq_true, not_false_iff]
  rw [toList_normalName, String.toList_ofList, htrim]
  cases pre.dropWhile isSpace with
  | nil =>
    left
    simp only [nil_append, head?_cons, tail_cons, if_true]
    exact if_neg (hlast [])
  | cons c pre' =>
    right
    simp only [cons_append, head?_cons, tail_cons, Option.some.injEq]
    by_cases hc : c = '\\'
    · have hlast' := hlast (pre' ++ ['\\'])
      rw [append_assoc, singleton_append] at hlast'
      rw [if_pos hc, if_neg hlast']
      exact ⟨pre', rfl⟩
    · have hlast' := hlast (c :: pre' ++ ['\\'])
      rw [append_assoc, singleton_append] at hlast'
      rw [if_neg hc, ← cons_append, if_neg hlast']
      exact ⟨c :: pre', rfl⟩

lemma lastSegment_append (pre : String) (h : IsSegment name.toList)
    (hne : name.toList ≠ []) : lastSegment (pre ++ "\\" ++ name) = name := by
  have heq : pre ++ "\\" ++ name = String.ofList (pre.toList ++ '\\' :: name.toList) := by
    rw [← String.toList_inj]
    simp
  have hlast :
      (splitOnChar '\\' (normalName (pre ++ "\\" ++ name)).toList).getLast? = some name.toList := by
    rw [heq]
    rcases exists_toList_normalName_append pre.toList h hne with heq | ⟨pre', heq⟩
    · rw [heq, splitOnChar_of_notMem h.notMem]
      rfl
    · rw [heq, splitOnChar_append, splitOnChar_of_notMem h.notMem]
      simp
  rw [lastSegment_eq hlast, trimChars_of_trimmed h.trimmed, String.ofList_toList]

/-! ### Declarations -/

lemma isIdentifier_spanTo {c d : Cursor} {groups groups' : Groups}
    (h : Matches .identifier c groups d groups') :
    IsIdentifier (String.ofList (c.spanTo d).text) := by
  obtain ⟨-, x, text, hx, htext, hread⟩ := matches_identifier_iff.mp h
  refine ⟨x, text, ?_, hx, htext⟩
  rw [hread.spanTo_eq, String.toList_ofList]

lemma isIdentifier_of_typeOn? (h : typeOn? code = some (kind, name)) :
    kind ≠ .function ∧ IsIdentifier name := by
  unfold typeOn? at h
  split at h
  case h_2 => cases h
  case h_1 m hfind =>
    obtain ⟨kind', hkind, heq⟩ := Option.map_eq_some_iff.mp h
    cases heq
    constructor
    · rintro rfl
      have := mem_of_find?_eq_some hkind
      simp at this
    · have hmatch := (isMatch_of_find? hfind).holds
      simp only [typeDeclaration, matches_cat_cons_iff, matches_cat_nil_iff,
        matches_group_iff] at hmatch
      obtain ⟨c₁, g₁, -, c₂, g₂, -, c₃, g₃, -, c₄, g₄, ⟨g₅, -, -⟩, c₅, g₆, -, c₆, g₇, ⟨g₈, hid, hg⟩,
        -, hgroups⟩ := hmatch
      rw [Match.groupText, Match.group, hgroups, hg]
      exact isIdentifier_spanTo hid

lemma isIdentifier_of_functionOn? (h : functionOn? code = some name) : IsIdentifier name := by
  obtain ⟨m, hfind, rfl⟩ := Option.map_eq_some_iff.mp h
  have hmatch := (isMatch_of_find? hfind).holds
  simp only [functionDeclaration, matches_cat_cons_iff, matches_cat_nil_iff,
    matches_group_iff] at hmatch
  obtain ⟨c₁, g₁, -, c₂, g₂, -, c₃, g₃, -, c₄, g₄, -, c₅, g₅, -, c₆, g₆, -, c₇, g₇, ⟨g₈, hid, hg⟩,
    c₈, g₉, hspaces, c₉, g₁₀, hparen, -, hgroups⟩ := hmatch
  rw [Match.groupText, Match.group, hgroups, hparen.groups_eq (by decide), hspaces.groups_eq rfl,
    hg]
  exact isIdentifier_spanTo hid

lemma isIdentifier_of_lineMeaning (h : lineMeaning code = .declare kind name) :
    IsIdentifier name := by
  unfold lineMeaning at h
  split at h
  · cases h
  · split at h
    case h_1 htype =>
      cases h
      exact (isIdentifier_of_typeOn? htype).2
    case h_2 =>
      split at h
      case h_1 hfunction =>
        cases h
        exact isIdentifier_of_functionOn? hfunction
      case h_2 => cases h

lemma isIdentifier_of_mem_declarations (h : d ∈ declarations content) : IsIdentifier d.name := by
  have hfrom : ∀ lines current, d ∈ declarationsFrom current lines → IsIdentifier d.name := by
    intro lines
    induction lines with
    | nil => exact fun _ h => nomatch h
    | cons line lines ih =>
      obtain ⟨number, state, line⟩ := line
      intro current h
      rw [declarationsFrom] at h
      split at h
      · exact ih current h
      · split at h
        · exact ih _ h
        · rename_i kind name hmeaning
          rcases mem_cons.mp h with rfl | h
          · exact isIdentifier_of_lineMeaning hmeaning
          · exact ih _ h
        · exact ih _ h
  exact hfrom _ _ h

lemma lastSegment_lower_fullName (h : d ∈ declarations content) :
    lastSegment (lower d.fullName) = lower d.name := by
  have hid := isIdentifier_of_mem_declarations h
  unfold Declaration.fullName
  split
  · exact lastSegment_of_isSegment hid.isSegment_lower
  · rw [lower_append, lower_append]
    refine lastSegment_append _ hid.isSegment_lower ?_
    rw [toList_lower, ne_eq, map_eq_nil_iff]
    exact hid.toList_ne_nil

/-! ### Imports -/

lemma normalName_of_notMem (h : '\\' ∉ name.toList) : normalName name = trim name := by
  have hseg : IsSegment (trim name).toList := by
    rw [toList_trim]
    exact ⟨trimmed_trimChars _, fun hc => h (trimChars_subset _ hc)⟩
  calc normalName name = normalName (trim name) := by rw [normalName, normalName, trim_trim]
    _ = trim name := normalName_of_isSegment hseg

@[simp] lemma trim_lastSegment (name : String) : trim (lastSegment name) = lastSegment name := by
  rw [← String.toList_inj, toList_trim]
  exact trimChars_of_trimmed (isSegment_lastSegment name).trimmed

lemma trim_localName_of_importOf? {base : String} {kind : ImportKind} {line : Nat}
    {part : List Char}
    {i : Import} (h : importOf? base kind line part = some i) : trim i.localName = i.localName := by
  -- the alias is the last segment of the name, or a part of the statement that was trimmed
  have halias : ∀ (p : Prop) [Decidable p] (name : String) (s : List Char),
      trim (if p then lastSegment name else String.ofList (trimChars s)) =
        if p then lastSegment name else String.ofList (trimChars s) := by
    intro p _ name s
    split
    · exact trim_lastSegment name
    · rw [trim, String.toList_ofList, trimChars_of_trimmed (trimmed_trimChars s)]
  unfold importOf? at h
  simp only [Option.ite_none_left_eq_some, Option.some.injEq] at h
  obtain ⟨-, -, rfl⟩ := h
  dsimp only
  rw [halias]

lemma trim_localName {i : Import} (h : i ∈ imports content) : trim i.localName = i.localName := by
  obtain ⟨⟨line, statement⟩, -, hi⟩ := mem_flatMap.mp h
  unfold importsOf at hi
  dsimp only at hi
  split at hi
  · cases hi
  · split at hi
    · obtain ⟨part, -, hi⟩ := mem_filterMap.mp hi
      exact trim_localName_of_importOf? hi
    · obtain ⟨part, -, hi⟩ := mem_filterMap.mp hi
      exact trim_localName_of_importOf? hi

namespace ImportIndex

variable {content : List Char} {i : Import} {name : String}

/-- The names of an index that one kind of import goes to. -/
def table (index : ImportIndex) : ImportKind → Table String
  | .classLike => index.classes
  | .function => index.functions
  | .const => index.constants

@[simp] lemma get?_table_add (index : ImportIndex) (i : Import) (kind : ImportKind)
    (name : String) : Table.get? name ((index.add i).table kind) =
      if i.kind = kind ∧ lower i.localName = name then some i.name
      else Table.get? name (index.table kind) := by
  obtain ⟨ikind, iname, localName, line⟩ := i
  cases ikind <;> cases kind <;> simp [add, table]

lemma isSome_get?_ofContent (h : i ∈ imports content) :
    (Table.get? (lower i.localName) ((ofContent content).table i.kind)).isSome := by
  unfold ofContent
  obtain ⟨before, after, heq⟩ := append_of_mem h
  rw [heq, foldl_append, foldl_cons]
  -- an alias that has a name keeps one
  have hkeep : ∀ (items : List Import) (index : ImportIndex),
      (Table.get? (lower i.localName) (index.table i.kind)).isSome →
        (Table.get? (lower i.localName) ((items.foldl add index).table i.kind)).isSome := by
    intro items
    induction items with
    | nil => exact fun _ h => h
    | cons j items ih =>
      intro index h
      refine ih _ ?_
      rw [get?_table_add]
      split
      · rfl
      · exact h
  refine hkeep after _ ?_
  rw [get?_table_add, if_pos ⟨rfl, rfl⟩]
  rfl

lemma lower_normalName_eq (h : i ∈ imports content) (hname : lower i.localName = lower name)
    (hsep : '\\' ∉ name.toList) : lower (normalName name) = lower i.localName := by
  rw [normalName_of_notMem hsep, lower_trim, ← hname, ← lower_trim, trim_localName h]

lemma isSome_class? (h : i ∈ imports content) (hkind : i.kind = .classLike)
    (hname : lower i.localName = lower name)
    (hsep : '\\' ∉ name.toList) : ((ofContent content).class? name).isSome := by
  have hfound := isSome_get?_ofContent h
  rwa [hkind, ← lower_normalName_eq h hname hsep] at hfound

lemma isSome_function? (h : i ∈ imports content) (hkind : i.kind = .function)
    (hname : lower i.localName = lower name)
    (hsep : '\\' ∉ name.toList) : ((ofContent content).function? name).isSome := by
  have hfound := isSome_get?_ofContent h
  rwa [hkind, ← lower_normalName_eq h hname hsep] at hfound

end ImportIndex

end PluginAudit.Source

lemma PluginAudit.Inventory.key_of_isSegment {name : String} (h : Source.IsSegment name.toList) :
    key name = Text.lower name := by
  have hsep : "\\" = String.singleton '\\' := rfl
  have hlead : Text.dropLead "\\" (Text.trim name) = name := by
    rw [← String.toList_inj, hsep, Text.toList_dropLead_singleton, Text.toList_trim,
      Text.trimChars_of_trimmed h.trimmed]
    exact if_neg fun hc => h.notMem (mem_of_head? hc)
  rw [key, hlead]
