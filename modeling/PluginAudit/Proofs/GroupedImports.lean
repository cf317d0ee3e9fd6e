import Mathlib.Data.Bool.AllAny
import PluginAudit.Proofs.DeclaredSymbols
import PluginAudit.Proofs.UseStatements

/-!
Grouped imports. Main statement: a statement with braces means the same as one statement for each
name, and as one with commas, unless labels start or end with white space beyond ASCII, which only a
group trims.
-/

open List

namespace PluginAudit.Source

open Text ImportIndex
open String (ofList toList_inj)

/-! ### Labels and names -/

def isLabelChar (c : Char) : Bool := CharSet.wordChar.mem c || 0x80 ≤ c.toNat

lemma isLabelChar_spec {c : Char} (h : isLabelChar c) :
    isCodeSpace c = false ∧ isUseChar c ∧ c ∉ [',', '\x7d', '\\'] := by
  by_cases hlt : c.toNat < 0x80
  · have hall : ∀ n < 0x80, isLabelChar (Char.ofNat n) → isCodeSpace (Char.ofNat n) = false ∧
        isUseChar (Char.ofNat n) ∧ Char.ofNat n ∉ [',', '\x7d', '\\'] := by
      decide +kernel
    simpa using hall c.toNat hlt (by simpa using h)
  · have hne : ∀ d : Char, d.toNat < 0x80 → c ≠ d := fun d hd heq => hlt (heq ▸ hd)
    refine ⟨?_, by simp [isUseChar, hne], by simp [hne]⟩
    have hval : c.val.toNat = c.toNat := rfl
    simp [isCodeSpace, CharSet.mem, CharSet.space, CharSet.inRanges, Char.le_def,
      UInt32.le_iff_toNat_le]
    omega

def kindWords : List String := ["function", "const"]

/-- One part of a name: neither with white space beyond ASCII at its ends nor, in lower case, a word
for a kind. -/
structure Label where
  text : List Char
  ne_nil : text ≠ []
  isLabelChar : ∀ c ∈ text, isLabelChar c = true
  trimmed : Trimmed text
  not_kind : ∀ word ∈ kindWords, text.map lowerChar ≠ word.toList

/-- A name with the labels of its namespace. -/
structure FullName where
  space : List Label
  last : Label

lemma Label.isSegment (l : Label) : IsSegment l.text :=
  ⟨l.trimmed, fun h => (isLabelChar_spec (l.isLabelChar _ h)).2.2 (by simp)⟩

namespace FullName

def text (n : FullName) : List Char := n.space.flatMap (fun l => l.text ++ ['\\']) ++ n.last.text

def below (base n : FullName) : FullName := ⟨base.space ++ base.last :: n.space, n.last⟩

@[simp] lemma text_below (base n : FullName) :
    (base.below n).text = base.text ++ '\\' :: n.text := by
  simp [text, below]

variable (n : FullName)

lemma exists_first : ∃ (first : Label) (rest : List Char), n.text = first.text ++ rest := by
  obtain ⟨space, last⟩ := n
  cases space with
  | nil => exact ⟨last, [], by simp [text]⟩
  | cons first space => exact ⟨first, _, by simp [text]; rfl⟩

lemma text_ne_nil : n.text ≠ [] := by simp [text, n.last.ne_nil]

lemma ends : n.text.head? ≠ some '\\' ∧ n.text.getLast? ≠ some '\\' ∧ Trimmed n.text := by
  obtain ⟨first, rest, hfirst⟩ := n.exists_first
  have hhead : n.text.head? = first.text.head? := by
    rw [hfirst, head?_append_of_ne_nil _ first.ne_nil]
  have hlast : n.text.getLast? = n.last.text.getLast? := getLast?_append_of_ne_nil _ n.last.ne_nil
  refine ⟨fun h => first.isSegment.notMem ?_, fun h => n.last.isSegment.notMem ?_, ?_, ?_⟩
  · exact mem_of_head? (hhead ▸ h)
  · exact mem_of_getLast? (hlast ▸ h)
  · exact hhead ▸ first.trimmed.head
  · exact hlast ▸ n.last.trimmed.last

lemma char_spec {c : Char} (h : c ∈ n.text) :
    isCodeSpace c = false ∧ isUseChar c ∧ c ∉ [',', '\x7d'] := by
  have hlabel : ∀ l :
      Label, c ∈ l.text → isCodeSpace c = false ∧ isUseChar c ∧ c ∉ [',', '\x7d'] := by
    intro l hl
    obtain ⟨hspace, huse, hmem⟩ := isLabelChar_spec (l.isLabelChar c hl)
    exact ⟨hspace, huse, fun hc => hmem (by simp at hc ⊢; tauto)⟩
  simp only [text, mem_append, mem_flatMap, mem_singleton] at h
  obtain ⟨l, -, h | rfl⟩ | h := h
  · exact hlabel l h
  · decide
  · exact hlabel n.last h

@[simp] lemma normalName_text : normalName (ofList n.text) = ofList n.text := by
  obtain ⟨hhead, hlast, htrimmed⟩ := n.ends
  rw [← toList_inj, toList_normalName]
  simp [trimChars_of_trimmed htrimmed, hhead, hlast]

@[simp] lemma normalName_text_slash : normalName (ofList (n.text ++ ['\\'])) = ofList n.text := by
  obtain ⟨hhead, -, htrimmed⟩ := n.ends
  have hslash : Trimmed (n.text ++ ['\\']) := by
    refine ⟨?_, by simp [isSpace]⟩
    rw [head?_append_of_ne_nil _ n.text_ne_nil]
    exact htrimmed.head
  rw [← toList_inj, toList_normalName]
  simp [trimChars_of_trimmed hslash, head?_append_of_ne_nil _ n.text_ne_nil, hhead]

@[simp] lemma lastSegment_text : lastSegment (ofList n.text) = ofList n.last.text := by
  have hsegment : IsSegment (ofList n.last.text).toList := by simpa using n.last.isSegment
  obtain ⟨space, last⟩ := n
  rcases eq_nil_or_concat space with rfl | ⟨init, l, rfl⟩
  · simpa [text] using lastSegment_of_isSegment hsegment
  · have htext : ofList (text ⟨init.concat l, last⟩) = ofList
          (init.flatMap (fun l => l.text ++ ['\\']) ++ l.text) ++ "\\" ++ ofList last.text := by
      rw [← toList_inj]
      simp [text]
    rw [htext]
    exact lastSegment_append _ hsegment (by simp [last.ne_nil])

lemma map_lowerChar_ne {word : String} (h : word ∈ kindWords) :
    n.text.map lowerChar ≠ word.toList := by
  intro heq
  obtain ⟨space, last⟩ := n
  cases space with
  | nil => exact last.not_kind word h (by simpa [text] using heq)
  | cons l space =>
    have hplain : ∀ word ∈ kindWords, '\\' ∉ word.toList := by decide
    apply hplain word h
    rw [← heq]
    exact mem_map.mpr ⟨'\\', by simp [text], by decide⟩

end FullName

/-! ### Kinds -/

/-- The word for a kind and the blank after it; classes have none. -/
def ImportKind.lead : ImportKind → List Char
  | .classLike => []
  | .function => "function ".toList
  | .const => "const ".toList

lemma ImportKind.lead_spec (kind : ImportKind) :
    ∀ c ∈ kind.lead, isUseChar c ∧ c ∉ [',', '\x7d'] := by
  cases kind <;> exact all_iff_forall_prop.mp (by decide)

lemma ImportKind.head?_lead (kind : ImportKind) :
    ∀ c ∈ kind.lead.head?, isSpace c = false ∧ isCodeSpace c = false := by
  cases kind <;> rintro _ ⟨⟩ <;> decide

lemma dropKeyword?_of_eq {keyword : String} {word : List Char}
    (h : word.map lowerChar = keyword.toList)
    (rest : List Char) : dropKeyword? keyword (word ++ ' ' :: rest) = some (trimChars rest) := by
  have hlength : keyword.length = word.length := by
    rw [← String.length_toList, ← h, length_map]
  simp [dropKeyword?, hlength, h]

lemma exists_of_dropKeyword? {keyword : String} {s rest : List Char}
    (h : dropKeyword? keyword s = some rest) :
    ∃ word after, s = word ++ ' ' :: after ∧ word.map lowerChar = keyword.toList := by
  rw [dropKeyword?] at h
  split_ifs at h with htake
  split at h
  · rename_i after hdrop
    exact ⟨_, after, by rw [← hdrop, take_append_drop], beq_iff_eq.mp htake⟩
  · cases h

lemma dropKeyword?_name (n : FullName) {rest : List Char}
    (hrest : ∀ c ∈ rest.head?, c ∈ [' ', ',', '\\'])
    {word : String} (hword : word ∈ kindWords) : dropKeyword? word (n.text ++ rest) = none := by
  rw [Option.eq_none_iff_forall_ne_some]
  intro after hsome
  obtain ⟨first, after, happend, hfirst⟩ := exists_of_dropKeyword? hsome
  rcases append_eq_append_iff.mp happend with ⟨more, rfl, hmore⟩ | ⟨more, hname, hmore⟩
  · cases more with
    | nil => exact n.map_lowerChar_ne hword (by simpa using hfirst)
    | cons c more =>
      have hc := hrest c (by rw [hmore]; rfl)
      have hmem : lowerChar c ∈ word.toList := by rw [← hfirst]; simp
      have hnot :
          ∀ word ∈ kindWords, ([' ', ',', '\\'].all fun c => lowerChar c ∉ word.toList) := by
        decide
      exact all_iff_forall_prop.mp (hnot word hword) c hc hmem
  · cases more with
    | nil => exact n.map_lowerChar_ne hword (by simpa [hname] using hfirst)
    | cons c more =>
      obtain ⟨rfl, -⟩ := List.cons.inj hmore
      exact absurd (n.char_spec (hname ▸ mem_append_right _ mem_cons_self)).1 (by decide)

section Kinds

variable (n : FullName) {rest part : List Char} (hrest : ∀ c ∈ rest.head?, c ∈ [' ', ',', '\\'])
include hrest

lemma splitKind_name (kind : ImportKind) (h : trimChars part = n.text ++ rest) :
    splitKind kind part = (kind, n.text ++ rest) := by
  rw [splitKind, h, dropKeyword?_name n hrest (by decide), dropKeyword?_name n hrest (by decide)]

lemma splitKind_lead (kind : ImportKind) (htrimmed : Trimmed (n.text ++ rest))
    (h : trimChars part = kind.lead ++ (n.text ++ rest)) :
    splitKind .classLike part = (kind, n.text ++ rest) := by
  have hword : ∀ word : String, word.toList.map lowerChar = word.toList →
      dropKeyword? word (word.toList ++ ' ' :: (n.text ++ rest)) = some (n.text ++ rest) :=
    fun word hword =>
    (dropKeyword?_of_eq hword _).trans (congrArg some (trimChars_of_trimmed htrimmed))
  cases kind with
  | classLike => exact splitKind_name n hrest _ h
  | function =>
    have h' : trimChars part = "function".toList ++ ' ' :: (n.text ++ rest) := h
    rw [splitKind, h', hword "function" (by decide)]
  | const =>
    have h' : trimChars part = "const".toList ++ ' ' :: (n.text ++ rest) := h
    have hnone : dropKeyword? "function" ("const".toList ++ ' ' :: (n.text ++ rest)) = none := rfl
    rw [splitKind, h', hnone, hword "const" (by decide)]

end Kinds

/-! ### Members -/

/-- One name of an import, with its kind and its alias if it has one. -/
structure Member where
  kind : ImportKind
  name : FullName
  localName? : Option Label

namespace Member

def aliasPart (m : Member) : List Char :=
  (m.localName?.map fun l => " as ".toList ++ l.text).getD []

def entry (m : Member) : List Char := m.name.text ++ m.aliasPart

def text (m : Member) : List Char := m.kind.lead ++ m.entry

def localLabel (m : Member) : Label := m.localName?.getD m.name.last

def below (base : FullName) (m : Member) : Member := { m with name := base.below m.name }

def toImport (m : Member) (line : Nat) : Import :=
  ⟨m.kind, ofList m.name.text, ofList m.localLabel.text, line⟩

variable (m : Member)

lemma head?_aliasPart : ∀ c ∈ m.aliasPart.head?, c ∈ [' ', ',', '\\'] := by
  obtain ⟨kind, name, _ | l⟩ := m <;> simp [aliasPart]

lemma entry_ne_nil : m.entry ≠ [] := by simp [entry, m.name.text_ne_nil]

lemma char_spec_entry {c : Char} (h : c ∈ m.entry) : isUseChar c ∧ c ∉ [',', '\x7d'] := by
  rcases mem_append.mp h with h | h
  · exact (m.name.char_spec h).2
  · obtain ⟨kind, name, _ | l⟩ := m
    · cases h
    · rcases mem_append.mp h with h | h
      · have hall : ∀ c ∈ " as ".toList, isUseChar c ∧ c ∉ [',', '\x7d'] :=
          all_iff_forall_prop.mp (by decide)
        exact hall c h
      · obtain ⟨-, huse, hmem⟩ := isLabelChar_spec (l.isLabelChar c h)
        exact ⟨huse, fun hc => hmem (by simp at hc ⊢; tauto)⟩

lemma trimmed_entry : Trimmed m.entry := by
  obtain ⟨-, -, htrimmed⟩ := m.name.ends
  obtain ⟨kind, name, _ | l⟩ := m
  · simpa [entry, aliasPart] using htrimmed
  · refine ⟨?_, ?_⟩
    · rw [entry, head?_append_of_ne_nil _ name.text_ne_nil]
      exact htrimmed.head
    · rw [entry, aliasPart, Option.map_some, Option.getD_some, ← append_assoc,
        getLast?_append_of_ne_nil _ l.ne_nil]
      exact l.trimmed.last

end Member

lemma splitAlias_append {name : List Char} (h : ∀ c ∈ name, isCodeSpace c = false)
    (past rest : List Char) :
    splitAlias past (name ++ rest) = splitAlias (name.reverse ++ past) rest := by
  induction name generalizing past with
  | nil => rfl
  | cons c name ih =>
    obtain ⟨hc, hname⟩ := forall_mem_cons.mp h
    have hnone : afterAs? (c :: (name ++ rest)) = none := by simp [afterAs?, hc]
    rw [cons_append, splitAlias, hnone]
    simpa using ih hname (c :: past)

@[simp] lemma splitAlias_entry (m : Member) :
    splitAlias [] m.entry = (m.name.text, (m.localName?.map (·.text)).getD []) := by
  have hspace : ∀ l : Label, ∀ c ∈ l.text, isCodeSpace c = false := fun l c hc =>
    (isLabelChar_spec (l.isLabelChar c hc)).1
  rw [Member.entry, splitAlias_append fun c hc => (m.name.char_spec hc).1]
  obtain ⟨kind, name, _ | l⟩ := m
  · simp [Member.aliasPart, splitAlias]
  · have hdrop : l.text.dropWhile isCodeSpace = l.text :=
      (takeWhile_of_head fun c hc => hspace l c (mem_of_head? hc)).2
    have hafter : afterAs? (" as ".toList ++ l.text) = some l.text := by
      have hblank : isCodeSpace ' ' := by decide
      have ha : isCodeSpace 'a' = false := by decide
      simp [afterAs?, hdrop, hblank, ha]
      decide
    have hcons : " as ".toList ++ l.text = ' ' :: ("as ".toList ++ l.text) := rfl
    rw [Member.aliasPart, Option.map_some, Option.getD_some, hcons, splitAlias, ← hcons, hafter]
    simp

section Imports

variable (m : Member) {kind found : ImportKind} {part : List Char}

lemma importOf?_of_splitKind {base : String} {full : FullName}
    (hkind : splitKind kind part = (found, m.entry))
    (hfull : (if base != "" && ofList m.name.text != "" then base ++ "\\" ++ ofList m.name.text
      else ofList m.name.text) = ofList full.text) (hlast : full.last = m.name.last) (line : Nat) :
    importOf? base kind line part = some ⟨found, ofList full.text, ofList m.localLabel.text,
      line⟩ := by
  obtain ⟨-, -, htrimmed⟩ := m.name.ends
  have hne : ∀ {s : List Char}, s ≠ [] → ofList s ≠ "" := by
    intro s hs heq
    exact hs (by simpa using congrArg String.toList heq)
  have hlocal : (if ofList (trimChars ((m.localName?.map (·.text)).getD [])) = "" then
        ofList m.name.last.text
      else ofList (trimChars ((m.localName?.map (·.text)).getD []))) =
        ofList m.localLabel.text := by
    obtain ⟨kind, name, _ | l⟩ := m
    · rfl
    · exact (if_neg (hne (by simpa [trimChars_of_trimmed l.trimmed] using l.ne_nil))).trans
        (congrArg _ (trimChars_of_trimmed l.trimmed))
  rw [importOf?, hkind]
  simp only [trimChars_of_trimmed m.trimmed_entry, splitAlias_entry, trimChars_of_trimmed htrimmed,
    hfull,
    full.normalName_text, if_neg (hne full.text_ne_nil), full.lastSegment_text, hlast, hlocal,
    if_neg (hne m.localLabel.ne_nil)]

lemma importOf?_below (base : FullName) (hkind : splitKind kind part = (m.kind, m.entry))
    (line : Nat) :
    importOf? (ofList base.text) kind line part = some ((m.below base).toImport line) := by
  have hfull : (if ofList base.text != "" && ofList m.name.text != "" then
        ofList base.text ++ "\\" ++ ofList m.name.text
      else ofList m.name.text) = ofList (base.below m.name).text := by
    rw [← toList_inj]
    simp [base.text_ne_nil, m.name.text_ne_nil]
  exact importOf?_of_splitKind m hkind hfull rfl line

lemma importOf?_flat (hkind : splitKind kind part = (m.kind, m.entry)) (line : Nat) :
    importOf? "" kind line part = some (m.toImport line) :=
  importOf?_of_splitKind m hkind (by simp) rfl line

lemma importOf?_blank (base : String) {blank : List Char} (h : trimChars blank = []) (line : Nat) :
    importOf? base kind line blank = none := by
  have hkind : splitKind kind blank = (kind, []) := by rw [splitKind, h]; rfl
  have hempty : normalName "" = "" := by decide
  rw [importOf?, hkind]
  simp [splitAlias, trimChars_of_trimmed (trimmed_of_forall (forall_mem_nil _)), hempty]

end Imports

/-! ### Statements -/

lemma useAt?_eq {t tail braces rest : List Char} {stop : Char} (hne : t ≠ [])
    (hhead : ∀ c ∈ t.head?, isCodeSpace c = false) (huse : ∀ c ∈ t, isUseChar c)
    (hstop : isUseChar stop = false) (htail : useTail? (stop :: tail) = some (braces, rest)) :
    useAt? ("use ".toList ++ (t ++ stop :: tail)) = some ⟨"use ".toList, t ++ braces, rest⟩ := by
  obtain ⟨c, t, rfl⟩ := exists_cons_of_ne_nil hne
  have hc : isCodeSpace c = false := hhead c rfl
  have hblank : isCodeSpace ' ' ∧ isUseChar ' ' ∧ isCodeSpace 'u' = false := by decide
  have hrun : (' ' :: (c :: t ++ stop :: tail)).takeWhile isUseChar = ' ' :: c :: t ∧
      (' ' :: (c :: t ++ stop :: tail)).dropWhile isUseChar = stop :: tail := by
    have hall : ∀ d ∈ ' ' :: c :: t, isUseChar d := forall_mem_cons.mpr ⟨hblank.2.1, huse⟩
    have h := takeWhile_of_head (p := isUseChar) (s := stop :: tail) (by simpa using hstop)
    rw [← cons_append, takeWhile_append_of_pos hall, dropWhile_append_of_pos hall, h.1, h.2]
    simp
  have hgap : (' ' :: c :: t).dropLast.takeWhile isCodeSpace = [' '] := by
    rw [dropLast_cons_of_ne_nil (cons_ne_nil _ _), takeWhile_cons_of_pos hblank.1]
    cases t <;> simp [hc]
  have hcons : "use ".toList ++ (c :: t ++ stop :: tail) =
      'u' :: 's' :: 'e' :: ' ' :: (c :: t ++ stop :: tail) := rfl
  have hstart : ∀ rest : List Char, ('u' :: rest).takeWhile isCodeSpace = [] ∧
      ('u' :: rest).dropWhile isCodeSpace = 'u' :: rest :=
    fun rest => takeWhile_of_head (by simpa using hblank.2.2)
  rw [hcons, useAt?, (hstart _).1, (hstart _).2]
  simp only [hrun.1, hrun.2, hgap, htail]
  rfl

/-! ### Flat statements -/

def flatText (kind : ImportKind) (members : List Member) : List Char :=
  kind.lead ++ ", ".toList.intercalate (members.map (·.entry))

section Flat

variable {kind : ImportKind} (m : Member) (members : List Member)

def afterName : List Char := m.aliasPart ++ members.flatMap fun m => ", ".toList ++ m.entry

lemma intercalate_entry : ", ".toList.intercalate ((m :: members).map (·.entry)) =
      m.name.text ++ afterName m members := by
  rw [map_cons, intercalate_cons, flatMap_map, Member.entry, afterName, append_assoc]

lemma intercalate_comma : [','].intercalate (m.entry :: members.map (' ' :: ·.entry)) =
      m.name.text ++ afterName m members := by
  rw [intercalate_cons, flatMap_map, Member.entry, afterName, append_assoc]
  rfl

lemma head?_afterName : ∀ c ∈ (afterName m members).head?, c ∈ [' ', ',', '\\'] := by
  obtain ⟨kind, name, _ | l⟩ := m
  · cases members <;> simp [afterName, Member.aliasPart]
  · simp [afterName, Member.aliasPart]

lemma isUseChar_flat : ∀ c ∈ m.name.text ++ afterName m members, isUseChar c := by
  intro c hc
  rw [← intercalate_entry] at hc
  rcases mem_intercalate hc with hc | ⟨part, hpart, hc⟩
  · exact (by simp [isUseChar] : ∀ c ∈ ", ".toList, isUseChar c) c hc
  · obtain ⟨other, -, rfl⟩ := mem_map.mp hpart
    exact (other.char_spec_entry hc).1

lemma trimmed_flat (kind : ImportKind) :
    Trimmed (kind.lead ++ (m.name.text ++ afterName m members)) := by
  have hne : m.name.text ++ afterName m members ≠ [] := by simp [m.name.text_ne_nil]
  refine ⟨?_, ?_⟩
  · rw [head?_append, head?_append_of_ne_nil _ m.name.text_ne_nil]
    cases hhead : kind.lead.head? with
    | none => exact m.name.ends.2.2.head
    | some c => simpa using (kind.head?_lead c hhead).1
  · rw [getLast?_append_of_ne_nil _ hne, ← intercalate_comma, intercalate_cons]
    rcases eq_nil_or_concat members with rfl | ⟨init, last, rfl⟩
    · simpa using m.trimmed_entry.last
    · have hlast : m.entry ++ ((init.concat last).map (' ' :: ·.entry)).flatMap ([','] ++ ·) =
          m.entry ++ (init.map (' ' :: ·.entry)).flatMap ([','] ++ ·) ++ ", ".toList ++
            last.entry := by
        simp
      rw [hlast, getLast?_append_of_ne_nil _ last.entry_ne_nil]
      exact last.trimmed_entry.last

lemma importsOf_flat (line : Nat) (hkind : ∀ other ∈ m :: members, other.kind = kind) :
    importsOf line (flatText kind (m :: members)) = (m :: members).map (·.toImport line) := by
  have htext :
      flatText kind (m :: members) = kind.lead ++ (m.name.text ++ afterName m members) := by
    rw [flatText, intercalate_entry]
  have htrim := trimChars_of_trimmed (trimmed_flat m members kind)
  have hsplit : splitKind .classLike (kind.lead ++ (m.name.text ++ afterName m members)) = _ :=
    splitKind_lead m.name (head?_afterName m members) kind (trimmed_flat m members .classLike) htrim
  have hgroup : groupParts? (m.name.text ++ afterName m members) = none := by
    have hdrop : (m.name.text ++ afterName m members).dropWhile (· != '\x7b') = [] := by
      rw [dropWhile_eq_nil_iff]
      intro c hc
      have huse := isUseChar_flat m members c hc
      simp [isUseChar] at huse
      simp [huse]
    rw [groupParts?, hdrop]
  have hcomma : ∀ part ∈ m.entry :: members.map (' ' :: ·.entry), ',' ∉ part := by
    have hentry : ∀ m : Member, ',' ∉ m.entry := fun m hc => (m.char_spec_entry hc).2 (by decide)
    simp [hentry]
  rw [htext, importsOf, htrim, hsplit]
  simp only [hgroup]
  rw [if_neg (by simp [m.name.text_ne_nil]), ← intercalate_comma,
    splitOnChar_intercalate (cons_ne_nil _ _) hcomma]
  have himport : ∀ other ∈ m :: members, ∀ part, trimChars part = other.entry →
      importOf? "" kind line part = some (other.toImport line) := by
    intro other hmem part hpart
    refine importOf?_flat other ?_ line
    rw [splitKind_name other.name other.head?_aliasPart kind hpart, hkind other hmem]
    rfl
  rw [filterMap_cons_some (himport m mem_cons_self _ (trimChars_of_trimmed m.trimmed_entry)),
    map_cons, filterMap_map]
  have htrimmed : ∀ other : Member, trimChars (' ' :: other.entry) = other.entry := by
    intro other
    have hblank : ∀ c ∈ [' '], isSpace c := all_eq_true.mp (by decide)
    have h := trimChars_append other.trimmed_entry other.entry_ne_nil hblank (forall_mem_nil _)
    rwa [append_nil] at h
  rw [← filterMap_eq_map, filterMap_congr (g := some ∘ fun m => m.toImport line)]
  intro other hmem
  rw [Function.comp_apply, himport other (mem_cons_of_mem _ hmem) _ (htrimmed other)]
  rfl

lemma useAt?_flat (kind : ImportKind) (rest : List Char) :
    useAt? ("use ".toList ++ (flatText kind (m :: members) ++ ';' :: rest)) =
      some ⟨"use ".toList, flatText kind (m :: members), rest⟩ := by
  have htext :
      flatText kind (m :: members) = kind.lead ++ (m.name.text ++ afterName m members) := by
    rw [flatText, intercalate_entry]
  rw [htext]
  refine (useAt?_eq (by simp [m.name.text_ne_nil]) ?_ ?_ (by decide) rfl).trans (by rw [append_nil])
  · rw [head?_append, head?_append_of_ne_nil _ m.name.text_ne_nil]
    cases hhead : kind.lead.head? with
    | none => exact fun c hc => (m.name.char_spec (mem_of_head? hc)).1
    | some c => simpa using (kind.head?_lead c hhead).2
  · exact forall_mem_append.mpr ⟨fun c hc => (kind.lead_spec c hc).1, isUseChar_flat m members⟩

end Flat

def flatLines (members : List Member) : List Char :=
  members.flatMap fun m => "use ".toList ++ (m.text ++ ";\n".toList)

def flatList (kind : ImportKind) (members : List Member) : List Char :=
  "use ".toList ++ (flatText kind members ++ [';'])

def indexOf (members : List Member) : ImportIndex :=
  members.foldl (fun index m => index.add (m.toImport 0)) {}

lemma ofContent_eq_indexOf {content : List Char} {members : List Member}
    (h : (imports content).map ({ · with line := 0 }) = members.map (·.toImport 0)) :
    ofContent content = indexOf members := by
  have hline :
      ofContent content = ((imports content).map ({ · with line := 0 })).foldl .add {} := by
    rw [foldl_map]
    rfl
  rw [hline, h, foldl_map, indexOf]

lemma map_statements_flatLines (number : Nat) (members : List Member) :
    ((statements number true (flatLines members)).flatMap fun s =>
      importsOf s.1 s.2).map ({ · with line := 0 }) = members.map (·.toImport 0) := by
  induction members generalizing number with
  | nil => rfl
  | cons m members ih =>
    have htext : m.text = flatText m.kind [m] := by simp [Member.text, flatText]
    have hflat : flatLines (m :: members) =
        "use ".toList ++ (flatText m.kind [m] ++ ';' :: '\n' :: flatLines members) := by
      simp [flatLines, ← htext]
    have hnext : ∀ number, statements number false ('\n' :: flatLines members) =
        statements (number + 1) true (flatLines members) := fun number =>
      useStatements_cons (fun h => by cases h) _
    have htaken : flatLines (m :: members) =
        "use ".toList ++ flatText m.kind [m] ++ [';'] ++ '\n' :: flatLines members := by
      simp [hflat]
    rw [statements_of_useAt? (hflat ▸ useAt?_flat m [] m.kind _) htaken, hnext, flatMap_cons,
      map_append, ih, importsOf_flat m [] _ (by simp)]
    rfl

lemma ofContent_flatLines (members : List Member) :
    ofContent (flatLines members) = indexOf members :=
  ofContent_eq_indexOf (map_statements_flatLines 1 members)

lemma ofContent_of_useAt? {content body : List Char} {members : List Member}
    (huse : useAt? content = some ⟨"use ".toList, body, []⟩)
    (h : importsOf 1 body = members.map (·.toImport 1)) : ofContent content = indexOf members := by
  have hstatements : statements 1 true content = [(1, body)] := by
    rw [statements_of_useAt? huse (append_nil _).symm]
    rfl
  have himports :
      imports content = (statements 1 true content).flatMap fun s => importsOf s.1 s.2 := rfl
  refine ofContent_eq_indexOf ?_
  rw [himports, hstatements, flatMap_singleton, h, map_map]
  rfl

lemma ofContent_flatList {kind : ImportKind} {members : List Member} (hne : members ≠ [])
    (hkind : ∀ m ∈ members, m.kind = kind) :
    ofContent (flatList kind members) = indexOf members := by
  obtain ⟨m, members, rfl⟩ := exists_cons_of_ne_nil hne
  exact ofContent_of_useAt? (useAt?_flat m members kind []) (importsOf_flat m members 1 hkind)

/-! ### Groups -/

/-- White space. -/
structure Blank where
  text : List Char
  isSpace : ∀ c ∈ text, isSpace c = true

lemma Blank.char_spec (b : Blank) {c : Char} (h : c ∈ b.text) : c ∉ [',', '\x7d'] := by
  have hall : ∀ c ∈ [',', '\x7d'], Text.isSpace c = false := all_iff_forall_prop.mp (by decide)
  intro hc
  exact Bool.false_ne_true ((hall c hc).symm.trans (b.isSpace c h))

@[simp] lemma Blank.trimChars_text (b : Blank) : trimChars b.text = [] := by
  rw [trimChars_eq, dropWhile_eq_nil_iff.mpr b.isSpace, rdropWhile_nil]

/-- A member with white space around it. -/
structure Placed where
  before : Blank
  member : Member
  after : Blank

def Placed.text (p : Placed) : List Char := p.before.text ++ (p.member.text ++ p.after.text)

namespace Placed

variable (p : Placed)

lemma char_spec {c : Char} (h : c ∈ p.text) : c ∉ [',', '\x7d'] := by
  simp only [text, Member.text, mem_append] at h
  obtain h | (h | h) | h := h
  · exact p.before.char_spec h
  · exact (p.member.kind.lead_spec c h).2
  · exact (p.member.char_spec_entry h).2
  · exact p.after.char_spec h

lemma importOf?_text (base : FullName) (line : Nat) : importOf? (ofList base.text) .classLike line
      p.text = some ((p.member.below base).toImport line) := by
  have htrimmed : Trimmed p.member.text := by
    have h := trimmed_flat p.member [] p.member.kind
    rwa [afterName, flatMap_nil, append_nil] at h
  have hne : p.member.text ≠ [] := by simp [Member.text, p.member.entry_ne_nil]
  have htext : trimChars p.text = p.member.text :=
    trimChars_append htrimmed hne p.before.isSpace p.after.isSpace
  exact importOf?_below p.member base
    (splitKind_lead p.member.name p.member.head?_aliasPart _ p.member.trimmed_entry htext) line

end Placed

/-- Members of one namespace between braces, possibly with a comma and white space after the
last. -/
structure Group where
  base : FullName
  placed : List Placed
  trailing? : Option Blank

namespace Group

variable (g : Group)

def parts : List (List Char) := g.placed.map (·.text) ++ g.trailing?.toList.map (·.text)

def inside : List Char := [','].intercalate g.parts

def body : List Char := g.base.text ++ ['\\'] ++ '\x7b' :: (g.inside ++ ['\x7d'])

def text : List Char := "use ".toList ++ (g.body ++ [';'])

def members : List Member := g.placed.map fun p => p.member.below g.base

lemma parts_spec {part : List Char} (h : part ∈ g.parts) : ∀ c ∈ part, c ∉ [',', '\x7d'] := by
  rcases mem_append.mp h with h | h
  · obtain ⟨p, -, rfl⟩ := mem_map.mp h
    exact fun c => p.char_spec
  · obtain ⟨b, -, rfl⟩ := mem_map.mp h
    exact fun c => b.char_spec

lemma notMem_inside : '\x7d' ∉ g.inside := by
  intro hmem
  rcases mem_intercalate hmem with hmem | ⟨part, hpart, hmem⟩
  · exact absurd hmem (by decide)
  · exact g.parts_spec hpart _ hmem (by decide)

@[simp] lemma useAt?_text : useAt? g.text = some ⟨"use ".toList, g.body, []⟩ := by
  have hinside : ∀ c ∈ g.inside, (c != '\x7d') := fun c hc => by
    simpa using fun heq : c = '\x7d' => g.notMem_inside (heq ▸ hc)
  have htail : useTail? ('\x7b' :: (g.inside ++ ['\x7d', ';'])) =
      some ('\x7b' :: (g.inside ++ ['\x7d']), []) := by
    rw [useTail?, takeWhile_append_of_pos hinside, dropWhile_append_of_pos hinside]
    have hcode : isCodeSpace ';' = false := by decide
    simp [hcode]
  have hhead : ∀ c ∈ (g.base.text ++ ['\\']).head?, isCodeSpace c = false := by
    intro c hc
    rw [head?_append_of_ne_nil _ g.base.text_ne_nil] at hc
    exact (g.base.char_spec (mem_of_head? hc)).1
  have huse : ∀ c ∈ g.base.text ++ ['\\'], isUseChar c := by
    intro c hc
    rcases mem_append.mp hc with hc | hc
    · exact (g.base.char_spec hc).2.1
    · obtain rfl := mem_singleton.mp hc
      decide
  have htext : g.text =
      "use ".toList ++ (g.base.text ++ ['\\'] ++ '\x7b' :: (g.inside ++ ['\x7d', ';'])) := by
    simp [text, body]
  rw [htext]
  exact useAt?_eq (by simp) hhead huse (by decide) htail

@[simp] lemma groupParts?_body : groupParts? g.body = some (g.base.text ++ ['\\'], g.inside) := by
  have hbase : ∀ c ∈ g.base.text ++ ['\\'], (c != '\x7b') := by
    intro c hc
    rcases mem_append.mp hc with hc | hc
    · have huse := (g.base.char_spec hc).2.1
      simp [isUseChar] at huse
      simp [huse]
    · obtain rfl := mem_singleton.mp hc
      decide
  have hlast : beforeLastBrace? (g.inside ++ ['\x7d']) = some g.inside := by simp [beforeLastBrace?]
  rw [groupParts?, body, takeWhile_append_of_pos hbase, dropWhile_append_of_pos hbase]
  simp [hlast]

lemma filterMap_parts (line : Nat) : (splitOnChar ',' g.inside).filterMap
    (importOf? (ofList g.base.text) .classLike line) = g.members.map (·.toImport line) := by
  have hblank : (g.trailing?.toList.map (·.text)).filterMap
      (importOf? (ofList g.base.text) .classLike line) = [] := by
    rw [filterMap_eq_nil_iff]
    intro part hpart
    obtain ⟨b, -, rfl⟩ := mem_map.mp hpart
    exact importOf?_blank _ b.trimChars_text line
  have hsplit :
      (splitOnChar ',' g.inside).filterMap (importOf? (ofList g.base.text) .classLike line) =
      g.parts.filterMap (importOf? (ofList g.base.text) .classLike line) := by
    by_cases hnil : g.parts = []
    · rw [inside, hnil]
      exact filterMap_cons_none (importOf?_blank _ rfl line)
    · rw [inside, splitOnChar_intercalate hnil fun part hpart hc =>
        g.parts_spec hpart _ hc (by decide)]
  rw [hsplit, parts, filterMap_append, hblank, append_nil, filterMap_map, members,
    map_map, ← filterMap_eq_map]
  refine filterMap_congr fun p _ => ?_
  rw [Function.comp_apply, p.importOf?_text]
  rfl

@[simp] lemma importsOf_body (line : Nat) :
    importsOf line g.body = g.members.map (·.toImport line) := by
  have hbody : g.body = g.base.text ++ '\\' :: '\x7b' :: (g.inside ++ ['\x7d']) := by simp [body]
  have htrimmed : Trimmed g.body := by
    refine ⟨?_, ?_⟩
    · rw [hbody, head?_append_of_ne_nil _ g.base.text_ne_nil]
      exact g.base.ends.2.2.head
    · have hlast : g.body.getLast? = some '\x7d' := by
        rw [body, ← cons_append, ← append_assoc, getLast?_concat]
      rw [hlast]
      rintro _ ⟨⟩
      decide
  have htrim := trimChars_of_trimmed htrimmed
  have hkind : splitKind .classLike g.body = (.classLike, g.body) := by
    have hrest : ∀ c ∈ ('\\' :: '\x7b' :: (g.inside ++ ['\x7d'])).head?, c ∈ [' ', ',', '\\'] := by
      simp
    have h := splitKind_name g.base hrest .classLike (htrim.trans hbody)
    rwa [← hbody] at h
  rw [importsOf, htrim, hkind]
  simp only [g.groupParts?_body, g.base.normalName_text_slash, g.filterMap_parts]
  exact if_neg (by simp [hbody])

@[simp] lemma ofContent_text : ofContent g.text = indexOf g.members :=
  ofContent_of_useAt? g.useAt?_text (g.importsOf_body 1)

/-- The full name of the last member of a kind that a label stands for, whatever the case of its
letters. -/
def last? (kind : ImportKind) (l : Label) : Option String :=
  (g.placed.reverse.find? fun p => p.member.kind == kind &&
    lower (ofList p.member.localLabel.text) == lower (ofList l.text)).map
      fun p => ofList (g.base.text ++ '\\' :: p.member.name.text)

end Group

lemma get?_indexOf (members : List Member) (kind : ImportKind) (key : String) :
    Table.get? key ((indexOf members).table kind) =
      (members.reverse.find? fun m => m.kind == kind && lower (ofList m.localLabel.text) == key).map
        fun m => ofList m.name.text := by
  induction members using List.reverseRecOn with
  | nil => cases kind <;> rfl
  | append_singleton members m ih =>
    have hadd : indexOf (members ++ [m]) = (indexOf members).add (m.toImport 0) := by
      rw [indexOf, foldl_concat, ← indexOf]
    rw [hadd, get?_table_add, ih, reverse_concat, find?_cons]
    by_cases h : m.kind = kind ∧ lower (ofList m.localLabel.text) = key
    · simp [Member.toImport, h]
    · have hfalse : (m.kind == kind && lower (ofList m.localLabel.text) == key) = false := by
        simpa using h
      rw [hfalse]
      exact if_neg h

lemma Group.get?_ofContent (g : Group) (kind : ImportKind) (l : Label) :
    Table.get? (lower (normalName (ofList l.text))) ((ofContent g.text).table kind) =
      g.last? kind l := by
  have hname : normalName (ofList l.text) = ofList l.text :=
    normalName_of_isSegment (by simpa using l.isSegment)
  have hbelow : (fun m : Member => ofList m.name.text) ∘ (fun p : Placed => p.member.below g.base) =
      fun p => ofList (g.base.text ++ '\\' :: p.member.name.text) :=
    funext fun p => congrArg ofList (g.base.text_below p.member.name)
  rw [hname, ofContent_text, get?_indexOf, last?, members, ← map_reverse, find?_map, Option.map_map,
    hbelow]
  rfl

/-- A group means the same as one statement for each of its members and, if they are of one kind, as
one statement for all. A label stands for the last member that has it as its alias, or as its last
label if it has no alias. -/
theorem grouped_imports_eq_flat (g : Group) :
    ImportIndex.ofContent g.text = ImportIndex.ofContent (flatLines g.members) ∧
      (∀ kind, g.members ≠ [] → (∀ m ∈ g.members, m.kind = kind) →
        ImportIndex.ofContent g.text = ImportIndex.ofContent (flatList kind g.members)) ∧
      ∀ l :
        Label, (ImportIndex.ofContent g.text).class? (String.ofList l.text) = g.last? .classLike l ∧
        (ImportIndex.ofContent g.text).function? (String.ofList l.text) = g.last? .function l := by
  refine ⟨?_, fun kind hne hkind => ?_, fun l =>
    ⟨g.get?_ofContent .classLike l, g.get?_ofContent .function l⟩⟩
  · rw [g.ofContent_text, ofContent_flatLines]
  · rw [g.ofContent_text, ofContent_flatList hne hkind]

def Label.ofText (text : List Char) (hne : text ≠ []) (hchar : text.all Source.isLabelChar = true)
    (hspace : text.all (! isSpace ·) = true)
    (hkind : ∀ word ∈ kindWords, text.map lowerChar ≠ word.toList) : Label where
  text := text
  ne_nil := hne
  isLabelChar := all_eq_true.mp hchar
  trimmed := trimmed_of_forall (by simpa using hspace)
  not_kind := hkind

def cartLabel : Label := .ofText "Cart".toList (by decide) (by decide) (by decide) (by decide)

def basketLabel : Label := .ofText "Basket".toList (by decide) (by decide) (by decide) (by decide)

def Blank.ofText (text : List Char) (h : text.all Text.isSpace = true) : Blank :=
  ⟨text, all_eq_true.mp h⟩

/-- Two members of a namespace, the second with the name of the first for an alias. -/
def cartGroup : Group where
  base := ⟨[], .ofText "Shop".toList (by decide) (by decide) (by decide) (by decide)⟩
  placed :=
    [ ⟨.ofText "\n  ".toList (by decide), ⟨.classLike, ⟨[], cartLabel⟩, none⟩, .ofText [] rfl⟩,
    ⟨.ofText "\n  ".toList (by decide), ⟨.classLike, ⟨[cartLabel], basketLabel⟩, some cartLabel⟩,
      .ofText [' '] (by decide)⟩]
  trailing? := some (.ofText ['\n'] (by decide))

theorem grouped_imports_eq_flat_cart :
    cartGroup.text = "use Shop\\\x7b\n  Cart,\n  Cart\\Basket as Cart ,\n\x7d;".toList ∧
      cartGroup.members ≠ [] ∧ (∀ m ∈ cartGroup.members, m.kind = .classLike) ∧
      ImportIndex.ofContent cartGroup.text =
        ImportIndex.ofContent (flatList .classLike cartGroup.members) ∧
      (ImportIndex.ofContent cartGroup.text).class? "Cart" = some "Shop\\Cart\\Basket" := by
  have hne : cartGroup.members ≠ [] := by simp [cartGroup, Group.members]
  have hkind : ∀ m ∈ cartGroup.members, m.kind = .classLike := by
    simp [cartGroup, Group.members, Member.below]
  obtain ⟨-, hlist, hlast⟩ := grouped_imports_eq_flat cartGroup
  exact ⟨by decide +kernel, hne, hkind, hlist _ hne hkind,
    (hlast cartLabel).1.trans (by decide +kernel)⟩

/-- A label that is a word for a kind only in lower case loses its alias in a group, and one that
starts with white space beyond ASCII is cut there. -/
theorem grouped_imports_ne_flat :
    ImportIndex.ofContent "use B\\\x7bfunct\u0130on as X\x7d;".toList ≠
        ImportIndex.ofContent "use B\\funct\u0130on as X;\n".toList ∧
      (ImportIndex.ofContent "use B\\\x7bfunct\u0130on as X\x7d;".toList).class? "X" = none ∧
      (ImportIndex.ofContent "use B\\funct\u0130on as X;\n".toList).class? "X" =
        some "B\\funct\u0130on" ∧
      ImportIndex.ofContent "use B\\\x7b\u00a0Foo\x7d;".toList ≠
        ImportIndex.ofContent "use B\\\u00a0Foo;\n".toList := by
  decide +kernel

end PluginAudit.Source
