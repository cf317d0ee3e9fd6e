import PluginAudit.Json.Writer
import PluginAudit.Proofs.JsonGrammar
import PluginAudit.Proofs.Utf8

/-!
A document that is written and read again is the same document, on one line as over several ones.
Both ways of writing are one with different gaps between the parts.
-/

open List

namespace PluginAudit.Json

open String (toList toList_intercalate singleton)

variable {j : Json}

/-! ### Strings -/

lemma hexValue?_hexDigit {n : Nat} (h : n < 16) : hexValue? (Text.hexDigit n) = some n := by
  have hall : ∀ n < 16, hexValue? (Text.hexDigit n) = some n := by decide
  exact hall n h

lemma fourHex?_hexDigits {n : Nat} (h : n < 0x10000) (rest : List Char) :
    fourHex? (Text.hexDigits 4 n ++ rest) = some (n, rest) := by
  simp only [Text.hexDigits, nil_append, cons_append, fourHex?,
    hexValue?_hexDigit (Nat.mod_lt _ (by omega : 0 < 16)), Option.bind_eq_bind, Option.bind_some,
    Option.some.injEq, Prod.mk.injEq, and_true]
  omega

@[simp] lemma escapedUnit_toNat (c : Char) (rest : List Char) :
    escapedUnit c.toNat rest = (c, rest) := by
  have hvalid := Text.toNat_char_valid c
  rw [escapedUnit, if_neg (by omega), if_neg (by omega), Char.ofNat_toNat]

@[simp] lemma readString_writeChar (fuel : Nat) (past : List Char) (c : Char) (rest : List Char) :
    readString (fuel + 1) past (writeChar c ++ rest) = readString fuel (c :: past) rest := by
  have hback {n : Nat} (h : c.toNat = n) : c = Char.ofNat n := by rw [← h, Char.ofNat_toNat]
  simp only [writeChar]
  split_ifs with h1 h2 h3 h4 h5 h6 h7 h8
  iterate 2 subst c; simp [readString, escape?]
  iterate 5
    rw [hback ‹_›]
    simp [readString, escape?]
  · have hlt : c.toNat < 0x10000 := by
      rcases h8 with h | rfl | rfl | rfl | h | h <;> first | omega | decide
    have hhex := fourHex?_hexDigits hlt rest
    simp only [cons_append, nil_append]
    rw [readString]
    simp [escape?, hhex]
  · have hge : ¬ c.toNat < 0x20 := fun h => h8 (.inl h)
    simp [readString, h1, h2, hge]

lemma length_writeChar_pos (c : Char) : 0 < (writeChar c).length := by
  simp only [writeChar]
  split_ifs <;> simp

lemma readString_append (fuel : Nat) (s past rest : List Char)
    (hfuel : (s.flatMap writeChar).length < fuel) :
    readString fuel past (s.flatMap writeChar ++ '"' :: rest) =
      some (String.ofList (past.reverse ++ s), rest) := by
  induction s generalizing fuel past with
  | nil =>
    obtain ⟨fuel, rfl⟩ : ∃ n, fuel = n + 1 := ⟨fuel - 1, by simp at hfuel; omega⟩
    simp [readString]
  | cons c s ih =>
    have hpos := length_writeChar_pos c
    rw [flatMap_cons, length_append] at hfuel
    obtain ⟨fuel, rfl⟩ : ∃ n, fuel = n + 1 := ⟨fuel - 1, by omega⟩
    rw [flatMap_cons, append_assoc, readString_writeChar, ih _ _ (by omega)]
    simp

@[simp] lemma toList_writeString (s : String) :
    (writeString s).toList = '"' :: (s.toList.flatMap writeChar ++ ['"']) := by
  simp [writeString]

lemma isUnit_hexDigits (n : Nat) : IsUnit (Text.hexDigits 4 n) := by
  have hsome (k : Nat) : (hexValue? (Text.hexDigit (k % 16))).isSome := by
    rw [hexValue?_hexDigit (Nat.mod_lt _ (by omega))]
    rfl
  exact ⟨rfl, by simp [Text.hexDigits, hsome]⟩

lemma isBody_writeChar_append (c : Char) {s : List Char} (h : IsBody s) :
    IsBody (writeChar c ++ s) := by
  simp only [writeChar]
  split_ifs with h1 h2 h3 h4 h5 h6 h7 h8
  iterate 7 exact .escape (by decide) h
  · exact .unit (isUnit_hexDigits _) h
  · exact .plain ⟨h1, h2, fun hc => h8 (.inl hc)⟩ h

lemma quotes_writeString (s : String) : Quotes s (writeString s).toList := by
  have hbody : IsBody (s.toList.flatMap writeChar) := by
    induction s.toList with
    | nil => exact .nil
    | cons c s ih => exact isBody_writeChar_append c ih
  constructor
  refine ⟨s.toList.flatMap writeChar, toList_writeString s, hbody, ?_⟩
  intro fuel rest hfuel
  rw [readString_append _ _ _ _ hfuel]
  simp

/-! ### Documents -/

/-- Every number of a document is a numeral. -/
inductive Proper : Json → Prop
  | null : Proper .null
  | bool (b : Bool) : Proper (.bool b)
  | num {n : String} (h : IsNumeral n.toList) : Proper (.num n)
  | str (s : String) : Proper (.str s)
  | arr {items : List Json} (h : ∀ j ∈ items, Proper j) : Proper (.arr items)
  | obj {members : List (String × Json)} (h : ∀ m ∈ members, Proper m.2) : Proper (.obj members)

lemma isGap_newline (level : Nat) : IsGap (newline level).toList := by
  intro c hc
  simp only [newline, String.toList_ofList, mem_cons, mem_replicate] at hc
  rcases hc with rfl | ⟨-, rfl⟩ <;> decide

section Parts

variable {gap last space : List Char} (hgap : IsGap gap) (hlast : IsGap last) (hspace : IsGap space)
  (write : Json → List Char)

include hgap hlast in
lemma spells_arr (items : List Json) (h : ∀ j ∈ items, Spells j (write j)) :
    Spells (.arr items) (bracketText '[' ']' gap last (items.map write)) := by
  have hspells :=
    @Spells.arr gap last (items.map fun j => ⟨j, write j, [], [], isGap_nil, isGap_nil⟩) hgap hlast
    (forall_mem_map.mpr h)
  simpa [Part.written, Function.comp_def] using hspells

def memberText (space : List Char) (name : String) (value : List Char) : List Char :=
  (writeString name).toList ++ ':' :: (space ++ value)

include hgap hlast hspace in
lemma spells_obj (members : List (String × Json)) (h : ∀ m ∈ members, Spells m.2 (write m.2)) :
    Spells (.obj members) (bracketText '\x7b' '\x7d' gap last (members.map fun m =>
        memberText space m.1 (write m.2))) := by
  have hspells := @Spells.obj gap last (members.map fun m =>
      (⟨m.1, (writeString m.1).toList, [], [], isGap_nil, isGap_nil⟩,
        ⟨m.2, write m.2, space, [], hspace, isGap_nil⟩))
    hgap hlast (forall_mem_map.mpr fun m _ => quotes_writeString m.1) (forall_mem_map.mpr h)
  simpa [Part.written, MemberPart.written, MemberPart.value, memberText,
    Function.comp_def] using hspells

end Parts

/-! ### Both ways of writing -/

@[simp] lemma map_toList_compactItems (items : List Json) :
    (compactItems items).map toList = items.map (·.compact.toList) := by
  induction items with
  | nil => rfl
  | cons item items ih => simp [compactItems, ih]

@[simp] lemma map_toList_compactMembers (members : List (String × Json)) :
    (compactMembers members).map toList = members.map fun m =>
      memberText [] m.1 m.2.compact.toList := by
  induction members with
  | nil => rfl
  | cons m members ih =>
    obtain ⟨name, value⟩ := m
    simp [compactMembers, compactMember, memberText, ih]

lemma Proper.spells_compact (h : j.Proper) : Spells j j.compact.toList := by
  induction h with
  | null => exact .null
  | bool b => cases b with
    | true => exact .yes
    | false => exact .no
  | num h => exact .num h
  | str s => exact .str (quotes_writeString s)
  | @arr items h ih =>
    have hspells := spells_arr isGap_nil isGap_nil _ items ih
    simpa [compact, bracketText, toList_intercalate] using hspells
  | @obj members h ih =>
    have hspells := spells_obj isGap_nil isGap_nil isGap_nil (·.compact.toList) members ih
    simpa [compact, bracketText, toList_intercalate] using hspells

@[simp] lemma map_toList_indentedItems (level : Nat) (items : List Json) :
    (indentedItems level items).map toList = items.map fun j => (j.indented level).toList := by
  induction items with
  | nil => rfl
  | cons item items ih => simp [indentedItems, ih]

@[simp] lemma map_toList_indentedMembers (level : Nat) (members : List (String × Json)) :
    (indentedMembers level members).map toList =
      members.map fun m => memberText [' '] m.1 (m.2.indented level).toList := by
  induction members with
  | nil => rfl
  | cons m members ih =>
    obtain ⟨name, value⟩ := m
    simp [indentedMembers, indentedMember, memberText, ih]

lemma exists_toList_bracketed (opening closing : Char) (level : Nat) (parts : List String) :
    ∃ gap last, IsGap gap ∧ IsGap last ∧
      (bracketed (singleton opening) (singleton closing) level parts).toList =
        bracketText opening closing gap last (parts.map toList) := by
  cases parts with
  | nil => exact ⟨[], [], isGap_nil, isGap_nil, by simp [bracketed, bracketText]⟩
  | cons part parts =>
    refine ⟨_, _, isGap_newline (level + 1), isGap_newline level, ?_⟩
    simp [bracketed, bracketText, toList_intercalate]

lemma Proper.spells_indented (h : j.Proper) (level : Nat) : Spells j (j.indented level).toList := by
  induction h generalizing level with
  | null => simpa [indented] using Spells.null
  | bool b => cases b with
    | true => simpa [indented] using Spells.yes
    | false => simpa [indented] using Spells.no
  | num h => exact .num h
  | str s => exact .str (quotes_writeString s)
  | @arr items h ih =>
    obtain ⟨gap, last, hgap, hlast, htext⟩ :=
      exists_toList_bracketed '[' ']' level (indentedItems (level + 1) items)
    rw [map_toList_indentedItems] at htext
    rw [indented, show "[" = singleton '[' from rfl, show "]" = singleton ']' from rfl, htext]
    exact spells_arr hgap hlast _ items fun j hj => ih j hj _
  | @obj members h ih =>
    obtain ⟨gap, last, hgap, hlast, htext⟩ :=
      exists_toList_bracketed '\x7b' '\x7d' level (indentedMembers (level + 1) members)
    rw [map_toList_indentedMembers] at htext
    rw [indented, show "\x7b" = singleton '\x7b' from rfl,
      show "\x7d" = singleton '\x7d' from rfl, htext]
    exact spells_obj hgap hlast (by simp [IsGap, isGap])
      (fun j => (j.indented (level + 1)).toList) members fun m hm => ih m hm _

lemma Spells.parse?_append {s : List Char} (h : Spells j s) {gap : List Char} (hgap : IsGap gap) :
    parse? (s ++ gap) = some j :=
  parse?_eq_some_iff.mpr ⟨⟨j, s, [], gap, isGap_nil, hgap⟩, rfl, rfl, h⟩

/-- Reading a written document gives it back. -/
theorem parse?_compact (h : j.Proper) : parse? j.compact.toList = some j := by
  simpa using h.spells_compact.parse?_append isGap_nil

theorem parse?_pretty (h : j.Proper) : parse? (j.pretty ++ "\n").toList = some j := by
  rw [String.toList_append]
  exact (h.spells_indented 0).parse?_append (by simp [IsGap, isGap])

/-- Different documents have different texts. -/
theorem Proper.eq_of_compact_eq {k : Json} (hj : j.Proper) (hk : k.Proper)
    (h : j.compact = k.compact) : j = k := by
  have hparse := parse?_compact hj
  rw [h, parse?_compact hk] at hparse
  exact (Option.some.inj hparse).symm

end PluginAudit.Json
