import PluginAudit.Proofs.Numerals
import PluginAudit.Proofs.Texts

/-!
The grammar of documents. It says which texts spell a document without looking at the reader. Main
statement: a text is read as a document if and only if it spells this document, white space around
it apart.
-/

open List

namespace PluginAudit.Json

open Option (map_some bind_some)

variable {α β : Type} {s rest w gap last : List Char} {fuel n : Nat} {c : Char} {j : Json}
  {t : String}

/-! ### White space -/

def IsGap (s : List Char) : Prop := ∀ c ∈ s, isGap c = true

lemma isGap_nil : IsGap [] := by simp [IsGap]

lemma skipGap_append (h : IsGap gap) (s : List Char) : skipGap (gap ++ s) = skipGap s :=
  dropWhile_append_of_pos h

lemma skipGap_cons (t : List Char) (h : isGap c = false) : skipGap (c :: t) = c :: t := by
  rw [skipGap, dropWhile_cons_of_neg (by simp [h])]

lemma skipGap_eq_nil_iff : skipGap s = [] ↔ IsGap s := dropWhile_eq_nil_iff

lemma exists_gap (s : List Char) : ∃ gap, IsGap gap ∧ s = gap ++ skipGap s :=
  ⟨s.takeWhile isGap, fun _ hc => mem_takeWhile_imp hc, takeWhile_append_dropWhile.symm⟩

lemma closes_append (h : IsGap gap) (hs : Closes s) : Closes (gap ++ s) := by
  cases gap with
  | nil => exact hs
  | cons c gap =>
    intro d hd
    cases hd
    exact .inr (.inr (.inr (h _ mem_cons_self)))

/-! ### Strings -/

/-- Four hexadecimal digits. -/
structure IsUnit (digits : List Char) : Prop where
  length_eq : digits.length = 4
  digit : ∀ c ∈ digits, (hexValue? c).isSome = true

/-- What stands between the quotes of a string: characters and escapes. -/
inductive IsBody : List Char → Prop
  | nil : IsBody []
  | plain {c : Char} {s : List Char} (hc : c ≠ '"' ∧ c ≠ '\\' ∧ ¬ c.toNat < 0x20) (hs : IsBody s) :
    IsBody (c :: s)
  | escape {c : Char} {s : List Char} (hc : c ∈ ['"', '\\', '/', 'b', 'f', 'n', 'r', 't'])
    (hs : IsBody s) : IsBody ('\\' :: c :: s)
  | unit {digits s : List Char} (hdigits : IsUnit digits) (hs : IsBody s) :
    IsBody ('\\' :: 'u' :: (digits ++ s))

/-- The text of a string, which is read as this string whatever follows. -/
structure Quotes (t : String) (text : List Char) : Prop where
  exists_body : ∃ body, text = '"' :: (body ++ ['"']) ∧ IsBody body ∧
    ∀ fuel rest, body.length < fuel → readString fuel [] (body ++ '"' :: rest) = some (t, rest)

lemma fourHex?_eq_some (h : fourHex? s = some (n, rest)) :
    ∃ used, s = used ++ rest ∧ IsUnit used ∧ ∀ more, fourHex? (used ++ more) = some (n, more) := by
  rcases s with _ | ⟨a, _ | ⟨b, _ | ⟨c, _ | ⟨d, after⟩⟩⟩⟩
  case cons.cons.cons.cons =>
    cases ha : hexValue? a <;> cases hb : hexValue? b <;> cases hc : hexValue? c <;> cases hd :
      hexValue? d <;> simp [fourHex?, ha, hb, hc, hd] at h
    obtain ⟨rfl, rfl⟩ := h
    exact ⟨[a, b, c, d], rfl, ⟨rfl, by simp [ha, hb, hc, hd]⟩, by simp [fourHex?, ha, hb, hc, hd]⟩
  all_goals cases h

lemma fourHex?_quote (w : List Char) : (∀ more, fourHex? (w ++ '"' :: more) = none) ∨
    ∃ n w', ∀ more, fourHex? (w ++ '"' :: more) = some (n, w' ++ '"' :: more) := by
  have hquote : hexValue? '"' = none := by decide
  rcases w with _ | ⟨a, _ | ⟨b, _ | ⟨c, _ | ⟨d, w⟩⟩⟩⟩
  case cons.cons.cons.cons =>
    cases ha : hexValue? a <;> cases hb : hexValue? b <;> cases hc : hexValue? c <;> cases hd :
      hexValue? d <;> simp [fourHex?, ha, hb, hc, hd]
  all_goals
    refine .inl fun more => ?_
    rcases more with _ | ⟨x, _ | ⟨y, _ | ⟨z, more⟩⟩⟩ <;> simp [fourHex?, hquote]

lemma lowSurrogate?_eq_some (h : lowSurrogate? s = some (n, rest)) : ∃ used, s = used ++ rest ∧
    (∀ w, IsBody w → IsBody (used ++ w)) ∧
      ∀ more, lowSurrogate? (used ++ more) = some (n, more) := by
  unfold lowSurrogate? at h
  split at h
  · split at h
    · rename_i low found hfour
      split at h
      · rename_i hrange
        cases h
        obtain ⟨used, rfl, hunit, hused⟩ := fourHex?_eq_some hfour
        exact ⟨'\\' :: 'u' :: used, rfl, fun w hw => .unit hunit hw,
          fun more => by simp [lowSurrogate?, hused, hrange]⟩
      · cases h
    · cases h
  · cases h

lemma lowSurrogate?_quote (h : lowSurrogate? (w ++ '"' :: rest) = none) (more : List Char) :
    lowSurrogate? (w ++ '"' :: more) = none := by
  rcases w with _ | ⟨a, _ | ⟨b, w⟩⟩
  · simp [lowSurrogate?]
  · simp [lowSurrogate?]
  · by_cases hab : a = '\\' ∧ b = 'u'
    · obtain ⟨rfl, rfl⟩ := hab
      rcases fourHex?_quote w with hnone | ⟨n, w', hsome⟩
      · simp [lowSurrogate?, hnone]
      · simpa [lowSurrogate?, hsome] using h
    · unfold lowSurrogate?
      split
      · simp_all
      · rfl

lemma escapedUnit_eq (h : escapedUnit n s = (c, w ++ '"' :: rest)) :
    ∃ used, s = used ++ w ++ '"' :: rest ∧ (IsBody w → IsBody (used ++ w)) ∧
      ∀ more, escapedUnit n (used ++ w ++ '"' :: more) = (c, w ++ '"' :: more) := by
  unfold escapedUnit at h ⊢
  by_cases hhigh : 0xD800 ≤ n ∧ n ≤ 0xDBFF
  · simp only [if_pos hhigh] at h ⊢
    cases hlow : lowSurrogate? s with
    | some found =>
      obtain ⟨low, after⟩ := found
      obtain ⟨used, rfl, hbody, hused⟩ := lowSurrogate?_eq_some hlow
      rw [hused] at h
      obtain ⟨rfl, rfl⟩ := Prod.mk.inj h
      exact ⟨used, by simp, hbody w, fun more => by rw [append_assoc, hused]⟩
    | none =>
      rw [hlow] at h
      obtain ⟨rfl, rfl⟩ := Prod.mk.inj h
      exact ⟨[], rfl, id, fun more => by rw [nil_append, lowSurrogate?_quote hlow]⟩
  · simp only [if_neg hhigh] at h ⊢
    split at h
    all_goals
      rename_i hlow
      obtain ⟨rfl, rfl⟩ := Prod.mk.inj h
      exact ⟨[], rfl, id, fun more => by simp [hlow]⟩

lemma escape?_eq_some (h : escape? s = some (c, w ++ '"' :: rest)) :
    ∃ used, s = used ++ w ++ '"' :: rest ∧ (IsBody w → IsBody ('\\' :: (used ++ w))) ∧
      ∀ more, escape? (used ++ w ++ '"' :: more) = some (c, w ++ '"' :: more) := by
  unfold escape? at h
  split at h
  case h_9 after =>
    obtain ⟨⟨n, found⟩, hfour, hunit⟩ := Option.map_eq_some_iff.mp h
    obtain ⟨used, rfl, hdigits, hused⟩ := fourHex?_eq_some hfour
    obtain ⟨used', rfl, hbody, hused'⟩ := escapedUnit_eq hunit
    refine ⟨'u' :: (used ++ used'), by simp, fun hw => ?_, fun more => ?_⟩
    · rw [cons_append, append_assoc]
      exact .unit hdigits (hbody hw)
    · have hmore := hused' more
      rw [append_assoc] at hmore
      simp only [cons_append, append_assoc, escape?, hused, map_some, hmore]
  case h_10 => cases h
  all_goals
    cases h
    exact ⟨[_], rfl, fun hw => .escape (by decide) hw, fun more => rfl⟩

lemma readString_eq_some {past : List Char} (h : readString fuel past s = some (t, rest)) :
    ∃ w, s = w ++ '"' :: rest ∧ IsBody w ∧ ∀ fuel' more, w.length < fuel' →
        readString fuel' past (w ++ '"' :: more) = some (t, more) := by
  fun_induction readString fuel past s with
  | case1 => cases h
  | case2 => cases h
  | case3 fuel past rest' =>
    cases h
    refine ⟨[], rfl, .nil, fun fuel' more hfuel => ?_⟩
    obtain ⟨k, rfl⟩ := Nat.exists_eq_add_one.mpr hfuel
    simp [readString]
  | case4 fuel past rest' e after hescape hquote ih =>
    obtain ⟨w, rfl, hbody, hw⟩ := ih h
    obtain ⟨used, rfl, hescaped, hused⟩ := escape?_eq_some hescape
    refine ⟨'\\' :: (used ++ w), by simp, hescaped hbody, fun fuel' more hfuel => ?_⟩
    simp only [length_cons, length_append] at hfuel
    obtain ⟨k, rfl⟩ : ∃ k, fuel' = k + 1 := ⟨fuel' - 1, by omega⟩
    rw [cons_append, readString, if_neg hquote, if_pos rfl, hused]
    exact hw k more (by omega)
  | case5 => cases h
  | case6 => cases h
  | case7 fuel past c rest' hquote hescape hcontrol ih =>
    obtain ⟨w, rfl, hbody, hw⟩ := ih h
    refine ⟨c :: w, rfl, .plain ⟨hquote, hescape, hcontrol⟩ hbody, fun fuel' more hfuel => ?_⟩
    rw [length_cons] at hfuel
    obtain ⟨k, rfl⟩ : ∃ k, fuel' = k + 1 := ⟨fuel' - 1, by omega⟩
    rw [cons_append, readString, if_neg hquote, if_neg hescape, if_neg hcontrol]
    exact hw k more (by omega)

lemma exists_quotes (h : readString fuel [] s = some (t, rest)) :
    ∃ text, '"' :: s = text ++ rest ∧ Quotes t text := by
  obtain ⟨w, rfl, hbody, hw⟩ := readString_eq_some h
  exact ⟨'"' :: (w ++ ['"']), by simp, ⟨w, rfl, hbody, hw⟩⟩

lemma Quotes.reads {text : List Char} (h : Quotes t text) (rest : List Char) :
    ∃ s, text ++ rest = '"' :: s ∧ readString (s.length + 1) [] s = some (t, rest) := by
  obtain ⟨body, rfl, -, hread⟩ := h.exists_body
  exact ⟨body ++ '"' :: rest, by simp, hread _ _ (by grind)⟩

/-! ### Documents -/

/-- A part of a document with the white space around it. -/
structure Part (α : Type) where
  value : α
  text : List Char
  before : List Char
  after : List Char
  isGap_before : IsGap before
  isGap_after : IsGap after

def Part.written (p : Part α) : List Char := p.before ++ (p.text ++ p.after)

/-- The name of a member and its value. -/
abbrev MemberPart := Part String × Part Json

def MemberPart.value (m : MemberPart) : String × Json := (m.1.value, m.2.value)

def MemberPart.written (m : MemberPart) : List Char := m.1.written ++ ':' :: m.2.written

/-- Parts between brackets, with a gap before each of them and one before the closing bracket. -/
def bracketText (opening closing : Char) (gap last : List Char) (parts : List (List Char)) :
    List Char :=
  opening :: (gap ++ (',' :: gap).intercalate parts ++ last ++ [closing])

/-- The text of a document, without white space around it. -/
inductive Spells : Json → List Char → Prop
  | null : Spells .null ['n', 'u', 'l', 'l']
  | yes : Spells (.bool true) ['t', 'r', 'u', 'e']
  | no : Spells (.bool false) ['f', 'a', 'l', 's', 'e']
  | num {n : String} (h : IsNumeral n.toList) : Spells (.num n) n.toList
  | str {t : String} {text : List Char} (h : Quotes t text) : Spells (.str t) text
  | arr {gap last : List Char} {items : List (Part Json)} (hgap : IsGap gap) (hlast : IsGap last)
    (h : ∀ p ∈ items, Spells p.value p.text) :
    Spells (.arr (items.map (·.value))) (bracketText '[' ']' gap last (items.map (·.written)))
  | obj {gap last : List Char} {members : List MemberPart} (hgap : IsGap gap) (hlast : IsGap last)
    (hnames : ∀ m ∈ members, Quotes m.1.value m.1.text)
    (h : ∀ m ∈ members, Spells m.2.value m.2.text) : Spells (.obj (members.map (·.value)))
    (bracketText '\x7b' '\x7d' gap last (members.map (·.written)))

/-- A text is one document: that of a value, with white space around it. -/
def IsDocument (s : List Char) (j : Json) : Prop :=
  ∃ p : Part Json, p.written = s ∧ p.value = j ∧ Spells j p.text

/-- How the text of a document starts. -/
def Starts : Json → Char → Prop
  | .null, c => c = 'n'
  | .bool b, c => c = if b then 't' else 'f'
  | .num _, c => c = '-' ∨ c.isDigit = true
  | .str _, c => c = '"'
  | .arr _, c => c = '['
  | .obj _, c => c = '\x7b'

lemma Starts.not_gap (h : Starts j c) : isGap c = false ∧ c ≠ ']' := by
  cases j with
  | num n =>
    refine ⟨Bool.eq_false_iff.mpr fun hgap => ?_, ?_⟩
    · simp only [isGap, Bool.or_eq_true, beq_iff_eq] at hgap
      rcases hgap with ((rfl | rfl) | rfl) | rfl <;> rcases h with h | h <;> exact absurd h
        (by decide)
    · rintro rfl
      rcases h with h | h <;> exact absurd h (by decide)
  | bool b => cases h; cases b <;> decide
  | _ => cases h; decide

lemma IsNumeral.exists_cons {n : List Char} (h : IsNumeral n) :
    ∃ c t, n = c :: t ∧ (c = '-' ∨ c.isDigit) := by
  obtain @⟨whole, fraction, exponent, negative, hwhole, -, -⟩ := h
  cases negative with
  | true => exact ⟨'-', _, rfl, .inl rfl⟩
  | false =>
    cases hwhole with
    | zero => exact ⟨'0', _, rfl, .inr rfl⟩
    | @digits c s head all => exact ⟨c, _, rfl, .inr (all.digit c mem_cons_self)⟩

lemma Spells.starts (h : Spells j w) : ∃ c t, w = c :: t ∧ Starts j c := by
  cases h with
  | num h => exact h.exists_cons
  | str h =>
    obtain ⟨body, rfl, -⟩ := h.exists_body
    exact ⟨_, _, rfl, rfl⟩
  | _ => exact ⟨_, _, rfl, rfl⟩

/-! ### Lists of parts -/

/-- What comes after an item or a member: the next one, or the bracket. -/
def afterPart (closing : Char) (next : List Char → Option (Json × List Char)) (done : Json) :
    List Char → Option (Json × List Char)
  | [] => none
  | c :: rest => if c = ',' then next rest else if c = closing then some (done, rest) else none

/-- A list of parts is read part by part up to its bracket, with those read so far in reverse. -/
structure ReadsList (closing : Char) (one : Nat → List Char → Option (α × List Char))
    (read : Nat → List α → List Char → Option (Json × List Char)) (done : List α → Json) :
    Prop where
  isClosing : closing = ']' ∨ closing = '\x7d'
  one_gap : ∀ fuel gap s, IsGap gap → one fuel (gap ++ s) = one fuel s
  zero : ∀ past s, read 0 past s = none
  succ : ∀ fuel past s, read (fuel + 1) past s = (one fuel s).bind fun found =>
    afterPart closing (read fuel (found.1 :: past)) (done (found.1 :: past).reverse)
      (skipGap found.2)

namespace ReadsList

variable {closing : Char} {one : Nat → List Char → Option (α × List Char)}
  {read : Nat → List α → List Char → Option (Json × List Char)} {done : List α → Json}
  (hlist : ReadsList closing one read done) (value : β → α) (written : β → List Char)

include hlist

lemma closing_spec (rest : List Char) :
    isGap closing = false ∧ closing ≠ ',' ∧ Closes (closing :: rest) := by
  rcases hlist.isClosing with rfl | rfl <;> simp [isGap, Closes]

lemma read_gap (h : IsGap gap) (past : List α) : read fuel past (gap ++ s) = read fuel past s := by
  cases fuel with
  | zero => rw [hlist.zero, hlist.zero]
  | succ fuel => rw [hlist.succ, hlist.succ, hlist.one_gap _ _ _ h]

lemma read_append (hgap : IsGap gap) (hlast : IsGap last) (rest : List Char)
    (fuel : Nat) (past : List α) (part : β) (parts : List β)
    (hall : ∀ p ∈ part :: parts, ∀ fuel rest, (written p).length ≤ fuel → Closes rest →
      ∃ gap, IsGap gap ∧ one fuel (written p ++ rest) = some (value p, gap ++ rest))
    (hfuel : (written part ++ parts.flatMap fun p => ',' :: (gap ++ written p)).length < fuel) :
    read fuel past (written part ++ (parts.flatMap fun p => ',' :: (gap ++ written p)) ++ (last ++
      closing :: rest)) = some (done (past.reverse ++ (part :: parts).map value), rest) := by
  induction parts generalizing fuel past part with
  | nil =>
    obtain ⟨hnot, hcomma, hcloses⟩ := hlist.closing_spec rest
    simp only [flatMap_nil, append_nil] at hfuel ⊢
    obtain ⟨fuel, rfl⟩ := Nat.exists_eq_add_one.mpr (by omega : 0 < fuel)
    obtain ⟨space, hspace, hone⟩ := hall part mem_cons_self fuel (last ++ closing :: rest)
      (by omega) (closes_append hlast hcloses)
    rw [hlist.succ, hone, bind_some, skipGap_append hspace, skipGap_append hlast,
      skipGap_cons _ hnot, afterPart, if_neg hcomma, if_pos rfl]
    simp
  | cons next parts ih =>
    simp only [flatMap_cons, length_append, length_cons] at hfuel
    obtain ⟨fuel, rfl⟩ := Nat.exists_eq_add_one.mpr (by omega : 0 < fuel)
    obtain ⟨space, hspace, hone⟩ := hall part mem_cons_self fuel (',' :: (gap ++ (written next ++
      ((parts.flatMap fun p => ',' :: (gap ++ written p)) ++ (last ++ closing :: rest)))))
      (by omega) (by simp [Closes])
    have hnext := ih fuel (value part :: past) next (forall_mem_cons.mp hall).2
      (by simp only [length_append]; omega)
    simp only [flatMap_cons, cons_append, append_assoc] at hone hnext ⊢
    rw [hlist.succ, hone, bind_some, skipGap_append hspace, skipGap_cons _ (by decide), afterPart,
      if_pos rfl, hlist.read_gap hgap, hnext]
    simp

lemma exists_parts {Good : β → Prop}
    (hone : ∀ fuel' s a gap rest, fuel' < fuel → one fuel' s = some (a, gap ++ rest) →
      IsGap gap → ∃ p, Good p ∧ value p = a ∧ s = written p ++ rest) {past : List α}
    (h : read fuel past s = some (j, rest)) : ∃ part parts, (∀ p ∈ part :: parts, Good p) ∧
      j = done (past.reverse ++ (part :: parts).map value) ∧
      s = [','].intercalate ((part :: parts).map written) ++ closing :: rest := by
  induction fuel generalizing past s with
  | zero => rw [hlist.zero] at h; cases h
  | succ fuel ih =>
    rw [hlist.succ] at h
    obtain ⟨⟨a, after⟩, ha, hnext⟩ := Option.bind_eq_some_iff.mp h
    obtain ⟨gap, hgap, hafter⟩ := exists_gap after
    rw [hafter] at ha
    obtain ⟨p, hp, rfl, rfl⟩ := hone fuel s a gap _ (by omega) ha hgap
    dsimp only at hnext
    cases hskip : skipGap after with
    | nil => simp [hskip, afterPart] at hnext
    | cons c next =>
      rw [hskip, afterPart] at hnext
      split at hnext
      case isTrue hcomma =>
        subst hcomma
        obtain ⟨part, parts, hall, rfl, rfl⟩ :=
          ih (fun fuel' s a gap rest hfuel => hone fuel' s a gap rest (by omega)) hnext
        exact ⟨p, part :: parts, forall_mem_cons.mpr ⟨hp, hall⟩, by simp, by simp⟩
      case isFalse =>
        split at hnext
        case isFalse => cases hnext
        case isTrue hclose =>
          cases hnext
          subst hclose
          exact ⟨p, [], by simpa using hp, by simp, by simp⟩

end ReadsList

lemma readValue_gap (h : IsGap gap) : readValue fuel (gap ++ s) = readValue fuel s := by
  cases fuel with
  | zero => rw [readValue, readValue]
  | succ fuel => rw [readValue, readValue, skipGap_append h]

lemma readsList_items : ReadsList ']' readValue readItems .arr where
  isClosing := .inl rfl
  one_gap _ _ _ h := readValue_gap h
  zero past s := by rw [readItems]
  succ fuel past s := by
    rw [readItems]
    split
    · simp [*]
    · simp only [*, bind_some, afterPart]
      split <;> split <;> simp_all

/-- One member: its name, a colon and its value. -/
def readMember (fuel : Nat) (s : List Char) : Option ((String × Json) × List Char) :=
  match skipGap s with
  | '"' :: rest => (readString (rest.length + 1) [] rest).bind fun name =>
    match skipGap name.2 with
    | ':' :: rest => (readValue fuel rest).map fun value => ((name.1, value.1), value.2)
    | _ => none
  | _ => none

lemma readsList_members : ReadsList '\x7d' readMember readMembers .obj where
  isClosing := .inr rfl
  one_gap fuel gap s h := by rw [readMember, readMember, skipGap_append h]
  zero past s := by rw [readMembers]
  succ fuel past s := by
    rw [readMembers, readMember]
    split
    · split
      · simp [*]
      · simp only [*, bind_some]
        split
        · split
          · simp [*]
          · simp only [*, map_some, bind_some, afterPart]
            split <;> split <;> simp_all
        · simp_all
    · simp_all

/-! ### Texts that spell a document are read -/

lemma reads_cons {t : List Char}
    (h : ∀ fuel, t.length ≤ fuel → readValue (fuel + 1) (c :: (t ++ rest)) = some (j, rest))
    (hfuel : (c :: t).length ≤ fuel) : readValue fuel (c :: t ++ rest) = some (j, rest) := by
  cases fuel with
  | zero => cases hfuel
  | succ fuel => exact h fuel (Nat.le_of_succ_le_succ hfuel)

@[simp] lemma dropWord?_append (word rest : List Char) :
    dropWord? word (word ++ rest) = some rest := by
  simp [dropWord?]

lemma readValue_num {n : String} (h : IsNumeral n.toList) (hrest : Closes rest)
    (hfuel : n.toList.length ≤ fuel) : readValue fuel (n.toList ++ rest) = some (.num n, rest) := by
  obtain ⟨c, t, hn, hc⟩ := h.exists_cons
  have hread := readNumeral_append h hrest
  have hstarts : Starts (.num n) c := hc
  rw [String.ofList_toList, hn, cons_append] at hread
  rw [hn] at hfuel ⊢
  refine reads_cons (fun fuel hfuel => ?_) hfuel
  unfold readValue
  rw [skipGap_cons _ hstarts.not_gap.1]
  split
  case h_7 => simp [hread]
  all_goals
    rename_i heq
    obtain ⟨rfl, rfl⟩ := List.cons.inj heq
    rcases hc with hc | hc <;> exact absurd hc (by decide)

@[simp] lemma intercalate_comma_cons (gap part : List Char) (parts : List (List Char)) :
    (',' :: gap).intercalate (part :: parts) = part ++ parts.flatMap fun s => ',' :: (gap ++ s) :=
  Text.intercalate_cons _ _ _

/-- A text is read as a value. -/
def ReadsAs (j : Json) (text : List Char) : Prop :=
  ∀ {fuel : Nat} {rest : List Char}, text.length ≤ fuel → (∀ n, j = .num n → Closes rest) →
    readValue fuel (text ++ rest) = some (j, rest)

lemma Part.readValue_written {p : Part Json}
    (h : ReadsAs p.value p.text) (hfuel : p.written.length ≤ fuel) (hrest : Closes rest) :
    readValue fuel (p.written ++ rest) = some (p.value, p.after ++ rest) := by
  simp only [written, length_append] at hfuel
  rw [written, append_assoc, readValue_gap p.isGap_before, append_assoc,
    h (by omega) fun n hn => closes_append p.isGap_after hrest]

lemma MemberPart.readMember_written {m : MemberPart} (hname : Quotes m.1.value m.1.text)
    (h : ReadsAs m.2.value m.2.text) (hfuel : m.written.length ≤ fuel) (hrest : Closes rest) :
    readMember fuel (m.written ++ rest) = some (m.value, m.2.after ++ rest) := by
  obtain ⟨s, htext, hread⟩ := hname.reads (m.1.after ++ ':' :: (m.2.written ++ rest))
  simp only [written, length_append, length_cons] at hfuel
  rw [written, Part.written, append_assoc, append_assoc, append_assoc, cons_append, readMember,
    skipGap_append m.1.isGap_before, htext, skipGap_cons _ (by decide)]
  have hvalue : readValue fuel (m.2.written ++ rest) = some (m.2.value, m.2.after ++ rest) :=
    Part.readValue_written h (by omega) hrest
  simp only [hread, bind_some, skipGap_append m.1.isGap_after,
    skipGap_cons _ (by decide : isGap ':' = false), hvalue, map_some, value]

/-- The text of a value is read up to its end; only a numeral depends on what follows. -/
theorem Spells.readsAs (h : Spells j w) : ReadsAs j w := by
  induction h with
  | null | yes | no =>
    intro fuel rest hfuel hrest
    refine reads_cons (fun fuel _ => ?_) hfuel
    rw [readValue, skipGap_cons _ (by decide)]
    simp only [dropWord?_append, map_some]
  | num h =>
    intro fuel rest hfuel hrest
    exact readValue_num h (hrest _ rfl) hfuel
  | str h =>
    intro fuel rest hfuel hrest
    obtain ⟨body, rfl, -, hread⟩ := h.exists_body
    refine reads_cons (fun fuel _ => ?_) hfuel
    have hstring := hread ((body ++ '"' :: rest).length + 1) rest (by grind)
    rw [readValue, skipGap_cons _ (by decide), append_assoc, singleton_append]
    simp only [hstring, map_some]
  | @arr gap last items hgap hlast h ih =>
    intro fuel rest hfuel hrest
    refine reads_cons (fun fuel hfuel => ?_) hfuel
    rw [readValue, skipGap_cons _ (by decide)]
    cases items with
    | nil =>
      simp [skipGap_append hgap, skipGap_append hlast,
        skipGap_cons _ (by decide : isGap ']' = false)]
    | cons item items =>
      obtain ⟨c, t, htext, hstarts⟩ := (h item mem_cons_self).starts
      rw [map_cons, intercalate_comma_cons, flatMap_map] at hfuel ⊢
      have hitems := readsList_items.read_append Part.value Part.written hgap hlast rest fuel
        [] item items (fun p hp fuel rest hfuel hrest => ⟨_, p.isGap_after,
        Part.readValue_written (ih p hp) hfuel hrest⟩) (by simp at hfuel ⊢; omega)
      have hskip (more : List Char) :
          skipGap (item.written ++ more) = c :: (t ++ (item.after ++ more)) := by
        rw [Part.written, append_assoc, skipGap_append item.isGap_before, append_assoc, htext,
          cons_append, skipGap_cons _ hstarts.not_gap.1]
      simp only [append_assoc, skipGap_append hgap, hskip,
        readsList_items.read_gap hgap] at hitems ⊢
      simp [hstarts.not_gap.2, hitems]
  | @obj gap last members hgap hlast hnames h ih =>
    intro fuel rest hfuel hrest
    refine reads_cons (fun fuel hfuel => ?_) hfuel
    rw [readValue, skipGap_cons _ (by decide)]
    cases members with
    | nil =>
      simp [skipGap_append hgap, skipGap_append hlast,
        skipGap_cons _ (by decide : isGap '\x7d' = false)]
    | cons member members =>
      obtain ⟨body, htext, -⟩ := (hnames member mem_cons_self).exists_body
      rw [map_cons, intercalate_comma_cons, flatMap_map] at hfuel ⊢
      have hmembers :=
        readsList_members.read_append MemberPart.value MemberPart.written hgap hlast rest fuel []
        member members (fun m hm fuel rest hfuel hrest =>
          ⟨_, m.2.isGap_after, m.readMember_written (hnames m hm) (ih m hm) hfuel hrest⟩)
        (by simp at hfuel ⊢; omega)
      have hskip (more : List Char) : ∃ t, skipGap (member.written ++ more) = '"' :: t := by
        rw [MemberPart.written, Part.written, append_assoc, append_assoc, skipGap_append
          member.1.isGap_before, append_assoc, htext, cons_append, skipGap_cons _ (by decide)]
        exact ⟨_, rfl⟩
      simp only [append_assoc, skipGap_append hgap, readsList_members.read_gap hgap] at hmembers ⊢
      obtain ⟨t, ht⟩ := hskip _
      rw [ht]
      exact hmembers

/-! ### Texts that are read spell a document -/

lemma dropWord?_eq_some {word : List Char} (h : dropWord? word s = some rest) :
    s = word ++ rest := by
  unfold dropWord? at h
  split at h
  · rename_i hprefix
    obtain ⟨t, rfl⟩ := isPrefixOf_iff_prefix.mp hprefix
    cases h
    rw [drop_left]
  · cases h

/-- What the reader takes as a value spells it, after a gap. -/
def Sound (fuel : Nat) : Prop :=
  ∀ s j rest, readValue fuel s = some (j, rest) → ∃ gap w, s = gap ++ (w ++ rest) ∧ IsGap gap ∧
    Spells j w

lemma Sound.exists_part (h : Sound fuel) (hread : readValue fuel s = some (j, gap ++ rest))
    (hgap : IsGap gap) :
    ∃ p : Part Json, Spells p.value p.text ∧ p.value = j ∧ s = p.written ++ rest := by
  obtain ⟨before, w, rfl, hbefore, hw⟩ := h _ _ _ hread
  exact ⟨⟨j, w, before, gap, hbefore, hgap⟩, hw, rfl, by simp [Part.written]⟩

lemma Sound.exists_memberPart (h : Sound fuel) {member : String × Json}
    (hread : readMember fuel s = some (member, gap ++ rest)) (hgap : IsGap gap) :
    ∃ m : MemberPart, (Quotes m.1.value m.1.text ∧ Spells m.2.value m.2.text) ∧ m.value = member ∧
      s = m.written ++ rest := by
  obtain ⟨before, hbefore, hs⟩ := exists_gap s
  unfold readMember at hread
  split at hread
  case h_2 => cases hread
  case h_1 text hquote =>
    obtain ⟨⟨name, afterName⟩, hname, hmember⟩ := Option.bind_eq_some_iff.mp hread
    obtain ⟨quoted, htext, hquotes⟩ := exists_quotes hname
    obtain ⟨after, hafter, hcolons⟩ := exists_gap afterName
    split at hmember
    case h_2 => cases hmember
    case h_1 afterColon hcolon =>
      obtain ⟨⟨value, afterValue⟩, hvalue, hpair⟩ := Option.map_eq_some_iff.mp hmember
      obtain ⟨rfl, rfl⟩ := Prod.mk.inj hpair
      obtain ⟨p, hp, rfl, rfl⟩ := h.exists_part hvalue hgap
      refine ⟨(⟨name, quoted, before, after, hbefore, hafter⟩, p), ⟨hquotes, hp⟩, rfl, ?_⟩
      rw [hs, hquote, htext, hcolons, hcolon]
      simp [MemberPart.written, Part.written]

lemma spells_arr_nil (h : IsGap gap) : Spells (.arr []) ('[' :: (gap ++ [']'])) := by
  simpa [bracketText] using @Spells.arr gap [] [] h isGap_nil (by simp)

lemma spells_obj_nil (h : IsGap gap) : Spells (.obj []) ('\x7b' :: (gap ++ ['\x7d'])) := by
  simpa [bracketText] using @Spells.obj gap [] [] h isGap_nil (by simp) (by simp)

theorem sound (fuel : Nat) : Sound fuel := by
  induction fuel using Nat.strong_induction_on with
  | _ fuel ih =>
    intro s j rest h
    cases fuel with
    | zero => rw [readValue] at h; cases h
    | succ fuel =>
      obtain ⟨gap, hgap, hs⟩ := exists_gap s
      refine ⟨gap, ?_⟩
      suffices ∃ w, skipGap s = w ++ rest ∧ Spells j w by
        obtain ⟨w, hw, hspells⟩ := this
        exact ⟨w, by rw [← hw, ← hs], hgap, hspells⟩
      unfold readValue at h
      split at h
      case h_1 text hopen =>
        split at h
        case h_1 after hclose =>
          cases h
          obtain ⟨space, hspace, htext⟩ := exists_gap text
          exact ⟨_, by rw [hopen, htext, hclose]; simp, spells_obj_nil hspace⟩
        case h_2 =>
          obtain ⟨part, parts, hall, rfl, rfl⟩ :=
            readsList_members.exists_parts MemberPart.value MemberPart.written
            (fun fuel' _ _ _ _ hfuel hread hgap =>
            (ih fuel' (by omega)).exists_memberPart hread hgap) h
          exact ⟨_, by rw [hopen]; simp [bracketText],
            .obj isGap_nil isGap_nil (fun m hm => (hall m hm).1) fun m hm => (hall m hm).2⟩
      case h_2 text hopen =>
        split at h
        case h_1 after hclose =>
          cases h
          obtain ⟨space, hspace, htext⟩ := exists_gap text
          exact ⟨_, by rw [hopen, htext, hclose]; simp, spells_arr_nil hspace⟩
        case h_2 =>
          obtain ⟨part, parts, hall, rfl, rfl⟩ :=
            readsList_items.exists_parts Part.value Part.written
            (fun fuel' _ _ _ _ hfuel hread hgap => (ih fuel' (by omega)).exists_part hread hgap) h
          exact ⟨_, by rw [hopen]; simp [bracketText], .arr isGap_nil isGap_nil hall⟩
      case h_3 text hquote =>
        obtain ⟨⟨t, after⟩, hstring, hpair⟩ := Option.map_eq_some_iff.mp h
        cases hpair
        obtain ⟨w, hw, hquotes⟩ := exists_quotes hstring
        exact ⟨w, hquote.trans hw, .str hquotes⟩
      case h_4 text hhead | h_5 text hhead | h_6 text hhead =>
        obtain ⟨after, hword, hpair⟩ := Option.map_eq_some_iff.mp h
        cases hpair
        obtain rfl := dropWord?_eq_some hword
        exact ⟨_, hhead, by constructor⟩
      case h_7 =>
        obtain ⟨⟨n, after⟩, hnumeral, hpair⟩ := Option.map_eq_some_iff.mp h
        cases hpair
        obtain ⟨hn, hnumeral⟩ := readNumeral_eq_some hnumeral
        exact ⟨_, hn, .num hnumeral⟩

/-! ### Documents are read -/

lemma Spells.readFirst (h : Spells j w) (hgap : IsGap gap) (hrest : ∀ n, j = .num n → Closes rest) :
    readFirst (gap ++ (w ++ rest)) = some (j, rest) := by
  rw [Json.readFirst, readValue_gap hgap, h.readsAs (by simp; omega) hrest]

lemma exists_of_parse? (h : parse? s = some j) :
    ∃ rest, readFirst s = some (j, rest) ∧ IsGap rest := by
  unfold parse? at h
  split at h
  · rename_i value rest hread
    split at h
    · rename_i hempty
      cases h
      exact ⟨rest, hread, skipGap_eq_nil_iff.mp (isEmpty_iff.mp hempty)⟩
    · cases h
  · cases h

/-- A text is read as a document if and only if it is one. -/
theorem parse?_eq_some_iff : parse? s = some j ↔ IsDocument s j := by
  constructor
  · intro h
    obtain ⟨rest, hread, hrest⟩ := exists_of_parse? h
    obtain ⟨gap, w, rfl, hgap, hw⟩ := sound _ _ _ _ hread
    exact ⟨⟨j, w, gap, rest, hgap, hrest⟩, rfl, rfl, hw⟩
  · rintro ⟨p, rfl, rfl, hp⟩
    have hcloses : Closes p.after := by simpa using closes_append p.isGap_after closes_nil
    rw [parse?, Part.written, hp.readFirst p.isGap_before fun n hn => hcloses]
    simp [skipGap_eq_nil_iff.mpr p.isGap_after]

end PluginAudit.Json
