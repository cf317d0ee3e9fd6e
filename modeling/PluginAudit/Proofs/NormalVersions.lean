import PluginAudit.Proofs.Numerals
import PluginAudit.Proofs.Texts
import PluginAudit.Proofs.VersionOrder

/-!
Normal forms of versions. Versions compare as equal exactly if their normal forms are equal, and a
list of versions keeps the first of those that are equal.
-/

open List

namespace PluginAudit.Version

open Decimal (natOfDigits maxInt natText)
open Text

variable {value : String} {v w : Version} {values : List String} {a b : String}
  {rest digits : List Char} {forms : List String}

/-! ### Reading -/

/-- Digits and dots that start and end with a digit. -/
structure IsNumeric (s : List Char) : Prop where
  all : ∀ c ∈ s, (c == '.' || c.isDigit) = true
  head : ∀ c ∈ s.head?, c.isDigit = true
  last : ∀ c ∈ s.getLast?, c.isDigit = true
  ne_nil : s ≠ []

lemma trimBy_eq_self {p : Char → Bool} {s : List Char} (hhead : ∀ c ∈ s.head?, p c = false)
    (hlast : ∀ c ∈ s.getLast?, p c = false) : trimBy p s = s := by
  have hreverse : ∀ c ∈ s.reverse.head?, p c = false := by rwa [head?_reverse]
  rw [trimBy, trimStartBy, (takeWhile_of_head hhead).2, trimEndBy, (takeWhile_of_head hreverse).2,
    reverse_reverse]

lemma numericPart_of_trimChars {n : List Char} (h : trimChars value.toList = n ++ rest)
    (hn : IsNumeric n)
    (hrest : ∀ c ∈ rest.head?, (c == '.' || c.isDigit) = false) : numericPart value = n := by
  have hdot : ∀ c : Char, c.isDigit → (c == '.') = false := by
    intro c hc
    rw [beq_eq_false_iff_ne]
    rintro rfl
    exact absurd hc (by decide)
  have htake : (n ++ rest).takeWhile (fun c => c == '.' || c.isDigit) = n := by
    rw [takeWhile_append_of_pos hn.all, (takeWhile_of_head hrest).1, append_nil]
  have htrim : trimBy (· == '.') n = n :=
    trimBy_eq_self (fun c hc => hdot c (hn.head c hc)) fun c hc => hdot c (hn.last c hc)
  unfold numericPart
  rw [h]
  split
  · -- no digit is the letter that may stand before a version
    rename_i tail heq
    have hv := hn.head 'v' (by rw [← head?_append_of_ne_nil _ hn.ne_nil, heq]; rfl)
    exact absurd hv (by decide)
  · dsimp only
    rw [htake, htrim]

lemma part?_eq_some_iff {n : Nat} :
    part? digits = some n ↔ digits ≠ [] ∧ natOfDigits digits = n ∧ (n : Int) ≤ maxInt := by
  unfold part?
  by_cases hempty : digits = []
  · simp [hempty]
  · simp only [List.isEmpty_iff, hempty, if_false, Option.ite_none_right_eq_some, Option.some.injEq,
      ne_eq, not_false_eq_true, true_and]
    constructor
    · rintro ⟨hle, rfl⟩
      exact ⟨rfl, hle⟩
    · rintro ⟨rfl, hle⟩
      exact ⟨hle, rfl⟩

lemma part?_eq_none_iff : part? digits = none ↔ digits = [] ∨ maxInt < natOfDigits digits := by
  unfold part?
  by_cases hempty : digits = []
  · simp [hempty]
  · simp [hempty]

/-- The parts that a version is read from: those between dots, the first three of them. -/
def segments (value : String) : List (List Char) := (splitOnChar '.' (numericPart value)).take 3

/-- A text is no version if it has no digits at its start, or if one of the first three parts is
empty or too large. -/
lemma parse?_eq_none_iff : parse? value = none ↔ numericPart value = [] ∨
    ∃ segment ∈ segments value, segment = [] ∨ maxInt < natOfDigits segment := by
  simp only [← part?_eq_none_iff]
  unfold parse? segments
  cases hnumeric : numericPart value with
  | nil => simp
  | cons c numeric =>
    have hne := splitOnChar_ne_nil '.' (c :: numeric)
    dsimp only
    generalize splitOnChar '.' (c :: numeric) = parts at hne ⊢
    rcases parts with _ | ⟨a, _ | ⟨b, _ | ⟨d, more⟩⟩⟩
    · exact absurd rfl hne
    · cases ha : part? a <;> simp [ha]
    · cases ha : part? a <;> cases hb : part? b <;> simp [ha, hb]
    · cases ha : part? a <;> cases hb : part? b <;> cases hd : part? d <;> simp [ha, hb, hd]

lemma parts_of_parse? (h : parse? value = some v) :
    [v.major, v.minor, v.patch] = ((segments value).map natOfDigits ++ [0, 0]).take 3 := by
  unfold parse? at h
  unfold segments
  split at h
  · cases h
  · split at h <;> simp only [Option.bind_eq_bind, Option.bind_eq_some_iff, part?_eq_some_iff,
      reduceCtorEq] at h
    case h_1 htake =>
      obtain ⟨major, ⟨-, rfl, -⟩, ⟨⟩⟩ := h
      rw [htake]
      rfl
    case h_2 htake =>
      obtain ⟨major, ⟨-, rfl, -⟩, minor, ⟨-, rfl, -⟩, ⟨⟩⟩ := h
      rw [htake]
      rfl
    case h_3 htake =>
      obtain ⟨major, ⟨-, rfl, -⟩, minor, ⟨-, rfl, -⟩, patch, ⟨-, rfl, -⟩, ⟨⟩⟩ := h
      rw [htake]
      rfl

lemma parse?_congr {other : String} (h : numericPart value = numericPart other) :
    parse? value = parse? other := by
  unfold parse?
  rw [h]

@[simp] lemma numericPart_trim (value : String) : numericPart (trim value) = numericPart value := by
  unfold numericPart
  rw [toList_trim, trimChars_of_trimmed (trimmed_trimChars _)]

@[simp] lemma parse?_trim (value : String) : parse? (trim value) = parse? value :=
  parse?_congr (numericPart_trim value)

/-! ### Normal forms -/

/-- A version whose parts fit sixty-four bits. -/
structure Fits (v : Version) : Prop where
  major : (v.major : Int) ≤ maxInt
  minor : (v.minor : Int) ≤ maxInt
  patch : (v.patch : Int) ≤ maxInt

lemma fits_of_parse? (h : parse? value = some v) : v.Fits := by
  have hle : ∀ n ∈ [v.major, v.minor, v.patch], (n : Int) ≤ maxInt := by
    rw [parts_of_parse? h]
    intro n hn
    rcases mem_append.mp (mem_of_mem_take hn) with hn | hn
    · obtain ⟨segment, hsegment, rfl⟩ := mem_map.mp hn
      by_contra hlarge
      have hnone := parse?_eq_none_iff.mpr (.inr ⟨segment, hsegment, .inr (not_le.mp hlarge)⟩)
      rw [h] at hnone
      cases hnone
    · have hzero : n = 0 := by simpa using hn
      rw [hzero]
      decide
  exact ⟨hle _ (by simp), hle _ (by simp), hle _ (by simp)⟩

lemma isDigit_natText (n : Nat) :
    (∀ c ∈ (natText n).toList, c.isDigit) ∧ (natText n).toList ≠ [] := by
  obtain ⟨first, rest, htext, -, -, hall, -⟩ := Json.natText_spec n
  rw [htext]
  exact ⟨all_eq_true.mp hall, cons_ne_nil _ _⟩

lemma dot_notMem_natText (n : Nat) : '.' ∉ (natText n).toList := by
  intro h
  exact absurd ((isDigit_natText n).1 '.' h) (by decide)

lemma toList_normalText (v : Version) : v.normalText.toList = (natText v.major).toList ++
    '.' :: ((natText v.minor).toList ++ '.' :: (natText v.patch).toList) := by
  simp [normalText]

lemma isNumeric_normalText (v : Version) : IsNumeric v.normalText.toList := by
  obtain ⟨hmajor, hne⟩ := isDigit_natText v.major
  obtain ⟨hpatch, hne'⟩ := isDigit_natText v.patch
  have hminor := (isDigit_natText v.minor).1
  rw [toList_normalText]
  refine ⟨?_, ?_, ?_, by simp⟩
  · intro c hc
    simp only [mem_append, mem_cons] at hc
    rcases hc with hc | rfl | hc | rfl | hc
    · simp [hmajor c hc]
    · rfl
    · simp [hminor c hc]
    · rfl
    · simp [hpatch c hc]
  · intro c hc
    rw [head?_append_of_ne_nil _ hne] at hc
    exact hmajor c (mem_of_head? hc)
  · intro c hc
    rw [getLast?_append_of_ne_nil _ (cons_ne_nil _ _), ← cons_append,
      getLast?_append_of_ne_nil _ (cons_ne_nil _ _), ← singleton_append,
      getLast?_append_of_ne_nil _ hne'] at hc
    exact hpatch c (mem_of_getLast? hc)

@[simp] lemma splitOnChar_normalText (v : Version) : splitOnChar '.' v.normalText.toList =
    [(natText v.major).toList, (natText v.minor).toList, (natText v.patch).toList] := by
  rw [toList_normalText, splitOnChar_append, splitOnChar_append,
    splitOnChar_of_notMem (dot_notMem_natText _),
    splitOnChar_of_notMem (dot_notMem_natText _), splitOnChar_of_notMem (dot_notMem_natText _)]
  rfl

lemma part?_natText {n : Nat} (h : (n : Int) ≤ maxInt) : part? (natText n).toList = some n :=
  part?_eq_some_iff.mpr ⟨(isDigit_natText n).2, Json.natOfDigits_natText n, h⟩

/-- A text that starts with the normal form of a version, and goes on with neither a digit nor a
dot, is read as this version. -/
lemma parse?_of_trimChars (hv : v.Fits) (h : trimChars value.toList = v.normalText.toList ++ rest)
    (hrest : ∀ c ∈ rest.head?, (c == '.' || c.isDigit) = false) : parse? value = some v := by
  have hnumeric := numericPart_of_trimChars h (isNumeric_normalText v) hrest
  unfold parse?
  rw [hnumeric]
  split
  · exact absurd ‹_› (isNumeric_normalText v).ne_nil
  · rw [splitOnChar_normalText]
    simp [part?_natText hv.major, part?_natText hv.minor, part?_natText hv.patch]

@[simp] lemma trimChars_normalText (v : Version) :
    trimChars v.normalText.toList = v.normalText.toList := by
  refine trimChars_of_trimmed (trimmed_of_forall fun c hc => ?_)
  have hc := (isNumeric_normalText v).all c hc
  cases hspace : isSpace c with
  | false => rfl
  | true =>
    rw [isSpace_iff] at hspace
    simp only [Bool.or_eq_true, beq_iff_eq, Char.isDigit, Bool.and_eq_true, decide_eq_true_eq] at hc
    rcases hc with rfl | ⟨hlow, hhigh⟩
    · exact absurd hspace (by decide)
    · have hcodes : ∀ n ∈ spaceCodes, n < 48 ∨ 57 < n := by decide
      have hlow' : 48 ≤ c.toNat := hlow
      have hhigh' : c.toNat ≤ 57 := hhigh
      have := hcodes _ hspace
      omega

lemma parse?_normalText (h : v.Fits) : parse? v.normalText = some v := by
  have htrim : trimChars v.normalText.toList = v.normalText.toList ++ [] := by
    rw [trimChars_normalText, append_nil]
  exact parse?_of_trimChars h htrim (by simp)

lemma normalize_of_parse? (h : parse? value = some v) : normalize value = .ok v.normalText := by
  rw [normalize, h]

lemma normalize_ok_iff {n : String} :
    normalize value = .ok n ↔ ∃ v, parse? value = some v ∧ v.normalText = n := by
  unfold normalize
  cases parse? value with
  | none => simp
  | some v => simp

lemma normalText_inj (hv : v.Fits) (hw : w.Fits) (h : v.normalText = w.normalText) : v = w := by
  have hparse := parse?_normalText hv
  rw [h, parse?_normalText hw] at hparse
  exact (Option.some.inj hparse).symm

/-! ### Comparing -/

lemma parts_inj (h : v.parts = w.parts) : v = w := by
  obtain ⟨a, b, c⟩ := v
  obtain ⟨a', b', c'⟩ := w
  simp only [parts, EmbeddingLike.apply_eq_iff_eq, Prod.mk.injEq] at h
  obtain ⟨rfl, rfl, rfl⟩ := h
  rfl

lemma compareTexts_of_parse? (ha : parse? a = some v) (hb : parse? b = some w) :
    compareTexts a b = compare v.parts w.parts := by
  have hkeya : orderKey a = Sum.inrₗ v.parts := by rw [orderKey, ha]
  have hkeyb : orderKey b = Sum.inrₗ w.parts := by rw [orderKey, hb]
  cases hcompare : compareTexts a b with
  | lt =>
    rw [compareTexts_eq_lt_iff, hkeya, hkeyb, Sum.Lex.inr_lt_inr_iff] at hcompare
    exact (compare_lt_iff_lt.mpr hcompare).symm
  | gt =>
    rw [compareTexts_eq_gt_iff, hkeya, hkeyb, Sum.Lex.inr_lt_inr_iff] at hcompare
    exact (compare_gt_iff_gt.mpr hcompare).symm
  | eq =>
    have hle := (compareTexts_ne_gt_iff a b).mp (by simp [hcompare])
    have hge : orderKey b ≤ orderKey a := by
      rw [← not_lt, ← compareTexts_eq_lt_iff, hcompare]
      simp
    rw [hkeya, hkeyb, Sum.Lex.inr_le_inr_iff] at hle
    rw [hkeya, hkeyb, Sum.Lex.inr_le_inr_iff] at hge
    exact (compare_eq_iff_eq.mpr (le_antisymm hle hge)).symm

lemma compareTexts_eq_eq_iff (ha : parse? a = some v) (hb : parse? b = some w) :
    compareTexts a b = .eq ↔ normalize a = normalize b := by
  rw [compareTexts_of_parse? ha hb, compare_eq_iff_eq, normalize_of_parse? ha,
    normalize_of_parse? hb, Except.ok.injEq]
  constructor
  · intro h
    rw [parts_inj h]
  · intro h
    rw [normalText_inj (fits_of_parse? ha) (fits_of_parse? hb) h]

lemma compareTexts_of_unread (ha : parse? a = none) (hb : parse? b = some w) :
    compareTexts a b = .lt := by
  rw [compareTexts, ha, hb]

/-! ### Lists of versions -/

def firstOfEach : List String → List String
  | [] => []
  | value :: values =>
    value :: (firstOfEach values).filter fun other => compareTexts value other != .eq

def given (values : List String) : List String := values.filter fun value => !isBlank value

def isUnread (value : String) : Bool := !isBlank value && (parse? value).isNone

def hasForm (forms : List String) (value : String) : Bool :=
  ((parse? value).map normalText).any forms.contains

lemma firstOfEach_subset (values : List String) : firstOfEach values ⊆ values := by
  induction values with
  | nil => exact List.Subset.refl _
  | cons value values ih =>
    rw [firstOfEach]
    exact cons_subset_cons value fun other hother => ih (mem_filter.mp hother).1

lemma pairwise_firstOfEach (values : List String) :
    (firstOfEach values).Pairwise fun a b => compareTexts a b ≠ .eq := by
  induction values with
  | nil => exact List.Pairwise.nil
  | cons value values ih =>
    rw [firstOfEach, pairwise_cons]
    refine ⟨fun other hother => ?_, ih.filter _⟩
    simpa using (mem_filter.mp hother).2

lemma firstOfEach_eq_self (h : values.Pairwise fun a b => compareTexts a b ≠ .eq) :
    firstOfEach values = values := by
  induction values with
  | nil => rfl
  | cons value values ih =>
    rw [pairwise_cons] at h
    rw [firstOfEach, ih h.2, filter_eq_self.mpr]
    intro other hother
    simpa using h.1 other hother

lemma hasForm_cons {other : String} (hv : parse? value = some v) (hw : parse? other = some w) :
    hasForm (v.normalText :: forms) other =
      (compareTexts value other == .eq || hasForm forms other) := by
  have heq : compareTexts value other = .eq ↔ w.normalText = v.normalText := by
    rw [compareTexts_eq_eq_iff hv hw, normalize_of_parse? hv, normalize_of_parse? hw,
      Except.ok.injEq, eq_comm]
  rw [Bool.eq_iff_iff]
  simp [hasForm, hw, heq]

lemma hasForm_cons_of_mem {form : String} (h : form ∈ forms) (value : String) :
    hasForm (form :: forms) value = hasForm forms value := by
  unfold hasForm
  cases (parse? value).map normalText with
  | none => rfl
  | some other =>
    rw [Option.any_some, Option.any_some, contains_cons, Bool.or_eq_right_iff_imp, beq_iff_eq]
    rintro rfl
    exact contains_iff_mem.mpr h

/-- Leaving out what is equal to a version adds its form to those seen. -/
lemma filter_hasForm_cons (seen : List String) (hv : parse? value = some v)
    (h : ∀ other ∈ values, parse? other ≠ none) :
    values.filter (fun other => !hasForm (v.normalText :: seen) other) = (values.filter fun other =>
        compareTexts value other != .eq).filter fun other => !hasForm seen other := by
  rw [filter_filter]
  refine filter_congr fun other hother => ?_
  obtain ⟨w, hw⟩ := Option.ne_none_iff_exists'.mp (h other hother)
  rw [hasForm_cons hv hw, Bool.not_or, Bool.and_comm]
  rfl

lemma parse?_ne_none_of_mem_firstOfEach (h : values.find? isUnread = none) :
    ∀ value ∈ firstOfEach (given values), parse? value ≠ none := by
  intro value hvalue
  obtain ⟨hmem, hgiven⟩ := mem_filter.mp (firstOfEach_subset _ hvalue)
  have hread := find?_eq_none.mp h value hmem
  rwa [isUnread, hgiven, Bool.true_and, Option.isNone_iff_eq_none] at hread

/-- Going through a list with the normal forms seen so far: the first entry that is no version is
refused; if there is none, the first of those that are equal is kept. -/
lemma normalizeFrom_eq (seen values : List String) :
    normalizeFrom seen values = match values.find? isUnread with
      | some value => .error (.invalid value)
      | none => .ok (((firstOfEach (given values)).filter fun value => !hasForm seen value).map trim) := by
  induction values generalizing seen with
  | nil => rfl
  | cons value values ih =>
    unfold normalizeFrom
    cases hblank : isBlank value with
    | true =>
      have hread : isUnread value = false := by simp [isUnread, hblank]
      have hgiven : given (value :: values) = given values := by simp [given, hblank]
      rw [if_pos rfl, ih, find?_cons_of_neg (by simp [hread]), hgiven]
    | false =>
      rw [if_neg Bool.false_ne_true]
      cases hparse : parse? value with
      | none =>
        have hunread : isUnread value := by simp [isUnread, hblank, hparse]
        rw [find?_cons_of_pos hunread, normalize, hparse]
      | some v =>
        have hread : isUnread value = false := by simp [isUnread, hparse]
        have hgiven : given (value :: values) = value :: given values := by simp [given, hblank]
        have hform : hasForm seen value = seen.contains v.normalText := by simp [hasForm, hparse]
        rw [normalize_of_parse? hparse, find?_cons_of_neg (by simp [hread]), hgiven, firstOfEach]
        dsimp only
        rw [ih, ih, filter_cons, hform]
        cases hfind : values.find? isUnread with
        | some bad => simp
        | none =>
          have hfilter := filter_hasForm_cons seen hparse (parse?_ne_none_of_mem_firstOfEach hfind)
          cases hseen : seen.contains v.normalText with
          | true =>
            -- the entry and all that is equal to it are left out anyway
            simp only [hasForm_cons_of_mem (contains_iff_mem.mp hseen)] at hfilter
            simp [hfilter]
          | false => simp [hfilter]

/-- A list of versions is refused if an entry is neither blank nor a version, and the error names
the first one. Otherwise the first of those that are equal is kept, trimmed. -/
lemma normalizeList_eq (values : List String) :
    normalizeList values = match values.find? isUnread with
      | some value => .error (.invalid value)
      | none => .ok ((firstOfEach (given values)).map trim) := by
  have hnone : ∀ value, (!hasForm [] value) := by
    intro value
    unfold hasForm
    cases (parse? value).map normalText <;> rfl
  rw [normalizeList, normalizeFrom_eq, filter_eq_self.mpr fun value _ => hnone value]

lemma normalizeList_eq_error_iff : (∃ e, normalizeList values = .error e) ↔
      ∃ value ∈ values, isBlank value = false ∧ parse? value = none := by
  have hunread : ∀ value, isUnread value ↔ isBlank value = false ∧ parse? value = none := by
    simp [isUnread]
  simp only [← hunread]
  rw [normalizeList_eq]
  cases hfind : values.find? isUnread with
  | none =>
    simp only [reduceCtorEq, exists_false, false_iff, not_exists, not_and]
    exact find?_eq_none.mp hfind
  | some value =>
    exact iff_of_true ⟨_, rfl⟩ ⟨value, mem_of_find?_eq_some hfind, find?_some hfind⟩

lemma isBlank_of_parse? (h : parse? value ≠ none) : isBlank value = false := by
  cases hblank : isBlank value with
  | false => rfl
  | true =>
    have htrim : trimChars value.toList = [] := by
      rw [trimChars, trimBy, trimStartBy, dropWhile_eq_nil_iff.mpr (all_eq_true.mp hblank)]
      rfl
    refine absurd ?_ h
    rw [parse?_eq_none_iff, numericPart, htrim]
    exact .inl rfl

lemma compareTexts_trim (ha : parse? a ≠ none) (hb : parse? b ≠ none) :
    compareTexts (trim a) (trim b) = compareTexts a b := by
  obtain ⟨v, hv⟩ := Option.ne_none_iff_exists'.mp ha
  obtain ⟨w, hw⟩ := Option.ne_none_iff_exists'.mp hb
  rw [compareTexts_of_parse? hv hw,
    compareTexts_of_parse? ((parse?_trim a).trans hv) ((parse?_trim b).trans hw)]

lemma normalizeList_of_normalizeList {result : List String}
    (h : normalizeList values = .ok result) : normalizeList result = .ok result := by
  rw [normalizeList_eq] at h
  split at h
  · cases h
  · rename_i hfind
    cases h
    have hkept := parse?_ne_none_of_mem_firstOfEach hfind
    have hread : ∀ value ∈ (firstOfEach (given values)).map trim, parse? value ≠ none := by
      intro value hvalue
      obtain ⟨other, hother, rfl⟩ := mem_map.mp hvalue
      rw [parse?_trim]
      exact hkept other hother
    have hunread : ((firstOfEach (given values)).map trim).find? isUnread = none := by
      rw [find?_eq_none]
      intro value hvalue
      simp [isUnread, hread value hvalue]
    have hgiven :
        given ((firstOfEach (given values)).map trim) = (firstOfEach (given values)).map trim := by
      rw [given, filter_eq_self]
      intro value hvalue
      rw [isBlank_of_parse? (hread value hvalue)]
      rfl
    have hdistinct :
        ((firstOfEach (given values)).map trim).Pairwise fun a b => compareTexts a b ≠ .eq := by
      rw [pairwise_map]
      refine (pairwise_firstOfEach (given values)).imp_of_mem fun ha hb hne => ?_
      rwa [compareTexts_trim (hkept _ ha) (hkept _ hb)]
    have htrim : trim ∘ trim = trim := funext trim_trim
    rw [normalizeList_eq, hunread, hgiven, firstOfEach_eq_self hdistinct]
    simp only [map_map, htrim]

/-! ### Main statement -/

/-- The order of texts as versions, normal forms and lists of versions. The order is total and
transitive. What is no version comes first, and versions come in the order of their three parts. Two
of them are equal in the order exactly if they have the same normal form, which is its own normal
form. A list is refused exactly if an entry is neither blank nor a version, that is, has no digits
at its start, or an empty part or one beyond sixty-four bits among the first three; otherwise it is
reduced to the first of those that are equal, trimmed, and reducing it again changes nothing. -/
theorem order_and_normal_forms :
    (∀ a b, compareTexts a b = (compareTexts b a).swap) ∧
    (∀ a b c, compareTexts a b ≠ .gt → compareTexts b c ≠ .gt → compareTexts a c ≠ .gt) ∧
    (∀ a b, parse? a = none → parse? b ≠ none → compareTexts a b = .lt) ∧
    (∀ a b v w, parse? a = some v → parse? b = some w →
      compareTexts a b = compare v.parts w.parts ∧
        (compareTexts a b = .eq ↔ normalize a = normalize b)) ∧
    (∀ value v, parse? value = some v →
      [v.major, v.minor, v.patch] = ((segments value).map natOfDigits ++ [0, 0]).take 3) ∧
    (∀ a n, normalize a = .ok n → normalize n = .ok n) ∧
    (∀ value, parse? value = none ↔ numericPart value = [] ∨
      ∃ segment ∈ segments value, segment = [] ∨ maxInt < natOfDigits segment) ∧
    ∀ values, ((∃ e, normalizeList values = .error e) ↔ ∃ value ∈ values, isBlank value = false ∧
      parse? value = none) ∧
      ((∀ value ∈ values, isBlank value = false → parse? value ≠ none) →
        ∃ kept, normalizeList values = .ok kept ∧ kept = (firstOfEach (given values)).map trim ∧
          normalizeList kept = .ok kept) := by
  refine ⟨fun a b => (compareTexts_swap b a).symm, ?_, ?_, ?_, fun value v => parts_of_parse?, ?_,
    fun value => parse?_eq_none_iff, ?_⟩
  · intro a b c hab hbc
    rw [compareTexts_ne_gt_iff] at hab hbc ⊢
    exact hab.trans hbc
  · intro a b ha hb
    obtain ⟨w, hw⟩ := Option.ne_none_iff_exists'.mp hb
    exact compareTexts_of_unread ha hw
  · intro a b v w ha hb
    exact ⟨compareTexts_of_parse? ha hb, compareTexts_eq_eq_iff ha hb⟩
  · intro a n hn
    obtain ⟨v, hv, rfl⟩ := normalize_ok_iff.mp hn
    exact normalize_of_parse? (parse?_normalText (fits_of_parse? hv))
  · intro values
    refine ⟨normalizeList_eq_error_iff, fun hread => ?_⟩
    have hkept : normalizeList values = .ok ((firstOfEach (given values)).map trim) := by
      rw [normalizeList_eq, find?_eq_none.mpr]
      intro value hvalue
      simpa [isUnread] using hread value hvalue
    exact ⟨_, hkept, rfl, normalizeList_of_normalizeList hkept⟩

theorem order_and_normal_forms_mixed :
    compareTexts "nightly" " v8.1 " = .lt ∧ compareTexts "8.1.0RC1" " v8.1 " = .eq ∧
      normalize "8.1.0RC1" = .ok "8.1.0" ∧ parse? "7.9223372036854775808" = none ∧
      ∃ kept, normalizeList ["8.1.0RC1", " ", "7.4.33.2", " v8.1 "] = .ok kept ∧
        kept = ["8.1.0RC1", "7.4.33.2"] ∧ normalizeList kept = .ok kept := by
  obtain ⟨-, -, hunread, hparts, -, -, hnone, hlist⟩ := order_and_normal_forms
  have hrc : parse? "8.1.0RC1" = some ⟨8, 1, 0⟩ := by decide +kernel
  have hspaced : parse? " v8.1 " = some ⟨8, 1, 0⟩ := by decide +kernel
  refine ⟨hunread _ _ (by decide +kernel) (by simp [hspaced]), ?_, by decide +kernel, ?_, ?_⟩
  · rw [(hparts _ _ _ _ hrc hspaced).2]
    decide +kernel
  · exact (hnone _).mpr
      (.inr ⟨"9223372036854775808".toList, by decide +kernel, .inr (by decide +kernel)⟩)
  · obtain ⟨kept, hkept, hfirst, hagain⟩ :=
      (hlist ["8.1.0RC1", " ", "7.4.33.2", " v8.1 "]).2 (by decide +kernel)
    exact ⟨kept, hkept, hfirst.trans (by decide +kernel), hagain⟩

end PluginAudit.Version
