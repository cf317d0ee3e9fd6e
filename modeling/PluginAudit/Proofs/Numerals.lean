import Mathlib.Algebra.Group.Nat.Defs
import Mathlib.Data.List.TakeDrop
import Mathlib.Data.List.TakeWhile
import Mathlib.Tactic.Common
import PluginAudit.Decimal.Numeral
import PluginAudit.Json.Reader

/-!
The numerals that are written. Whole numbers and finite doubles are written as numerals of JSON, and
the reader takes such a numeral up to its end.
-/

open List

namespace PluginAudit

open Decimal (digitChar digitsOf natOfDigits natText readInt? intText)

/-! ### Digits -/

namespace Decimal

/-- Digits as they are written: decimal ones, the first of which is not zero. -/
structure IsWritten (digits : List Nat) : Prop where
  lt_ten : ∀ d ∈ digits, d < 10
  head_ne_zero : ∀ d ∈ digits.head?, d ≠ 0

lemma isWritten_nil : IsWritten [] where
  lt_ten := by simp
  head_ne_zero := by simp

lemma IsWritten.of_start {digits more : List Nat} (h : IsWritten more) (hpre : digits <+: more) :
    IsWritten digits where
  lt_ten := fun d hd => h.lt_ten d (hpre.mem hd)
  head_ne_zero := fun d hd => by
    obtain ⟨rest, rfl⟩ := hpre
    refine h.head_ne_zero d ?_
    rw [head?_append, Option.mem_def.mp hd]
    rfl

lemma exists_digitsOf_go {fuel n : Nat} (hn : n < 10 ^ fuel) (tail : List Nat) :
    ∃ digits, digitsOf.go fuel n tail = digits ++ tail ∧ IsWritten digits ∧ (digits = [] ↔ n = 0) ∧
      digits.foldl (fun n d => n * 10 + d) 0 = n := by
  induction fuel generalizing n tail with
  | zero =>
    obtain rfl : n = 0 := by simpa using hn
    exact ⟨[], rfl, isWritten_nil, by simp, rfl⟩
  | succ fuel ih =>
    by_cases hzero : n = 0
    · subst hzero
      exact ⟨[], by simp [digitsOf.go], isWritten_nil, by simp, rfl⟩
    · obtain ⟨digits, hgo, hdigits, hnil, hvalue⟩ :=
        ih (n := n / 10) (Nat.div_lt_of_lt_mul (by rw [Nat.pow_succ] at hn; omega)) (n % 10 :: tail)
      refine ⟨digits ++ [n % 10], by simp [digitsOf.go, hzero, hgo], ⟨?_, ?_⟩, by simp [hzero],
        by rw [foldl_append, hvalue, foldl_cons, foldl_nil]; omega⟩
      · intro d hd
        rcases mem_append.mp hd with hd | hd
        · exact hdigits.lt_ten d hd
        · rw [mem_singleton.mp hd]
          omega
      · intro d hd
        cases digits with
        | nil =>
          -- the number is one digit
          obtain rfl : n % 10 = d := by simpa using hd
          have := hnil.mp rfl
          omega
        | cons first rest => exact hdigits.head_ne_zero d hd

lemma lt_ten_pow_log2 (n : Nat) : n < 10 ^ (n.log2 + 1) :=
  Nat.lt_of_lt_of_le Nat.lt_log2_self (Nat.pow_le_pow_left (by omega) _)

lemma isWritten_digitsOf (n : Nat) : IsWritten (digitsOf n) ∧ (digitsOf n = [] ↔ n = 0) ∧
    (digitsOf n).foldl (fun n d => n * 10 + d) 0 = n := by
  obtain ⟨digits, hgo, hdigits⟩ := exists_digitsOf_go (lt_ten_pow_log2 n) []
  rw [append_nil] at hgo
  rwa [digitsOf, hgo]

lemma trimZeros_start (digits : List Nat) : trimZeros digits <+: digits := by
  rw [← reverse_suffix, trimZeros, reverse_reverse]
  exact dropWhile_suffix _

lemma isWritten_search (r : Rounding) (k : Int) (fuel n : Nat) :
    IsWritten (Rounding.shortest.search r k fuel n).digits := by
  induction fuel generalizing n with
  | zero => exact (isWritten_digitsOf _).1
  | succ fuel ih =>
    rw [Rounding.shortest.search]
    split
    · exact (isWritten_digitsOf _).1.of_start (trimZeros_start _)
    · exact ih _

lemma isWritten_shortest (x : Double) : IsWritten (shortest x).digits := by
  rw [shortest]
  split
  · exact isWritten_nil
  · exact isWritten_search _ _ _ _

lemma isDigit_digitChar {d : Nat} (h : d < 10) : (digitChar d).isDigit := by
  have hall : ∀ d < 10, (digitChar d).isDigit := by decide
  exact hall d h

lemma digitChar_ne_zero {d : Nat} (h : d < 10) (hd : d ≠ 0) : digitChar d ≠ '0' := by
  have hall : ∀ d < 10, d ≠ 0 → digitChar d ≠ '0' := by decide
  exact hall d h hd

end Decimal

namespace Json

variable {s rest whole fraction exponent : List Char}

/-! ### Numerals -/

/-- Some digits, at least one. -/
structure IsDigits (s : List Char) : Prop where
  ne_nil : s ≠ []
  digit : ∀ c ∈ s, c.isDigit = true

lemma IsDigits.head_ne_sign {c : Char} (h : IsDigits (c :: s)) : c ≠ '-' ∧ c ≠ '+' := by
  have hdigit := h.digit c mem_cons_self
  constructor <;> rintro rfl <;> exact absurd hdigit (by decide)

/-- A zero, or digits that start with another one. -/
inductive IsWhole : List Char → Prop
  | zero : IsWhole ['0']
  | digits {c : Char} {s : List Char} (head : c ≠ '0') (all : IsDigits (c :: s)) : IsWhole (c :: s)

/-- Digits after a point, or nothing. -/
inductive IsFraction : List Char → Prop
  | none : IsFraction []
  | digits {s : List Char} (all : IsDigits s) : IsFraction ('.' :: s)

/-- Digits after a mark and perhaps a sign, or nothing. -/
inductive IsExponent : List Char → Prop
  | none : IsExponent []
  | digits {mark : Char} {sign s : List Char} (mark_eq : mark = 'e' ∨ mark = 'E')
    (sign_eq : sign = [] ∨ sign = ['+'] ∨ sign = ['-']) (all : IsDigits s) :
    IsExponent (mark :: (sign ++ s))

def signText (negative : Bool) : List Char := if negative then ['-'] else []

/-- The numerals of documents. -/
inductive IsNumeral : List Char → Prop
  | mk {whole fraction exponent : List Char} (negative : Bool) (isWhole : IsWhole whole)
    (isFraction : IsFraction fraction) (isExponent : IsExponent exponent) :
    IsNumeral (signText negative ++ whole ++ fraction ++ exponent)

/-- Nothing follows, or a character that cannot go on a numeral. -/
def Closes (rest : List Char) : Prop :=
  ∀ c ∈ rest.head?, c = ',' ∨ c = ']' ∨ c = '\x7d' ∨ isGap c = true

lemma closes_nil : Closes [] := by simp [Closes]

/-! ### Reading -/

lemma spanDigits_append (h : ∀ c ∈ s, c.isDigit) (hrest : ∀ c ∈ rest.head?, c.isDigit = false) :
    spanDigits (s ++ rest) = (s, rest) := by
  rw [spanDigits, span_eq_takeWhile_dropWhile, takeWhile_append_of_pos h, dropWhile_append_of_pos h]
  cases rest with
  | nil => simp
  | cons c rest =>
    have hc := hrest c rfl
    rw [takeWhile_cons_of_neg (by simp [hc]), dropWhile_cons_of_neg (by simp [hc]), append_nil]

lemma wholePart?_append (h : IsWhole whole) (hrest : ∀ c ∈ rest.head?, c.isDigit = false) :
    wholePart? (whole ++ rest) = some (whole, rest) := by
  cases h with
  | zero => rfl
  | @digits c s head all =>
    have hspan := spanDigits_append all.digit hrest
    rw [cons_append] at hspan ⊢
    unfold wholePart?
    split
    · simp_all
    · rw [hspan]

lemma fractionPart?_append (h : IsFraction fraction)
    (hrest : ∀ c ∈ rest.head?, c.isDigit = false ∧ c ≠ '.') :
    fractionPart? (fraction ++ rest) = some (fraction, rest) := by
  cases h with
  | none =>
    cases rest with
    | nil => rfl
    | cons c rest =>
      have hc := (hrest c rfl).2
      unfold fractionPart?
      split <;> simp_all
  | @digits s all =>
    have hspan := spanDigits_append all.digit fun c hc => (hrest c hc).1
    simp only [cons_append, fractionPart?, hspan]
    cases s with
    | nil => exact absurd rfl all.ne_nil
    | cons c s => rfl

lemma exponentPart?_append (h : IsExponent exponent)
    (hrest : ∀ c ∈ rest.head?, c.isDigit = false ∧ c ≠ 'e' ∧ c ≠ 'E') :
    exponentPart? (exponent ++ rest) = some (exponent, rest) := by
  cases h with
  | none =>
    cases rest with
    | nil => rfl
    | cons c rest =>
      have hc := (hrest c rfl).2
      unfold exponentPart?
      simp [hc.1, hc.2]
  | @digits mark sign s mark_eq sign_eq all =>
    have hspan := spanDigits_append all.digit fun c hc => (hrest c hc).1
    cases s with
    | nil => exact absurd rfl all.ne_nil
    | cons d s =>
      rw [cons_append] at hspan
      rcases sign_eq with rfl | rfl | rfl <;> simp [exponentPart?, mark_eq, all.head_ne_sign, hspan]

lemma Closes.head_spec (h : Closes rest) {c : Char} (hc : c ∈ rest.head?) :
    c.isDigit = false ∧ c ≠ '.' ∧ c ≠ 'e' ∧ c ≠ 'E' := by
  rcases h c hc with rfl | rfl | rfl | hgap
  · decide
  · decide
  · decide
  · simp only [isGap, Bool.or_eq_true, beq_iff_eq] at hgap
    rcases hgap with ((rfl | rfl) | rfl) | rfl <;> decide

lemma readNumeral_append {n : List Char} (h : IsNumeral n) (hrest : Closes rest) :
    readNumeral (n ++ rest) = some (String.ofList n, rest) := by
  obtain @⟨whole, fraction, exponent, negative, hwhole, hfraction, hexponent⟩ := h
  have hexp : exponentPart? (exponent ++ rest) = some (exponent, rest) :=
    exponentPart?_append hexponent fun c hc => by
      obtain ⟨hdigit, -, he, hE⟩ := hrest.head_spec hc
      exact ⟨hdigit, he, hE⟩
  have hmark : ∀ c ∈ (exponent ++ rest).head?, c.isDigit = false ∧ c ≠ '.' := by
    cases hexponent with
    | none => exact fun c hc => ⟨(hrest.head_spec hc).1, (hrest.head_spec hc).2.1⟩
    | digits mark_eq sign_eq all =>
      rintro c ⟨⟩
      rcases mark_eq with rfl | rfl <;> decide
  have hfrac := fractionPart?_append hfraction hmark
  have hwhole' : wholePart? (whole ++ (fraction ++ (exponent ++ rest))) =
      some (whole, fraction ++ (exponent ++ rest)) := by
    refine wholePart?_append hwhole ?_
    cases hfraction with
    | none => exact fun c hc => (hmark c hc).1
    | digits all =>
      rintro c ⟨⟩
      decide
  cases negative with
  | true => simp [signText, readNumeral, hwhole', hfrac, hexp]
  | false =>
    -- the whole part does not start with a sign
    have hsign : ∀ t, whole ++ (fraction ++ (exponent ++ rest)) ≠ '-' :: t := by
      intro t ht
      cases hwhole with
      | zero => simp at ht
      | digits head all =>
        exact all.head_ne_sign.1 (List.cons.inj ht).1
    simp only [signText, Bool.false_eq_true, if_false, nil_append, append_assoc]
    unfold readNumeral
    split
    rename_i heq
    split at heq
    · exact absurd ‹_› (hsign _)
    · obtain ⟨rfl, rfl⟩ := Prod.mk.inj heq
      simp [hwhole', hfrac, hexp]

/-! ### What was read -/

lemma spanDigits_cases (s : List Char) : (∃ rest, spanDigits s = ([], rest)) ∨ ∃ c digits rest,
      spanDigits s = (c :: digits, rest) ∧ s = c :: digits ++ rest ∧ IsDigits (c :: digits) := by
  rw [spanDigits, span_eq_takeWhile_dropWhile]
  cases htake : s.takeWhile Char.isDigit with
  | nil => exact .inl ⟨_, rfl⟩
  | cons c digits =>
    refine .inr ⟨c, digits, _, rfl, ?_, by simp, fun d hd => mem_takeWhile_imp (htake ▸ hd)⟩
    rw [← htake, takeWhile_append_dropWhile]

lemma wholePart?_eq_some (h : wholePart? s = some (whole, rest)) :
    s = whole ++ rest ∧ IsWhole whole := by
  unfold wholePart? at h
  split at h
  · cases h
    exact ⟨rfl, .zero⟩
  · rename_i hzero
    obtain ⟨after, hspan⟩ | ⟨c, digits, after, hspan, hs, hdigits⟩ := spanDigits_cases s
    · simp [hspan] at h
    · rw [hspan] at h
      cases h
      refine ⟨hs, .digits ?_ hdigits⟩
      rintro rfl
      exact hzero _ hs

lemma fractionPart?_eq_some (h : fractionPart? s = some (fraction, rest)) :
    s = fraction ++ rest ∧ IsFraction fraction := by
  unfold fractionPart? at h
  split at h
  · rename_i t
    obtain ⟨after, hspan⟩ | ⟨c, digits, after, hspan, rfl, hdigits⟩ := spanDigits_cases t
    · simp [hspan] at h
    · rw [hspan] at h
      cases h
      exact ⟨rfl, .digits hdigits⟩
  · cases h
    exact ⟨rfl, .none⟩

lemma exponentPart?_eq_some (h : exponentPart? s = some (exponent, rest)) :
    s = exponent ++ rest ∧ IsExponent exponent := by
  unfold exponentPart? at h
  split at h
  · rename_i mark t
    split at h
    · rename_i hmark
      split at h
      rename_i sign after hsign
      obtain ⟨hchar, rfl⟩ : (sign = [] ∨ sign = ['+'] ∨ sign = ['-']) ∧ t = sign ++ after := by
        split at hsign <;> cases hsign <;> simp
      obtain ⟨found, hspan⟩ | ⟨c, digits, found, hspan, rfl, hdigits⟩ := spanDigits_cases after
      · simp [hspan] at h
      · rw [hspan] at h
        cases h
        exact ⟨by simp, .digits hmark hchar hdigits⟩
    · cases h
      exact ⟨rfl, .none⟩
  · cases h
    exact ⟨rfl, .none⟩

lemma readNumeral_eq_some {n : String} (h : readNumeral s = some (n, rest)) :
    s = n.toList ++ rest ∧ IsNumeral n.toList := by
  unfold readNumeral at h
  split at h
  rename_i sign after hsign
  obtain ⟨negative, rfl, rfl⟩ :
      ∃ negative, sign = signText negative ∧ s = signText negative ++ after := by
    split at hsign <;> cases hsign
    · exact ⟨true, rfl, rfl⟩
    · exact ⟨false, rfl, rfl⟩
  simp only [Option.bind_eq_bind, Option.bind_eq_some_iff] at h
  obtain ⟨⟨whole, s⟩, hwhole, ⟨fraction, s⟩, hfraction, ⟨exponent, s⟩, hexponent, h⟩ := h
  cases h
  obtain ⟨rfl, isWhole⟩ := wholePart?_eq_some hwhole
  obtain ⟨rfl, isFraction⟩ := fractionPart?_eq_some hfraction
  obtain ⟨rfl, isExponent⟩ := exponentPart?_eq_some hexponent
  rw [String.toList_ofList]
  exact ⟨by simp, .mk negative isWhole isFraction isExponent⟩

/-! ### Writing -/

def IsMagnitude (s : List Char) : Prop :=
  ∃ whole fraction exponent, IsWhole whole ∧ IsFraction fraction ∧ IsExponent exponent ∧
    s = whole ++ fraction ++ exponent

lemma IsWhole.isMagnitude (h : IsWhole s) : IsMagnitude s :=
  ⟨s, [], [], h, .none, .none, by simp⟩

lemma IsMagnitude.isNumeral (h : IsMagnitude s) (negative : Bool) :
    IsNumeral (signText negative ++ s) := by
  obtain ⟨whole, fraction, exponent, hwhole, hfraction, hexponent, rfl⟩ := h
  rw [← append_assoc, ← append_assoc]
  exact .mk negative hwhole hfraction hexponent

section Written

open Decimal

variable {digits : List Nat} {s t : List Char}

lemma isDigits_map_digitChar (h : IsWritten digits) (hne : digits ≠ []) :
    IsDigits (digits.map digitChar) where
  ne_nil := by simpa using hne
  digit := by
    intro c hc
    obtain ⟨d, hd, rfl⟩ := mem_map.mp hc
    exact isDigit_digitChar (h.lt_ten d hd)

lemma IsDigits.append (hs : IsDigits s) (ht : ∀ c ∈ t, c.isDigit) : IsDigits (s ++ t) where
  ne_nil := by simp [hs.ne_nil]
  digit := forall_mem_append.mpr ⟨hs.digit, ht⟩

lemma isDigit_of_mem_replicate_zero {n : Nat} {c : Char} (h : c ∈ replicate n '0') : c.isDigit := by
  rw [(mem_replicate.mp h).2]
  decide

lemma isWhole_map_digitChar (h : IsWritten digits) (hne : digits ≠ []) (ht : ∀ c ∈ t, c.isDigit) :
    IsWhole (digits.map digitChar ++ t) := by
  have hall := (isDigits_map_digitChar h hne).append ht
  cases digits with
  | nil => exact absurd rfl hne
  | cons d digits =>
    exact .digits (digitChar_ne_zero (h.lt_ten d mem_cons_self) (h.head_ne_zero d rfl)) hall

lemma isWhole_natText (n : Nat) : IsWhole (natText n).toList := by
  rw [natText]
  split
  · exact .zero
  · rename_i hn
    obtain ⟨hdigits, hnil, -⟩ := isWritten_digitsOf n
    have hwhole := isWhole_map_digitChar (t := []) hdigits (fun h => hn (hnil.mp h)) (by simp)
    rwa [String.toList_ofList, ← append_nil (map _ _)]

lemma isNumeral_intText (n : Int) : IsNumeral (intText n).toList := by
  rw [intText]
  split
  · rw [String.toList_append]
    exact (isWhole_natText _).isMagnitude.isNumeral true
  · exact (isWhole_natText _).isMagnitude.isNumeral false

lemma isMagnitude_positional {d : Digits} (h : IsWritten d.digits) (hne : d.digits ≠ []) :
    IsMagnitude (positional d).toList := by
  have hdigits := isDigits_map_digitChar h hne
  have hfalse : (d.digits.map digitChar).isEmpty = false := by simpa using hne
  simp only [positional, hfalse, Bool.false_eq_true, if_false]
  split
  · -- all digits stand after the point
    refine ⟨['0'], '.' :: (replicate (-d.point).toNat '0' ++ d.digits.map digitChar), [], .zero,
      .digits ⟨by simp [hne], ?_⟩, .none, by simp⟩
    intro c hc
    exact (mem_append.mp hc).elim isDigit_of_mem_replicate_zero (hdigits.digit c)
  · rename_i hpoint
    split
    · rw [String.toList_ofList]
      exact (isWhole_map_digitChar h hne fun c => isDigit_of_mem_replicate_zero).isMagnitude
    · rename_i hlong
      have htake : d.digits.take d.point.toNat ≠ [] := by
        simp only [ne_eq, take_eq_nil_iff, hne, or_false]
        omega
      have hwhole := isWhole_map_digitChar (t := []) (h.of_start ( take_prefix _ _)) htake (by simp)
      refine ⟨_, '.' :: (d.digits.drop d.point.toNat).map digitChar, [], hwhole, .digits ⟨?_, ?_⟩,
        .none, by simp [map_take, map_drop]⟩
      · simpa using hlong
      · intro c hc
        rw [map_drop] at hc
        exact hdigits.digit c ((drop_suffix _ _).mem hc)

lemma IsWhole.isDigits (h : IsWhole s) : IsDigits s := by
  cases h with
  | zero => exact ⟨by simp, by simp⟩
  | digits head all => exact all

lemma isDigits_padded (width n : Nat) :
    IsDigits (replicate (width - (natText n).toList.length) '0' ++ (natText n).toList) := by
  have hdigits := (isWhole_natText n).isDigits
  refine ⟨by simp [hdigits.ne_nil], fun c hc => ?_⟩
  exact (mem_append.mp hc).elim isDigit_of_mem_replicate_zero (hdigits.digit c)

lemma isMagnitude_scientific (width : Nat) {d : Digits} (h : IsWritten d.digits)
    (hne : d.digits ≠ []) : IsMagnitude (scientific width d).toList := by
  unfold scientific
  generalize d.point - 1 = e
  have hexponent : IsExponent ('e' :: ([if e < 0 then '-' else '+'] ++
      (replicate (width - (natText e.natAbs).toList.length) '0' ++ (natText e.natAbs).toList))) :=
    .digits (.inl rfl) (by split <;> simp) (isDigits_padded _ _)
  have hexp : ((if e < 0 then "-" else "+") : String).toList = [if e < 0 then '-' else '+'] := by
    split <;> rfl
  match hd : d.digits with
  | [] => exact absurd hd hne
  | [first] =>
    rw [hd] at h
    have hwhole := isWhole_map_digitChar (t := []) h (by simp) (by simp)
    refine ⟨_, [], _, hwhole, .none, hexponent, ?_⟩
    simp [hexp]
  | first :: second :: rest =>
    rw [hd] at h
    have hfirst : IsWritten [first] := h.of_start ⟨second :: rest, rfl⟩
    have hwhole := isWhole_map_digitChar (t := []) hfirst (by simp) (by simp)
    refine ⟨_, '.' :: (second :: rest).map digitChar, _, hwhole, .digits ⟨by simp, ?_⟩, hexponent,
      ?_⟩
    · intro c hc
      exact (isDigits_map_digitChar h (by simp)).digit c (mem_cons_of_mem _ hc)
    · simp [hexp]

lemma isNumeral_write (style : Style) {x : Double} (h : x.isFinite) :
    IsNumeral (write style x).toList := by
  have hfinite : ¬ x.biasedExponent = 0x7FF := by simpa [Double.isFinite] using h
  have hdigits := isWritten_shortest x
  have hbody : IsMagnitude (if (shortest x).digits.isEmpty then "0"
      else if (shortest x).point - 1 < style.low || style.high ≤ (shortest x).point - 1 then
        scientific style.exponentWidth (shortest x)
      else positional (shortest x)).toList := by
    split
    · exact IsWhole.zero.isMagnitude
    · rename_i hne
      have hne' : (shortest x).digits ≠ [] := by simpa using hne
      split
      · exact isMagnitude_scientific _ hdigits hne'
      · exact isMagnitude_positional hdigits hne'
  simp only [write, if_neg hfinite]
  split
  · rw [String.toList_append]
    exact hbody.isNumeral true
  · exact hbody.isNumeral false

end Written

/-! ### Reading whole numbers -/

lemma natOfDigits_map_digitChar {digits : List Nat} (h : ∀ d ∈ digits, d < 10) (n : Nat) :
    (digits.map digitChar).foldl (fun n c => n * 10 + (c.toNat - 48)) n =
      digits.foldl (fun n d => n * 10 + d) n := by
  have hchar : ∀ d < 10, (digitChar d).toNat - 48 = d := by decide
  induction digits generalizing n with
  | nil => rfl
  | cons d digits ih =>
    rw [map_cons, foldl_cons, foldl_cons, hchar d (h d mem_cons_self), ih (forall_mem_cons.mp h).2]

@[simp] lemma natOfDigits_natText (n : Nat) : natOfDigits (natText n).toList = n := by
  rw [natText]
  split
  case isTrue h => rw [h]; rfl
  case isFalse h =>
    obtain ⟨hdigits, -, hvalue⟩ := Decimal.isWritten_digitsOf n
    rw [String.toList_ofList, natOfDigits, natOfDigits_map_digitChar hdigits.lt_ten, hvalue]

lemma natText_spec (n : Nat) : ∃ first rest, (natText n).toList = first :: rest ∧ first ≠ '-' ∧
      first ≠ '+' ∧ (first :: rest).all Char.isDigit ∧ natOfDigits (first :: rest) = n := by
  have hwhole := (isWhole_natText n).isDigits
  have hvalue := natOfDigits_natText n
  cases hs : (natText n).toList with
  | nil => exact absurd hs hwhole.ne_nil
  | cons first rest =>
    rw [hs] at hwhole hvalue
    exact ⟨first, rest, rfl, hwhole.head_ne_sign.1, hwhole.head_ne_sign.2,
      all_eq_true.mpr hwhole.digit, hvalue⟩

lemma readInt?_intText (n : Int) : readInt? (intText n).toList =
    if Decimal.fitsInt n then some n else none := by
  obtain ⟨first, rest, hdigits, hminus, hplus, hall, hvalue⟩ := natText_spec n.natAbs
  unfold intText
  split
  case isTrue hneg =>
    have hnat : -((n.natAbs : Nat) : Int) = n := by omega
    have hsign : "-".toList ++ first :: rest = '-' :: first :: rest := rfl
    rw [String.toList_append, hdigits, hsign]
    simp only [readInt?, isEmpty_cons, hall, hvalue, if_true, hnat]
    rfl
  case isFalse hnonneg =>
    have hnat : ((n.natAbs : Nat) : Int) = n := by omega
    rw [hdigits]
    unfold readInt?
    split
    rename_i negative digits hsign
    obtain ⟨rfl, rfl⟩ : negative = false ∧ digits = first :: rest := by
      split at hsign <;> simp_all
    simp only [isEmpty_cons, hall, hvalue, hnat]
    rfl

lemma eq_of_readInt?_intText {n m : Int} (h : readInt? (intText n).toList = some m) : m = n := by
  rw [readInt?_intText] at h
  split at h
  · exact (Option.some.inj h).symm
  · cases h

end Json

end PluginAudit
