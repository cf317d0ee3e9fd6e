import Mathlib.Tactic.Common
import PluginAudit.FileTree.Node
import PluginAudit.Text.Utf8

/-!
Texts written as bytes and read back. Reading never fails, but on the bytes of a text it also gives
nothing but the text.
-/

open List

namespace PluginAudit

open UInt8 (le_iff_toNat_le lt_iff_toNat_lt toNat_inj)
open String (utf8EncodeChar)

namespace Text

variable {lead b c : UInt8} {rest : List UInt8} {x y z : Nat}

/-! ### Sequences by their numbers -/

lemma isContinuation_iff (b : UInt8) : isContinuation b ↔ 128 ≤ b.toNat ∧ b.toNat ≤ 191 := by
  simp [isContinuation, le_iff_toNat_le]

lemma sequence?_one (h : lead.toNat < 128) :
    sequence? lead rest = some (Char.ofNat lead.toNat, 0) := by
  have hlead : lead < 0x80 := by simpa [lt_iff_toNat_lt] using h
  simp [sequence?, hlead]

lemma sequence?_two (hlead : lead.toNat = x + 192) (hx : 2 ≤ x) (hx' : x < 32)
    (hb : b.toNat = y + 128) (hy : y < 64) :
    sequence? lead (b :: rest) = some (Char.ofNat (x * 64 + y), 1) := by
  have hcode : lead.toNat % 32 * 64 + payload b = x * 64 + y := by rw [payload]; omega
  simp only [sequence?, isContinuation, le_iff_toNat_le, lt_iff_toNat_lt]
  grind

lemma beq_eq_toNat (a b : UInt8) : (a == b) = decide (a.toNat = b.toNat) := by
  rw [Bool.eq_iff_iff]
  simp [toNat_inj]

lemma sequence?_three (hlead : lead.toNat = x + 224) (hx : x < 16) (hb : b.toNat = y + 128)
    (hy : y < 64)
    (hc : c.toNat = z + 128) (hz : z < 64) (hlow : x = 0 → 32 ≤ y) (hhigh : x = 13 → y < 32) :
    sequence? lead (b :: c :: rest) = some (Char.ofNat (x * 4096 + y * 64 + z), 2) := by
  have hcode : lead.toNat % 16 * 4096 + payload b * 64 + payload c = x * 4096 + y * 64 + z := by
    rw [payload, payload]
    omega
  simp only [sequence?, isContinuation, le_iff_toNat_le, lt_iff_toNat_lt, beq_eq_toNat]
  grind

lemma sequence?_four {d : UInt8} {u : Nat} (hlead : lead.toNat = x + 240) (hx : x ≤ 4)
    (hb : b.toNat = y + 128)
    (hy : y < 64) (hc : c.toNat = z + 128) (hz : z < 64) (hd : d.toNat = u + 128) (hu : u < 64)
    (hlow : x = 0 → 16 ≤ y) (hhigh : x = 4 → y < 16) : sequence? lead (b :: c :: d :: rest) =
      some (Char.ofNat (x * 262144 + y * 4096 + z * 64 + u), 3) := by
  have hcode : lead.toNat % 8 * 262144 + payload b * 4096 + payload c * 64 + payload d =
      x * 262144 + y * 4096 + z * 64 + u := by
    rw [payload, payload, payload]
    omega
  simp only [sequence?, isContinuation, le_iff_toNat_le, lt_iff_toNat_lt, beq_eq_toNat]
  grind

/-! ### Texts -/

lemma toNat_byte {n : Nat} (h : n < 256) : (UInt8.ofNat n).toNat = n := by
  rw [UInt8.toNat_ofNat', Nat.mod_eq_of_lt h]

lemma toNat_char_valid (c : Char) : c.toNat < 0xD800 ∨ (0xDFFF < c.toNat ∧ c.toNat < 0x110000) :=
  c.valid

lemma sequence?_utf8EncodeChar (c : Char) (rest : List UInt8) : ∃ lead tail,
      utf8EncodeChar c = lead :: tail ∧ sequence? lead (tail ++ rest) = some (c, tail.length) := by
  have hvalid := toNat_char_valid c
  have hback {n : Nat} (hn : n = c.toNat) : Char.ofNat n = c := hn ▸ Char.ofNat_toNat c
  simp only [utf8EncodeChar]
  rw [show c.val.toNat = c.toNat from rfl]
  split_ifs with h1 h2 h3
  · refine ⟨_, _, rfl, ?_⟩
    have hbyte := toNat_byte (n := c.toNat) (by omega)
    rw [sequence?_one (by omega), hbyte, hback rfl]
    rfl
  · refine ⟨_, _, rfl, ?_⟩
    rw [cons_append, sequence?_two (toNat_byte (by omega)) (by omega) (by omega)
      (toNat_byte (by omega)) (by omega), hback (by omega)]
    rfl
  · refine ⟨_, _, rfl, ?_⟩
    rw [cons_append, cons_append, sequence?_three (toNat_byte (by omega)) (by omega)
      (toNat_byte (by omega)) (by omega) (toNat_byte (by omega)) (by omega) (by omega) (by omega),
      hback (by omega)]
    rfl
  · refine ⟨_, _, rfl, ?_⟩
    rw [cons_append, cons_append, cons_append,
      sequence?_four (toNat_byte (by omega)) (by omega) (toNat_byte (by omega)) (by omega)
        (toNat_byte (by omega)) (by omega) (toNat_byte (by omega)) (by omega) (by omega) (by omega),
      hback (by omega)]
    rfl

@[simp] lemma decodeBytes_flatMap_utf8EncodeChar (s : List Char) :
    decodeBytes (s.flatMap utf8EncodeChar) = s := by
  induction s with
  | nil => rw [flatMap_nil, decodeBytes]
  | cons c s ih =>
    obtain ⟨lead, tail, hbytes, hread⟩ :=
      sequence?_utf8EncodeChar c (s.flatMap utf8EncodeChar)
    rw [flatMap_cons, hbytes, cons_append, decodeBytes, hread]
    simp only [drop_left, ih]

/-! ### Order -/

lemma utf8EncodeChar_append_lt {c d : Char} (h : c < d) (as bs : List UInt8) :
    utf8EncodeChar c ++ as < utf8EncodeChar d ++ bs := by
  have hc := toNat_char_valid c
  have hd := toNat_char_valid d
  have hlt : c.toNat < d.toNat := h
  have hdigit : ∀ n : Nat, (n % 64 + 128) % 256 = n % 64 + 128 := by omega
  have hlead : ∀ e : Char, (e.toNat / 262144 % 8 + 240) % 256 = e.toNat / 262144 + 240 :=
    fun e => by
    have he := toNat_char_valid e
    omega
  have hdiv : ∀ n : Nat, n / 64 / 64 = n / 4096 ∧ n / 4096 / 64 = n / 262144 := by omega
  have hcdiv := hdiv c.toNat
  have hddiv := hdiv d.toNat
  simp only [utf8EncodeChar]
  rw [show c.val.toNat = c.toNat from rfl, show d.val.toNat = d.toNat from rfl]
  split_ifs <;> simp only [cons_append, nil_append, cons_lt_cons_iff, lt_iff_toNat_lt,
      ← toNat_inj, UInt8.toNat_ofNat', hdigit, hlead] <;> omega

lemma flatMap_utf8EncodeChar_lt {s t : List Char} (h : s < t) :
    s.flatMap utf8EncodeChar < t.flatMap utf8EncodeChar := by
  induction h with
  | @nil c t =>
    obtain ⟨lead, tail, hbytes, -⟩ := sequence?_utf8EncodeChar c []
    rw [flatMap_nil, flatMap_cons, hbytes]
    exact nil_lt_cons _ _
  | rel h =>
    rw [flatMap_cons, flatMap_cons]
    exact utf8EncodeChar_append_lt h _ _
  | cons h ih =>
    rw [flatMap_cons, flatMap_cons]
    exact append_left_lt ih

end Text

lemma bytesOf_eq (s : String) : bytesOf s = s.toList.flatMap utf8EncodeChar := by
  rw [bytesOf, String.toUTF8, ← String.ofList_toList (s := s), String.toByteArray_ofList,
    String.toList_ofList, List.utf8Encode, data_toByteArray]

lemma bytesOf_lt {s t : String} (h : s < t) : bytesOf s < bytesOf t := by
  rw [bytesOf_eq, bytesOf_eq]
  exact Text.flatMap_utf8EncodeChar_lt h

@[simp] lemma decodeBytes_bytesOf (s : String) : Text.decodeBytes (bytesOf s) = s.toList := by
  rw [bytesOf_eq, Text.decodeBytes_flatMap_utf8EncodeChar]

lemma bytesOf_injective : Function.Injective bytesOf := by
  intro s t h
  rw [← String.toList_inj, ← decodeBytes_bytesOf, h, decodeBytes_bytesOf]

end PluginAudit
