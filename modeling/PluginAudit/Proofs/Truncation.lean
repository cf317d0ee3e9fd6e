import PluginAudit.Proofs.JsonText

/-!
Documents that were cut short. Main statement: no matter after which byte the document of an object
is cut, it is no document any more.
-/

open List

namespace PluginAudit

open String (utf8EncodeChar)

namespace Text

/-! ### Cut characters -/

lemma sequence?_eq_none_of_isContinuation {b : UInt8} (hb : isContinuation b) (rest : List UInt8) :
    sequence? b rest = none := by
  rw [isContinuation_iff] at hb
  unfold sequence?
  simp only [UInt8.le_iff_toNat_le, UInt8.lt_iff_toNat_lt]
  grind

lemma decodeBytes_continuations {bytes : List UInt8} (h : ∀ b ∈ bytes, isContinuation b) :
    decodeBytes bytes = replicate bytes.length replacement := by
  induction bytes with
  | nil => rw [decodeBytes]; rfl
  | cons b bytes ih =>
    rw [decodeBytes, sequence?_eq_none_of_isContinuation (h b mem_cons_self)]
    simp [ih (forall_mem_cons.mp h).2, replicate_succ]

lemma sequence?_cut {lead : UInt8} {rest : List UInt8} (h : 128 ≤ lead.toNat)
    (h1 : 1 ≤ rest.length → 224 ≤ lead.toNat) (h2 : 2 ≤ rest.length → 240 ≤ lead.toNat)
    (h3 : rest.length < 3) : sequence? lead rest = none := by
  unfold sequence?
  simp only [UInt8.le_iff_toNat_le, UInt8.lt_iff_toNat_lt]
  grind

/-- The first byte of a character tells how many follow, and these are no first bytes. -/
lemma exists_utf8EncodeChar (c : Char) : ∃ lead tail, utf8EncodeChar c = lead :: tail ∧
    (∀ b ∈ tail, isContinuation b) ∧ tail.length < 4 ∧ (1 ≤ tail.length → 128 ≤ lead.toNat) ∧
    (2 ≤ tail.length → 224 ≤ lead.toNat) ∧ (3 ≤ tail.length → 240 ≤ lead.toNat) := by
  have hvalid := toNat_char_valid c
  have hbyte : ∀ n, n < 64 → isContinuation (UInt8.ofNat (n + 128)) := fun n hn => by
    rw [isContinuation_iff, toNat_byte (by omega)]
    omega
  simp only [utf8EncodeChar]
  rw [show c.val.toNat = c.toNat from rfl]
  split_ifs with h1 h2 h3
  · exact ⟨_, _, rfl, by simp⟩
  · refine ⟨_, _, rfl, ?_, by simp, ?_, by simp, by simp⟩
    · exact forall_mem_singleton.mpr (hbyte _ (by omega))
    · rw [toNat_byte (by omega)]
      omega
  · refine ⟨_, _, rfl, ?_, by simp, ?_, ?_, by simp⟩
    · simp only [forall_mem_cons]
      exact ⟨hbyte _ (by omega), hbyte _ (by omega), by simp⟩
    all_goals
      rw [toNat_byte (by omega)]
      omega
  · refine ⟨_, _, rfl, ?_, by simp, ?_, ?_, ?_⟩
    · simp only [forall_mem_cons]
      exact ⟨hbyte _ (by omega), hbyte _ (by omega), hbyte _ (by omega), by simp⟩
    all_goals
      rw [toNat_byte (by omega)]
      omega

lemma decodeBytes_take_utf8EncodeChar (c : Char) {n : Nat} (hn : n < (utf8EncodeChar c).length) :
    decodeBytes ((utf8EncodeChar c).take n) = replicate n replacement := by
  obtain ⟨lead, tail, hbytes, htail, hlength, h1, h2, h3⟩ := exists_utf8EncodeChar c
  rw [hbytes] at hn ⊢
  cases n with
  | zero => rw [take_zero, decodeBytes, replicate_zero]
  | succ n =>
    have hn' : n < tail.length := by simpa using hn
    have htake : (tail.take n).length = n := by simp; omega
    rw [take_succ_cons, decodeBytes, sequence?_cut (h1 (by omega)) (by omega) (by omega) (by omega)]
    simp [decodeBytes_continuations fun b hb => htail b (mem_of_mem_take hb), replicate_succ]
    omega

/-- A text that is cut after some bytes reads as a start of it, with replacement characters for a
character that is cut. -/
lemma exists_decodeBytes_take (s : List Char) {n : Nat}
    (hn : n < (s.flatMap utf8EncodeChar).length) : ∃ front c back m, s = front ++ c :: back ∧
      decodeBytes ((s.flatMap utf8EncodeChar).take n) = front ++ replicate m replacement := by
  induction s generalizing n with
  | nil => simp at hn
  | cons c s ih =>
    rw [flatMap_cons] at hn ⊢
    by_cases hcut : n < (utf8EncodeChar c).length
    · refine ⟨[], c, s, n, rfl, ?_⟩
      rw [take_append_of_le_length (by omega), decodeBytes_take_utf8EncodeChar c hcut, nil_append]
    · rw [length_append] at hn
      obtain ⟨front, d, back, m, rfl, hdecode⟩ := ih (n := n - (utf8EncodeChar c).length) (by omega)
      refine ⟨c :: front, d, back, m, rfl, ?_⟩
      obtain ⟨lead, tail, hbytes, hread⟩ := sequence?_utf8EncodeChar c
        (((front ++ d :: back).flatMap utf8EncodeChar).take (n - (utf8EncodeChar c).length))
      rw [take_append, take_of_length_le (by omega)]
      rw [hbytes] at hdecode hread ⊢
      rw [cons_append, decodeBytes, hread]
      simp only [drop_left, hdecode, cons_append]

end Text

namespace Json

variable {s rest : List Char} {n : Nat}

/-! ### Documents that are cut -/

lemma exists_of_readFirst_obj {j : Json} (h : readFirst ('\x7b' :: s) = some (j, rest)) :
    '\x7d' :: rest <:+ s ∧ ∀ more, readFirst ('\x7b' :: (s ++ more)) = some (j, rest ++ more) := by
  obtain ⟨gap, w, hs, hgap, hw⟩ := sound _ _ _ _ h
  obtain ⟨c, t, rfl, hstarts⟩ := hw.starts
  -- a brace is no white space, so the value starts with it
  obtain rfl : gap = [] := by
    cases gap with
    | nil => rfl
    | cons d gap =>
      obtain ⟨rfl, -⟩ := List.cons.inj hs
      exact absurd (hgap _ mem_cons_self) (by decide)
  obtain ⟨rfl, rfl⟩ := List.cons.inj hs
  obtain ⟨members, rfl⟩ : ∃ members, j = .obj members := by
    cases j with
    | obj members => exact ⟨members, rfl⟩
    | num n => rcases hstarts with h | h <;> exact absurd h (by decide)
    | bool b => cases b <;> cases hstarts
    | _ => cases hstarts
  refine ⟨?_, fun more => ?_⟩
  · cases hw with
    | @obj gap last parts =>
      exact ⟨gap ++ (',' :: gap).intercalate (parts.map (·.written)) ++ last, by simp⟩
  · rw [append_eq, append_assoc]
    exact hw.readFirst isGap_nil (by simp)

lemma exists_toList_compact_obj (members : List (String × Json)) :
    ∃ t, (Json.obj members).compact.toList = '\x7b' :: (t ++ ['\x7d']) :=
  ⟨(",".intercalate (compactMembers members)).toList, by simp [compact]⟩

lemma parse?_replicate_replacement (m : Nat) : parse? (replicate m Text.replacement) = none := by
  have hread : readFirst (replicate m Text.replacement) = none := by
    cases m with
    | zero => rfl
    | succ m =>
      rw [replicate_succ, readFirst, readValue, skipGap_cons _ (by decide)]
      rfl
  rw [parse?, hread]

lemma parse?_append_replicate (s : List Char) (m : Nat) :
    parse? ('\x7b' :: (s ++ replicate (m + 1) Text.replacement)) = none := by
  by_contra hsome
  obtain ⟨j, hj⟩ := Option.ne_none_iff_exists'.mp hsome
  obtain ⟨rest, hread, hgap⟩ := exists_of_parse? hj
  obtain ⟨⟨front, hfront⟩, -⟩ := exists_of_readFirst_obj hread
  have hlast : ('\x7d' :: rest).getLast? = some Text.replacement := by
    have hlast := congrArg getLast? hfront
    simpa [getLast?_append, getLast?_replicate] using hlast
  rcases mem_cons.mp (mem_of_getLast? hlast) with heq | hmem
  · exact absurd heq (by decide)
  · exact absurd (hgap _ hmem) (by decide)

/-- The document of an object that is cut after some bytes is no document. -/
theorem parse?_take_eq_none {members : List (String × Json)} (h : (Json.obj members).Proper)
    (hn : n < (bytesOf (Json.obj members).compact).length) :
    parse? (Text.decodeBytes ((bytesOf (Json.obj members).compact).take n)) = none := by
  obtain ⟨t, ht⟩ := exists_toList_compact_obj members
  rw [bytesOf_eq] at hn ⊢
  obtain ⟨front, c, back, m, hsplit, hdecode⟩ := Text.exists_decodeBytes_take _ hn
  rw [hdecode]
  rw [ht] at hsplit
  cases front with
  | nil => exact parse?_replicate_replacement m
  | cons d front =>
    obtain ⟨rfl, htail⟩ := List.cons.inj hsplit
    rw [append_eq] at htail
    cases m with
    | succ m => exact parse?_append_replicate front m
    | zero =>
      rw [replicate_zero, append_nil]
      by_contra hsome
      obtain ⟨j, hj⟩ := Option.ne_none_iff_exists'.mp hsome
      obtain ⟨rest, hread, -⟩ := exists_of_parse? hj
      -- the whole document would be read up to the same place, with its last brace left
      have hlong := (exists_of_readFirst_obj hread).2 (c :: back)
      obtain ⟨rest', hread', hgap⟩ := exists_of_parse? (parse?_compact h)
      rw [ht, htail, hlong, Option.some.injEq, Prod.mk.injEq] at hread'
      have hlast : (c :: back).getLast? = some '\x7d' := by
        have hlast := congrArg getLast? htail
        simpa [getLast?_append] using hlast.symm
      have hmem : '\x7d' ∈ rest' := by
        rw [← hread'.2]
        exact mem_append_right _ (mem_of_getLast? hlast)
      exact absurd (hgap _ hmem) (by decide)

end Json

end PluginAudit
