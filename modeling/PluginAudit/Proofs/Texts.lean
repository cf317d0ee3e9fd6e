import Mathlib.Data.List.DropRight
import Mathlib.Tactic.Common
import PluginAudit.Text.Blank
import PluginAudit.Text.Letter

/-!
Trimming, splitting and lower case. Trimmed texts are those that trimming leaves alone; lower case
neither makes nor takes away white space, so it can be exchanged with trimming.
-/

open List

namespace PluginAudit.Text

open String (singleton toList_inj toList_ofList)
open Char (ofNat toNat ofNat_toNat)

variable {s : List Char} {n : Nat} {run : Nat × Nat × Nat × Int}

/-! ### Trimming -/

/-- There is no white space at the ends of a text. -/
structure Trimmed (s : List Char) : Prop where
  head : ∀ c ∈ s.head?, isSpace c = false
  last : ∀ c ∈ s.getLast?, isSpace c = false

lemma trimChars_eq (s : List Char) : trimChars s = (s.dropWhile isSpace).rdropWhile isSpace := rfl

lemma trimmed_of_forall (h : ∀ c ∈ s, isSpace c = false) : Trimmed s where
  head := fun c hc => h c (mem_of_head? hc)
  last := fun c hc => h c (mem_of_getLast? hc)

lemma trimChars_of_trimmed (h : Trimmed s) : trimChars s = s := by
  rw [trimChars_eq]
  have hstart : s.dropWhile isSpace = s := by
    cases s with
    | nil => rfl
    | cons c s => rw [dropWhile_cons_of_neg (by simp [h.head c rfl])]
  rw [hstart, rdropWhile_eq_self_iff]
  intro hne
  simp [h.last _ (getLast?_eq_some_getLast hne)]

lemma trimmed_trimChars (s : List Char) : Trimmed (trimChars s) := by
  rw [trimChars_eq]
  constructor
  · intro c hc
    -- what is left after trimming the end still starts where the white space at the start ends
    obtain ⟨rest, hrest⟩ := rdropWhile_prefix isSpace (s.dropWhile isSpace)
    have hhead : (s.dropWhile isSpace).head? = some c := by
      rw [← hrest, head?_append, Option.mem_def.mp hc, Option.some_or]
    have hnot := head?_dropWhile_not isSpace s
    rwa [hhead] at hnot
  · intro c hc
    have hne : (s.dropWhile isSpace).rdropWhile isSpace ≠ [] := by
      rintro hnil
      rw [hnil] at hc
      cases hc
    have hnot := rdropWhile_last_not isSpace (s.dropWhile isSpace) hne
    rw [Option.mem_def, getLast?_eq_some_getLast hne, Option.some.injEq] at hc
    rw [← hc]
    simpa using hnot

lemma trimChars_subset (s : List Char) : trimChars s ⊆ s := by
  intro c hc
  rw [trimChars_eq] at hc
  exact (dropWhile_suffix isSpace).mem (( rdropWhile_prefix _ _).mem hc)

@[simp] lemma toList_trim (s : String) : (trim s).toList = trimChars s.toList := by
  rw [trim, toList_ofList]

@[simp] lemma trim_trim (s : String) : trim (trim s) = trim s := by
  rw [← toList_inj]
  simp [trimChars_of_trimmed (trimmed_trimChars _)]

lemma takeWhile_of_head {p : Char → Bool} (h : ∀ c ∈ s.head?, p c = false) :
    s.takeWhile p = [] ∧ s.dropWhile p = s := by
  cases s with
  | nil => exact ⟨rfl, rfl⟩
  | cons c s =>
    have hc : ¬ p c := by rw [h c rfl]; exact Bool.false_ne_true
    exact ⟨takeWhile_cons_of_neg hc, dropWhile_cons_of_neg hc⟩

lemma exists_eq_append_trimChars (s : List Char) :
    ∃ before after, s = before ++ (trimChars s ++ after) ∧
    (∀ c ∈ before, isSpace c) ∧ ∀ c ∈ after, isSpace c := by
  refine ⟨s.takeWhile isSpace, (s.dropWhile isSpace).rtakeWhile isSpace, ?_,
    fun c hc => mem_takeWhile_imp hc, fun c hc => mem_rtakeWhile_imp hc⟩
  rw [trimChars_eq, rdropWhile_append_rtakeWhile, takeWhile_append_dropWhile]

lemma trimChars_append {before after : List Char} (hs : Trimmed s) (hne : s ≠ [])
    (hbefore : ∀ c ∈ before, isSpace c) (hafter : ∀ c ∈ after, isSpace c) :
    trimChars (before ++ (s ++ after)) = s := by
  have hhead : ∀ c ∈ (s ++ after).head?, isSpace c = false := by
    intro c hc
    rw [head?_append_of_ne_nil _ hne] at hc
    exact hs.head c hc
  have hlast : ∀ c ∈ s.reverse.head?, isSpace c = false := by
    intro c hc
    rw [head?_reverse] at hc
    exact hs.last c hc
  rw [trimChars, trimBy, trimEndBy, trimStartBy, dropWhile_append_of_pos hbefore,
    (takeWhile_of_head hhead).2, reverse_append,
    dropWhile_append_of_pos (by simpa using hafter), (takeWhile_of_head hlast).2, reverse_reverse]

lemma trim_ne_empty {s : String} (h : isBlank s = false) : trim s ≠ "" := by
  intro hempty
  have hnil : trimChars s.toList = [] := by rw [← toList_trim, hempty, String.toList_empty]
  rw [trimChars, trimBy, trimEndBy, trimStartBy, reverse_eq_nil_iff, dropWhile_eq_nil_iff] at hnil
  have hall : s.toList.all isSpace := by
    rw [← takeWhile_append_dropWhile (p := isSpace) (l := s.toList), all_append, Bool.and_eq_true,
      all_eq_true, all_eq_true]
    constructor
    · intro c hc
      exact mem_takeWhile_imp hc
    · intro c hc
      exact hnil c (mem_reverse.mpr hc)
  rw [isBlank, hall] at h
  cases h

lemma trim_of_isBlank {s : String} (h : isBlank s) : trim s = "" := by
  have hstart : s.toList.dropWhile isSpace = [] := dropWhile_eq_nil_iff.mpr (all_eq_true.mp h)
  rw [trim, trimChars, trimBy, trimStartBy, hstart]
  rfl

/-! ### One character at an end -/

@[simp] lemma toList_dropLead_singleton (c : Char) (s : String) :
    (dropLead (singleton c) s).toList =
      if s.toList.head? = some c then s.toList.tail else s.toList := by
  have hstart : s.startsWith (singleton c) ↔ s.toList.head? = some c := by
    rw [String.startsWith_string_iff]
    cases s.toList with
    | nil => simp
    | cons x xs => simp [cons_prefix_cons, eq_comm]
  unfold dropLead
  by_cases h : s.startsWith (singleton c)
  · rw [if_pos h, if_pos (hstart.mp h), toList_ofList]
    simp
  · rw [if_neg h, if_neg (fun h' => h (hstart.mpr h'))]

@[simp] lemma toList_dropTail_singleton (c : Char) (s : String) :
    (dropTail (singleton c) s).toList =
      if s.toList.getLast? = some c then s.toList.dropLast else s.toList := by
  have hend : (singleton c).toList.isSuffixOf s.toList ↔ s.toList.getLast? = some c := by
    rw [isSuffixOf_iff_suffix, String.toList_singleton, getLast?_eq_some_iff]
    exact ⟨fun ⟨t, ht⟩ => ⟨t, ht.symm⟩, fun ⟨t, ht⟩ => ⟨t, ht.symm⟩⟩
  unfold dropTail
  by_cases h : (singleton c).toList.isSuffixOf s.toList
  · rw [if_pos h, if_pos (hend.mp h), toList_ofList, dropLast_eq_take]
    simp
  · rw [if_neg h, if_neg (fun h' => h (hend.mpr h'))]

/-! ### Splitting -/

lemma splitOnChar_of_notMem {sep : Char} (h : sep ∉ s) : splitOnChar sep s = [s] := by
  induction s with
  | nil => rfl
  | cons c s ih =>
    rw [mem_cons, not_or] at h
    rw [splitOnChar, if_neg (Ne.symm h.1), ih h.2]

lemma splitOnChar_ne_nil (sep : Char) (s : List Char) : splitOnChar sep s ≠ [] := by
  cases s with
  | nil => exact cons_ne_nil _ _
  | cons c s =>
    rw [splitOnChar]
    split
    · exact cons_ne_nil _ _
    · split <;> exact cons_ne_nil _ _

@[simp] lemma splitOnChar_append (sep : Char) (s t : List Char) :
    splitOnChar sep (s ++ sep :: t) = splitOnChar sep s ++ splitOnChar sep t := by
  induction s with
  | nil => simp [splitOnChar]
  | cons c s ih =>
    rw [cons_append, splitOnChar, splitOnChar, ih]
    split
    · rfl
    · obtain ⟨part, parts, hs⟩ := exists_cons_of_ne_nil (splitOnChar_ne_nil sep s)
      rw [hs]
      rfl

lemma mem_splitOnChar {sep : Char} {part : List Char} (h : part ∈ splitOnChar sep s) :
    sep ∉ part ∧ part ⊆ s := by
  induction s generalizing part with
  | nil => simp_all [splitOnChar]
  | cons c s ih =>
    rw [splitOnChar] at h
    split at h
    · rcases mem_cons.mp h with rfl | h
      · simp
      · exact ⟨(ih h).1, subset_cons_of_subset c (ih h).2⟩
    · rename_i hc
      obtain ⟨first, parts, hs⟩ := exists_cons_of_ne_nil (splitOnChar_ne_nil sep s)
      rw [hs] at h
      rcases mem_cons.mp h with rfl | h
      · have hfirst := ih (hs ▸ mem_cons_self)
        exact ⟨by simp [Ne.symm hc, hfirst.1], cons_subset_cons c hfirst.2⟩
      · have hpart := ih (hs ▸ mem_cons_of_mem first h)
        exact ⟨hpart.1, subset_cons_of_subset c hpart.2⟩

lemma append_cons_cancel {α : Type} {mark : α} {s t r r' : List α} (hs : mark ∉ s) (ht : mark ∉ t)
    (h : s ++ mark :: r = t ++ mark :: r') : s = t ∧ r = r' := by
  induction s generalizing t with
  | nil =>
    cases t with
    | nil => exact ⟨rfl, (List.cons.inj h).2⟩
    | cons c t =>
      obtain ⟨rfl, -⟩ := List.cons.inj h
      exact absurd mem_cons_self ht
  | cons c s ih =>
    cases t with
    | nil =>
      obtain ⟨rfl, -⟩ := List.cons.inj h
      exact absurd mem_cons_self hs
    | cons d t =>
      obtain ⟨rfl, htail⟩ := List.cons.inj h
      obtain ⟨rfl, rfl⟩ := ih (fun hc => hs (mem_cons_of_mem _ hc))
        (fun hc => ht (mem_cons_of_mem _ hc)) htail
      exact ⟨rfl, rfl⟩

/-! ### Occurrences -/

@[simp] lemma occursIn_iff (needle s : List Char) : occursIn needle s ↔ needle <:+: s := by
  induction s with
  | nil => simp [occursIn]
  | cons c s ih => rw [occursIn, Bool.or_eq_true, ih, isPrefixOf_iff_prefix, infix_cons_iff]

/-! ### Lower case -/

@[simp] lemma toList_lower (s : String) : (lower s).toList = s.toList.map lowerChar := by
  rw [lower, toList_ofList]

def spaceCodes : List Nat :=
  [0x09, 0x0A, 0x0B, 0x0C, 0x0D, 0x20, 0x85, 0xA0, 0x1680, 0x2000, 0x2001, 0x2002, 0x2003, 0x2004,
   0x2005, 0x2006, 0x2007, 0x2008, 0x2009, 0x200A, 0x2028, 0x2029, 0x202F, 0x205F, 0x3000]

lemma isSpace_iff (c : Char) : isSpace c ↔ c.toNat ∈ spaceCodes := by
  simp only [isSpace, spaceCodes, mem_cons, not_mem_nil, or_false, Bool.or_eq_true,
    Bool.and_eq_true, decide_eq_true_eq, beq_iff_eq]
  omega

lemma lowerRuns_avoid_spaces :
    ∀ run ∈ lowerRuns, ∀ code ∈ spaceCodes, (code < run.1 ∨ run.2.1 < code) ∧
      ((code : Int) < run.1 + run.2.2.2 ∨ (run.2.1 : Int) + run.2.2.2 < code) := by
  decide +kernel

lemma toNat_ofNat (n : Nat) : (ofNat n).toNat = n ∨ (ofNat n).toNat = 0 := by
  by_cases hvalid : n.isValidChar
  · exact .inl (congrArg toNat (dif_pos hvalid))
  · exact .inr (congrArg toNat (dif_neg hvalid))

@[simp] lemma isSpace_lowerChar (c : Char) : isSpace (lowerChar c) = isSpace c := by
  unfold lowerChar
  split
  case isTrue hlt =>
    have hall : ∀ n < 0x80, isSpace (ofNat n).toLower = isSpace (ofNat n) := by
      decide +kernel
    simpa using hall c.toNat hlt
  case isFalse hge =>
    unfold lowerBeyondAscii
    split
    case h_2 => simp
    case h_1 lo hi stride distance hfind =>
      have hmem := lowerRuns_avoid_spaces _ (mem_of_find?_eq_some hfind)
      have hrange := find?_some hfind
      simp only [Bool.and_eq_true, decide_eq_true_eq] at hrange hmem
      have hold : isSpace c = false := by
        rw [Bool.eq_false_iff, ne_eq, isSpace_iff]
        intro hc
        have := (hmem _ hc).1
        omega
      rw [hold, Bool.eq_false_iff, ne_eq, isSpace_iff]
      intro hc
      rw [Int.ofNat_eq_natCast] at hc
      have hpos : ∀ code ∈ spaceCodes, 0 < code := by decide
      have := hpos _ hc
      rcases toNat_ofNat ((c.toNat : Int) + distance).toNat with hcode | hcode
      · rw [hcode] at hc this
        have := (hmem _ hc).2
        omega
      · omega

lemma lower_trim (s : String) : lower (trim s) = trim (lower s) := by
  rw [← toList_inj]
  have hspace : isSpace ∘ lowerChar = isSpace := funext isSpace_lowerChar
  simp only [toList_lower, toList_trim, trimChars, trimBy, trimEndBy, trimStartBy,
    dropWhile_map, ← map_reverse, hspace]

@[simp] lemma lower_append (s t : String) : lower (s ++ t) = lower s ++ lower t := by
  rw [← toList_inj]
  simp

/-! ### Lower case twice -/

def partner (run : Nat × Nat × Nat × Int) (n : Nat) : Nat := ((n : Int) + run.2.2.2).toNat

def InRun (run : Nat × Nat × Nat × Int) (n : Nat) : Prop :=
  run.1 ≤ n ∧ n ≤ run.2.1 ∧ (n - run.1) % run.2.2.1 = 0

/-- No partner of a letter lies in a run; where their ranges meet, partners have the other
parity. -/
lemma lowerRuns_avoid_runs : lowerRuns.all (fun run =>
    (lowerRuns.filter fun other => Nat.ble (partner run run.1) other.2.1).all fun other =>
      Nat.blt (partner run run.2.1) other.1 ||
        (Nat.beq run.2.2.1 2 || Nat.beq run.1 run.2.1) && Nat.beq other.2.2.1 2 &&
          Nat.beq ((partner run run.1 + other.1) % 2) 1) := by
  decide +kernel

lemma lowerRuns_ascii : ∀ run ∈ lowerRuns, 0x80 ≤ (run.1 : Int) + run.2.2.2 ∨ run.1 = run.2.1 ∧
      ((run.1 : Int) + run.2.2.2 = 'i'.toNat ∨ (run.1 : Int) + run.2.2.2 = 'k'.toNat) := by
  decide +kernel

lemma lowerBeyondAscii_cases (n : Nat) : lowerBeyondAscii n = n ∨
    ∃ run ∈ lowerRuns, InRun run n ∧ lowerBeyondAscii n = partner run n := by
  unfold lowerBeyondAscii
  split
  case h_1 lo hi stride distance hfind =>
    have hrange := find?_some hfind
    simp only [Bool.and_eq_true, decide_eq_true_eq, beq_iff_eq, and_assoc] at hrange
    exact .inr ⟨_, mem_of_find?_eq_some hfind, hrange, rfl⟩
  case h_2 => exact .inl rfl

lemma lowerBeyondAscii_of_forall (h : ∀ run ∈ lowerRuns, ¬ InRun run n) :
    lowerBeyondAscii n = n := by
  rcases lowerBeyondAscii_cases n with hsame | ⟨run, hrun, hin, -⟩
  · exact hsame
  · exact absurd hin (h run hrun)

lemma lowerBeyondAscii_partner (hrun : run ∈ lowerRuns) (hn : InRun run n) :
    lowerBeyondAscii (partner run n) = partner run n := by
  refine lowerBeyondAscii_of_forall fun other hother hin => ?_
  have havoid := all_eq_true.mp lowerRuns_avoid_runs run hrun
  have hascii := lowerRuns_ascii run hrun
  simp only [all_eq_true, mem_filter, Bool.or_eq_true, Bool.and_eq_true, Nat.ble_eq, Nat.blt_eq,
    Nat.beq_eq, partner] at havoid
  simp only [InRun, partner] at hn hin
  have hcodes : 'i'.toNat = 0x69 ∧ 'k'.toNat = 0x6B := by decide
  rcases havoid other ⟨hother, by omega⟩ with hlt | ⟨⟨hstep, htwo⟩, hodd⟩
  · omega
  · rw [htwo] at hin
    rcases hstep with hstep | hstep
    · rw [hstep] at hn
      omega
    · omega

lemma toLower_partner (hrun : run ∈ lowerRuns) (hn : InRun run n) (hlt : partner run n < 0x80) :
    (ofNat (partner run n)).toLower = ofNat (partner run n) := by
  have hcodes : 'i'.toNat = 0x69 ∧ 'k'.toNat = 0x6B := by decide
  have hpartner : partner run n = 0x69 ∨ partner run n = 0x6B := by
    unfold partner InRun at *
    rcases lowerRuns_ascii run hrun with h | ⟨hone, h⟩ <;> omega
  rcases hpartner with h | h <;> rw [h] <;> decide

@[simp] lemma lowerChar_lowerChar (c : Char) : lowerChar (lowerChar c) = lowerChar c := by
  by_cases hlt : c.toNat < 0x80
  · have hall : ∀ n < 0x80, (ofNat n).toLower.toNat < 0x80 ∧
        (ofNat n).toLower.toLower = (ofNat n).toLower := by
      decide +kernel
    obtain ⟨hascii, hsame⟩ := hall c.toNat hlt
    rw [ofNat_toNat] at hascii hsame
    simp only [lowerChar, if_pos hlt, if_pos hascii, hsame]
  · rw [lowerChar.eq_def c, if_neg hlt]
    rcases lowerBeyondAscii_cases c.toNat with hsame | ⟨run, hrun, hin, hmoved⟩
    · rw [hsame, ofNat_toNat, lowerChar, if_neg hlt, hsame, ofNat_toNat]
    · rw [hmoved]
      rcases toNat_ofNat (partner run c.toNat) with hcode | hcode
      · rw [lowerChar, hcode, lowerBeyondAscii_partner hrun hin]
        split_ifs with hascii
        · exact toLower_partner hrun hin hascii
        · rfl
      · have hzero : ofNat (partner run c.toNat) = ofNat 0 := by
          rw [← ofNat_toNat (ofNat (partner run c.toNat)), hcode]
        rw [hzero]
        decide

@[simp] lemma lower_lower (s : String) : lower (lower s) = lower s := by
  rw [← toList_inj, toList_lower, toList_lower, map_map]
  exact map_congr_left fun c _ => lowerChar_lowerChar c

/-! ### Folding -/

lemma foldChar_eq_iff {c d : Char} (hd : d.toNat < 0x80) (hother : d ∉ ['\x00', 'i', 'k', 's']) :
    foldChar c = d ↔ c.toLower = d := by
  by_cases hlt : c.toNat < 0x80
  · rw [foldChar, if_pos hlt]
  have hcodes : d.toNat ≠ 0 ∧ d.toNat ≠ 0x69 ∧ d.toNat ≠ 0x6B ∧ d.toNat ≠ 0x73 := by
    simp only [mem_cons, not_mem_nil, or_false, not_or, ← Char.toNat_inj] at hother
    exact hother
  have hupper : c.toLower = c := by
    refine dif_neg ?_
    rintro ⟨-, hle⟩
    exact hlt (lt_of_le_of_lt hle (by decide))
  have hlower : lowerChar c ≠ d := by
    rintro rfl
    rw [lowerChar, if_neg hlt] at hd hcodes
    rcases toNat_ofNat (lowerBeyondAscii c.toNat) with hcode | hcode
    · rw [hcode] at hd hcodes
      rcases lowerBeyondAscii_cases c.toNat with hsame | ⟨run, hrun, hin, hmoved⟩
      · omega
      · rw [hmoved] at hd hcodes
        simp only [partner, InRun] at *
        have hk : 'i'.toNat = 0x69 ∧ 'k'.toNat = 0x6B := by decide
        rcases lowerRuns_ascii run hrun with h | ⟨hone, h⟩ <;> omega
    · exact hcodes.1 hcode
  have hpairs : ∀ pair ∈ foldingPairs, pair.2 = 0x73 ∨ 0x80 ≤ (ofNat pair.2).toNat := by decide
  rw [hupper, foldChar, if_neg hlt]
  split
  · rfl
  split
  · next first target hfind =>
    constructor
    · rintro rfl
      rcases hpairs _ (mem_of_find?_eq_some hfind) with h | h
      · dsimp only at h
        subst h
        exact absurd rfl hcodes.2.2.2
      · exact absurd hd (Nat.not_lt.mpr h)
    · rintro rfl
      exact absurd hd hlt
  · constructor
    · exact fun h => absurd h hlower
    · rintro rfl
      exact absurd hd hlt

/-! ### Joining -/

lemma intercalate_cons (sep first : List Char) (parts : List (List Char)) :
    sep.intercalate (first :: parts) = first ++ parts.flatMap (sep ++ ·) := by
  induction parts generalizing first with
  | nil => simp
  | cons next parts ih =>
    rw [intercalate_cons_cons, ih, flatMap_cons]
    simp

lemma mem_intercalate {sep : List Char} {parts : List (List Char)} {c : Char}
    (h : c ∈ sep.intercalate parts) : c ∈ sep ∨ ∃ part ∈ parts, c ∈ part := by
  cases parts with
  | nil => cases h
  | cons first parts =>
    rw [intercalate_cons, mem_append, mem_flatMap] at h
    rcases h with h | ⟨part, hpart, h⟩
    · exact .inr ⟨first, mem_cons_self, h⟩
    · exact (mem_append.mp h).imp_right fun h => ⟨part, mem_cons_of_mem _ hpart, h⟩

end PluginAudit.Text
