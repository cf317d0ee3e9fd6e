import Mathlib.Data.List.Infix
import PluginAudit.Proofs.ExistenceChecks
import PluginAudit.Proofs.MaskedClasses
import PluginAudit.Proofs.ProvidedClasses
import PluginAudit.Proofs.UndefinedCalls

/-!
The blocks that checks for classes guard. Main statement: up to the line where the block of a check
closes, its class is not reported as undefined, unless the line of the check closes another block
first.
-/

open List

namespace PluginAudit.Detector

open Pattern Source

namespace Guard

/-! ### Blocks -/

variable {text more before after : List Char} {texts : List (List Char)} {depth : Int}
  {opened : Bool}

/-- A text never closes more blocks than it has opened. -/
def NeverBelow (text : List Char) : Prop := ∀ u, u <+: text → u.count '\x7d' ≤ u.count '\x7b'

/-- A text closes the blocks that it opens, and no others. -/
structure Balanced (text : List Char) : Prop where
  neverBelow : NeverBelow text
  count_eq : text.count '\x7d' = text.count '\x7b'

instance : Decidable (NeverBelow text) :=
  decidable_of_iff (∀ u ∈ text.inits, u.count '\x7d' ≤ u.count '\x7b') (by simp [NeverBelow])

/-- A block that is open before some texts closes in one of them. -/
def ClosesIn (texts : List (List Char)) (k : Nat) : Prop :=
  ∃ u v, texts[k]? = some (u ++ '\x7d' :: v) ∧ Balanced ((texts.take k).flatten ++ u)

/-- A block that is open before some texts reaches one of them: it closes in no earlier one. -/
def Reaches (texts : List (List Char)) (k : Nat) : Prop := ∀ k' < k, ¬ ClosesIn texts k'

/-- What stands before a brace leaves its block to be the one that counts: after closing a block,
the text is always in another one that it has opened. -/
def StaysOpen (before : List Char) : Prop :=
  ∀ u, u <+: before → '\x7d' ∈ u → u.count '\x7d' < u.count '\x7b'

instance : Decidable (StaysOpen before) :=
  decidable_of_iff (∀ u ∈ before.inits, '\x7d' ∈ u → u.count '\x7d' < u.count '\x7b')
    (by simp [StaysOpen])

def net (text : List Char) : Int := text.count '\x7b' - text.count '\x7d'

@[simp] lemma net_nil : net [] = 0 := rfl

@[simp] lemma net_append (text more : List Char) : net (text ++ more) = net text + net more := by
  simp only [net, count_append]
  omega

lemma depthAfter_eq (depth : Int) (c : Char) : depthAfter depth c = depth + net [c] := by
  by_cases hopen : c = '\x7b'
  · subst hopen
    rfl
  · by_cases hclose : c = '\x7d'
    · subst hclose
      rfl
    · simp [depthAfter, net, hopen, hclose]

lemma followBraces_append {depth' : Int} {opened' : Bool}
    (h : followBraces depth opened text = some (depth', opened')) (more : List Char) :
    followBraces depth opened (text ++ more) = followBraces depth' opened' more := by
  induction text generalizing depth opened with
  | nil =>
    cases h
    rfl
  | cons c text ih =>
    rw [followBraces_cons] at h
    rw [cons_append, followBraces_cons]
    split at h
    · cases h
    · rename_i hopen
      rw [if_neg hopen]
      exact ih h

lemma followBraces_eq_some (h : ∀ u, u <+: text → u ≠ [] → opened ∨ '\x7b' ∈ u →
      depth + net u ≠ 0) :
    followBraces depth opened text = some (depth + net text, opened || decide ('\x7b' ∈ text)) := by
  induction text generalizing depth opened with
  | nil => simp [followBraces]
  | cons c text ih =>
    have hnet : ∀ u, net (c :: u) = net [c] + net u := net_append [c]
    have hopen : ∀ u, '\x7b' ∈ c :: u ↔ (c == '\x7b') ∨ '\x7b' ∈ u := by
      simp [@eq_comm _ '\x7b' c]
    rw [followBraces_cons, depthAfter_eq, if_neg, ih]
    · rw [hnet text, decide_eq_decide.mpr (hopen text), Bool.decide_or, Bool.decide_eq_true,
        Bool.or_assoc, Int.add_assoc]
    · intro u hu hne hopened
      have hlonger := h (c :: u) (by simpa using hu) (by simp)
      rw [hnet, hopen, ← or_assoc, ← Bool.or_eq_true, ← Int.add_assoc] at hlonger
      exact hlonger hopened
    · rw [Bool.and_eq_true, Bool.or_eq_true]
      rintro ⟨hopened, hzero⟩
      refine h [c] (by simp) (by simp) ?_ (beq_iff_eq.mp hzero)
      exact hopened.imp_right fun hc => (hopen []).mpr (.inl hc)

lemma NeverBelow.append (htext : NeverBelow text)
    (h : ¬ ∃ u v, more = u ++ '\x7d' :: v ∧ Balanced (text ++ u)) : NeverBelow (text ++ more) := by
  induction more generalizing text with
  | nil => simpa using htext
  | cons c more ih =>
    have hnext : NeverBelow (text ++ [c]) := by
      intro u hu
      rcases prefix_concat_iff.mp hu with rfl | hu
      · have hle := htext text (prefix_refl text)
        rw [count_append, count_append]
        by_cases hc : c = '\x7d'
        · subst hc
          have hne : text.count '\x7d' ≠ text.count '\x7b' := fun heq =>
            h ⟨[], more, rfl, by simpa using ⟨htext, heq⟩⟩
          simp
          omega
        · simp [hc]
          omega
      · exact htext u hu
    have hmore : ¬ ∃ u v, more = u ++ '\x7d' :: v ∧ Balanced (text ++ [c] ++ u) := by
      rintro ⟨u, v, rfl, hbalanced⟩
      exact h ⟨c :: u, v, rfl, by simpa using hbalanced⟩
    simpa using ih hnext hmore

lemma reaches_iff {k : Nat} : Reaches texts k ↔ NeverBelow (texts.take k).flatten := by
  constructor
  · intro h
    induction k with
    | zero =>
      intro u hu
      rw [prefix_nil.mp hu]
      rfl
    | succ k ih =>
      have hbefore := ih fun k' hk' => h k' (Nat.lt_succ_of_lt hk')
      rw [take_add_one, flatten_append]
      cases htext : texts[k]? with
      | none => simpa using hbefore
      | some text =>
        rw [Option.toList_some, flatten_singleton]
        refine hbefore.append fun hclosed => h k (Nat.lt_succ_self k) ?_
        obtain ⟨u, v, rfl, hbalanced⟩ := hclosed
        exact ⟨u, v, htext, hbalanced⟩
  · rintro h k' hk' ⟨u, v, htext, hbalanced⟩
    have hprefix : (texts.take k').flatten ++ (u ++ ['\x7d']) <+: (texts.take k).flatten := by
      have htake : texts.take (k' + 1) <+: texts.take k := take_isPrefix_take.mpr (.inl hk')
      refine .trans ?_ htake.flatten
      rw [take_add_one, htext, Option.toList_some, flatten_append, flatten_singleton]
      exact (prefix_append_right_inj _).mpr ⟨v, by simp⟩
    have hle := h _ hprefix
    have heq := hbalanced.count_eq
    simp only [count_append, count_singleton] at hle heq
    simp at hle
    omega

/-! ### Ends of blocks -/

variable {line : List Char} {lines : List (List Char)} {i k : Nat}

lemma opened_of_followBraces {depth' : Int} {opened' : Bool}
    (h : followBraces depth true text = some (depth', opened')) : opened' := by
  induction text generalizing depth with
  | nil =>
    cases h
    rfl
  | cons c text ih =>
    rw [followBraces_cons] at h
    split at h
    · cases h
    · exact ih h

lemma blockEndFrom_cons (depth : Int) (opened first : Bool) (index : Nat) (line : List Char)
    (lines : List (List Char)) : blockEndFrom depth opened first index (line :: lines) =
      if !opened && !first && !startsBlock (clean line) then none
      else (followBraces depth opened (clean line)).elim (some index) fun next =>
        blockEndFrom next.1 next.2 false (index + 1) lines := by
  rw [blockEndFrom]
  cases followBraces depth opened (clean line) <;> rfl

lemma exists_blockEndFrom (depth : Int) (first : Bool) (index : Nat) (lines : List (List Char)) :
    ∃ last, blockEndFrom depth true first index lines = some last ∧ index ≤ last + 1 := by
  induction lines generalizing depth first index with
  | nil => exact ⟨index - 1, rfl, by omega⟩
  | cons line lines ih =>
    rw [blockEndFrom_cons, if_neg (by simp)]
    cases hfollow : followBraces depth true (clean line) with
    | none => exact ⟨index, rfl, by omega⟩
    | some next =>
      obtain ⟨depth', opened'⟩ := next
      obtain rfl := opened_of_followBraces hfollow
      obtain ⟨last, hlast, hle⟩ := ih depth' false (index + 1)
      exact ⟨last, hlast, by omega⟩

/-- A block that is still open after some text goes on through the lines that it reaches. -/
lemma exists_end_of_neverBelow {base : Int} (hbase : 0 < base) (hk : k ≤ lines.length)
    (h : NeverBelow (text ++ ((more :: lines.map clean).take k).flatten)) :
    ∃ last, (followBraces (base + net text) true more).elim (some i)
      (fun next => blockEndFrom next.1 next.2 false (i + 1) lines) = some last ∧ i + k ≤ last := by
  induction k generalizing text more lines i with
  | zero =>
    cases hfollow : followBraces (base + net text) true more with
    | none => exact ⟨i, rfl, Nat.le_refl i⟩
    | some next =>
      obtain ⟨depth', opened'⟩ := next
      obtain rfl := opened_of_followBraces hfollow
      obtain ⟨last, hlast, hle⟩ := exists_blockEndFrom depth' false (i + 1) lines
      exact ⟨last, hlast, by omega⟩
  | succ k ih =>
    obtain _ | ⟨line, lines⟩ := lines
    · simp at hk
    rw [take_succ_cons, flatten_cons, ← append_assoc] at h
    have hfollow :
        followBraces (base + net text) true more = some (base + net (text ++ more), true) := by
      rw [followBraces_eq_some, net_append, Int.add_assoc, Bool.true_or]
      intro u hu _ _ hzero
      have hle := h (text ++ u) (((prefix_append_right_inj text).mpr hu).trans (prefix_append ..))
      have hnet : 0 ≤ net (text ++ u) := by
        rw [net]
        omega
      rw [net_append] at hnet
      omega
    rw [hfollow, Option.elim_some, blockEndFrom_cons, if_neg (by simp)]
    obtain ⟨last, hlast, hle⟩ := ih (Nat.le_of_succ_le_succ hk) h (i := i + 1)
    exact ⟨last, hlast, by omega⟩

lemma StaysOpen.followBraces_eq (h : StaysOpen before) (after : List Char) :
    followBraces 0 false (before ++ '\x7b' :: after) = followBraces (net before + 1) true after ∧
      0 ≤ net before := by
  have hnet : ∀ u, u <+: before → 0 ≤ net u ∧ ('\x7b' ∈ u → net u ≠ 0) := by
    intro u hu
    rw [net]
    by_cases hclose : '\x7d' ∈ u
    · have hlt := h u hu hclose
      omega
    · rw [count_eq_zero.mpr hclose, ← count_pos_iff]
      omega
  have hbefore : followBraces 0 false before = some (net before, decide ('\x7b' ∈ before)) := by
    rw [followBraces_eq_some, Int.zero_add, Bool.false_or]
    intro u hu _ hopened
    rw [Int.zero_add]
    exact (hnet u hu).2 (hopened.resolve_left Bool.false_ne_true)
  have hpos := (hnet before (prefix_refl before)).1
  have hbrace : depthAfter (net before) '\x7b' = net before + 1 := rfl
  refine ⟨?_, hpos⟩
  rw [followBraces_append hbefore, followBraces_cons, hbrace, beq_self_eq_true, Bool.or_true,
    if_neg]
  rw [Bool.true_and, beq_iff_eq]
  omega

lemma exists_blockEnd? (hline : lines[i]? = some line)
    (hclean : clean line = before ++ '\x7b' :: after)
    (hbefore : StaysOpen before) (hreaches : Reaches (after :: (lines.drop (i + 1)).map clean) k)
    (hk : i + k < lines.length) : ∃ last, blockEnd? lines i = some last ∧ i + k ≤ last := by
  obtain ⟨hi, hget⟩ := List.getElem?_eq_some_iff.mp hline
  obtain ⟨hfollow, hnet⟩ := hbefore.followBraces_eq after
  rw [blockEnd?, drop_eq_getElem_cons hi, hget, blockEndFrom_cons, if_neg (by simp), hclean,
    hfollow]
  have hbase : 0 < net before + 1 := by omega
  have hlength : k ≤ (lines.drop (i + 1)).length := by
    rw [length_drop]
    omega
  have hnever : NeverBelow ([] ++ ((after :: (lines.drop (i + 1)).map clean).take k).flatten) := by
    rw [nil_append]
    exact reaches_iff.mp hreaches
  have hend := exists_end_of_neverBelow hbase hlength hnever (i := i)
  rwa [net_nil, Int.add_zero] at hend

/-! ### Guards of checks -/

def checkedClass (name : List Char) : String :=
  Text.lower (normalName (String.ofList (singleSeparators name)))

lemma ofMatch_eq {name start stop : List Char} (hname : name ≠ []) {m : Match} {index : Nat}
    (hindex : index ∈ [2, 3]) (hgroups : m.groups = [(index, ⟨start, name, stop⟩)]) {last : Nat}
    (hend : blockEnd? lines i = some last) :
    ofMatch lines i m = [⟨checkedClass name, i, last, false⟩] := by
  have hwritten :
      (if (m.group 2).isEmpty then m.group 3 else m.group 2) = name ∧ (m.group 1).isEmpty := by
    rcases mem_pair.mp hindex with rfl | rfl <;> simp [Match.group, hgroups, hname]
  simp only [ofMatch, hend, hwritten.1, hwritten.2, Bool.not_true, Bool.false_and,
    Bool.false_eq_true, if_false, checkedClass]

lemma mem_all_of_checksClass {name : List Char} (hline : lines[i]? = some line)
    (hcheck : ChecksClass (stripComments line) name) {last : Nat}
    (hend : blockEnd? lines i = some last) : ⟨checkedClass name, i, last, false⟩ ∈ all lines := by
  obtain ⟨m, hm, index, hindex, start, stop, hgroups⟩ := exists_mem_findAll_check hcheck
  have hname : name ≠ [] := by
    obtain ⟨-, -, -, -, -, -, -, ⟨-, -, -, -, x, text, rfl, -⟩, -⟩ := hcheck
    exact cons_ne_nil x text
  refine mem_flatMap.mpr ⟨(line, i), mk_mem_zipIdx_iff_getElem?.mpr hline, ?_⟩
  refine mem_flatMap.mpr ⟨m, hm, ?_⟩
  rw [ofMatch_eq hname hindex hgroups hend]
  exact mem_singleton_self _

end Guard

/-- A finding is about a class, given in lower case: the name in it is that of the class, as it is
written or in full, or ends in the same segment. -/
def IsAbout (x : Finding) (name : String) : Prop :=
  name = Text.lower (normalName (x.contextText "class")) ∨
    name = Text.lower (x.contextText "resolved") ∨
    lastSegment name = Text.lower (lastSegment (x.contextText "class"))

instance (x : Finding) (name : String) : Decidable (IsAbout x name) :=
  inferInstanceAs (Decidable (_ ∨ _))

namespace ClassConflict

open Guard

lemma contextText_undefinedFinding (path : String) (number : Nat) (name full : String) :
    (undefinedFinding path number name full).contextText "class" = name ∧
      (undefinedFinding path number name full).contextText "resolved" = full := by
  simp [undefinedFinding, Finding.contextText, texts, Table.ofPairs, Value.display]

/-- Where a check that a class exists comes before a brace on its line, the class is not reported as
undefined on that line and the lines that the block of the brace reaches, up to the one where it
closes or the end of the file. Of what comes before the brace, it is enough that the line is always
in a block of its own once it has closed one. -/
theorem not_undefinedClass_in_checked_block {f : File} {i k : Nat}
    {line name before after : List Char}
    (hline : f.lines[i]? = some line) (hcheck : ChecksClass (stripComments line) name)
    (hbrace : clean line = before ++ '\x7b' :: after) (hbefore : StaysOpen before)
    (hreaches : Reaches (after :: (f.lines.drop (i + 1)).map clean) k) (env : Surroundings) :
    ∀ x ∈ detect env f, x.kind = .undefinedClass → x.line = i + k + 1 →
      ¬ IsAbout x (checkedClass name) := by
  intro x hx hkind hplace habout
  obtain ⟨⟨number, used⟩, hmem, written, full, rfl, -, huncovered⟩ :=
    exists_uncovered_of_mem_findingsFrom hx hkind
  obtain ⟨hpos, hget, -⟩ := spec_of_mem_codeLines hmem
  have hnumber : number - 1 = i + k := by
    have hcast : (number : Int) = i + k + 1 := hplace
    omega
  have hk : i + k < f.lines.length := hnumber ▸ (List.getElem?_eq_some_iff.mp hget).1
  obtain ⟨last, hend, hlast⟩ := exists_blockEnd? hline hbrace hbefore hreaches hk
  have hguard := mem_all_of_checksClass hline hcheck hend
  rw [covers, any_eq_false] at huncovered
  apply huncovered _ hguard
  obtain ⟨hclass, hresolved⟩ := contextText_undefinedFinding f.path number written full
  rw [IsAbout, hclass, hresolved] at habout
  rw [Bool.and_eq_true, Bool.and_eq_true, Bool.or_eq_true, Bool.or_eq_true, beq_iff_eq, beq_iff_eq,
    beq_iff_eq, Guard.reaches, decide_eq_true_eq, hnumber, or_assoc]
  exact ⟨⟨rfl, Nat.le_add_right i k, hlast⟩, habout⟩

def guardLine : List Char :=
  "do \x7b if ($a) \x7b \x7d if (\\enum_exists ( '\\Gone' )) \x7b".toList

def guardedFile : File :=
  ⟨"a.php", ["<?php".toList, guardLine, "if ($x) \x7b \x7d".toList, "new Gone;".toList,
    "\x7d\x7d".toList, "new Gone;".toList]⟩

theorem not_undefinedClass_in_guardedFile :
    guardedFile.lines[1]? = some guardLine ∧ ChecksClass (stripComments guardLine) "Gone".toList ∧
      (∀ x ∈ detect {} guardedFile, x.kind = .undefinedClass → x.line = 1 + 2 + 1 →
        ¬ IsAbout x (checkedClass "Gone".toList)) ∧
      (detect {} guardedFile).map (fun x =>
        (x.line, decide (IsAbout x (checkedClass "Gone".toList)))) = [(6, true)] := by
  have hcheck : ChecksClass (stripComments guardLine) "Gone".toList := by
    refine ⟨"do \x7b if ($a) \x7b \x7d if (\\".toList, "enum", " ".toList, " ".toList, _,
      " )) \x7b".toList, ?_, ⟨by decide, all_eq_true.mp (by decide),
      all_eq_true.mp (by decide), .quoted (.inr rfl) 1, by decide⟩, ?_⟩
    · decide +kernel
    · exact standsAlone_of_notMem (by decide) (by decide) (by decide)
  have hbrace : clean guardLine = "do \x7b if ($a) \x7b \x7d if (\\enum_exists ( '' )) ".toList ++
      '\x7b' :: [] := by
    decide +kernel
  have hreaches : Reaches ([] :: (guardedFile.lines.drop (1 + 1)).map clean) 2 :=
    reaches_iff.mpr (by decide +kernel)
  refine ⟨rfl, hcheck, ?_, by decide +kernel⟩
  exact not_undefinedClass_in_checked_block rfl hcheck hbrace (by decide +kernel) hreaches {}

def branchFile : File :=
  ⟨"a.php", ["<?php".toList, "if ($a) \x7b".toList,
    "\x7d elseif (class_exists('Gone')) \x7b".toList, "new Gone;".toList, "\x7d".toList]⟩

/-- After the closing brace of another branch, the block of a check counts as closed on its own
line, even where the brace behind the check is the first one that the line opens. -/
theorem exists_undefinedClass_in_checked_block :
    ¬ ∀ (f : File) (i k : Nat) (line name before after : List Char), f.lines[i]? = some line →
      ChecksClass ((stripComments line).takeWhile (· != '\x7b')) name →
        clean line = before ++ '\x7b' :: after →
        '\x7b' ∉ before → Reaches (after :: (f.lines.drop (i + 1)).map clean) k → ∀ env,
          ∀ x ∈ detect env f, x.kind = .undefinedClass → x.line = i + k + 1 →
            ¬ IsAbout x (checkedClass name) := by
  intro h
  have hcheck : ChecksClass
      ((stripComments "\x7d elseif (class_exists('Gone')) \x7b".toList).takeWhile (· != '\x7b'))
      "Gone".toList := by
    refine ⟨"\x7d elseif (".toList, "class", [], [], _, ")) ".toList, ?_,
      ⟨by decide, forall_mem_nil _, forall_mem_nil _, .quoted (.inr rfl) 0, by decide⟩, ?_⟩
    · decide +kernel
    · exact standsAlone_of_notMem (by decide) (by decide) (by decide)
  have hbrace : clean "\x7d elseif (class_exists('Gone')) \x7b".toList =
      "\x7d elseif (class_exists('')) ".toList ++ '\x7b' :: [] := by
    decide +kernel
  have hreaches : Reaches ([] :: (branchFile.lines.drop (2 + 1)).map clean) 1 :=
    reaches_iff.mpr (by decide +kernel)
  refine h branchFile 2 1 _ _ _ _ rfl hcheck hbrace (by decide) hreaches {}
    (undefinedFinding "a.php" 4 "Gone" "Gone") ?_ rfl rfl ?_
  · decide +kernel
  · decide +kernel

end ClassConflict

end PluginAudit.Detector
