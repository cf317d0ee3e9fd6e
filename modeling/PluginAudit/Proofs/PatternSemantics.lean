import Mathlib.Tactic.Common
import PluginAudit.Pattern.Search

/-!
What a match is, apart from how it is searched. `Matches` relates a pattern to the two places of a
match and to the groups before and after it; the search finds only such matches, and it finds one
where there is one.
-/

open List

namespace PluginAudit

open CharSet (wordChar mem single inRanges)

/-! ### Reading on -/

/-- The text between two places. -/
structure Cursor.Reads (c : Cursor) (text : List Char) (d : Cursor) : Prop where
  rest_eq : c.rest = text ++ d.rest
  past_eq : d.past = text.reverse ++ c.past

namespace Cursor.Reads

variable {c d e : Cursor} {text text' : List Char}

lemma refl (c : Cursor) : c.Reads [] c := ⟨rfl, rfl⟩

lemma trans (h : c.Reads text d) (h' : d.Reads text' e) : c.Reads (text ++ text') e where
  rest_eq := by rw [h.rest_eq, h'.rest_eq, append_assoc]
  past_eq := by rw [h'.past_eq, h.past_eq, reverse_append, append_assoc]

lemma of_rest (past text rest : List Char) :
    Cursor.Reads ⟨past, text ++ rest⟩ text ⟨text.reverse ++ past, rest⟩ := ⟨rfl, rfl⟩

lemma eq_of_nil (h : c.Reads [] d) : d = c := by
  obtain ⟨past, rest⟩ := c
  obtain ⟨past', rest'⟩ := d
  obtain ⟨hrest, hpast⟩ := h
  simp_all

lemma spanTo_eq (h : c.Reads text d) : c.spanTo d = ⟨c.past, text, d.rest⟩ := by
  simp [spanTo, h.rest_eq]

end Cursor.Reads

lemma Cursor.wordBefore_eq (past rest : List Char) :
    Cursor.wordBefore ⟨past, rest⟩ = past.head?.any wordChar.mem := by
  cases past <;> rfl

lemma Cursor.wordAfter_eq (past rest : List Char) :
    Cursor.wordAfter ⟨past, rest⟩ = rest.head?.any wordChar.mem := by
  cases rest <;> rfl

namespace Pattern

/-! ### Matches -/

/-- A pattern matches from one place to another and adds pieces to the groups. Each round of a
repetition moves on. -/
inductive Matches : Pattern → Cursor → Groups → Cursor → Groups → Prop where
  | empty {c groups} : Matches .empty c groups c groups
  | set {s x past rest groups} (hmem : s.mem x = true) :
      Matches (.set s) ⟨past, x :: rest⟩ groups ⟨x :: past, rest⟩ groups
  | seq {p q c groups d groups' e groups''} (hp : Matches p c groups d groups')
      (hq : Matches q d groups' e groups'') : Matches (.seq p q) c groups e groups''
  | altLeft {p q c groups d groups'} (hp : Matches p c groups d groups') :
      Matches (.alt p q) c groups d groups'
  | altRight {p q c groups d groups'} (hq : Matches q c groups d groups') :
      Matches (.alt p q) c groups d groups'
  | stop {greedy p c groups} : Matches (.many greedy p) c groups c groups
  | again {greedy p c groups d groups' e groups''} (hp : Matches p c groups d groups')
      (hlt : d.rest.length < c.rest.length)
    (hmany : Matches (.many greedy p) d groups' e groups'') :
      Matches (.many greedy p) c groups e groups''
  | group {i p c groups d groups'} (hp : Matches p c groups d groups') :
      Matches (.group i p) c groups d ((i, c.spanTo d) :: groups')
  | edge {e c groups} (hholds : c.holds e = true) : Matches (.edge e) c groups c groups

variable {α : Type} {p q : Pattern} {c d : Cursor} {groups groups' : Groups}

lemma Matches.exists_reads (h : Matches p c groups d groups') : ∃ text, c.Reads text d := by
  induction h with
  | empty => exact ⟨[], .refl _⟩
  | @set s x past rest groups hmem => exact ⟨[x], .of_rest past [x] rest⟩
  | seq hp hq ihp ihq =>
    obtain ⟨text, hread⟩ := ihp
    obtain ⟨text', hread'⟩ := ihq
    exact ⟨text ++ text', hread.trans hread'⟩
  | altLeft hp ih => exact ih
  | altRight hq ih => exact ih
  | stop => exact ⟨[], .refl _⟩
  | again hp hlt hmany ihp ihmany =>
    obtain ⟨text, hread⟩ := ihp
    obtain ⟨text', hread'⟩ := ihmany
    exact ⟨text ++ text', hread.trans hread'⟩
  | group hp ih => exact ih
  | edge hholds => exact ⟨[], .refl _⟩

def groupFree : Pattern → Bool
  | .seq p q | .alt p q => p.groupFree && q.groupFree
  | .many _ p => p.groupFree
  | .group _ _ => false
  | .empty | .set _ | .edge _ => true

lemma Matches.groups_eq (h : Matches p c groups d groups') (hp : p.groupFree) :
    groups' = groups := by
  induction h with
  | empty => rfl
  | set => rfl
  | seq _ _ ihp ihq =>
    rw [groupFree, Bool.and_eq_true] at hp
    rw [ihq hp.2, ihp hp.1]
  | altLeft _ ih =>
    rw [groupFree, Bool.and_eq_true] at hp
    exact ih hp.1
  | altRight _ ih =>
    rw [groupFree, Bool.and_eq_true] at hp
    exact ih hp.2
  | stop => rfl
  | again _ _ _ ihp ihmany => rw [ihmany hp, ihp hp]
  | group => cases hp
  | edge => rfl

lemma repeated_succ (greedy : Bool) (body : Cursor → Groups → Next α → Option α) (next : Next α)
    (fuel : Nat) (c : Cursor) (groups : Groups) :
    repeated greedy body next (fuel + 1) c groups =
      let again := body c groups fun d groups =>
        if d.rest.length < c.rest.length then repeated greedy body next fuel d groups else none
      if greedy then again.or (next c groups) else (next c groups).or again := by
  rw [repeated]
  cases greedy <;> simp only [Bool.false_eq_true, if_false, if_true, Option.orElse_eq_or]

/-! ### The search finds matches only -/

lemma exists_matches_of_repeated {greedy : Bool} {next : Next α} {a : α}
    (hbody : ∀ c groups (next : Next α) a, p.run c groups next = some a →
      ∃ d groups', Matches p c groups d groups' ∧ next d groups' = some a)
    (fuel : Nat) (c : Cursor) (groups : Groups)
    (h : repeated greedy p.run next fuel c groups = some a) :
    ∃ d groups', Matches (.many greedy p) c groups d groups' ∧ next d groups' = some a := by
  induction fuel generalizing c groups with
  | zero => exact ⟨c, groups, .stop, h⟩
  | succ fuel ih =>
    rw [repeated_succ] at h
    have hround : p.run c groups (fun d groups =>
        if d.rest.length < c.rest.length then repeated greedy p.run next fuel d groups else none) =
          some a → ∃ d groups', Matches (.many greedy p) c groups d groups' ∧
          next d groups' = some a := by
      intro hround
      obtain ⟨d, groups', hp, hnext⟩ := hbody _ _ _ _ hround
      split at hnext
      case isTrue hlt =>
        obtain ⟨e, groups'', hmany, hnext⟩ := ih d groups' hnext
        exact ⟨e, groups'', .again hp hlt hmany, hnext⟩
      case isFalse => cases hnext
    have hor : p.run c groups (fun d groups =>
        if d.rest.length < c.rest.length then repeated greedy p.run next fuel d groups else none) =
          some a ∨ next c groups = some a := by
      cases greedy with
      | true => exact (Option.or_eq_some_iff.mp h).imp id And.right
      | false => exact ((Option.or_eq_some_iff.mp h).imp id And.right).symm
    rcases hor with h | h
    · exact hround h
    · exact ⟨c, groups, .stop, h⟩

lemma exists_matches_of_run {next : Next α} {a : α} (h : p.run c groups next = some a) :
    ∃ d groups', Matches p c groups d groups' ∧ next d groups' = some a := by
  induction p generalizing c groups next a with
  | empty => exact ⟨c, groups, .empty, h⟩
  | set s =>
    obtain ⟨past, rest⟩ := c
    cases rest with
    | nil => cases h
    | cons x rest =>
      rw [run] at h
      dsimp only at h
      split at h
      case isTrue hmem => exact ⟨_, groups, .set hmem, h⟩
      case isFalse => cases h
  | seq p q ihp ihq =>
    obtain ⟨d, groups', hp, h⟩ := ihp h
    obtain ⟨e, groups'', hq, h⟩ := ihq h
    exact ⟨e, groups'', .seq hp hq, h⟩
  | alt p q ihp ihq =>
    rw [run, Option.orElse_eq_or, Option.or_eq_some_iff] at h
    rcases h with h | ⟨_, h⟩
    · obtain ⟨d, groups', hp, h⟩ := ihp h
      exact ⟨d, groups', .altLeft hp, h⟩
    · obtain ⟨d, groups', hq, h⟩ := ihq h
      exact ⟨d, groups', .altRight hq, h⟩
  | many greedy p ih => exact exists_matches_of_repeated (fun _ _ _ _ h => ih h) _ c groups h
  | group i p ih =>
    obtain ⟨d, groups', hp, h⟩ := ih h
    exact ⟨d, (i, c.spanTo d) :: groups', .group hp, h⟩
  | edge e =>
    rw [run] at h
    split at h
    case isTrue hholds => exact ⟨c, groups, .edge hholds, h⟩
    case isFalse => cases h

/-! ### The search finds a match where there is one -/

lemma isSome_repeated {greedy : Bool} {next : Next α} (fuel : Nat)
    (h : (next c groups).isSome ∨ 0 < fuel ∧ (p.run c groups fun d groups =>
      if d.rest.length < c.rest.length then repeated greedy p.run next (fuel - 1) d groups
      else none).isSome) : (repeated greedy p.run next fuel c groups).isSome := by
  cases fuel with
  | zero => exact h.resolve_right fun h => absurd h.1 (Nat.lt_irrefl 0)
  | succ fuel =>
    rw [repeated_succ]
    cases greedy with
    | true =>
      rw [if_pos rfl, Option.isSome_or, Bool.or_eq_true]
      exact (h.imp id And.right).symm
    | false =>
      rw [if_neg Bool.false_ne_true, Option.isSome_or, Bool.or_eq_true]
      exact h.imp id And.right

lemma Matches.isSome_run (h : Matches p c groups d groups') {next : Next α}
    (hnext : (next d groups').isSome) : (p.run c groups next).isSome := by
  -- For a repetition the induction needs every sufficient fuel, not only the one that `run` gives.
  have hmain : ∀ next : Next α, (next d groups').isSome →
      (p.run c groups next).isSome ∧ ∀ greedy body, p = .many greedy body →
        ∀ fuel, c.rest.length ≤ fuel → (repeated greedy body.run next fuel c groups).isSome := by
    clear hnext next
    induction h with
    | empty => exact fun next hnext => ⟨hnext, nofun⟩
    | set hmem =>
      intro next hnext
      refine ⟨?_, nofun⟩
      rw [run]
      simpa only [hmem, if_true] using hnext
    | seq hp hq ihp ihq => exact fun next hnext => ⟨(ihp _ (ihq _ hnext).1).1, nofun⟩
    | altLeft hp ih =>
      intro next hnext
      refine ⟨?_, nofun⟩
      rw [run, Option.orElse_eq_or, Option.isSome_or, (ih _ hnext).1, Bool.true_or]
    | altRight hq ih =>
      intro next hnext
      refine ⟨?_, nofun⟩
      rw [run, Option.orElse_eq_or, Option.isSome_or, (ih _ hnext).1, Bool.or_true]
    | stop =>
      intro next hnext
      refine ⟨isSome_repeated _ (.inl hnext), ?_⟩
      rintro greedy body ⟨⟩ fuel hle
      exact isSome_repeated fuel (.inl hnext)
    | @again greedy p c groups d groups' e groups'' hp hlt hmany ihp ihmany =>
      intro next hnext
      have hfuel :
          ∀ fuel, c.rest.length ≤ fuel → (repeated greedy p.run next fuel c groups).isSome := by
        intro fuel hle
        refine isSome_repeated fuel (.inr ⟨by omega, (ihp _ ?_).1⟩)
        rw [if_pos hlt]
        exact (ihmany next hnext).2 greedy p rfl (fuel - 1) (by omega)
      refine ⟨hfuel _ (Nat.le_refl _), ?_⟩
      rintro greedy body ⟨⟩ fuel hle
      exact hfuel fuel hle
    | group hp ih => exact fun next hnext => ⟨(ih _ hnext).1, nofun⟩
    | edge hholds =>
      intro next hnext
      refine ⟨?_, nofun⟩
      rw [run, if_pos hholds]
      exact hnext
  exact (hmain next hnext).1

/-! ### Matches in a text -/

/-- A match of a pattern in its place in a text. -/
structure IsMatch (p : Pattern) (s : List Char) (m : Match) : Prop where
  text_eq : m.past.reverse ++ (m.text ++ m.after) = s
  holds : Matches p ⟨m.past, m.text ++ m.after⟩ [] ⟨m.text.reverse ++ m.past, m.after⟩ m.groups

variable {s past rest : List Char} {m : Match}

lemma isMatch_of_matchAt (h : p.matchAt ⟨past, rest⟩ = some m) :
    IsMatch p (past.reverse ++ rest) m := by
  obtain ⟨d, groups, hp, hm⟩ := exists_matches_of_run h
  obtain ⟨text, hread⟩ := hp.exists_reads
  obtain ⟨past', rest'⟩ := d
  cases hm
  have hrest : rest = text ++ rest' := hread.rest_eq
  have hpast : past' = text.reverse ++ past := hread.past_eq
  subst hrest hpast
  rw [hread.spanTo_eq]
  exact ⟨rfl, hp⟩

lemma isMatch_of_findFrom (h : p.findFrom past rest = some m) :
    IsMatch p (past.reverse ++ rest) m := by
  induction rest generalizing past with
  | nil =>
    rw [findFrom] at h
    split at h
    case h_1 found hat =>
      cases h
      exact isMatch_of_matchAt hat
    case h_2 => cases h
  | cons x rest ih =>
    rw [findFrom] at h
    split at h
    case h_1 found hat =>
      cases h
      exact isMatch_of_matchAt hat
    case h_2 => simpa using ih h

lemma isMatch_of_find? (h : p.find? s = some m) : IsMatch p s m := isMatch_of_findFrom h

lemma exists_findFrom_of_mem_findAll (h : m ∈ p.findAll s) :
    ∃ past rest, past.reverse ++ rest = s ∧ p.findFrom past rest = some m := by
  have hfrom : ∀ fuel (c : Cursor) afterMatch, m ∈ p.findAllFrom fuel c afterMatch → ∃ past rest,
      past.reverse ++ rest = c.past.reverse ++ c.rest ∧ p.findFrom past rest = some m := by
    intro fuel
    induction fuel with
    | zero =>
      intro c afterMatch h
      cases h
    | succ fuel ih =>
      rintro ⟨past, rest⟩ afterMatch h
      rw [findAllFrom] at h
      cases hfind : p.findFrom past rest with
      | none =>
        rw [hfind] at h
        cases h
      | some found =>
        have hstop :
            (found.text.reverse ++ found.past).reverse ++ found.after = past.reverse ++ rest := by
          rw [← (isMatch_of_findFrom hfind).text_eq]
          simp
        simp only [hfind] at h
        split at h
        · -- after an empty match the search goes on one character further, if there is one
          have hmore :
              ∀ more, m ∈ (if afterMatch then more else found :: more) → m = found ∨ m ∈ more := by
            intro more h
            split at h
            · exact .inr h
            · exact mem_cons.mp h
          rcases hmore _ h with rfl | h
          · exact ⟨past, rest, rfl, hfind⟩
          · cases rest with
            | nil => cases h
            | cons x rest => simpa using ih _ _ h
        · rcases mem_cons.mp h with rfl | h
          · exact ⟨past, rest, rfl, hfind⟩
          · exact hstop ▸ ih _ _ h
  exact hfrom _ _ _ h

lemma isMatch_of_mem_findAll (h : m ∈ p.findAll s) : IsMatch p s m := by
  obtain ⟨past, rest, rfl, hfind⟩ := exists_findFrom_of_mem_findAll h
  exact isMatch_of_findFrom hfind

lemma test_iff : p.test s ↔
    ∃ past rest d groups, past.reverse ++ rest = s ∧ Matches p ⟨past, rest⟩ [] d groups := by
  constructor
  · intro h
    obtain ⟨m, hm⟩ := Option.isSome_iff_exists.mp h
    have hmatch := isMatch_of_find? hm
    exact ⟨_, _, _, _, hmatch.text_eq, hmatch.holds⟩
  · rintro ⟨past, rest, d, groups, rfl, hp⟩
    have hfrom : ∀ skipped start : List Char, start.reverse ++ skipped = past.reverse →
        (p.findFrom start (skipped ++ rest)).isSome := by
      intro skipped
      induction skipped with
      | nil =>
        intro start hstart
        rw [append_nil, reverse_inj] at hstart
        subst hstart
        have hat : (p.matchAt ⟨start, rest⟩).isSome := hp.isSome_run rfl
        obtain ⟨m, hm⟩ := Option.isSome_iff_exists.mp hat
        rw [nil_append]
        cases rest <;> simp [findFrom, hm]
      | cons x skipped ih =>
        intro start hstart
        rw [cons_append, findFrom]
        split
        · rfl
        · exact ih (x :: start) (by simpa using hstart)
    exact hfrom past.reverse [] rfl

/-! ### Matches of the usual patterns -/

@[simp] lemma matches_empty_iff : Matches .empty c groups d groups' ↔ d = c ∧ groups' = groups := by
  constructor
  · rintro ⟨⟩
    exact ⟨rfl, rfl⟩
  · rintro ⟨rfl, rfl⟩
    exact .empty

lemma matches_set_iff {set : CharSet} : Matches (.set set) c groups d groups' ↔
    groups' = groups ∧ ∃ x, set.mem x ∧ c.Reads [x] d := by
  constructor
  · rintro ⟨⟩
    case set x past rest hmem => exact ⟨rfl, x, hmem, .of_rest past [x] rest⟩
  · rintro ⟨rfl, x, hmem, hrest, hpast⟩
    obtain ⟨past, rest⟩ := c
    obtain ⟨past', rest'⟩ := d
    change rest = x :: rest' at hrest
    change past' = x :: past at hpast
    rw [hrest, hpast]
    exact .set hmem

lemma matches_seq_iff {e : Cursor} {groups'' : Groups} : Matches (.seq p q) c groups e groups'' ↔
      ∃ d groups', Matches p c groups d groups' ∧ Matches q d groups' e groups'' := by
  constructor
  · rintro ⟨⟩
    case seq d groups' hp hq => exact ⟨d, groups', hp, hq⟩
  · rintro ⟨d, groups', hp, hq⟩
    exact .seq hp hq

@[simp] lemma matches_alt_iff : Matches (.alt p q) c groups d groups' ↔
    Matches p c groups d groups' ∨ Matches q c groups d groups' := by
  constructor
  · rintro ⟨⟩
    case altLeft hp => exact .inl hp
    case altRight hq => exact .inr hq
  · rintro (hp | hq)
    · exact .altLeft hp
    · exact .altRight hq

lemma matches_group_iff {i : Nat} : Matches (.group i p) c groups d groups' ↔
    ∃ groups'', Matches p c groups d groups'' ∧ groups' = (i, c.spanTo d) :: groups'' := by
  constructor
  · rintro ⟨⟩
    case group groups'' hp => exact ⟨groups'', hp, rfl⟩
  · rintro ⟨groups'', hp, rfl⟩
    exact .group hp

@[simp] lemma matches_edge_iff {e : Edge} : Matches (.edge e) c groups d groups' ↔
    c.holds e ∧ d = c ∧ groups' = groups := by
  constructor
  · rintro ⟨⟩
    case edge hholds => exact ⟨hholds, rfl, rfl⟩
  · rintro ⟨hholds, rfl, rfl⟩
    exact .edge hholds

@[simp] lemma matches_cat_nil_iff :
    Matches (cat []) c groups d groups' ↔ d = c ∧ groups' = groups :=
  matches_empty_iff

lemma matches_cat_cons_iff {ps : List Pattern} {e : Cursor} {groups'' : Groups} :
    Matches (cat (p :: ps)) c groups e groups'' ↔
      ∃ d groups', Matches p c groups d groups' ∧ Matches (cat ps) d groups' e groups'' := by
  cases ps with
  | nil => simp [cat]
  | cons q qs => exact matches_seq_iff

lemma matches_many_set_iff {greedy : Bool} {set : CharSet} :
    Matches (.many greedy (.set set)) c groups d groups' ↔
      groups' = groups ∧ ∃ text, (∀ x ∈ text, set.mem x) ∧ c.Reads text d := by
  constructor
  · intro h
    generalize hp : Pattern.many greedy (.set set) = p at h
    induction h with
    | stop => exact ⟨rfl, [], by simp, .refl _⟩
    | again hp' hlt hmany _ ih =>
      cases hp
      obtain ⟨rfl, x, hmem, hread⟩ := matches_set_iff.mp hp'
      obtain ⟨rfl, text, hall, hread'⟩ := ih rfl
      refine ⟨rfl, x :: text, ?_, hread.trans hread'⟩
      exact forall_mem_cons.mpr ⟨hmem, hall⟩
    | _ => cases hp
  · rintro ⟨rfl, text, hall, hread⟩
    induction text generalizing c with
    | nil =>
      rw [hread.eq_of_nil]
      exact .stop
    | cons x text ih =>
      rw [forall_mem_cons] at hall
      obtain ⟨past, rest⟩ := c
      obtain ⟨hrest, hpast⟩ := hread
      dsimp only at hrest hpast
      subst hrest
      refine .again (.set hall.1) (by simp) (ih hall.2 ⟨rfl, ?_⟩)
      simpa using hpast

@[simp] lemma matches_literal_iff {w : String} : Matches (literal w) c groups d groups' ↔
    groups' = groups ∧ c.Reads w.toList d := by
  unfold literal
  induction w.toList generalizing c groups with
  | nil =>
    constructor
    · rintro ⟨⟩
      exact ⟨rfl, .refl _⟩
    · rintro ⟨rfl, hread⟩
      rw [hread.eq_of_nil]
      exact .empty
  | cons x w ih =>
    rw [map_cons, matches_cat_cons_iff]
    constructor
    · rintro ⟨e, groups'', hset, hrest⟩
      obtain ⟨rfl, y, hmem, hread⟩ := matches_set_iff.mp hset
      obtain ⟨rfl, hread'⟩ := ih.mp hrest
      have hxy : y = x := by
        simp only [mem, single, inRanges] at hmem
        simp at hmem
        exact Char.le_antisymm hmem.2 hmem.1
      subst hxy
      exact ⟨rfl, hread.trans hread'⟩
    · rintro ⟨rfl, hrest, hpast⟩
      refine ⟨⟨x :: c.past, w ++ d.rest⟩, groups', ?_, ih.mpr ⟨rfl, rfl, ?_⟩⟩
      · refine matches_set_iff.mpr ⟨rfl, x, ?_, hrest, rfl⟩
        simp [mem, single, inRanges]
      · simpa using hpast

lemma matches_oneOf_iff {ps : List Pattern} : Matches (oneOf ps) c groups d groups' ↔
    ∃ p ∈ ps, Matches p c groups d groups' := by
  induction ps with
  | nil => simp [oneOf, matches_set_iff, mem, inRanges]
  | cons p ps ih =>
    cases ps with
    | nil => simp [oneOf]
    | cons q qs =>
      change Matches (.alt p (oneOf (q :: qs))) c groups d groups' ↔ _
      rw [matches_alt_iff, ih]
      simp only [mem_cons, exists_eq_or_imp]

lemma matches_words_iff {ws : List String} : Matches (words ws) c groups d groups' ↔
    groups' = groups ∧ ∃ w ∈ ws, c.Reads w.toList d := by
  rw [words, matches_oneOf_iff]
  constructor
  · rintro ⟨p, hp, hmatch⟩
    obtain ⟨w, hw, rfl⟩ := mem_map.mp hp
    obtain ⟨hgroups, hread⟩ := matches_literal_iff.mp hmatch
    exact ⟨hgroups, w, hw, hread⟩
  · rintro ⟨hgroups, w, hw, hread⟩
    exact ⟨_, mem_map_of_mem hw, matches_literal_iff.mpr ⟨hgroups, hread⟩⟩

lemma matches_opt_literal_iff {w : String} : Matches (opt (literal w)) c groups d groups' ↔
    groups' = groups ∧ ∃ text, (text = w.toList ∨ text = []) ∧ c.Reads text d := by
  rw [opt, matches_alt_iff, matches_literal_iff, matches_empty_iff]
  constructor
  · rintro (⟨hgroups, hread⟩ | ⟨rfl, hgroups⟩)
    · exact ⟨hgroups, w.toList, .inl rfl, hread⟩
    · exact ⟨hgroups, [], .inr rfl, .refl _⟩
  · rintro ⟨hgroups, text, rfl | rfl, hread⟩
    · exact .inl ⟨hgroups, hread⟩
    · exact .inr ⟨hread.eq_of_nil, hgroups⟩

lemma matches_identifier_iff : Matches identifier c groups d groups' ↔
    groups' = groups ∧ ∃ x text, CharSet.letter.mem x ∧
      (∀ y ∈ text, wordChar.mem y) ∧ c.Reads (x :: text) d := by
  rw [identifier, star, matches_seq_iff]
  simp only [matches_set_iff, matches_many_set_iff]
  constructor
  · rintro ⟨e, groups'', ⟨rfl, x, hx, hread⟩, rfl, text, hall, hread'⟩
    exact ⟨rfl, x, text, hx, hall, hread.trans hread'⟩
  · rintro ⟨rfl, x, text, hx, hall, hrest, hpast⟩
    refine ⟨⟨x :: c.past, text ++ d.rest⟩, groups', ⟨rfl, x, hx, hrest, rfl⟩, rfl, text, hall, rfl,
      ?_⟩
    simpa using hpast

end Pattern

end PluginAudit
