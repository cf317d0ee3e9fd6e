import PluginAudit.Proofs.PatternSemantics

/-!
What a search prefers and what it passes over: a greedy repetition takes the longest run, and a
place that is passed over lies in a match that is given.
-/

open List

namespace PluginAudit

open CharSet Pattern

@[simp] lemma CharSet.single_mem_iff {c x : Char} : (single x).mem c ↔ c = x := by
  have hx : x ≤ c ∧ c ≤ x ↔ c = x :=
    ⟨fun h => Char.le_antisymm h.2 h.1, fun h => h ▸ ⟨Char.le_refl _, Char.le_refl _⟩⟩
  simp [mem, single, inRanges, hx]

@[simp] lemma CharSet.ofString_mem_iff {s : String} {c : Char} :
    (ofString s).mem c ↔ c ∈ s.toList := by
  have hx : ∀ x, x ≤ c ∧ c ≤ x ↔ x = c := fun x =>
    ⟨fun h => Char.le_antisymm h.1 h.2, fun h => h ▸ ⟨Char.le_refl _, Char.le_refl _⟩⟩
  simp [mem, ofString, inRanges, hx]

namespace Pattern

variable {α : Type} {p : Pattern} {set : CharSet} {past text rest s : List Char} {c d e : Cursor}
  {groups : Groups} {next : Next α} {m : Match} {x : Char} {w : String} {skipped : List Char}

/-! ### Preferred matches -/

@[simp] lemma run_cat_cons (p : Pattern) (ps : List Pattern) (c : Cursor) (groups : Groups)
    (next : Next α) : (cat (p :: ps)).run c groups next = p.run c groups fun d groups =>
      (cat ps).run d groups next := by
  cases ps <;> rfl

lemma run_set (hx : set.mem x) (past rest : List Char) (groups : Groups) (next : Next α) :
    run (.set set) ⟨past, x :: rest⟩ groups next = next ⟨x :: past, rest⟩ groups := by
  rw [run]
  simp only [hx, if_true]

@[simp] lemma run_literal (w : String) (past rest : List Char) (groups : Groups) (next : Next α) :
    (literal w).run ⟨past, w.toList ++ rest⟩ groups next = next ⟨w.toList.reverse ++ past,
      rest⟩ groups := by
  unfold literal
  induction w.toList generalizing past with
  | nil => rfl
  | cons x w ih =>
    rw [map_cons, run_cat_cons, cons_append, run_set (single_mem_iff.mpr rfl), ih,
      reverse_cons, append_assoc, singleton_append]

lemma run_many_set_cons (hx : set.mem x) (greedy : Bool) (past rest : List Char) :
    run (.many greedy (.set set)) ⟨past, x :: rest⟩ groups next =
      let again := run (.many greedy (.set set)) ⟨x :: past, rest⟩ groups next
      let here := next ⟨past, x :: rest⟩ groups
      if greedy then again.or here else here.or again := by
  rw [run, length_cons, repeated_succ, run_set hx]
  simp [run]

lemma run_many_set_stop (greedy : Bool) (hstop : ∀ x ∈ rest.head?, set.mem x = false) :
    run (.many greedy (.set set)) ⟨past, rest⟩ groups next = next ⟨past, rest⟩ groups := by
  cases rest with
  | nil => rfl
  | cons x rest =>
    rw [run, length_cons, repeated_succ]
    simp [run, hstop x rfl]

/-- A greedy repetition of a set goes back to the last place where what follows succeeds. -/
lemma run_star_set_back (back : List Char) (hall : ∀ x ∈ text ++ back, set.mem x)
    (hstop : ∀ x ∈ rest.head?, set.mem x = false)
    (hfail : ∀ front tail, back = front ++ tail → front ≠ [] →
      next ⟨front.reverse ++ (text.reverse ++ past), tail ++ rest⟩ groups = none)
    (hnext : (next ⟨text.reverse ++ past, back ++ rest⟩ groups).isSome) :
    (star (.set set)).run ⟨past, text ++ (back ++ rest)⟩ groups next =
      next ⟨text.reverse ++ past, back ++ rest⟩ groups := by
  -- over `back` every round fails, and what follows is tried behind `text`
  have hback : ∀ back past, (∀ x ∈ back, set.mem x) → (∀ front tail, back = front ++ tail →
      front ≠ [] → next ⟨front.reverse ++ past, tail ++ rest⟩ groups = none) →
        (star (.set set)).run ⟨past, back ++ rest⟩ groups next =
          next ⟨past, back ++ rest⟩ groups := by
    intro back
    induction back with
    | nil => exact fun past _ _ => run_many_set_stop true hstop
    | cons x back ih =>
      intro past hall hfail
      rw [forall_mem_cons] at hall
      have hnone : next ⟨x :: past, back ++ rest⟩ groups = none := hfail [x] back rfl (by simp)
      have hrest := ih (x :: past) hall.2 fun front tail hback _ => by
        simpa using hfail (x :: front) tail (by simp [hback]) (by simp)
      rw [star] at hrest ⊢
      rw [cons_append, run_many_set_cons hall.1, hrest, hnone]
      rfl
  induction text generalizing past with
  | nil => exact hback back past hall hfail
  | cons x text ih =>
    rw [cons_append, forall_mem_cons] at hall
    rw [reverse_cons, append_assoc, singleton_append] at hnext hfail ⊢
    have hrun := ih hall.2 hfail hnext
    rw [star] at hrun ⊢
    rw [cons_append, run_many_set_cons hall.1, hrun]
    exact Option.or_of_isSome hnext

lemma run_lazy_set (hall : ∀ x ∈ text, set.mem x)
    (hfail : ∀ front back, text = front ++ back → back ≠ [] →
      next ⟨front.reverse ++ past, back ++ rest⟩ groups = none)
    (hnext : (next ⟨text.reverse ++ past, rest⟩ groups).isSome) :
    run (.many false (.set set)) ⟨past, text ++ rest⟩ groups next = next ⟨text.reverse ++ past,
      rest⟩ groups := by
  induction text generalizing past with
  | nil =>
    rw [run, nil_append]
    cases rest with
    | nil => rfl
    | cons x rest =>
      rw [length_cons, repeated_succ]
      exact Option.or_of_isSome hnext
  | cons x text ih =>
    rw [forall_mem_cons] at hall
    rw [reverse_cons, append_assoc, singleton_append] at hnext ⊢
    have hhere :
        next ⟨past, x :: (text ++ rest)⟩ groups = none := hfail [] (x :: text) rfl (by simp)
    have hlater : ∀ front back, text = front ++ back → back ≠ [] →
        next ⟨front.reverse ++ x :: past, back ++ rest⟩ groups = none := by
      intro front back htext hback
      simpa using hfail (x :: front) back (by simp [htext]) hback
    have hrun := ih hall.2 hlater hnext
    rw [cons_append, run_many_set_cons hall.1, hrun, hhere]
    rfl

/-- No text from a place on matches. -/
def Fails (p : Pattern) (c : Cursor) : Prop := ∀ groups d groups', ¬ Matches p c groups d groups'

lemma Fails.run_eq_none (h : p.Fails c) (groups : Groups) (next : Next α) :
    p.run c groups next = none := by
  rw [Option.eq_none_iff_forall_ne_some]
  intro a hrun
  obtain ⟨d, groups', hp, -⟩ := exists_matches_of_run hrun
  exact h groups d groups' hp

lemma fails_literal (h : ¬ w.toList <+: rest) : (literal w).Fails ⟨past, rest⟩ := by
  intro groups d groups' hmatch
  obtain ⟨-, hread⟩ := matches_literal_iff.mp hmatch
  exact h ⟨d.rest, hread.rest_eq.symm⟩

lemma Fails.cat (h : p.Fails c) (ps : List Pattern) : (cat (p :: ps)).Fails c := by
  intro groups e groups'' hmatch
  obtain ⟨d, groups', hp, -⟩ := matches_cat_cons_iff.mp hmatch
  exact h groups d groups' hp

/-- A pattern goes on at a place with the groups that it took, if what follows succeeds there. -/
def Prefers (p : Pattern) (c : Cursor) (taken : Groups) (d : Cursor) : Prop :=
  ∀ (α : Type) (groups : Groups) (next : Next α), (next d (taken ++ groups)).isSome = true →
    p.run c groups next = next d (taken ++ groups)

lemma prefers_set (hx : set.mem x) (past rest : List Char) :
    (Pattern.set set).Prefers ⟨past, x :: rest⟩ [] ⟨x :: past, rest⟩ :=
  fun _ groups next _ => run_set hx past rest groups next

lemma prefers_literal (w : String) (past rest : List Char) :
    (literal w).Prefers ⟨past, w.toList ++ rest⟩ [] ⟨w.toList.reverse ++ past, rest⟩ :=
  fun _ groups next _ => run_literal w past rest groups next

lemma prefers_star_set (hall : ∀ x ∈ text, set.mem x) (hstop : ∀ x ∈ rest.head?, set.mem x = false)
    (past : List Char) :
    (star (.set set)).Prefers ⟨past, text ++ rest⟩ [] ⟨text.reverse ++ past, rest⟩ :=
  fun _ _ _ hnext => run_star_set_back [] (by simpa using hall) hstop (by simp) hnext

lemma prefers_set_star {first : CharSet} (hx : first.mem x) (hall : ∀ y ∈ text, set.mem y)
    (hstop : ∀ y ∈ rest.head?, set.mem y = false) (past : List Char) :
    (seq (.set first) (star (.set set))).Prefers ⟨past, (x :: text) ++ rest⟩ []
      ⟨(x :: text).reverse ++ past, rest⟩ := by
  intro α groups next hnext
  rw [reverse_cons, append_assoc, singleton_append] at hnext ⊢
  rw [run, cons_append, run_set hx, prefers_star_set hall hstop _ _ _ _ hnext]

lemma prefers_edge {e : Edge} (h : c.holds e) : (edge e).Prefers c [] c := by
  intro α groups next _
  rw [run, if_pos h]
  rfl

namespace Prefers

variable {taken taken' : Groups} {ps : List Pattern}

lemma nil (c : Cursor) : (cat []).Prefers c [] c := fun _ _ _ _ => rfl

lemma cons (hp : p.Prefers c taken d) (hps : (cat ps).Prefers d taken' e) :
    (cat (p :: ps)).Prefers c (taken' ++ taken) e := by
  intro α groups next hnext
  rw [append_assoc] at hnext ⊢
  have hrest := hps α (taken ++ groups) next hnext
  rw [run_cat_cons, hp _ _ _ (hrest ▸ hnext), hrest]

lemma group (i : Nat) (hp : p.Prefers ⟨past, text ++ rest⟩ taken ⟨text.reverse ++ past, rest⟩) :
    (group i p).Prefers ⟨past, text ++ rest⟩ ((i, ⟨past, text, rest⟩) :: taken)
      ⟨text.reverse ++ past, rest⟩ := by
  intro α groups next hnext
  have hspan := (Cursor.Reads.of_rest past text rest).spanTo_eq
  rw [run, hp, hspan]
  · rfl
  · rwa [hspan]

lemma left (hp : p.Prefers c taken d) (q : Pattern) : (alt p q).Prefers c taken d := by
  intro α groups next hnext
  rw [run, Option.orElse_eq_or, hp α groups next hnext, Option.or_of_isSome hnext]

lemma right (h : p.Fails c) {q : Pattern} (hq : q.Prefers c taken d) :
    (alt p q).Prefers c taken d := by
  intro α groups next hnext
  rw [run, Option.orElse_eq_or, h.run_eq_none, Option.none_or, hq α groups next hnext]

lemma opt_of_fails (h : p.Fails c) : (opt p).Prefers c [] c := right h fun _ _ _ _ => rfl

lemma oneOf (hmem : p ∈ ps) (hp : p.Prefers c taken d) (hother : ∀ q ∈ ps, q ≠ p → q.Fails c) :
    (Pattern.oneOf ps).Prefers c taken d := by
  induction ps with
  | nil => cases hmem
  | cons q ps ih =>
    obtain _ | ⟨q', ps⟩ := ps
    · exact mem_singleton.mp hmem ▸ hp
    · rw [forall_mem_cons] at hother
      change (Pattern.alt q (Pattern.oneOf (q' :: ps))).Prefers c taken d
      by_cases hq : q = p
      · exact hq ▸ hp.left _
      · exact right (hother.1 hq) (ih ((mem_cons.mp hmem).resolve_left (Ne.symm hq)) hother.2)

/-- A group that takes as little as it can ends where the text behind it first stands. -/
lemma group_lazy {i : Nat} {w : String} {x : Char}
    (hps : (cat ps).Prefers ⟨w.toList.reverse ++ (text.reverse ++ x :: past), rest⟩ taken d)
    (hall : ∀ c ∈ x :: text, set.mem c) (hfirst : ∀ front back, text = front ++ back → back ≠ [] →
      ¬ w.toList <+: back ++ (w.toList ++ rest)) :
    (cat (.group i (plusLazy (.set set)) :: literal w :: ps)).Prefers ⟨past, x :: text ++
        (w.toList ++ rest)⟩ (taken ++ [(i, ⟨past, x :: text, w.toList ++ rest⟩)]) d := by
  intro α groups next hnext
  have hspan : (⟨past, x :: text ++ (w.toList ++ rest)⟩ : Cursor).spanTo
      ⟨text.reverse ++ x :: past, w.toList ++ rest⟩ = ⟨past, x :: text, w.toList ++ rest⟩ := by
    have hreads := Cursor.Reads.of_rest past (x :: text) (w.toList ++ rest)
    simpa using hreads.spanTo_eq
  rw [append_assoc] at hnext ⊢
  have hrun := (prefers_literal w _ _).cons hps α _ next (by simpa using hnext)
  rw [append_nil] at hrun
  rw [forall_mem_cons] at hall
  rw [run_cat_cons, run, plusLazy, run, cons_append, run_set hall.1,
    run_lazy_set hall.2, ← cons_append, hspan, hrun]
  · rfl
  · intro front back htext hback
    exact ((fails_literal (hfirst front back htext hback)).cat ps).run_eq_none _ _
  · rw [← cons_append, hspan, hrun]
    exact hnext

lemma matchAt_eq (h : p.Prefers c taken d) :
    p.matchAt c = some { c.spanTo d with groups := taken } := by
  have hrun := h Match [] (fun d groups => some { c.spanTo d with groups }) rfl
  rwa [append_nil] at hrun

end Prefers

lemma prefers_words {ws : List String} (hw : w ∈ ws)
    (hheads : ∀ w' ∈ ws, w'.toList.head?.isSome ∧ (w' ≠ w → w'.toList.head? ≠ w.toList.head?))
    (past rest : List Char) :
    (words ws).Prefers ⟨past, w.toList ++ rest⟩ [] ⟨w.toList.reverse ++ past, rest⟩ := by
  refine .oneOf (mem_map_of_mem hw) (prefers_literal w past rest) fun q hq hne => ?_
  obtain ⟨w', hw', rfl⟩ := mem_map.mp hq
  refine fails_literal fun hprefix => ?_
  obtain ⟨more, hmore⟩ := hprefix
  have hhead := congrArg head? hmore
  rw [head?_append, head?_append, Option.or_of_isSome (hheads w hw).1,
    Option.or_of_isSome (hheads w' hw').1] at hhead
  exact (hheads w' hw').2 (fun heq => hne (heq ▸ rfl)) hhead

/-! ### All matches -/

lemma place_of_matchAt (h : p.matchAt ⟨past, rest⟩ = some m) :
    m.past = past ∧ m.text ++ m.after = rest := by
  obtain ⟨d, groups, hp, hm⟩ := exists_matches_of_run h
  obtain ⟨text, hread⟩ := hp.exists_reads
  cases hm
  rw [hread.spanTo_eq]
  exact ⟨rfl, hread.rest_eq.symm⟩

/-- From a place on, the search gives a match that is the preferred one at its own place. -/
lemma exists_matchAt_of_findFrom (h : p.findFrom past rest = some m) :
    ∃ skipped, rest = skipped ++ (m.text ++ m.after) ∧ m.past = skipped.reverse ++ past ∧
      p.matchAt ⟨m.past, m.text ++ m.after⟩ = some m := by
  have hhere : ∀ {past rest}, p.matchAt ⟨past, rest⟩ = some m →
      ∃ skipped, rest = skipped ++ (m.text ++ m.after) ∧ m.past = skipped.reverse ++ past ∧
        p.matchAt ⟨m.past, m.text ++ m.after⟩ = some m := by
    intro past rest hat
    obtain ⟨rfl, rfl⟩ := place_of_matchAt hat
    exact ⟨[], rfl, rfl, hat⟩
  induction rest generalizing past with
  | nil =>
    rw [findFrom] at h
    split at h
    case h_1 found hat =>
      cases h
      exact hhere hat
    case h_2 => cases h
  | cons x rest ih =>
    rw [findFrom] at h
    split at h
    case h_1 found hat =>
      cases h
      exact hhere hat
    case h_2 =>
      obtain ⟨skipped, hrest, hpast, hat⟩ := ih h
      exact ⟨x :: skipped, by rw [hrest, cons_append], by simpa using hpast, hat⟩

lemma matchAt_of_mem_findAll (h : m ∈ p.findAll s) :
    p.matchAt ⟨m.past, m.text ++ m.after⟩ = some m := by
  obtain ⟨past, rest, -, hfind⟩ := exists_findFrom_of_mem_findAll h
  obtain ⟨-, -, -, hat⟩ := exists_matchAt_of_findFrom hfind
  exact hat

/-- A search that comes to a place where the pattern matches gives that match, or one that starts
before it. -/
lemma exists_findFrom_append (h : p.matchAt ⟨skipped.reverse ++ past, rest⟩ = some m) :
    p.findFrom past (skipped ++ rest) = some m ∨
      ∃ found front back, p.findFrom past (skipped ++ rest) = some found ∧ skipped = front ++ back ∧
        back ≠ [] ∧
        found.past = front.reverse ++ past ∧ found.text ++ found.after = back ++ rest := by
  induction skipped generalizing past with
  | nil =>
    left
    rw [reverse_nil, nil_append] at h
    rw [nil_append, findFrom.eq_def, h]
  | cons x skipped ih =>
    rw [cons_append, findFrom]
    cases hat : p.matchAt ⟨past, x :: (skipped ++ rest)⟩ with
    | some found =>
      right
      obtain ⟨hpast, hrest⟩ := place_of_matchAt hat
      exact ⟨found, [], x :: skipped, rfl, rfl, by simp, hpast, hrest⟩
    | none =>
      have hlater : p.matchAt ⟨skipped.reverse ++ x :: past, rest⟩ = some m := by simpa using h
      rcases ih hlater with hfind | ⟨found, front, back, hfind, rfl, hback, hpast, hrest⟩
      · exact .inl hfind
      · exact .inr ⟨found, x :: front, back, hfind, rfl, hback, by simpa using hpast, hrest⟩

/-- A match goes on over a place: it starts before it and ends behind it. -/
structure GoesOver (m : Match) (past rest : List Char) (front back : List Char) : Prop where
  text_eq : m.text = front ++ back
  front_ne : front ≠ []
  back_ne : back ≠ []
  past_eq : past = front.reverse ++ m.past
  rest_eq : rest = back ++ m.after

/-- A pattern that matches no empty text. -/
def Moves (p : Pattern) : Prop :=
  ∀ c groups d groups', Matches p c groups d groups' → d.rest.length < c.rest.length

lemma moves_literal (hw : w.toList ≠ []) : (literal w).Moves := by
  intro c groups d groups' h
  obtain ⟨-, hread⟩ := matches_literal_iff.mp h
  have hpos := length_pos_iff.mpr hw
  rw [hread.rest_eq, length_append]
  omega

lemma Moves.cat {ps : List Pattern} (hp : p.Moves) (hmem : p ∈ ps) : (cat ps).Moves := by
  induction ps with
  | nil => cases hmem
  | cons q ps ih =>
    intro c groups e groups'' h
    obtain ⟨d, groups', hq, hrest⟩ := matches_cat_cons_iff.mp h
    obtain ⟨text, hread⟩ := hq.exists_reads
    obtain ⟨text', hread'⟩ := hrest.exists_reads
    rcases mem_cons.mp hmem with rfl | hmem
    · refine Nat.lt_of_le_of_lt ?_ (hp _ _ _ _ hq)
      rw [hread'.rest_eq, length_append]
      exact Nat.le_add_left ..
    · refine Nat.lt_of_lt_of_le (ih hmem _ _ _ _ hrest) ?_
      rw [hread.rest_eq, length_append]
      exact Nat.le_add_left ..

lemma Moves.text_ne_nil (hp : p.Moves) (h : p.findFrom past rest = some m) : m.text ≠ [] := by
  intro hnil
  have hlt := hp _ _ _ _ (isMatch_of_findFrom h).holds
  simp [hnil] at hlt

lemma Moves.findAllFrom_succ (hp : p.Moves) (h : p.findFrom past rest = some m) (fuel : Nat)
    (afterMatch : Bool) : p.findAllFrom (fuel + 1) ⟨past, rest⟩ afterMatch =
      m :: p.findAllFrom fuel ⟨m.text.reverse ++ m.past, m.after⟩ true := by
  have hlt : m.after.length ≠ rest.length := by
    obtain ⟨skipped, hrest, -, -⟩ := exists_matchAt_of_findFrom h
    have htext := length_pos_iff.mpr (hp.text_ne_nil h)
    rw [hrest, length_append, length_append]
    omega
  rw [findAllFrom]
  simp only [h, hlt, if_false]

lemma findFrom_skip (h : ∀ front back, skipped = front ++ back → back ≠ [] →
      p.matchAt ⟨front.reverse ++ past, back ++ rest⟩ = none) :
    p.findFrom past (skipped ++ rest) = p.findFrom (skipped.reverse ++ past) rest := by
  induction skipped generalizing past with
  | nil => rfl
  | cons x skipped ih =>
    have hhere : p.matchAt ⟨past, x :: (skipped ++ rest)⟩ = none :=
      h [] (x :: skipped) rfl (by simp)
    rw [cons_append, findFrom, hhere]
    simp only [reverse_cons, append_assoc, singleton_append]
    refine ih fun front back hskipped hback => ?_
    simpa using h (x :: front) back (by simp [hskipped]) hback

lemma Moves.findAllFrom_skip (hp : p.Moves) (h : ∀ front back, skipped = front ++ back → back ≠ [] →
      p.matchAt ⟨front.reverse ++ past, back ++ rest⟩ = none)
    (fuel : Nat) (afterMatch : Bool) : p.findAllFrom (fuel + 1) ⟨past, skipped ++ rest⟩ afterMatch =
      p.findAllFrom (fuel + 1) ⟨skipped.reverse ++ past, rest⟩ afterMatch := by
  have hskip := findFrom_skip h
  cases hfind : p.findFrom (skipped.reverse ++ past) rest with
  | none =>
    rw [hfind] at hskip
    simp only [findAllFrom, hskip, hfind]
  | some m =>
    rw [hfind] at hskip
    rw [hp.findAllFrom_succ hskip, hp.findAllFrom_succ hfind]

/-- Where the pattern matches, the search for all matches gives that match, or one that goes over
the place. -/
lemma Moves.mem_findAll_or_goesOver (hp : p.Moves) (h : p.matchAt ⟨past, rest⟩ = some m) :
    m ∈ p.findAll (past.reverse ++ rest) ∨
      ∃ m' ∈ p.findAll (past.reverse ++ rest), ∃ front back, GoesOver m' past rest front back := by
  -- the induction is on the fuel, and the search has yet to read `skipped` to come to the place
  have hfrom : ∀ fuel (start skipped : List Char) afterMatch, past = skipped.reverse ++ start →
      (skipped ++ rest).length < fuel → m ∈ p.findAllFrom fuel ⟨start, skipped ++ rest⟩ afterMatch ∨
          ∃ m' ∈ p.findAllFrom fuel ⟨start, skipped ++ rest⟩ afterMatch,
            ∃ front back, GoesOver m' past rest front back := by
    intro fuel
    induction fuel with
    | zero =>
      intro start skipped afterMatch hpast hfuel
      exact absurd hfuel (Nat.not_lt_zero _)
    | succ fuel ih =>
      rintro start skipped afterMatch rfl hfuel
      rcases exists_findFrom_append h with hfind | ⟨found, front, back, hfind, rfl, hback, hpast,
        hrest⟩
      · rw [hp.findAllFrom_succ hfind]
        exact .inl mem_cons_self
      · rw [hp.findAllFrom_succ hfind]
        have hbehind : ∀ more, back = found.text ++ more → found.after = more ++ rest →
            m ∈ found :: p.findAllFrom fuel ⟨found.text.reverse ++ found.past, found.after⟩ true ∨
              ∃ m' ∈ found :: p.findAllFrom fuel ⟨found.text.reverse ++ found.past,
                found.after⟩ true, ∃ front' back',
                  GoesOver m' ((front ++ back).reverse ++ start) rest front' back' := by
          rintro more rfl hafter
          have hstop : (front ++ (found.text ++ more)).reverse ++ start =
              more.reverse ++ (found.text.reverse ++ found.past) := by
            rw [hpast]
            simp
          have hless : (more ++ rest).length < fuel := by
            have htext := length_pos_iff.mpr (hp.text_ne_nil hfind)
            simp only [length_append] at hfuel ⊢
            omega
          rw [hafter]
          rcases ih _ more true hstop hless with hmem | ⟨m', hmem, hover⟩
          · exact .inl (mem_cons_of_mem _ hmem)
          · exact .inr ⟨m', mem_cons_of_mem _ hmem, hover⟩
        rcases append_eq_append_iff.mp hrest with ⟨more, hfound, hafter⟩ | ⟨more, hfound, hafter⟩
        · exact hbehind more hfound hafter
        · by_cases hmore : more = []
          · subst hmore
            exact hbehind [] (by simpa using hfound.symm) (by simpa using hafter.symm)
          · refine .inr ⟨found, mem_cons_self, back, more, hfound, hback, hmore, ?_, hafter⟩
            rw [hpast]
            simp
  exact hfrom _ [] past.reverse false (by simp) (Nat.lt_succ_self _)

lemma Moves.prefix_of_mem_findAllFrom (hp : p.Moves) {fuel : Nat} {afterMatch : Bool}
    (h : m ∈ p.findAllFrom fuel ⟨past, rest⟩ afterMatch) : past.reverse <+: m.past.reverse := by
  induction fuel generalizing past rest afterMatch with
  | zero => cases h
  | succ fuel ih =>
    cases hfind : p.findFrom past rest with
    | none =>
      rw [findAllFrom, hfind] at h
      cases h
    | some found =>
      obtain ⟨skipped, -, hpast, -⟩ := exists_matchAt_of_findFrom hfind
      have hstart : past.reverse <+: found.past.reverse := by
        rw [hpast, reverse_append]
        exact prefix_append _ _
      rw [hp.findAllFrom_succ hfind] at h
      rcases mem_cons.mp h with rfl | h
      · exact hstart
      · have hstop := ih h
        rw [reverse_append] at hstop
        exact hstart.trans ((prefix_append _ _).trans hstop)

lemma Moves.pairwise_findAll (hp : p.Moves) (s : List Char) :
    (p.findAll s).Pairwise fun m m' => m.past.reverse <+: m'.past.reverse := by
  have hfrom : ∀ fuel (past rest : List Char) afterMatch,
      (p.findAllFrom fuel ⟨past, rest⟩ afterMatch).Pairwise
      fun m m' => m.past.reverse <+: m'.past.reverse := by
    intro fuel
    induction fuel with
    | zero => exact fun past rest afterMatch => .nil
    | succ fuel ih =>
      intro past rest afterMatch
      cases hfind : p.findFrom past rest with
      | none =>
        rw [findAllFrom, hfind]
        exact .nil
      | some found =>
        rw [hp.findAllFrom_succ hfind, pairwise_cons]
        refine ⟨fun m hm => ?_, ih _ _ _⟩
        have hstop := hp.prefix_of_mem_findAllFrom hm
        rw [reverse_append] at hstop
        exact (prefix_append _ _).trans hstop
  exact hfrom _ _ _ _

end Pattern

end PluginAudit
