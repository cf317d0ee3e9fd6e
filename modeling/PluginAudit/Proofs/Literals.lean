import Mathlib.Tactic.Common
import PluginAudit.Source.Cleaning

/-!
Lines as code and literals. Main statement: every literal becomes an empty pair of quotes and all
code stays, unless a double quote in a single-quoted literal is closed further on in the line.
-/

open List

namespace PluginAudit.Source

variable {quote : Char}

/-! ### Pieces of a line -/

/-- The text between the quotes of a literal: its own quote and the backslash stand in it only as
parts of escapes. An escape stays on its line. -/
inductive IsBody (quote : Char) : List Char → Prop where
  | nil : IsBody quote []
  | plain {c : Char} {s : List Char} (hquote : c ≠ quote) (hslash : c ≠ '\\')
    (hs : IsBody quote s) : IsBody quote (c :: s)
  | escaped {c : Char} {s : List Char} (hline : c ≠ '\n') (hs : IsBody quote s) :
    IsBody quote ('\\' :: c :: s)

lemma isBody_plain_iff {c : Char} (h : c ≠ '\\') (s : List Char) :
    IsBody quote (c :: s) ↔ c ≠ quote ∧ IsBody quote s := by
  constructor
  · rintro ⟨⟩
    case plain hquote hslash hs => exact ⟨hquote, hs⟩
    case escaped => exact absurd rfl h
  · rintro ⟨hquote, hs⟩
    exact .plain hquote h hs

@[simp] lemma isBody_escaped_iff (c : Char) (s : List Char) :
    IsBody quote ('\\' :: c :: s) ↔ c ≠ '\n' ∧ IsBody quote s := by
  constructor
  · rintro ⟨⟩
    case plain hquote hslash hs => exact absurd rfl hslash
    case escaped hline hs => exact ⟨hline, hs⟩
  · rintro ⟨hline, hs⟩
    exact .escaped hline hs

lemma not_isBody_slash (quote : Char) : ¬ IsBody quote ['\\'] := by
  rintro ⟨⟩
  case plain hquote hslash hs => exact absurd rfl hslash

instance decidableIsBody (quote : Char) : (s : List Char) → Decidable (IsBody quote s)
  | [] => isTrue .nil
  | [c] =>
    if h : c = '\\' then isFalse (h ▸ not_isBody_slash quote)
    else
      have := decidableIsBody quote []
      decidable_of_iff _ (isBody_plain_iff h []).symm
  | c :: d :: s =>
    if h : c = '\\' then
      have := decidableIsBody quote s
      decidable_of_iff (d ≠ '\n' ∧ IsBody quote s) (h ▸ (isBody_escaped_iff d s).symm)
    else
      have := decidableIsBody quote (d :: s)
      decidable_of_iff _ (isBody_plain_iff h (d :: s)).symm

/-- A piece of a line: code without quotes and backslashes, or a literal. -/
inductive Piece where
  | code (text : List Char) (plain : ∀ c ∈ text, c ≠ '\'' ∧ c ≠ '"' ∧ c ≠ '\\')
  | single (body : List Char) (isBody : IsBody '\'' body)
  | double (body : List Char) (isBody : IsBody '"' body)

namespace Piece

def written : Piece → List Char
  | .code text _ => text
  | .single body _ => '\'' :: (body ++ ['\''])
  | .double body _ => '"' :: (body ++ ['"'])

/-- The piece with nothing between its quotes. -/
def emptied : Piece → List Char
  | .code text _ => text
  | .single _ _ => ['\'', '\'']
  | .double _ _ => ['"', '"']

end Piece

/-- Whether a double quote is open after a text, given whether one is open before it. Any double
quote opens, and one that no backslash escapes closes. -/
def leavesOpen (isOpen : Bool) : List Char → Bool
  | [] => isOpen
  | '\\' :: c :: rest => leavesOpen (isOpen || c == '"') rest
  | c :: rest => leavesOpen (isOpen != (c == '"')) rest

/-- Whether a piece is a single-quoted literal that leaves a double quote open. -/
def Piece.opensDouble : Piece → Bool
  | .code _ _ => false
  | .single body _ => leavesOpen false body
  | .double _ _ => false

/-! ### The end of a literal -/

section

variable {quote c : Char} {s t body rest : List Char}

@[simp] lemma leavesOpen_escaped (isOpen : Bool) :
    leavesOpen isOpen ('\\' :: c :: s) = leavesOpen (isOpen || c == '"') s := rfl

lemma leavesOpen_plain (h : c ≠ '\\') (isOpen : Bool) :
    leavesOpen isOpen (c :: s) = leavesOpen (isOpen != (c == '"')) s := by
  rw [leavesOpen]
  rintro _ _ rfl
  exact absurd rfl h

lemma IsBody.append (hs : IsBody quote s) (ht : IsBody quote t) : IsBody quote (s ++ t) := by
  induction hs with
  | nil => exact ht
  | plain hquote hslash hs ih => exact .plain hquote hslash ih
  | escaped hline hs ih => exact .escaped hline ih

@[simp] lemma afterLiteral?_quote (quote : Char) (rest : List Char) :
    afterLiteral? quote (quote :: rest) = some rest := by
  rw [afterLiteral?.eq_def]
  simp

lemma afterLiteral?_plain (hquote : c ≠ quote) (hslash : c ≠ '\\') (rest : List Char) :
    afterLiteral? quote (c :: rest) = afterLiteral? quote rest := by
  rw [afterLiteral?.eq_def]
  simp [hquote, hslash]

lemma afterLiteral?_escaped (hquote : quote ≠ '\\') (hline : c ≠ '\n') (rest : List Char) :
    afterLiteral? quote ('\\' :: c :: rest) = afterLiteral? quote rest := by
  rw [afterLiteral?.eq_def]
  simp [hquote.symm, hline]

lemma IsBody.afterLiteral?_append (h : IsBody quote body) (hquote : quote ≠ '\\')
    (rest : List Char) : afterLiteral? quote (body ++ rest) = afterLiteral? quote rest := by
  induction h with
  | nil => rfl
  | plain hne hslash hs ih => rw [cons_append, afterLiteral?_plain hne hslash, ih]
  | escaped hline hs ih => rw [cons_append, cons_append, afterLiteral?_escaped hquote hline, ih]

lemma IsBody.afterLiteral?_eq_none (h : IsBody quote body) (hquote : quote ≠ '\\') :
    afterLiteral? quote body = none := by
  have hend := h.afterLiteral?_append hquote []
  rwa [append_nil] at hend

/-! ### One pass -/

lemma emptyLiterals_of_ne (h : c ≠ quote) (s : List Char) :
    emptyLiterals quote (c :: s) = c :: emptyLiterals quote s := by
  rw [emptyLiterals, if_neg h]

lemma emptyLiterals_of_some (h : afterLiteral? quote s = some rest) :
    emptyLiterals quote (quote :: s) = quote :: quote :: emptyLiterals quote rest := by
  rw [emptyLiterals, if_pos rfl]
  split
  · rename_i after hafter
    rw [hafter, Option.some.injEq] at h
    rw [h]
  · rename_i hafter
    rw [hafter] at h
    cases h

lemma emptyLiterals_of_none (h : afterLiteral? quote s = none) :
    emptyLiterals quote (quote :: s) = quote :: emptyLiterals quote s := by
  rw [emptyLiterals, if_pos rfl]
  split
  · rename_i after hafter
    rw [hafter] at h
    cases h
  · rfl

lemma emptyLiterals_append_of_notMem (h : quote ∉ s) (rest : List Char) :
    emptyLiterals quote (s ++ rest) = s ++ emptyLiterals quote rest := by
  induction s with
  | nil => rfl
  | cons c s ih =>
    rw [mem_cons, not_or] at h
    rw [cons_append, emptyLiterals_of_ne (Ne.symm h.1), ih h.2, cons_append]

lemma IsBody.emptyLiterals_literal (h : IsBody quote body) (hquote : quote ≠ '\\')
    (rest : List Char) : emptyLiterals quote (quote :: (body ++ quote :: rest)) =
      quote :: quote :: emptyLiterals quote rest := by
  apply emptyLiterals_of_some
  rw [h.afterLiteral?_append hquote, afterLiteral?_quote]

lemma IsBody.emptyLiterals_eq (h : IsBody quote body) (hquote : quote ≠ '\\') :
    emptyLiterals quote body = body := by
  induction h with
  | nil => rw [emptyLiterals]
  | plain hne hslash hs ih => rw [emptyLiterals_of_ne hne, ih]
  | @escaped c s hline hs ih =>
    rw [emptyLiterals_of_ne hquote.symm]
    by_cases hc : c = quote
    · subst hc
      rw [emptyLiterals_of_none (hs.afterLiteral?_eq_none hquote), ih]
    · rw [emptyLiterals_of_ne hc, ih]

/-! ### The first pass in a single-quoted literal -/

/-- After a double quote, a single-quoted literal goes on up to one that closes it, or to its
end. -/
lemma IsBody.closes_or_stays (h : IsBody '\'' s) :
    (IsBody '"' s ∧ leavesOpen true s) ∨ ∃ t r, s = t ++ '"' :: r ∧ IsBody '"' t ∧ IsBody '\'' r ∧
      leavesOpen true s = leavesOpen false r := by
  induction h with
  | nil => exact .inl ⟨.nil, rfl⟩
  | @plain c s hquote hslash hs ih =>
    rw [leavesOpen_plain hslash]
    by_cases hc : c = '"'
    · subst hc
      exact .inr ⟨[], s, rfl, .nil, hs, rfl⟩
    · rw [beq_eq_false_iff_ne.mpr hc, Bool.bne_false]
      rcases ih with ⟨hbody, hopen⟩ | ⟨t, r, rfl, ht, hr, hopen⟩
      · exact .inl ⟨.plain hc hslash hbody, hopen⟩
      · exact .inr ⟨c :: t, r, rfl, .plain hc hslash ht, hr, hopen⟩
  | @escaped c s hline hs ih =>
    rw [leavesOpen_escaped, Bool.true_or]
    rcases ih with ⟨hbody, hopen⟩ | ⟨t, r, rfl, ht, hr, hopen⟩
    · exact .inl ⟨.escaped hline hbody, hopen⟩
    · exact .inr ⟨'\\' :: c :: t, r, rfl, .escaped hline ht, hr, hopen⟩

/-- A character in a single-quoted literal, if the first pass stays within what follows it there. -/
lemma IsBody.emptyLiterals_cons_append (h : IsBody '\'' s)
    (ih : ∀ r, r.length ≤ s.length → IsBody '\'' r → (leavesOpen false r → IsBody '"' rest) →
      emptyLiterals '"' (r ++ rest) = emptyLiterals '"' r ++ emptyLiterals '"' rest)
    (c : Char) (hrest : leavesOpen (c == '"') s → IsBody '"' rest) : emptyLiterals '"'
      (c :: (s ++ rest)) = emptyLiterals '"' (c :: s) ++ emptyLiterals '"' rest := by
  have hquote : '"' ≠ '\\' := by decide
  by_cases hc : c = '"'
  · subst hc
    rcases h.closes_or_stays with ⟨hbody, hopen⟩ | ⟨t, r, rfl, ht, hr, hopen⟩
    · have hall : IsBody '"' (s ++ rest) := hbody.append (hrest hopen)
      rw [emptyLiterals_of_none (hall.afterLiteral?_eq_none hquote),
        emptyLiterals_of_none (hbody.afterLiteral?_eq_none hquote), hall.emptyLiterals_eq hquote,
        hbody.emptyLiterals_eq hquote, (hrest hopen).emptyLiterals_eq hquote, cons_append]
    · rw [append_assoc, cons_append, ht.emptyLiterals_literal hquote, ht.emptyLiterals_literal
        hquote, ih r (by simp; omega) hr (hopen ▸ hrest), cons_append, cons_append]
  · rw [beq_eq_false_iff_ne.mpr hc] at hrest
    rw [emptyLiterals_of_ne hc, emptyLiterals_of_ne hc, ih s (Nat.le_refl _) h hrest, cons_append]

/-- The first pass stays within a single-quoted literal, unless this leaves open a double quote that
something after it closes. -/
lemma IsBody.emptyLiterals_append (h : IsBody '\'' body)
    (hrest : leavesOpen false body → IsBody '"' rest) :
    emptyLiterals '"' (body ++ rest) = emptyLiterals '"' body ++ emptyLiterals '"' rest := by
  -- by the length of the body: a double quote may close far behind the place where it opens
  induction hlength : body.length using Nat.strongRecOn generalizing body with
  | _ n ih =>
    cases h with
    | nil => rw [nil_append, emptyLiterals.eq_def '"' [], nil_append]
    | @plain c s hquote hslash hs =>
      rw [length_cons] at hlength
      rw [leavesOpen_plain hslash, Bool.false_bne] at hrest
      exact hs.emptyLiterals_cons_append
        (fun r hr hbody hopen => ih r.length (by omega) hbody hopen rfl) c hrest
    | @escaped c s hline hs =>
      rw [length_cons, length_cons] at hlength
      rw [leavesOpen_escaped, Bool.false_or] at hrest
      have hslash : '\\' ≠ '"' := by decide
      rw [cons_append, cons_append, emptyLiterals_of_ne hslash, emptyLiterals_of_ne hslash,
        hs.emptyLiterals_cons_append (fun r hr hbody hopen =>
        ih r.length (by omega) hbody hopen rfl) c hrest, cons_append]

/-- A character stays the first one in the first pass, and what follows it stays the rest of a
literal. -/
lemma IsBody.exists_emptyLiterals_cons (h : IsBody '\'' s)
    (ih : ∀ r, r.length ≤ s.length → IsBody '\'' r → IsBody '\'' (emptyLiterals '"' r)) (c : Char) :
    ∃ s', emptyLiterals '"' (c :: s) = c :: s' ∧ IsBody '\'' s' := by
  have hquote : '"' ≠ '\\' := by decide
  by_cases hc : c = '"'
  · subst hc
    rcases h.closes_or_stays with ⟨hbody, -⟩ | ⟨t, r, rfl, ht, hr, -⟩
    · refine ⟨s, ?_, h⟩
      rw [emptyLiterals_of_none (hbody.afterLiteral?_eq_none hquote), hbody.emptyLiterals_eq hquote]
    · refine ⟨'"' :: emptyLiterals '"' r, ht.emptyLiterals_literal hquote r, ?_⟩
      exact .plain (by decide) hquote (ih r (by simp; omega) hr)
  · exact ⟨emptyLiterals '"' s, emptyLiterals_of_ne hc s, ih s (Nat.le_refl _) h⟩

lemma IsBody.isBody_emptyLiterals (h : IsBody '\'' body) :
    IsBody '\'' (emptyLiterals '"' body) := by
  induction hlength : body.length using Nat.strongRecOn generalizing body with
  | _ n ih =>
    cases h with
    | nil =>
      rw [emptyLiterals]
      exact .nil
    | @plain c s hquote hslash hs =>
      rw [length_cons] at hlength
      obtain ⟨s', heq, hs'⟩ :=
        hs.exists_emptyLiterals_cons (fun r hr hbody => ih r.length (by omega) hbody rfl) c
      rw [heq]
      exact .plain hquote hslash hs'
    | @escaped c s hline hs =>
      rw [length_cons, length_cons] at hlength
      obtain ⟨s', heq, hs'⟩ :=
        hs.exists_emptyLiterals_cons (fun r hr hbody => ih r.length (by omega) hbody rfl) c
      rw [emptyLiterals_of_ne (by decide), heq]
      exact .escaped hline hs'

end

/-! ### Lines -/

def Piece.halfway : Piece → List Char
  | .code text _ => text
  | .single body _ => '\'' :: (emptyLiterals '"' body ++ ['\''])
  | .double _ _ => ['"', '"']

variable {pieces : List Piece}

lemma isBody_flatMap_written (h : ∀ p ∈ pieces, IsBody quote p.written) :
    IsBody quote (pieces.flatMap Piece.written) := by
  induction pieces with
  | nil => exact .nil
  | cons p pieces ih =>
    rw [forall_mem_cons] at h
    exact h.1.append (ih h.2)

lemma emptyLiterals_written (h : pieces.Pairwise fun p q => p.opensDouble → IsBody '"' q.written) :
    emptyLiterals '"' (pieces.flatMap Piece.written) = pieces.flatMap Piece.halfway := by
  induction pieces with
  | nil => rw [flatMap_nil, flatMap_nil, emptyLiterals]
  | cons p pieces ih =>
    obtain ⟨hfirst, hpieces⟩ := pairwise_cons.mp h
    rw [flatMap_cons, flatMap_cons, ← ih hpieces]
    cases p with
    | code text plain =>
      exact emptyLiterals_append_of_notMem (fun hmem => (plain _ hmem).2.1 rfl) _
    | single body hbody =>
      have hrest : leavesOpen false body → IsBody '"' ('\'' :: pieces.flatMap Piece.written) := by
        intro hopen
        exact .plain (by decide) (by decide) (isBody_flatMap_written fun q hq => hfirst q hq hopen)
      rw [Piece.written, Piece.halfway, cons_append, append_assoc, singleton_append,
        emptyLiterals_of_ne (by decide), hbody.emptyLiterals_append hrest,
        emptyLiterals_of_ne (by decide)]
      simp
    | double body hbody =>
      rw [Piece.written, cons_append, append_assoc, singleton_append,
        hbody.emptyLiterals_literal (by decide)]
      rfl

@[simp] lemma emptyLiterals_halfway (pieces : List Piece) :
    emptyLiterals '\'' (pieces.flatMap Piece.halfway) = pieces.flatMap Piece.emptied := by
  induction pieces with
  | nil => rw [flatMap_nil, flatMap_nil, emptyLiterals]
  | cons p pieces ih =>
    rw [flatMap_cons, flatMap_cons, ← ih]
    cases p with
    | code text plain => exact emptyLiterals_append_of_notMem (fun hmem => (plain _ hmem).1 rfl) _
    | single body hbody =>
      rw [Piece.halfway, cons_append, append_assoc, singleton_append,
        hbody.isBody_emptyLiterals.emptyLiterals_literal (by decide)]
      rfl
    | double body hbody => exact emptyLiterals_append_of_notMem (s := ['"', '"']) (by decide) _

/-- The literals of a line are emptied and its code stays as it is, if after each single-quoted
literal that leaves a double quote open there are no double quotes but in escapes. -/
theorem stripStrings_written {pieces : List Piece}
    (h : pieces.Pairwise fun p q => p.opensDouble = true → IsBody '"' q.written) :
    stripStrings (pieces.flatMap Piece.written) = pieces.flatMap Piece.emptied := by
  rw [stripStrings, emptyLiterals_written h, emptyLiterals_halfway]

/-- Quotes of either sort in literals of the other, escapes, and at last a double quote that stays
open. -/
def mixedPieces : List Piece :=
  [.double "it's \\\"".toList (by decide), .code ". f(".toList (by simp),
    .single "<a href=\"\\'\">\\\\".toList (by decide), .code ") .".toList (by simp),
    .single "5\" \\\"".toList (by decide), .single "\\\"".toList (by decide)]

theorem stripStrings_mixedPieces :
    mixedPieces.Pairwise (fun p q => p.opensDouble = true → IsBody '"' q.written) ∧
      mixedPieces.map (·.opensDouble) = [false, false, false, false, true, true] ∧
      stripStrings (mixedPieces.flatMap Piece.written) = "\"\". f('') .''''".toList := by
  have hpieces : mixedPieces.Pairwise (fun p q => p.opensDouble = true → IsBody '"' q.written) := by
    decide
  refine ⟨hpieces, by decide, ?_⟩
  rw [stripStrings_written hpieces]
  decide

def crossedPieces : List Piece :=
  [.single "a\"b".toList (by decide), .code " . $x . ".toList (by simp),
    .single "c\"d".toList (by decide)]

/-- The code between the double quotes of two literals is lost. -/
theorem stripStrings_crossedPieces :
    stripStrings (crossedPieces.flatMap Piece.written) = "''".toList ∧
      crossedPieces.flatMap Piece.emptied = "'' . $x . ''".toList := by
  decide +kernel

end PluginAudit.Source
