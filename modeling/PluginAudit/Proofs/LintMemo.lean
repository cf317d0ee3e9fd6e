import Mathlib.Data.List.Forall2
import PluginAudit.Proofs.DetectorContract

/-!
Checks of the runtime that are made once. Main statement: the memo does not show. A call finds what
the check finds, one in a cancelled run changes nothing for later ones, and no file is checked
twice.
-/

open List

namespace PluginAudit.Detector.Syntax

open Table (get?)

/-- A call of the detector: the combination and the file it is for, and the failure of the check if
the run was cancelled. -/
structure Call where
  target : Combination
  file : Source.File
  cancelled : Option Lint.Error := none

namespace Call

def live (c : Call) : Bool := c.cancelled.isNone

/-- The check as a call sees it: in a cancelled run it fails. -/
def linter (lint : Linter) (c : Call) : Linter :=
  match c.cancelled with
  | none => lint
  | some e => fun _ => .error e

def judge (env : Surroundings) (lint : Linter) (c : Call) : StateM Memo (List Finding) :=
  ((builtins env { linter := some (c.linter lint), live := c.live }).head (cons_ne_nil _ _)).judge
    c.target c.file

end Call

variable {env : Surroundings} {lint : Linter} {memo : Memo} {path : String} {c : Call}

/-! ### One call -/

lemma run_judge (env : Surroundings) (lint : Linter) (c : Call) (memo : Memo) :
    (c.judge env lint).run memo =
    ((checked (some (c.linter lint)) c.live memo c.file.path).2 ++ checkLines c.file,
      (checked (some (c.linter lint)) c.live memo c.file.path).1) :=
  rfl

lemma linter_of_live (h : c.live) : c.linter lint = lint := by
  rw [Call.linter, Option.isNone_iff_eq_none.mp h]

lemma checked_of_unknown (h : get? path memo.known = none) :
    (checked (some lint) true memo path).1 =
      ⟨Table.insert path (diagnosed lint path) memo.known⟩ := by
  unfold diagnosed
  cases hlint : lint path with
  | ok => rw [checked_of_ok h hlint]
  | error => rw [checked_of_error h hlint, if_pos rfl]

lemma memo_of_cancelled (h : c.live = false) : ((c.judge env lint).run memo).2 = memo := by
  obtain ⟨e, he⟩ := Option.isSome_iff_exists.mp (Option.isNone_eq_false_iff.mp h)
  rw [run_judge, h, Call.linter, he]
  cases hget : get? c.file.path memo.known with
  | none => rw [checked_of_error hget rfl, if_neg (by simp)]
  | some => rw [checked_of_known hget]

/-- The files that are checked in a call, as they are noted in a log that the check itself keeps. -/
def Call.asked (lint : Linter) (c : Call) (memo : Memo) : List String :=
  let noting (path : String) : StateM (List String) (Except Lint.Error (List Lint.Diagnostic)) := do
    modify (· ++ [path])
    return c.linter lint path
  ((checkedBy (some noting) c.live memo c.file.path).run []).2

lemma asked_of_known (h : (get? c.file.path memo.known).isSome) : c.asked lint memo = [] := by
  obtain ⟨findings, hget⟩ := Option.isSome_iff_exists.mp h
  simp only [Call.asked, checkedBy, hget]
  rfl

lemma asked_of_unknown (h : get? c.file.path memo.known = none) :
    c.asked lint memo = [c.file.path] := by
  simp only [Call.asked, checkedBy, h]
  cases c.linter lint c.file.path <;> rfl

/-! ### A sequence of calls -/

def answers (env : Surroundings) (lint : Linter) (memo : Memo) (calls : List Call) :
    List (List Finding) :=
  ((calls.mapM (Call.judge env lint)).run memo).1

/-- How often calls in a run that goes on check a file, from a memo on. -/
def liveChecks (env : Surroundings) (lint : Linter) (path : String) : Memo → List Call → Nat
  | _, [] => 0
  | memo, c :: calls => (if c.live then (c.asked lint memo).count path else 0) +
      liveChecks env lint path ((c.judge env lint).run memo).2 calls

@[simp] lemma answers_cons (env : Surroundings) (lint : Linter) (memo : Memo) (c : Call)
    (calls : List Call) : answers env lint memo (c :: calls) = ((c.judge env lint).run memo).1 ::
      answers env lint ((c.judge env lint).run memo).2 calls := by
  simp only [answers, mapM_cons]
  rfl

lemma exists_answers_append (env : Surroundings) (lint : Linter) (memo : Memo)
    (before : List Call) : ∃ found memo', found.length = before.length ∧ ∀ after,
      answers env lint memo (before ++ after) = found ++ answers env lint memo' after := by
  induction before generalizing memo with
  | nil => exact ⟨[], memo, rfl, fun _ => rfl⟩
  | cons c before ih =>
    obtain ⟨found, memo', hlength, hall⟩ := ih ((c.judge env lint).run memo).2
    refine ⟨((c.judge env lint).run memo).1 :: found,
      memo', by rw [length_cons, hlength, length_cons], fun after => ?_⟩
    rw [cons_append, answers_cons, hall, cons_append]

lemma forall₂_answers (h : Remembers lint memo) (calls : List Call) :
    Forall₂ (fun c found => c.live → found = diagnosed lint c.file.path ++ checkLines c.file) calls
      (answers env lint memo calls) := by
  induction calls generalizing memo with
  | nil => exact .nil
  | cons c calls ih =>
    rw [answers_cons]
    cases hlive : c.live with
    | true =>
      obtain ⟨hfound, hnext⟩ := checked_of_remembers h true c.file.path
      rw [run_judge, linter_of_live hlive, hlive]
      exact .cons (fun _ => by rw [hfound]) (ih hnext)
    | false =>
      have hknown : Remembers lint ((c.judge env lint).run memo).2 := by
        rwa [memo_of_cancelled hlive]
      exact .cons (fun h => absurd h (by simp [hlive])) (ih hknown)

lemma isSome_known (h : (get? path memo.known).isSome) :
    (get? path ((c.judge env lint).run memo).2.known).isSome := by
  cases hlive : c.live with
  | false => rwa [memo_of_cancelled hlive]
  | true =>
    rw [run_judge, linter_of_live hlive, hlive]
    cases hget : get? c.file.path memo.known with
    | some => rwa [checked_of_known hget]
    | none =>
      rw [checked_of_unknown hget, Table.get?_insert]
      split <;> simp [h]

lemma liveChecks_of_known (h : (get? path memo.known).isSome) (calls : List Call) :
    liveChecks env lint path memo calls = 0 := by
  induction calls generalizing memo with
  | nil => rfl
  | cons c calls ih =>
    rw [liveChecks, ih (isSome_known h), Nat.add_zero, ite_eq_right_iff]
    intro _
    cases hget : get? c.file.path memo.known with
    | some => rw [asked_of_known (by rw [hget, Option.isSome_some]), count_nil]
    | none =>
      rw [asked_of_unknown hget, count_singleton, if_neg]
      rintro heq
      rw [← beq_iff_eq.mp heq, hget] at h
      cases h

lemma liveChecks_le (memo : Memo) (calls : List Call) :
    liveChecks env lint path memo calls ≤ 1 := by
  induction calls generalizing memo with
  | nil => exact Nat.zero_le _
  | cons c calls ih =>
    rw [liveChecks]
    split_ifs with hlive
    · cases hget : get? c.file.path memo.known with
      | some =>
        rw [asked_of_known (by rw [hget, Option.isSome_some]), count_nil, Nat.zero_add]
        exact ih _
      | none =>
        rw [asked_of_unknown hget, count_singleton]
        split_ifs with hpath
        · -- from now on the file is known
          obtain rfl := beq_iff_eq.mp hpath
          rw [run_judge, linter_of_live hlive, hlive, checked_of_unknown hget,
            liveChecks_of_known (by rw [Table.get?_insert, if_pos rfl]; rfl)]
        · rw [Nat.zero_add]
          exact ih _
    · rw [Nat.zero_add]
      exact ih _

/-- The memo does not show. In every sequence of calls, each one in a run that goes on finds what
the check finds in its file, and what the heuristics find there; without a cancelled call the later
ones find the same; and no file is checked more than once in a run that goes on. -/
theorem memo_transparent (env : Surroundings) (lint : Linter) (calls : List Call) :
    Forall₂ (fun c found => c.live = true →
      found = diagnosed lint c.file.path ++ checkLines c.file) calls (answers env lint {} calls) ∧
    (∀ before c after, calls = before ++ c :: after → c.live = false →
      (answers env lint {} calls).drop (before.length + 1) =
        (answers env lint {} (before ++ after)).drop before.length) ∧
    ∀ path, liveChecks env lint path {} calls ≤ 1 := by
  refine ⟨forall₂_answers (by simp [Remembers]) calls, ?_, fun path => liveChecks_le {} calls⟩
  rintro before c after rfl hlive
  obtain ⟨found, memo, hlength, hall⟩ := exists_answers_append env lint {} before
  rw [hall, hall, answers_cons, ← hlength, drop_append, drop_append]
  simp [memo_of_cancelled hlive]

/-- A file that does not parse is asked for in a cancelled run first, and twice after that. -/
theorem memo_transparent_retry :
    let lint : Linter := fun _ => .ok [⟨.parse, "syntax error", 2⟩]
    let call : Call := ⟨⟨"8.1", "6.4"⟩, ⟨"/p/a.php", ["<?php".toList]⟩, none⟩
    let stopped : Call := { call with cancelled := some .cancelled }
    (answers {} lint {} [stopped, call, call]).drop 1 = answers {} lint {} [call, call] ∧
      liveChecks {} lint "/p/a.php" {} [stopped, call, call] ≤ 1 := by
  intro lint call stopped
  obtain ⟨-, hlater, honce⟩ := memo_transparent {} lint [stopped, call, call]
  exact ⟨hlater [] stopped [call, call] rfl rfl, honce "/p/a.php"⟩

end PluginAudit.Detector.Syntax
