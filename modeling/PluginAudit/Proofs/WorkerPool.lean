import Mathlib.Algebra.BigOperators.Group.List.Lemmas
import Mathlib.Algebra.GroupWithZero.Nat
import Mathlib.Logic.Relation
import PluginAudit.Proofs.DetectorContract
import PluginAudit.Proofs.FindingOrder
import PluginAudit.Scan

/-!
Files judged at the same time, by a pool of workers. Main statement: every run of the pool ends with
the findings of the sequential scan, whatever the schedule, the number of workers and the order of
the files.
-/

open List

namespace PluginAudit

open Detector (judgeFile judgeAll Truthful)
open Detector.Syntax (Memo)

namespace Scan

/-! ### The pool -/

/-- How far a file has got: not taken yet, with detectors still to come, or done. -/
inductive Progress where
  | waiting
  | running (todo : List Detector)
  | finished

/-- The place of a file in the pool, with its findings so far. -/
structure Slot where
  file : Source.File
  progress : Progress
  found : List Finding

/-- A slot for each file in the order of the files, what checks of the runtime found, and all
findings in the order in which they were made. -/
structure Pool where
  slots : List Slot
  memo : Memo
  made : List Finding

def Slot.isWaiting (s : Slot) : Bool :=
  match s.progress with
  | .waiting => true
  | _ => false

def Slot.isRunning (s : Slot) : Bool :=
  match s.progress with
  | .running _ => true
  | _ => false

def width (workers : Int) : Nat := (max 1 workers).toNat

namespace Pool

def ofFiles (files : List Source.File) (memo : Memo) : Pool :=
  ⟨files.map fun f => ⟨f, .waiting, []⟩, memo, []⟩

def IsFinished (p : Pool) : Prop := ∀ s ∈ p.slots, s.progress = .finished

def result (p : Pool) : List Finding := Finding.sort (p.slots.flatMap (·.found))

/-- One step of the pool: the next file is taken by a free worker, a detector judges the file that
it is next for, or a worker is done with a file. -/
inductive Step (detectors : List Detector) (target : Combination) (workers : Int) :
    Pool → Pool → Prop where
  | take {before after f found memo made} (hnext : ∀ s ∈ before, s.isWaiting = false)
      (hfree : (before ++ after).countP (·.isRunning) < width workers) :
      Step detectors target workers ⟨before ++ ⟨f, .waiting, found⟩ :: after, memo, made⟩
        ⟨before ++ ⟨f, .running detectors, found⟩ :: after, memo, made⟩
  | judge {before after f d todo found memo made} :
      Step detectors target workers ⟨before ++ ⟨f, .running (d :: todo), found⟩ :: after, memo,
    made⟩ ⟨before ++ ⟨f, .running todo, found ++ ((d.judge target f).run memo).1⟩ :: after,
          ((d.judge target f).run memo).2, made ++ ((d.judge target f).run memo).1⟩
  | finish {before after f found memo made} :
      Step detectors target workers ⟨before ++ ⟨f, .running [], found⟩ :: after, memo, made⟩
        ⟨before ++ ⟨f, .finished, found⟩ :: after, memo, made⟩

/-- A pool is reached from another by steps in some order. -/
abbrev Reaches (detectors : List Detector) (target : Combination) (workers : Int) :
    Pool → Pool → Prop :=
  Relation.ReflTransGen (Step detectors target workers)

variable {detectors : List Detector} {target : Combination} {workers : Int}

/-! ### Every run ends -/

def slotWork (detectors : List Detector) (s : Slot) : Nat :=
  match s.progress with
  | .waiting => detectors.length + 2
  | .running todo => todo.length + 1
  | .finished => 0

def work (detectors : List Detector) (p : Pool) : Nat := (p.slots.map (slotWork detectors)).sum

lemma Step.work_lt {p q : Pool} (h : Step detectors target workers p q) :
    q.work detectors < p.work detectors := by
  cases h <;> simp [work, slotWork]

/-- A pool that is not finished can make a step: a file that was taken goes on, and if there is
none, all workers are free for the next file. -/
lemma exists_step {p : Pool} (h : ¬ p.IsFinished) : ∃ q, Step detectors target workers p q := by
  obtain ⟨slots, memo, made⟩ := p
  by_cases hrun : ∃ s ∈ slots, s.isRunning
  · obtain ⟨⟨f, progress, found⟩, hmem, hs⟩ := hrun
    obtain ⟨before, after, rfl⟩ := append_of_mem hmem
    match progress, hs with
    | .running [], _ => exact ⟨_, .finish⟩
    | .running (d :: todo), _ => exact ⟨_, .judge⟩
  · have hwait : slots.find? Slot.isWaiting ≠ none := by
      simp only [IsFinished, not_forall] at h
      obtain ⟨s, hs, hne⟩ := h
      rw [ne_eq, find?_eq_none, not_forall]
      refine ⟨s, ?_⟩
      cases hprogress : s.progress with
      | waiting => simp [hs, Slot.isWaiting, hprogress]
      | running todo => exact absurd ⟨s, hs, by simp [Slot.isRunning, hprogress]⟩ hrun
      | finished => exact absurd hprogress hne
    obtain ⟨⟨f, progress, found⟩, hfind⟩ := Option.ne_none_iff_exists'.mp hwait
    obtain ⟨hs, before, after, rfl, hnext⟩ := find?_eq_some_iff_append.mp hfind
    match progress, hs with
    | .waiting, _ =>
      refine ⟨_, .take (fun s hs => by simpa using hnext s hs) ?_⟩
      have hnone : (before ++ after).countP (·.isRunning) = 0 := by
        rw [countP_eq_zero]
        intro s hs hrunning
        refine hrun ⟨s, ?_, hrunning⟩
        rw [mem_append] at hs
        rw [mem_append, mem_cons]
        exact hs.imp id Or.inr
      rw [hnone, width]
      omega

lemma exists_finished (p : Pool) : ∃ q, Reaches detectors target workers p q ∧ q.IsFinished := by
  -- By induction on the steps that the pool still needs.
  induction hn : p.work detectors using Nat.strong_induction_on generalizing p with
  | _ n ih =>
    by_cases h : p.IsFinished
    · exact ⟨p, .refl, h⟩
    · obtain ⟨q, hstep⟩ := @exists_step detectors target workers p h
      obtain ⟨r, hr, hfin⟩ := ih _ (hn ▸ hstep.work_lt) q rfl
      exact ⟨r, .head hstep hr, hfin⟩

/-! ### What a run finds -/

def foundIn (target : Combination) (memo : Memo) (detectors : List Detector) (f : Source.File) :
    List Finding :=
  detectors.flatMap fun d => ((d.judge target f).run memo).1

/-- The detectors that have still to judge the file of a slot. -/
def remaining (detectors : List Detector) (s : Slot) : List Detector :=
  match s.progress with
  | .waiting => detectors
  | .running todo => todo
  | .finished => []

/-- What holds all along a run: the memo is sound, each slot has the findings of the detectors that
have judged its file, and the findings made are those of the slots. -/
structure Consistent (sound : Memo → Prop) (detectors : List Detector) (target : Combination)
    (memo : Memo) (files : List Source.File) (p : Pool) : Prop where
  sound_memo : sound p.memo
  files_eq : p.slots.map (·.file) = files
  remaining_subset : ∀ s ∈ p.slots, remaining detectors s ⊆ detectors
  found_append : ∀ s ∈ p.slots, s.found ++ foundIn target memo (remaining detectors s) s.file =
      foundIn target memo detectors s.file
  made_perm : p.made.Perm (p.slots.flatMap (·.found))

variable {sound : Memo → Prop} {memo : Memo} {files : List Source.File}

lemma consistent_ofFiles (hmemo : sound memo) :
    Consistent sound detectors target memo files (ofFiles files memo) where
  sound_memo := hmemo
  files_eq := by simp [ofFiles, Function.comp_def]
  remaining_subset := by simp [ofFiles, remaining]
  found_append := by simp [ofFiles, remaining]
  made_perm := by simp [ofFiles]

lemma forall_mem_replaced {P : Slot → Prop} {before after : List Slot} {s s' : Slot}
    (h : ∀ x ∈ before ++ s :: after, P x) (hs : P s → P s') : ∀ x ∈ before ++ s' :: after, P x := by
  intro x hx
  simp only [mem_append, mem_cons] at h hx
  rcases hx with hx | rfl | hx
  · exact h x (.inl hx)
  · exact hs (h s (.inr (.inl rfl)))
  · exact h x (.inr (.inr hx))

lemma Step.consistent (hmemo : sound memo) (hsteady : ∀ d ∈ detectors, d.Steady sound target)
    {p q : Pool} (hstep : Step detectors target workers p q)
    (h : Consistent sound detectors target memo files p) :
    Consistent sound detectors target memo files q := by
  obtain ⟨hsound, hfiles, hsub, hfound, hmade⟩ := h
  cases hstep with
  | take hnext hfree =>
    refine ⟨hsound, ?_, ?_, ?_, ?_⟩
    · simpa using hfiles
    · exact forall_mem_replaced hsub id
    · exact forall_mem_replaced hfound id
    · simpa using hmade
  | finish =>
    refine ⟨hsound, ?_, ?_, ?_, ?_⟩
    · simpa using hfiles
    · exact forall_mem_replaced hsub id
    · exact forall_mem_replaced hfound id
    · simpa using hmade
  | @judge before after f d todo found memo' made =>
    have hd : d ∈ detectors := hsub ⟨f, .running (d :: todo), found⟩ (by simp) (by simp [remaining])
    have hsame := (hsteady d hd).same f memo' memo hsound hmemo
    refine ⟨(hsteady d hd).keeps f memo' hsound, ?_, ?_, ?_, ?_⟩
    · simpa using hfiles
    · exact forall_mem_replaced hsub fun hs => subset_of_cons_subset hs
    · refine forall_mem_replaced hfound fun hs => ?_
      simpa [foundIn, remaining, hsame] using hs
    · -- The new findings go to the end of one slot and to the end of all that was made.
      refine (hmade.append_right _).trans ?_
      simp only [flatMap_append, flatMap_cons, append_assoc]
      exact (perm_append_comm.append_left _).append_left _

lemma Reaches.consistent (hmemo : sound memo) (hsteady : ∀ d ∈ detectors, d.Steady sound target)
    {p : Pool} (h : Reaches detectors target workers (ofFiles files memo) p) :
    Consistent sound detectors target memo files p := by
  induction h with
  | refl => exact consistent_ofFiles hmemo
  | tail _ hstep ih => exact hstep.consistent hmemo hsteady ih

lemma Consistent.flatMap_found {p : Pool} (h : Consistent sound detectors target memo files p)
    (hfin : p.IsFinished) :
    p.slots.flatMap (·.found) = files.flatMap (foundIn target memo detectors) := by
  rw [← h.files_eq, flatMap_map]
  refine flatMap_congr fun s hs => ?_
  have hall := h.found_append s hs
  rw [remaining, hfin s hs] at hall
  simpa [foundIn] using hall

/-! ### The sequential scan -/

def resultOf (target : Combination) (memo : Memo) (f : Source.File) (d : Detector) :
    Detector.Result :=
  ⟨target, f.path, d, ((d.judge target f).run memo).1⟩

lemma run_judgeFile (hmemo : sound memo) (hsteady : ∀ d ∈ detectors, d.Steady sound target)
    (f : Source.File) (memo' : Memo) (h : sound memo') :
    ((judgeFile detectors target f).run memo').1 = detectors.map (resultOf target memo f) ∧
      sound ((judgeFile detectors target f).run memo').2 := by
  unfold judgeFile
  induction detectors generalizing memo' with
  | nil => exact ⟨rfl, h⟩
  | cons d ds ih =>
    have hd := hsteady d mem_cons_self
    obtain ⟨hfound, hsound⟩ :=
      ih (fun e he => hsteady e (mem_cons_of_mem d he)) _ (hd.keeps f memo' h)
    rw [mapM_cons]
    refine ⟨?_, hsound⟩
    change ⟨target, f.path, d, ((d.judge target f).run memo').1⟩ :: _ =
      resultOf target memo f d :: _
    rw [hd.same f memo' memo h hmemo]
    exact congrArg _ hfound

/-- Judging files one after the other has a result for each file and detector, and keeps the memo
sound. -/
lemma results_judgeAll (hmemo : sound memo) (hsteady : ∀ d ∈ detectors, d.Steady sound target)
    {memo' : Memo} (h : sound memo') : ((judgeAll detectors [target] files).run memo').1 =
        files.flatMap (fun f => detectors.map (resultOf target memo f)) ∧
      sound ((judgeAll detectors [target] files).run memo').2 := by
  have hfiles :
      ∀ memo', sound memo' → ((files.mapM (judgeFile detectors target)).run memo').1.flatten =
          files.flatMap (fun f => detectors.map (resultOf target memo f)) ∧
        sound ((files.mapM (judgeFile detectors target)).run memo').2 := by
    induction files with
    | nil => exact fun _ h => ⟨rfl, h⟩
    | cons f fs ih =>
      intro memo' h
      obtain ⟨hfound, hsound⟩ := run_judgeFile hmemo hsteady f memo' h
      obtain ⟨hrest, hlast⟩ := ih _ hsound
      rw [mapM_cons]
      refine ⟨?_, hlast⟩
      change ((judgeFile detectors target f).run memo').1 ++ _ = _
      rw [flatMap_cons, hfound]
      exact congrArg _ hrest
  rw [judgeAll, mapM_cons, mapM_nil]
  obtain ⟨hfound, hsound⟩ := hfiles memo' h
  refine ⟨?_, hsound⟩
  change (([_] : List (List _)).flatten.flatten) = _
  rw [flatten_singleton]
  exact hfound

/-- Judging files one after the other finds what all detectors find in each, and keeps the memo
sound. -/
lemma run_judgeAll (hmemo : sound memo) (hsteady : ∀ d ∈ detectors, d.Steady sound target)
    {memo' : Memo} (h : sound memo') :
    ((judgeAll detectors [target] files).run memo').1.flatMap (·.findings) =
        files.flatMap (foundIn target memo detectors) ∧
      sound ((judgeAll detectors [target] files).run memo').2 := by
  obtain ⟨hresults, hsound⟩ := @results_judgeAll _ _ _ _ files hmemo hsteady _ h
  refine ⟨?_, hsound⟩
  rw [hresults, flatMap_assoc]
  refine flatMap_congr fun f _ => ?_
  rw [flatMap_map]
  rfl

lemma filter_found_eq_nil {f f' : Source.File} {l l' : List Finding} (hne : f.path ≠ f'.path)
    (h : ∀ x ∈ l, x.file = f.path) (h' : ∀ x ∈ l', x.file = f'.path)
    (k : List Char ×ₗ ℤ ×ₗ List Char ×ₗ List Char) :
    l.filter (·.sortKey = k) = [] ∨ l'.filter (·.sortKey = k) = [] := by
  by_contra hboth
  rw [not_or] at hboth
  obtain ⟨x, hx⟩ := exists_mem_of_ne_nil _ hboth.1
  obtain ⟨y, hy⟩ := exists_mem_of_ne_nil _ hboth.2
  rw [mem_filter, decide_eq_true_eq] at hx hy
  have hfile : x.file.toList = y.file.toList :=
    congrArg (fun k => (ofLex k).1) (hx.2.trans hy.2.symm)
  rw [h x hx.1, h' y hy.1, String.toList_inj] at hfile
  exact hne hfile

lemma filter_flatMap_perm {files files' : List Source.File} {g : Source.File → List Finding}
    (hperm : files.Perm files') (hpaths : (files.map (·.path)).Nodup)
    (hown : ∀ f ∈ files, ∀ x ∈ g f, x.file = f.path)
    (k : List Char ×ₗ ℤ ×ₗ List Char ×ₗ List Char) :
    (files.flatMap g).filter (·.sortKey = k) = (files'.flatMap g).filter (·.sortKey = k) := by
  induction hperm with
  | nil => rfl
  | cons f _ ih =>
    rw [map_cons, nodup_cons] at hpaths
    rw [forall_mem_cons] at hown
    rw [flatMap_cons, flatMap_cons, filter_append, filter_append, ih hpaths.2 hown.2]
  | swap f f' l =>
    simp only [forall_mem_cons] at hown
    have hne : f'.path ≠ f.path := by
      simp only [map_cons, nodup_cons, mem_cons, not_or] at hpaths
      exact hpaths.1.1
    simp only [flatMap_cons, filter_append]
    rcases filter_found_eq_nil hne hown.1 hown.2.1 k with h | h <;> rw [h] <;> simp
  | trans h₁ h₂ ih₁ ih₂ =>
    rw [ih₁ hpaths hown]
    refine ih₂ ((h₁.map _).nodup_iff.mp hpaths) ?_
    intro f hf
    exact hown f (h₁.mem_iff.mpr hf)

end Pool

/-! ### Main statement -/

lemma run_findingsFor (p : Plan) (target : Combination) (memo : Memo) :
    ((findingsFor p target).run memo).1 = Finding.sort
      (((judgeAll p.detectors [target] p.files).run memo).1.flatMap (·.findings)) := rfl

/-- Whatever the schedule and the number of workers, a pool can always be finished, and then its
result is the list of the sequential scan, which has exactly the findings that were made. This list
is ordered by file, line, kind and message, and it does not depend on the order of the files. -/
theorem findingsFor_eq_pool_result (p : Plan) (target : Combination) (workers : Int)
    (sound : Memo → Prop) (memo : Memo) (hmemo : sound memo)
    (hsteady : ∀ d ∈ p.detectors, d.Steady sound target) (hown : ∀ d ∈ p.detectors, ∀ f ∈ p.files,
      ∀ x ∈ ((d.judge target f).run memo).1, x.file = f.path)
    (hpaths : (p.files.map (·.path)).Nodup) :
    (∀ pool, Pool.Reaches p.detectors target workers (.ofFiles p.files memo) pool →
      (∃ last, Pool.Reaches p.detectors target workers pool last ∧ last.IsFinished) ∧
      (pool.IsFinished → pool.result = ((findingsFor p target).run memo).1 ∧
        pool.result.Perm pool.made)) ∧
    (∀ files, files.Perm p.files →
      ((findingsFor { p with files } target).run memo).1 = ((findingsFor p target).run memo).1) ∧
    ((findingsFor p target).run memo).1.Pairwise fun a b => a.sortKey ≤ b.sortKey := by
  have hfound : ∀ files, ((findingsFor { p with files } target).run memo).1 =
      Finding.sort (files.flatMap (Pool.foundIn target memo p.detectors)) := by
    intro files
    rw [run_findingsFor, (Pool.run_judgeAll hmemo hsteady hmemo).1]
  have hfiles : ∀ f ∈ p.files, ∀ x ∈ Pool.foundIn target memo p.detectors f, x.file = f.path := by
    intro f hf x hx
    obtain ⟨d, hd, hx⟩ := mem_flatMap.mp hx
    exact hown d hd f hf x hx
  refine ⟨?_, ?_, ?_⟩
  · intro pool hpool
    refine ⟨pool.exists_finished, fun hfin => ⟨?_, ?_⟩⟩
    · rw [hfound p.files, Pool.result, (hpool.consistent hmemo hsteady).flatMap_found hfin]
    · exact (Finding.sort_perm _).trans (hpool.consistent hmemo hsteady).made_perm.symm
  · intro files hperm
    rw [hfound files, hfound p.files]
    exact Finding.sort_congr fun k => (Pool.filter_flatMap_perm hperm.symm hpaths hfiles k).symm
  · rw [hfound p.files]
    exact Finding.pairwise_sort _

def strictMeans : Detector.Means :=
  { linter := some fun path => .ok [⟨.parse, "unexpected end of " ++ path, 2⟩] }

/-- A plan with two files, the later name first, and the detectors that come with the program. -/
def twoFiles : Plan :=
  { root := "/p", paths := ["/p/b.php", "/p/a.php"], ecosystems := [], rules := []
    files := [⟨"/p/b.php", []⟩, ⟨"/p/a.php", []⟩]
    widgets := .builtin, toolchain := {}, detectors := Detector.builtins {} strictMeans }

theorem exists_pool_result_twoFiles :
    ∃ pool, Pool.Reaches twoFiles.detectors ⟨"8.1", "6.5"⟩ 3 (.ofFiles twoFiles.files {}) pool ∧
      pool.IsFinished ∧ pool.result.map (fun x => (x.file, x.line, x.message)) =
        [("/p/a.php", 2, "unexpected end of /p/a.php"),
          ("/p/b.php", 2, "unexpected end of /p/b.php")] := by
  have hmemo : Truthful strictMeans {} := Detector.truthful_empty _
  obtain ⟨hpool, hfiles, -⟩ := findingsFor_eq_pool_result twoFiles ⟨"8.1", "6.5"⟩ 3
    (Truthful strictMeans) {} hmemo (fun d hd => Detector.steady_of_mem_builtins hd _)
    (fun d hd f _ x hx => (Detector.reportedIn_of_mem_builtins hd hmemo hx).file) (by decide)
  obtain ⟨last, hlast, hfin⟩ := (hpool _ .refl).1
  refine ⟨last, hlast, hfin, ?_⟩
  -- With the files in the order of their names the findings are sorted as they are made.
  rw [((hpool last hlast).2 hfin).1, ← hfiles _ (reverse_perm twoFiles.files), run_findingsFor,
    Finding.sort, mergeSort_of_pairwise (by decide +kernel)]
  decide +kernel

end Scan

end PluginAudit
