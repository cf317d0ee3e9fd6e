import Mathlib.Data.List.Forall2
import PluginAudit.Proofs.CacheDocuments
import PluginAudit.Proofs.FindingOrder
import PluginAudit.Report.Format

/-!
Reports in the interchange format. Main statements: a report has a result for each issue and the
rules that these name, and results come by file, line, rule and message as long as lines are short.
-/

open List

namespace PluginAudit

namespace Json

def at? (path : List String) (j : Json) : Option Json := path.foldlM (fun j name => j.get? name) j

@[simp] lemma get?_nil (name : String) : (obj []).get? name = none := rfl

@[simp] lemma get?_append (members others : List (String × Json)) (name : String) :
    (obj (members ++ others)).get? name =
      ((obj others).get? name).or ((obj members).get? name) := by
  simp [get?, Option.map_or]

lemma get?_singleton (member : String × Json) (name : String) :
    (obj [member]).get? name = if member.1 = name then some member.2 else none := by
  by_cases h : member.1 = name <;> simp [get?, h]

@[simp] lemma get?_cons (member : String × Json) (members : List (String × Json)) (name : String) :
    (obj (member :: members)).get? name =
      ((obj members).get? name).or (if member.1 = name then some member.2 else none) := by
  rw [← singleton_append, get?_append, get?_singleton]

@[simp] lemma get?_memberUnless (absent : Bool) (other : String) (j : Json) (name : String) :
    (obj (memberUnless absent other j)).get? name = if absent = false ∧ other = name then
      some j else none := by
  cases absent <;> simp [memberUnless]

@[simp] lemma proper_arr_iff {items : List Json} : (arr items).Proper ↔ ∀ j ∈ items, j.Proper :=
  ⟨fun h => by cases h; assumption, .arr⟩

end Json

namespace Report.Sarif

/-! ### Documents -/

/-- The items of a list in the only run of a document; none if there is no list. -/
def runItems (path : List String) (doc : Json) : List Json :=
  match doc.get? "runs" with
  | some (.arr [run]) => match run.at? path with
    | some (.arr items) => items
    | _ => []
  | _ => []

/-- What a result tells of an issue. There is a region if the line is positive, and only then. -/
structure Carries (j : Json) (r : Result) : Prop where
  rule : j.get? "ruleId" = some (.str (ruleId r.issue.finding.kind))
  level : j.get? "level" = some (.str (level r.issue.finding.severity))
  message : j.at? ["message", "text"] = some (.str (if r.issue.finding.suggestion = "" then
    r.issue.finding.message else r.issue.finding.message ++ ". " ++ r.issue.finding.suggestion))
  location : ∃ place, j.get? "locations" = some (.arr [.obj [("physicalLocation", place)]]) ∧
    place.at? ["artifactLocation", "uri"] = some (.str r.issue.relativePath) ∧
    place.get? "region" = if 0 < r.issue.finding.line then
    some (.obj [("startLine", .int r.issue.finding.line)]) else none
  fingerprint : j.at? ["partialFingerprints", "wpfatal/v1"] = some (.str r.issue.fingerprint)
  php : j.at? ["properties", "php"] = some (.str r.php)
  wp : j.at? ["properties", "wp"] = some (.str r.wp)

lemma nat_toNat {n : Int} (h : 0 < n) : Json.nat n.toNat = .int n := by
  rw [Json.nat, Json.int, Decimal.intText, if_neg (by omega), show n.toNat = n.natAbs by omega]

lemma carries_toJson (r : Result) : Carries r.toJson r where
  rule := by simp [Result.toJson]
  level := by simp [Result.toJson]
  message := by simp [Result.toJson, Result.message, Json.at?]
  location := by
    refine ⟨_, by simp [Result.toJson]; rfl, by simp [Json.at?], ?_⟩
    by_cases hline : 0 < r.issue.finding.line
    · simp [hline, Result.line, nat_toNat hline]
    · simp [hline, Result.line, Int.toNat_of_nonpos (Int.not_lt.mp hline)]
  fingerprint := by simp [Result.toJson, Json.at?]
  php := by simp [Result.toJson, Json.at?]
  wp := by simp [Result.toJson, Json.at?]

lemma proper_toJson (q : Result) : q.toJson.Proper := by
  have hline :
      (Json.nat q.line).Proper := .num ((Json.isWhole_natText _).isMagnitude.isNumeral false)
  simp [Result.toJson, memberUnless, hline]

lemma proper_document (r : Report) : (document r).Proper := by
  have hrule (k : Kind) : (rule k).Proper := by simp [rule, textMember, memberUnless]
  simp [document, run, memberUnless, hrule, proper_toJson]

@[simp] lemma parse?_write (r : Report) (color : Bool) :
    Json.parse? (r.write color .sarif).toList = some (document r) :=
  Json.parse?_pretty (proper_document r)

lemma exists_write?_iff (room : Int) (r : Report) (color : Bool) :
    (∃ text, r.write? room color .sarif = some text) ↔ HasRoom room r := by
  simp [write?]

lemma parse?_of_write? {room : Int} {r : Report} {color : Bool} {text : String}
    (h : r.write? room color .sarif = some text) : Json.parse? text.toList = some (document r) := by
  rw [write?, Option.ite_none_left_eq_some] at h
  rw [← Option.some.inj h.2]
  exact parse?_write r color

@[simp] lemma runItems_results (r : Report) :
    runItems ["results"] (document r) = (results r).map Result.toJson := by
  simp [runItems, document, run, Json.at?]

@[simp] lemma runItems_rules (r : Report) :
    runItems ["tool", "driver", "rules"] (document r) = (kinds r).map rule := by
  cases hkinds : kinds r <;> simp [runItems, document, run, Json.at?, hkinds]

/-! ### Nothing is lost -/

/-- The issues of a report with the versions of their combinations, in the order of the report. -/
def listed (r : Report) : List Result :=
  r.outcomes.items.flatMap fun o => o.issues.items.map fun i => ⟨o.php, o.wp, i⟩

lemma map_issue_listed (r : Report) : (listed r).map (·.issue) = issuesOf r.outcomes.items := by
  simp [listed, issuesOf, map_flatMap, Function.comp_def]

lemma results_perm (r : Report) : (results r).Perm (listed r) := mergeSort_perm _ _

lemma mem_kinds_iff {r : Report} {kind : Kind} :
    kind ∈ kinds r ↔ ∃ q ∈ results r, q.issue.finding.kind = kind := by
  rw [kinds, mem_mergeSort, mem_eraseDups, ← map_issue_listed]
  simp [(results_perm r).mem_iff]

lemma forall₂_carries (r : Report) :
    Forall₂ Carries (runItems ["results"] (document r)) (results r) := by
  rw [runItems_results]
  exact forall₂_map_left_iff.mpr (forall₂_same.mpr fun q _ => carries_toJson q)

lemma ruleId_injOn : ∀ a ∈ Kind.all, ∀ b ∈ Kind.all, ruleId a = ruleId b → a = b := by
  decide +kernel

lemma isLE_compare_iff (a b : String) : (compare a b).isLE ↔ a.toList ≤ b.toList := by
  rw [Ordering.isLE_iff_ne_gt, Finding.compare_eq_gt_iff, not_lt]

lemma pairwise_ruleId {r : Report} (h : ∀ kind ∈ kinds r, kind ∈ Kind.all) :
    ((kinds r).map ruleId).Pairwise (· < ·) := by
  have hle : (kinds r).Pairwise fun a b => (ruleId a).toList ≤ (ruleId b).toList :=
    SortKey.pairwise_mergeSort (fun a b => isLE_compare_iff (ruleId a) (ruleId b)) _
  have hnodup : (kinds r).Nodup := (mergeSort_perm _ _).nodup_iff.mpr (nodup_eraseDups _)
  rw [pairwise_map]
  refine (hle.and hnodup).imp_of_mem ?_
  rintro a b ha hb ⟨hab, hne⟩
  rw [String.lt_iff_toList_lt]
  refine lt_of_le_of_ne hab fun heq => hne ?_
  exact ruleId_injOn a (h a ha) b (h b hb) (String.toList_inj.mp heq)

/-- A report has a text if there is room for as many results as its summary counts. The text is a
document with one result for each issue and the rules that the results name, each one once and in
order. -/
theorem sarif_complete (room : Int) (r : Report) (color : Bool)
    (h : ∀ i ∈ issuesOf r.outcomes.items, i.finding.kind ∈ Kind.all) :
    ((∃ text, r.write? room color .sarif = some text) ↔ HasRoom room r) ∧
    ∀ text, r.write? room color .sarif = some text →
      ∃ doc, Json.parse? text.toList = some doc ∧
      (∃ ordered, ordered.Perm (listed r) ∧
        Forall₂ Carries (runItems ["results"] doc) ordered) ∧
      ∃ ids : List String,
        (runItems ["tool", "driver", "rules"] doc).map (·.get? "id") = ids.map (some ∘ .str) ∧
        ids.Pairwise (· < ·) ∧
        ∀ id, id ∈ ids ↔
          ∃ result ∈ runItems ["results"] doc, result.get? "ruleId" = some (.str id) := by
  refine ⟨exists_write?_iff room r color, fun text htext => ?_⟩
  have hkinds : ∀ kind ∈ kinds r, kind ∈ Kind.all := by
    intro kind hkind
    obtain ⟨q, hq, rfl⟩ := mem_kinds_iff.mp hkind
    refine h _ ?_
    rw [← map_issue_listed]
    exact mem_map_of_mem ((results_perm r).mem_iff.mp hq)
  refine ⟨document r, parse?_of_write? htext, ⟨results r, results_perm r, forall₂_carries r⟩,
    (kinds r).map ruleId, ?_, pairwise_ruleId hkinds, fun id => ?_⟩
  · rw [runItems_rules]
    simp [rule, textMember, Function.comp_def]
  · simp only [runItems_results, mem_map, mem_kinds_iff]
    constructor
    · rintro ⟨_, ⟨q, hq, rfl⟩, rfl⟩
      exact ⟨_, ⟨q, hq, rfl⟩, (carries_toJson q).rule⟩
    · rintro ⟨_, ⟨q, hq, rfl⟩, hid⟩
      rw [(carries_toJson q).rule] at hid
      cases hid
      exact ⟨_, ⟨q, hq, rfl⟩, rfl⟩

/-! ### Places -/

lemma prefix_of_between {start x y s : List Char} (h : ¬ s < start ++ x) (h' : ¬ start ++ y < s) :
    start <+: s := by
  induction start generalizing s with
  | nil => exact nil_prefix
  | cons c start ih =>
    cases s with
    | nil => exact absurd (nil_lt_cons _ _) h
    | cons d s =>
      rw [cons_append, cons_lt_cons_iff, not_or] at h h'
      obtain rfl : c = d := le_antisymm (not_lt.mp h.1) (not_lt.mp h'.1)
      exact (prefix_cons_inj c).mpr (ih (fun hlt => h.2 ⟨rfl, hlt⟩) fun hlt => h'.2 ⟨rfl, hlt⟩)

/-! ### Lines with nine digits -/

section Digits

open Decimal (natText natOfDigits digitsOf)

variable {s t : List Char} {n m k : Nat}

def digitStep (n : Nat) (c : Char) : Nat := n * 10 + (c.toNat - 48)

lemma isDigit_bounds {c : Char} (h : c.isDigit) : 48 ≤ c.toNat ∧ c.toNat ≤ 57 :=
  Char.isDigit_iff_toNat.mp h

lemma foldl_digitStep_lt (hs : ∀ c ∈ s, c.isDigit) (hlength : s.length = t.length)
    (h : n < m ∨ n = m ∧ s < t) : s.foldl digitStep n < t.foldl digitStep m := by
  induction s generalizing t n m with
  | nil =>
    obtain rfl := length_eq_zero_iff.mp hlength.symm
    simpa using h
  | cons c s ih =>
    cases t with
    | nil => cases hlength
    | cons d t =>
      obtain ⟨hc, hs⟩ := forall_mem_cons.mp hs
      have hc := isDigit_bounds hc
      rw [foldl_cons, foldl_cons]
      refine ih hs (by simpa using hlength) ?_
      simp only [digitStep]
      rcases h with h | ⟨rfl, h⟩
      · omega
      · rcases cons_lt_cons_iff.mp h with hcd | ⟨rfl, hst⟩
        · have hcd : c.toNat < d.toNat := hcd
          omega
        · exact .inr ⟨rfl, hst⟩

lemma natOfDigits_lt (hs : ∀ c ∈ s, c.isDigit) (hlength : s.length = t.length) (h : s < t) :
    natOfDigits s < natOfDigits t :=
  foldl_digitStep_lt hs hlength (.inr ⟨rfl, h⟩)

lemma length_digitsOf_go (fuel : Nat) (h : n < 10 ^ k) (tail : List Nat) :
    (digitsOf.go fuel n tail).length ≤ k + tail.length := by
  induction fuel generalizing n k tail with
  | zero => exact Nat.le_add_left _ _
  | succ fuel ih =>
    rw [digitsOf.go]
    split
    · exact Nat.le_add_left _ _
    · cases k with
      | zero =>
        rw [Nat.pow_zero] at h
        omega
      | succ k =>
        have hrest := ih (n := n / 10) (k := k)
          (Nat.div_lt_of_lt_mul (by rw [Nat.pow_succ] at h; omega)) (n % 10 :: tail)
        rw [length_cons] at hrest
        omega

@[simp] lemma toList_nineDigits (n : Nat) : (Result.nineDigits n).toList =
    List.replicate (9 - (natText n).toList.length) '0' ++ (natText n).toList := by
  simp [Result.nineDigits, String.length_toList]

lemma length_nineDigits (h : n < 1000000000) : (Result.nineDigits n).toList.length = 9 := by
  have hlength : (natText n).toList.length ≤ 9 := by
    rw [natText]
    split
    · decide
    · have hdigits := length_digitsOf_go (k := 9) (n.log2 + 1) h []
      simpa [digitsOf] using hdigits
  rw [toList_nineDigits, length_append, length_replicate]
  omega

@[simp] lemma natOfDigits_nineDigits (n : Nat) : natOfDigits (Result.nineDigits n).toList = n := by
  have hzeros : ∀ k, (List.replicate k '0').foldl digitStep 0 = 0 := by
    intro k
    induction k with
    | zero => rfl
    | succ k ih => exact ih
  rw [toList_nineDigits, natOfDigits, foldl_append]
  exact (congrArg (foldl digitStep · _) (hzeros _)).trans (Json.natOfDigits_natText n)

lemma isDigit_nineDigits (n : Nat) : ∀ c ∈ (Result.nineDigits n).toList, c.isDigit := by
  rw [toList_nineDigits]
  exact (Json.isDigits_padded 9 n).digit

end Digits

namespace Result

def rank (r : Result) : ℕ ×ₗ List Char ×ₗ List Char :=
  toLex (r.line, toLex ((ruleId r.issue.finding.kind).toList, r.message.toList))

def key (r : Result) : List Char ×ₗ List Char ×ₗ List Char :=
  toLex (r.place.toList, toLex ((ruleId r.issue.finding.kind).toList, r.message.toList))

lemma isLE_order_iff (a b : Result) : (a.order b).isLE ↔ a.key ≤ b.key := by
  rw [Ordering.isLE_iff_ne_gt, ← not_lt, not_iff_not, order]
  simp only [Ordering.then_eq_gt, key, Prod.Lex.lt_iff, ofLex_toLex, Finding.compare_eq_gt_iff,
    Finding.compare_eq_eq_iff]
  rw [eq_comm (a := a.place.toList), eq_comm (a := (ruleId a.issue.finding.kind).toList)]

@[simp] lemma toList_place (r : Result) :
    r.place.toList = r.issue.relativePath.toList ++ ':' :: (nineDigits r.line).toList := by
  simp [place]

variable {a b c : Result}

lemma not_place_lt (h : a.key ≤ b.key) : ¬ b.place.toList < a.place.toList := by
  rcases Prod.Lex.le_iff.mp h with h | h
  · exact h.asymm
  · exact fun hlt => absurd h.1 hlt.ne'

lemma key_eq (hpath : a.issue.relativePath = b.issue.relativePath) (hrank : a.rank = b.rank) :
    a.key = b.key := by
  have hline : a.line = b.line := congrArg (fun rank => (ofLex rank).1) hrank
  have hplace : a.place = b.place := by rw [place, place, hpath, hline]
  exact congrArg toLex
    (Prod.ext (congrArg String.toList hplace) (congrArg (fun rank => (ofLex rank).2) hrank))

lemma rank_le (hpath : a.issue.relativePath = b.issue.relativePath) (ha : a.line < 1000000000)
    (hb : b.line < 1000000000) (h : a.key ≤ b.key) : a.rank ≤ b.rank := by
  by_contra hrank
  rcases Prod.Lex.lt_iff.mp (not_le.mp hrank) with hline | ⟨hline, hrest⟩
  · have hline : b.line < a.line := hline
    have hdigits : (nineDigits b.line).toList < (nineDigits a.line).toList := by
      rcases lt_trichotomy (nineDigits b.line).toList (nineDigits a.line).toList with h | h | h
      · exact h
      · have hsame := congrArg Decimal.natOfDigits h
        rw [natOfDigits_nineDigits, natOfDigits_nineDigits] at hsame
        omega
      · have hlt := natOfDigits_lt (isDigit_nineDigits _)
          (by rw [length_nineDigits ha, length_nineDigits hb]) h
        rw [natOfDigits_nineDigits, natOfDigits_nineDigits] at hlt
        omega
    refine not_place_lt h ?_
    rw [toList_place, toList_place, hpath]
    exact append_left_lt (cons_lt_cons_iff.mpr (.inr ⟨rfl, hdigits⟩))
  · have hline : b.line = a.line := hline
    have hplace : b.place = a.place := by rw [place, place, hline, hpath]
    refine absurd h (not_le.mpr (Prod.Lex.lt_iff.mpr (.inr ⟨?_, hrest⟩)))
    exact congrArg String.toList hplace

/-- Between two results of one file stand results of this file only, unless another path goes on
from its path with a colon. -/
lemma relativePath_eq_of_between (hab : a.key ≤ b.key) (hbc : b.key ≤ c.key)
    (hpath : a.issue.relativePath = c.issue.relativePath)
    (hcolon : ¬ a.issue.relativePath.toList ++ [':'] <+: b.issue.relativePath.toList) :
    b.issue.relativePath = a.issue.relativePath := by
  have hstart : a.issue.relativePath.toList ++ [':'] <+: b.place.toList := by
    refine prefix_of_between (x := (nineDigits a.line).toList)
      (y := (nineDigits c.line).toList) ?_ ?_
    · simpa [toList_place a] using not_place_lt hab
    · simpa [toList_place c, hpath] using not_place_lt hbc
  obtain ⟨rest, hrest⟩ := hstart
  rw [toList_place] at hrest
  rcases append_eq_append_iff.mp hrest with ⟨w, hb, -⟩ | ⟨w, ha, hdigits⟩
  · exact absurd ⟨w, hb.symm⟩ hcolon
  · rcases eq_nil_or_concat w with rfl | ⟨w, x, rfl⟩
    · exact absurd ⟨[], by rw [ha, append_nil, append_nil]⟩ hcolon
    · rw [concat_eq_append] at ha hdigits
      rw [← append_assoc] at ha
      obtain ⟨hpaths, ⟨⟩⟩ := append_inj' ha rfl
      cases w with
      | nil => exact String.toList_inj.mp (by simpa using hpaths.symm)
      | cons y w =>
        -- the colon after the path would be one of the digits
        have hmem : ':' ∈ (nineDigits b.line).toList := by
          rw [(List.cons.inj hdigits).2]
          simp
        exact absurd (isDigit_nineDigits _ _ hmem) (by decide)

end Result

/-! ### The order of results -/

lemma pairwise_results (r : Report) : (results r).Pairwise fun a b => a.key ≤ b.key :=
  SortKey.pairwise_mergeSort Result.isLE_order_iff _

/-- The results in the document of a report come file by file, those of a file by line, rule and
message, and those that agree in all of these as in the report, if there is room for as many results
as the summary counts, lines have at most nine digits and no path goes on from another one with a
colon. -/
theorem results_by_location (room : Int) (r : Report) (color : Bool) (hroom : HasRoom room r)
    (hlines : ∀ i ∈ issuesOf r.outcomes.items, i.finding.line < 1000000000)
    (hpaths : ∀ i ∈ issuesOf r.outcomes.items, ∀ j ∈ issuesOf r.outcomes.items,
      ¬ i.relativePath.toList ++ [':'] <+: j.relativePath.toList) :
    ∃ text doc ordered, r.write? room color .sarif = some text ∧
      Json.parse? text.toList = some doc ∧
      Forall₂ Carries (runItems ["results"] doc) ordered ∧
      (∀ a b c, [a, b, c].Sublist ordered → a.issue.relativePath = c.issue.relativePath →
        b.issue.relativePath = a.issue.relativePath) ∧
      (ordered.Pairwise fun a b => a.issue.relativePath = b.issue.relativePath → a.rank ≤ b.rank) ∧
      ∀ spot, ordered.filter (fun q => (q.issue.relativePath, q.rank) = spot) =
        (listed r).filter fun q => (q.issue.relativePath, q.rank) = spot := by
  have hmem : ∀ q ∈ results r, q.issue ∈ issuesOf r.outcomes.items := by
    intro q hq
    rw [← map_issue_listed]
    exact mem_map_of_mem ((results_perm r).mem_iff.mp hq)
  have hline : ∀ q ∈ results r, q.line < 1000000000 := by
    intro q hq
    have hlt := hlines _ (hmem q hq)
    simp only [Result.line]
    omega
  obtain ⟨text, htext⟩ := (exists_write?_iff room r color).mpr hroom
  refine ⟨text, document r, results r, htext, parse?_of_write? htext, forall₂_carries r, ?_, ?_, ?_⟩
  · intro a b c hsub hpath
    have hpairs := (pairwise_results r).sublist hsub
    obtain ⟨hb, hpairs⟩ := pairwise_cons.mp hpairs
    have hbc := (pairwise_cons.mp hpairs).1 c mem_cons_self
    refine Result.relativePath_eq_of_between (hb b mem_cons_self) hbc hpath ?_
    exact hpaths _ (hmem a (hsub.mem mem_cons_self)) _ (hmem b (hsub.mem (by simp)))
  · refine (pairwise_results r).imp_of_mem ?_
    intro a b ha hb hle hpath
    exact Result.rank_le hpath (hline a ha) (hline b hb) hle
  · intro spot
    -- results that agree in path and rank have one key, so sorting leaves them as they are
    rw [results, SortKey.filter_mergeSort Result.isLE_order_iff]
    refine mergeSort_of_pairwise (pairwise_of_forall_mem_list fun a ha b hb => ?_)
    rw [Result.isLE_order_iff]
    have hspot :=
      (of_decide_eq_true (mem_filter.mp ha).2).trans (of_decide_eq_true (mem_filter.mp hb).2).symm
    exact (Result.key_eq (Prod.mk.inj hspot).1 (Prod.mk.inj hspot).2).le

def issueAt (path : String) (line : Int) : Issue :=
  { finding := { kind := .undefinedFunction, message := "f", file := path, line, severity := .error }
    relativePath := path }

def reportOf (issues : List Issue) : Report :=
  { outcomes := some [{ php := "8.1", wp := "6.4", issues := some issues }] }

theorem sarif_complete_two : (∀ i ∈ [issueAt "b" 2, issueAt "a" 0], i.finding.kind ∈ Kind.all) ∧
    ∃ text doc, (reportOf [issueAt "b" 2, issueAt "a" 0]).write? room false .sarif = some text ∧
      Json.parse? text.toList = some doc ∧ (runItems ["results"] doc).length = 2 := by
  have hkinds : ∀ i ∈ [issueAt "b" 2, issueAt "a" 0], i.finding.kind ∈ Kind.all := by decide
  obtain ⟨hwrite, hall⟩ :=
    sarif_complete room (reportOf [issueAt "b" 2, issueAt "a" 0]) false hkinds
  obtain ⟨text, htext⟩ := hwrite.mpr (by decide)
  obtain ⟨doc, hparse, ⟨ordered, hperm, hcarries⟩, -⟩ := hall text htext
  exact ⟨hkinds, text, doc, htext, hparse, hcarries.length_eq.trans hperm.length_eq⟩

/-- A summary that counts less than nothing leaves a report without a text. -/
theorem no_text_below_zero :
    { reportOf [issueAt "a" 1] with summary.totalFindings := -1 }.write? room false .sarif = none :=
  if_pos ⟨rfl, fun h => absurd h.1 (by decide)⟩

theorem results_by_location_two :
    (∀ i ∈ [issueAt "b" 2, issueAt "a" 999999999], i.finding.line < 1000000000) ∧
    ∃ text doc ordered,
      (reportOf [issueAt "b" 2, issueAt "a" 999999999]).write? room false .sarif = some text ∧
      Json.parse? text.toList = some doc ∧ Forall₂ Carries (runItems ["results"] doc) ordered ∧
      ordered.Pairwise fun a b => a.issue.relativePath = b.issue.relativePath →
        a.rank ≤ b.rank := by
  have hlines : ∀ i ∈ [issueAt "b" 2, issueAt "a" 999999999], i.finding.line < 1000000000 := by
    decide
  obtain ⟨text, doc, ordered, htext, hparse, hcarries, -, hrank, -⟩ :=
    results_by_location room (reportOf [issueAt "b" 2, issueAt "a" 999999999]) false
      (by decide) hlines (by decide)
  exact ⟨hlines, text, doc, ordered, htext, hparse, hcarries, hrank⟩

/-- The greater of two lines comes first if it has more than nine digits. -/
theorem long_line_first :
    (results (reportOf [issueAt "a" 999999999, issueAt "a" 1000000000])).map (·.line) =
    [1000000000, 999999999] := by
  have horder : (Result.order ⟨"8.1", "6.4", issueAt "a" 999999999⟩ ⟨"8.1", "6.4",
      issueAt "a" 1000000000⟩).isLE = false := by
    decide +kernel
  simp [results, reportOf, Listing.items, mergeSort, horder]
  decide

end Report.Sarif

end PluginAudit
