import Mathlib.Data.List.Sort
import Mathlib.Data.String.Basic
import Mathlib.Tactic.Common
import PluginAudit.Table

/-!
Look-ups in tables after insertions, which hold of every list of pairs, and tables in increasing
order of their names, which insertions keep.
-/

open List

namespace PluginAudit

namespace Table

variable {α : Type} {table : Table α} {name : String} {value : α} {entry : String × α}

@[simp] lemma get?_nil (name : String) : get? name ([] : Table α) = none := rfl

@[simp] lemma get?_cons (name other : String) (value : α) (table : Table α) :
    get? name ((other, value) :: table) = if other = name then some value else get? name table := by
  by_cases h : other = name
  · simp [get?, h]
  · simp [get?, h, beq_eq_false_iff_ne.mpr h]

@[simp] lemma get?_insert (name other : String) (value : α) (table : Table α) :
    get? name (insert other value table) = if other = name then some value else
      get? name table := by
  induction table with
  | nil => rw [insert, get?_cons]
  | cons entry rest ih =>
    obtain ⟨key, old⟩ := entry
    rw [insert]
    split
    case isTrue heq =>
      subst heq
      rw [get?_cons, get?_cons]
      split <;> rfl
    case isFalse hne =>
      split
      · rw [get?_cons]
      · rw [get?_cons, get?_cons, ih]
        by_cases hkey : key = name
        · rw [if_pos hkey, if_neg (fun h => hne (h.trans hkey.symm)), if_pos hkey]
        · rw [if_neg hkey, if_neg hkey]

/-! ### Order -/

/-- Each name once, in increasing order. -/
def Ordered (table : Table α) : Prop := table.Pairwise fun a b => a.1 < b.1

lemma mem_insert (h : entry ∈ insert name value table) : entry = (name, value) ∨ entry ∈ table := by
  induction table with
  | nil => exact .inl (mem_singleton.mp h)
  | cons first rest ih =>
    obtain ⟨other, old⟩ := first
    rw [insert] at h
    split_ifs at h
    · rcases mem_cons.mp h with h | h
      · exact .inl h
      · exact .inr (mem_cons_of_mem _ h)
    · exact mem_cons.mp h
    · rcases mem_cons.mp h with h | h
      · exact .inr (h ▸ mem_cons_self)
      · exact (ih h).imp_right (mem_cons_of_mem _)

lemma Ordered.insert (h : Ordered table) (name : String) (value : α) :
    Ordered (insert name value table) := by
  induction table with
  | nil => exact pairwise_singleton _ _
  | cons first rest ih =>
    obtain ⟨other, old⟩ := first
    obtain ⟨hfirst, hrest⟩ := pairwise_cons.mp h
    rw [Table.insert]
    split_ifs with heq hlt
    · subst heq
      exact pairwise_cons.mpr ⟨hfirst, hrest⟩
    · refine pairwise_cons.mpr ⟨fun entry hentry => ?_, h⟩
      rcases mem_cons.mp hentry with rfl | hentry
      · exact hlt
      · exact hlt.trans (hfirst entry hentry)
    · refine pairwise_cons.mpr ⟨fun entry hentry => ?_, ih hrest⟩
      rcases mem_insert hentry with rfl | hentry
      · exact lt_of_le_of_ne (not_lt.mp hlt) (Ne.symm heq)
      · exact hfirst entry hentry

lemma get?_of_mem_of_nodup (h : (table.map (·.1)).Nodup) (hmem : entry ∈ table) :
    get? entry.1 table = some entry.2 := by
  induction table with
  | nil => cases hmem
  | cons first rest ih =>
    obtain ⟨hfirst, hrest⟩ := nodup_cons.mp h
    rw [get?_cons]
    rcases mem_cons.mp hmem with rfl | hmem
    · rw [if_pos rfl]
    · have hne : first.1 ≠ entry.1 := fun heq => hfirst (mem_map.mpr ⟨entry, hmem, heq.symm⟩)
      rw [if_neg hne, ih hrest hmem]

lemma Ordered.nodup_names (h : Ordered table) : (table.map (·.1)).Nodup :=
  pairwise_map.mpr (h.imp fun hlt => hlt.ne)

lemma Ordered.get?_of_mem (h : Ordered table) (hmem : entry ∈ table) :
    get? entry.1 table = some entry.2 :=
  get?_of_mem_of_nodup h.nodup_names hmem

lemma mem_of_get? (h : get? name table = some value) : (name, value) ∈ table := by
  induction table with
  | nil => cases h
  | cons first rest ih =>
    obtain ⟨other, old⟩ := first
    rw [get?_cons] at h
    split_ifs at h with heq
    · cases h
      rw [heq]
      exact mem_cons_self
    · exact mem_cons_of_mem _ (ih h)

lemma ordered_ofPairs (pairs : List (String × α)) : Ordered (ofPairs pairs) := by
  rw [ofPairs, ← foldr_reverse]
  induction pairs.reverse with
  | nil => exact List.Pairwise.nil
  | cons pair rest ih => exact ih.insert _ _

lemma mem_ofPairs {pairs : List (String × α)} (h : entry ∈ ofPairs pairs) : entry ∈ pairs := by
  rw [ofPairs, ← foldr_reverse] at h
  rw [← mem_reverse]
  generalize pairs.reverse = reversed at h ⊢
  induction reversed with
  | nil => cases h
  | cons pair rest ih =>
    rcases mem_insert h with rfl | h
    · exact mem_cons_self
    · exact mem_cons_of_mem _ (ih h)

@[simp] lemma mem_names_insert {other : String} :
    other ∈ names (insert name value table) ↔ other = name ∨ other ∈ names table := by
  induction table with
  | nil => simp [insert, names]
  | cons first rest ih =>
    obtain ⟨key, old⟩ := first
    simp only [names] at ih
    rw [insert]
    split_ifs with heq
    · simp [names, heq]
    · simp [names]
    · simp only [names, map_cons, mem_cons, ih]
      tauto

@[simp] lemma mem_names_ofPairs {pairs : List (String × α)} :
    name ∈ names (ofPairs pairs) ↔ name ∈ pairs.map (·.1) := by
  rw [ofPairs, ← foldr_reverse, ← @mem_reverse _ _ (pairs.map _), ← map_reverse]
  induction pairs.reverse with
  | nil => rfl
  | cons first rest ih => rw [foldr_cons, mem_names_insert, ih, map_cons, mem_cons]

lemma get?_foldl_insert {pairs : List (String × α)} (h : ∀ pair ∈ pairs, pair.1 ≠ name)
    (table : Table α) :
    get? name (pairs.foldl (fun table pair => insert pair.1 pair.2 table) table) =
      get? name table := by
  induction pairs generalizing table with
  | nil => rfl
  | cons pair pairs ih =>
    obtain ⟨hpair, hpairs⟩ := forall_mem_cons.mp h
    rw [foldl_cons, ih hpairs, get?_insert, if_neg hpair]

lemma mem_ofPairs_of_last {before after : List (String × α)} (h : ∀ pair ∈ after, pair.1 ≠ name) :
    (name, value) ∈ ofPairs (before ++ (name, value) :: after) := by
  apply mem_of_get?
  rw [ofPairs, foldl_append, foldl_cons]
  exact (get?_foldl_insert h _).trans (by rw [get?_insert, if_pos rfl])

lemma mem_ofPairs_iff {pairs : List (String × α)} (h : (pairs.map (·.1)).Nodup) :
    entry ∈ ofPairs pairs ↔ entry ∈ pairs := by
  refine ⟨mem_ofPairs, fun hentry => ?_⟩
  obtain ⟨before, after, rfl⟩ := append_of_mem hentry
  refine mem_ofPairs_of_last fun other hother hname => ?_
  rw [map_append, map_cons, nodup_append] at h
  exact (nodup_cons.mp h.2.1).1 (hname ▸ mem_map_of_mem hother)

lemma Ordered.eq_of_mem_iff {other : Table α} (h : Ordered table) (h' : Ordered other)
    (hmem : ∀ entry, entry ∈ table ↔ entry ∈ other) : table = other := by
  refine Perm.eq_of_pairwise (fun a b _ _ hab hba => absurd hab hba.asymm) h h' ?_
  exact (perm_ext_iff_of_nodup (.of_map _ h.nodup_names) (.of_map _ h'.nodup_names)).mpr hmem

lemma Ordered.ofPairs_eq (h : Ordered table) : ofPairs table = table :=
  (ordered_ofPairs table).eq_of_mem_iff h fun _ => mem_ofPairs_iff h.nodup_names

end Table

lemma pairwise_sortedNames (names : List String) : (sortedNames names).Pairwise (· < ·) :=
  pairwise_map.mpr (Table.ordered_ofPairs _)

@[simp] lemma mem_sortedNames {names : List String} {name : String} :
    name ∈ sortedNames names ↔ name ∈ names := by
  rw [sortedNames, Table.mem_names_ofPairs, map_map, map_id'']
  exact fun _ => rfl

lemma exists_of_toOption_map {ε α β : Type} {x : Except ε α} {f : α → β} {b : β}
    (h : x.toOption.map f = some b) : ∃ a, x = .ok a ∧ f a = b := by
  cases x with
  | error e => cases h
  | ok a => exact ⟨a, rfl, Option.some.inj h⟩

lemma eq_of_toOption_snd {ε α β : Type} {x : α × Except ε β} {b : β} (h : x.2.toOption = some b) :
    x = (x.1, .ok b) := by
  obtain ⟨a, y⟩ := x
  cases y with
  | error e => cases h
  | ok b' =>
    cases h
    rfl

lemma exists_of_bind_eq_ok {ε α β : Type} {x : Except ε α} {f : α → Except ε β} {b : β}
    (h : x >>= f = .ok b) : ∃ a, x = .ok a ∧ f a = .ok b := by
  cases x with
  | error e => cases h
  | ok a => exact ⟨a, rfl, h⟩

lemma mapError_eq_ok {ε ε' α : Type} {x : Except ε α} {f : ε → ε'} {a : α}
    (h : x.mapError f = .ok a) : x = .ok a := by
  cases x with
  | error e => cases h
  | ok a' =>
    cases h
    rfl

/-! ### Collecting each thing once -/

section Once

variable {α : Type} [BEq α] [LawfulBEq α] {xs all : List α}

lemma foldl_once_eq : xs.foldl (fun all x => if all.contains x then all else all ++ [x]) all =
    all ++ (xs.filter fun x => !all.contains x).eraseDups := by
  induction xs generalizing all with
  | nil => simp
  | cons y xs ih =>
    rw [foldl_cons, ih]
    split
    case isTrue hmem => rw [filter_cons_of_neg (by simpa using hmem)]
    case isFalse hnew =>
      have hrest : (xs.filter fun x => !(all ++ [y]).contains x) =
          (xs.filter fun x => !all.contains x).filter fun x => !x == y := by
        rw [filter_filter]
        refine filter_congr fun x _ => ?_
        rw [contains_append, Bool.not_or, Bool.and_comm, contains_cons, contains_nil, Bool.or_false]
      rw [filter_cons_of_pos (by simpa using hnew), eraseDups_cons, ← hrest, append_assoc,
        singleton_append]

lemma mem_foldl_once {x : α} :
    x ∈ xs.foldl (fun all x => if all.contains x then all else all ++ [x]) all ↔
      x ∈ all ∨ x ∈ xs := by
  rw [foldl_once_eq, mem_append, mem_eraseDups, mem_filter]
  by_cases hx : x ∈ all <;> simp [hx]

lemma nodup_foldl_once (h : all.Nodup) :
    (xs.foldl (fun all x => if all.contains x then all else all ++ [x]) all).Nodup := by
  induction xs generalizing all with
  | nil => exact h
  | cons y xs ih =>
    rw [foldl_cons]
    apply ih
    split
    case isTrue => exact h
    case isFalse hnot =>
      rw [contains_iff_mem] at hnot
      refine nodup_append.mpr ⟨h, by simp, fun x hx x' hx' heq => hnot ?_⟩
      rwa [← mem_singleton.mp hx', ← heq]

lemma nodup_eraseDups (xs : List α) : xs.eraseDups.Nodup := by
  have honce : (xs.foldl (fun all x => if all.contains x then all else all ++ [x]) []).Nodup :=
    nodup_foldl_once nodup_nil
  rw [foldl_once_eq] at honce
  simpa using honce

end Once

end PluginAudit
