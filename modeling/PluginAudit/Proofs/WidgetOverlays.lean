import PluginAudit.Proofs.Decoding
import PluginAudit.Widget.Overlay

/-!
Widget rules that documents are merged onto. A document is looked at twice, by the schema and by the
decoder. Main statement: as long as both see the same members, all modes and statuses that are
reached are known.
-/

open List

namespace PluginAudit

open Text (sameFold)
open Json Table

lemma Text.sameFold_congr {a b : String} (h : sameFold a b) (other : String) :
    sameFold other b = sameFold other a := by
  have heq : a.toList.map foldChar = b.toList.map foldChar := by simpa [sameFold] using h
  rw [sameFold, sameFold, heq]

namespace Table

variable {α β : Type} {pairs : List (String × α)} {f : Option α → β → α} {base : Table α}
  {changes : Table β}

lemma exists_mem_ofPairs {pair : String × α} (h : pair ∈ pairs) :
    ∃ value, (pair.1, value) ∈ ofPairs pairs := by
  obtain ⟨entry, hentry, hname⟩ := mem_map.mp (mem_names_ofPairs.mpr (mem_map_of_mem h))
  exact ⟨entry.2, hname ▸ hentry⟩

def update (f : Option α → β → α) (base : Table α) (changes : Table β) : Table α :=
  changes.foldl (fun table change => insert change.1 (f (get? change.1 table) change.2) table) base

lemma update_induction {P : Table α → Prop} (h : P base)
    (hstep : ∀ change ∈ changes, ∀ table, P table →
    P (insert change.1 (f (get? change.1 table) change.2) table)) : P (update f base changes) := by
  unfold update
  induction changes generalizing base with
  | nil => exact h
  | cons change changes ih =>
    obtain ⟨hchange, hchanges⟩ := forall_mem_cons.mp hstep
    exact ih (hchange base h) hchanges

lemma forall_mem_update {Q : α → Prop} (h : ∀ entry ∈ base, Q entry.2)
    (hstep : ∀ change ∈ changes, ∀ old, (∀ a ∈ old, Q a) → Q (f old change.2)) :
    ∀ entry ∈ update f base changes, Q entry.2 := by
  refine update_induction
    (P := fun table => ∀ entry ∈ table, Q entry.2) h fun change hchange table htable => ?_
  intro entry hentry
  rcases mem_insert hentry with rfl | hentry
  · exact hstep change hchange _ fun a ha => htable _ (mem_of_get? ha)
  · exact htable entry hentry

end Table

namespace Json

variable {α β γ : Type} {parts : Parts α} {name : String} {members : List (String × Json)}
  {into : Decoder α} {zero : α} {read : Table α} {get : α → β} {set : β → α → α} {view : α → γ}
  {table : Table α}

/-! ### Members and their names -/

/-- The last member that is read as `name` is called so. -/
def LastNamed (name : String) (members : List (String × Json)) : Prop :=
  ∀ m ∈ members.reverse.find? fun m => sameFold name m.1, m.1 = name

/-- One member at most is read as `name`, and it is called so. -/
def OnceNamed (name : String) (members : List (String × Json)) : Prop :=
  (∀ m ∈ members, sameFold name m.1 = true → m.1 = name) ∧
    members.countP (fun m => sameFold name m.1) ≤ 1

lemma lastNamed_of_forall (h : ∀ m ∈ members, sameFold name m.1 → m.1 = name) :
    LastNamed name members := by
  intro m hm
  have hfold : sameFold name m.1 := by simpa using find?_some hm
  exact h m (mem_reverse.mp (mem_of_find?_eq_some hm)) hfold

lemma LastNamed.exists_last (h : LastNamed name members) :
    (∀ m ∈ members, sameFold name m.1 = false) ∨ ∃ before j after,
      members = before ++ (name, j) :: after ∧ ∀ m ∈ after, sameFold name m.1 = false := by
  cases hfind : members.reverse.find? fun m => sameFold name m.1 with
  | none =>
    left
    intro m hm
    simpa using find?_eq_none.mp hfind m (mem_reverse.mpr hm)
  | some m =>
    right
    obtain ⟨-, after, before, hsplit, hafter⟩ := find?_eq_some_iff_append.mp hfind
    have hname : (name, m.2) = m := Prod.ext (h m hfind).symm rfl
    refine ⟨before.reverse, m.2, after.reverse, ?_, ?_⟩
    · rw [hname, ← reverse_reverse members, hsplit]
      simp
    · intro m hm
      simpa using hafter m (mem_reverse.mp hm)

lemma OnceNamed.forall_before {before after : List (String × Json)} {j : Json}
    (h : OnceNamed name (before ++ (name, j) :: after)) :
    ∀ m ∈ before, sameFold name m.1 = false := by
  have hself : sameFold name name := by simp [sameFold]
  have hcount := h.2
  rw [countP_append, countP_cons, if_pos hself] at hcount
  have hzero : before.countP (fun m => sameFold name m.1) = 0 := by omega
  intro m hm
  simpa using countP_eq_zero.mp hzero m hm

lemma exists_of_partFor (h : partFor parts name = some into) :
    ∃ part ∈ parts, part.2 = into ∧ sameFold part.1 name := by
  rw [partFor] at h
  split at h
  · next part hfind =>
    have hname : part.1 = name := by simpa using find?_some hfind
    cases h
    exact ⟨part, mem_of_find?_eq_some hfind, rfl, by simp [hname, sameFold]⟩
  · obtain ⟨part, hfind, rfl⟩ := Option.map_eq_some_iff.mp h
    exact ⟨part, mem_of_find?_eq_some hfind, rfl, by simpa using find?_some hfind⟩

/-- A decoder leaves what is seen of a value. -/
def Preserves (view : α → γ) (into : Decoder α) : Prop :=
  ∀ j old new, into j old = some new → view new = view old

lemma preserves_through {into : Decoder β} (h : ∀ part a, view (set part a) = view a) :
    Preserves view (through get set into) := by
  intro j old new hnew
  obtain ⟨part, -, rfl⟩ := Option.map_eq_some_iff.mp hnew
  exact h part old

lemma keepsOn_of_not_sameFold (hothers : ∀ part ∈ parts, part.1 ≠ name → Preserves view part.2)
    {m : String × Json} (h : sameFold name m.1 = false) : KeepsOn parts view m := by
  intro into hinto old new hnew
  obtain ⟨part, hpart, rfl, hname⟩ := exists_of_partFor hinto
  apply hothers part hpart _ m.2 old new hnew
  rintro rfl
  rw [h] at hname
  cases hname

/-- A part of a record is left as it was, or the last member with its name is put into it. -/
lemma get_of_lastNamed {into : Decoder β} (hpart : partFor parts name = some (through get set into))
    (hset : ∀ part a, get (set part a) = part) (hothers : ∀ part ∈ parts, part.1 ≠ name →
      Preserves get part.2) (hlast : LastNamed name members) {old new : α}
    (hread : intoParts false parts members old = some new) : get new = get old ∨
      ∃ before j after middle, members = before ++ (name, j) :: after ∧
        (name, j) ∈ ofPairs members ∧
        intoParts false parts before old = some middle ∧ into j (get middle) = some (get new) := by
  rcases hlast.exists_last with hnone | ⟨before, j, after, rfl, hafter⟩
  · exact .inl (view_of_intoParts (fun m hm => keepsOn_of_not_sameFold hothers (hnone m hm)) hread)
  · right
    -- what stands before the member is read into the same part, what stands after it into others
    rw [intoParts_append] at hread
    obtain ⟨middle, hmiddle, hread⟩ := Option.bind_eq_some_iff.mp hread
    have hkept : ∀ m ∈ after, KeepsOn parts get m := fun m hm =>
      keepsOn_of_not_sameFold hothers (hafter m hm)
    obtain ⟨part, hinto, hnew⟩ := exists_of_intoParts hpart get hkept hread
    refine ⟨before, j, after, middle, rfl, mem_ofPairs_of_last fun m hm hname => ?_, hmiddle, ?_⟩
    · have hfold := hafter m hm
      rw [hname] at hfold
      simp [sameFold] at hfold
    · rw [hnew, hset, hinto]

/-! ### Tables -/

lemma get?_of_intoEntries (pairs : Table Json)
    (htable : ∀ name, Table.get? name table = (Table.get? name pairs).bind fun j => into j zero)
    (hread : intoEntries zero into members table = some read) (name : String) :
    Table.get? name read =
      (Table.get? name (members.foldl (fun pairs m => Table.insert m.1 m.2 pairs) pairs)).bind
        fun j => into j zero := by
  induction members generalizing pairs table with
  | nil =>
    cases hread
    exact htable name
  | cons m members ih =>
    obtain ⟨key, j⟩ := m
    obtain ⟨a, ha, hread⟩ := Option.bind_eq_some_iff.mp hread
    refine ih _ (fun name => ?_) hread
    rw [Table.get?_insert, Table.get?_insert]
    split_ifs
    · exact ha.symm
    · exact htable name

lemma invariant_of_intoEntries {P : Table α → Prop}
    (h : ∀ name j a table, into j zero = some a → P table → P (Table.insert name a table))
    (htable : P table) (hread : intoEntries zero into members table = some read) : P read := by
  induction members generalizing table with
  | nil =>
    cases hread
    exact htable
  | cons m members ih =>
    obtain ⟨a, ha, hread⟩ := Option.bind_eq_some_iff.mp hread
    exact ih (h m.1 m.2 a table ha htable) hread

lemma ordered_of_intoEntries (htable : table.Ordered)
    (hread : intoEntries zero into members table = some read) : read.Ordered :=
  invariant_of_intoEntries (fun _ _ _ _ _ h => h.insert _ _) htable hread

lemma exists_of_mem_intoTable (hread : intoTable zero into (.obj members) none = some (some read))
    {entry : String × α}
    (hentry : entry ∈ read) : ∃ j, (entry.1, j) ∈ ofPairs members ∧ into j zero = some entry.2 := by
  obtain ⟨table, htable, heq⟩ := Option.map_eq_some_iff.mp hread
  cases heq
  have hget := get?_of_intoEntries [] (fun _ => rfl) htable entry.1
  rw [(ordered_of_intoEntries Pairwise.nil htable).get?_of_mem hentry] at hget
  obtain ⟨j, hj, hinto⟩ := Option.bind_eq_some_iff.mp hget.symm
  exact ⟨j, mem_of_get? hj, hinto⟩

end Json

/-! ### Documents that fit -/

namespace Widget

def Status.isKnown (s : Status) : Bool := s == exclude || s == temporaryExclude || s == keep

end Widget

namespace WidgetRules

open Widget

variable {name : String} {j : Json} {members : List (String × Json)} {w : WidgetRules} {o : Overlay}
  {texts : List String} {patch : RulePatch} {text : List Char}

lemma exists_of_objectFits {fits : String → Json → Bool} (h : objectFits fits j) :
    ∃ members, j = .obj members ∧ ∀ m ∈ ofPairs members, fits m.1 m.2 := by
  cases j with
  | obj members => exact ⟨members, rfl, all_eq_true.mp h⟩
  | _ => cases h

lemma exists_of_isOneOf (h : isOneOf texts j) : ∃ text ∈ texts, j = .str text := by
  cases j with
  | str text => exact ⟨text, contains_iff_mem.mp h, rfl⟩
  | _ => cases h

def ruleMembers : List String :=
  ["status", "reason", "methods", "error_types", "review_date", "future_proof"]

lemma mem_ruleMembers (h : ruleMemberFits name j) : name ∈ ruleMembers := by
  unfold ruleMemberFits at h
  split at h
  case h_7 => cases h
  all_goals decide

lemma lastNamed_status (h : ∀ m ∈ ofPairs members, ruleMemberFits m.1 m.2) :
    LastNamed "status" members := by
  have honly : ∀ name ∈ ruleMembers, sameFold "status" name → name = "status" := by decide
  apply lastNamed_of_forall
  intro m hm hfold
  obtain ⟨j, hj⟩ := exists_mem_ofPairs hm
  exact honly m.1 (mem_ruleMembers (h (m.1, j) hj)) hfold

/-- A text that is missing before is one of those that the schema allows, or is missing still. -/
lemma mem_of_isOneOf {α : Type} {parts : Parts α} {get : α → Option String}
    {set : Option String → α → α}
    (hpart : partFor parts name = some (through get set (intoOption "" intoText)))
    (hset : ∀ text a, get (set text a) = text)
    (hothers : ∀ part ∈ parts, part.1 ≠ name → Preserves get part.2)
    (hlast : LastNamed name members) (hfits : ∀ j, (name, j) ∈ ofPairs members → isOneOf texts j)
    {old new : α} (hold : get old = none) (hread : intoParts false parts members old = some new) :
    ∀ text ∈ get new, text ∈ texts := by
  intro text htext
  rcases get_of_lastNamed hpart hset hothers hlast hread with
    hsame | ⟨_, j, _, middle, -, hj, -, hinto⟩
  · rw [hsame, hold] at htext
    cases htext
  · obtain ⟨word, hword, rfl⟩ := exists_of_isOneOf (hfits j hj)
    have hnew : get new = some word := by
      simpa [intoOption, intoText] using hinto.symm
    rw [hnew] at htext
    cases htext
    exact hword

lemma isKnown_status_of_fits (hfits : objectFits ruleMemberFits j)
    (hread : RulePatch.into j {} = some patch) : ∀ status ∈ patch.status, status.isKnown := by
  obtain ⟨members, rfl, hmembers⟩ := exists_of_objectFits hfits
  have hothers :
      ∀ part ∈ RulePatch.parts, part.1 ≠ "status" → Preserves (·.status.map (·.word)) part.2 := by
    simp [RulePatch.parts, preserves_through]
  have hset : ∀ (word : Option String) (p : RulePatch),
      ({ p with status := word.map Status.mk } : RulePatch).status.map (·.word) = word := by
    intro word p
    cases word <;> rfl
  have hwords := mem_of_isOneOf rfl hset hothers (lastNamed_status hmembers)
    (fun j hj => hmembers ("status", j) hj) rfl hread
  have hknown : ∀ word ∈ ["exclude", "temporary_exclude", "include"], (Status.mk word).isKnown := by
    decide
  intro status hstatus
  exact hknown status.word (hwords status.word (by rw [Option.mem_def.mp hstatus]; rfl))

lemma isKnown_mode_of_fits (hfits : ∀ m ∈ ofPairs members, memberFits m.1 m.2)
    (hlast : LastNamed "reporting_mode" members)
    (hread : intoParts false Overlay.parts members {} = some o) :
    ∀ mode ∈ o.mode, mode.isKnown := by
  have hothers : ∀ part ∈ Overlay.parts, part.1 ≠ "reporting_mode" →
      Preserves (·.mode.map (·.word)) part.2 := by
    simp [Overlay.parts, preserves_through]
  have hset : ∀ (word : Option String) (o : Overlay),
      ({ o with mode := word.map Mode.mk } : Overlay).mode.map (·.word) = word := by
    intro word o
    cases word <;> rfl
  have hwords :=
    mem_of_isOneOf rfl hset hothers hlast (fun j hj => hfits ("reporting_mode", j) hj) rfl hread
  have hknown : ∀ word ∈ ["fatal_only", "all_errors", "debug_mode"], (Mode.mk word).isKnown := by
    decide
  intro mode hmode
  exact hknown mode.word (hwords mode.word (by rw [Option.mem_def.mp hmode]; rfl))

/-- The statuses that a document gives are known. -/
def KnownPatches (rules : Table (Option (Table RulePatch))) : Prop :=
  ∀ entry ∈ rules, ∀ patches ∈ entry.2, ∀ patch ∈ patches, ∀ status ∈ patch.2.status,
    status.isKnown = true

/-- A table of rules that fits gives known statuses only, also if names are given twice in it. -/
lemma knownPatches_of_fits {rules : Table (Option (Table RulePatch))} (hfits : objectFits
      (fun _ widgets => objectFits (fun _ rule => objectFits ruleMemberFits rule) widgets) j)
    (hread : intoTable none (intoTable {} RulePatch.into) j none = some (some rules)) :
    KnownPatches rules := by
  obtain ⟨ecosystems, rfl, hecosystems⟩ := exists_of_objectFits hfits
  intro entry hentry patches hpatches patch hpatch
  obtain ⟨widgets, hmem, hwidgets⟩ := exists_of_mem_intoTable hread hentry
  obtain ⟨members, rfl, hmembers⟩ := exists_of_objectFits (hecosystems _ hmem)
  rw [Option.mem_def.mp hpatches] at hwidgets
  obtain ⟨rule, hmem, hrule⟩ := exists_of_mem_intoTable hwidgets hpatch
  exact isKnown_status_of_fits (hmembers _ hmem) hrule

/-- A document that fits gives known statuses only, unless its table of rules is given twice. -/
lemma knownPatches_of_onceNamed (hfits : ∀ m ∈ ofPairs members, memberFits m.1 m.2)
    (honce : OnceNamed "widget_exclusions" members)
    (hread : intoParts false Overlay.parts members {} = some o) :
    ∀ rules ∈ o.rules, KnownPatches rules := by
  have hothers :
      ∀ part ∈ Overlay.parts, part.1 ≠ "widget_exclusions" → Preserves (·.rules) part.2 := by
    simp [Overlay.parts, preserves_through]
  intro rules hrules
  rcases get_of_lastNamed rfl (fun _ _ => rfl) hothers (lastNamed_of_forall honce.1) hread with
    hsame | ⟨before, j, after, middle, hsplit, hj, hmiddle, hinto⟩
  · rw [Option.mem_def.mp hrules] at hsame
    cases hsame
  · -- the decoder adds to the table it finds, so the schema saw all of it only if there is none
    have hbefore : middle.rules = none := by
      rw [hsplit] at honce
      exact view_of_intoParts
        (fun m hm => keepsOn_of_not_sameFold hothers (honce.forall_before m hm)) hmiddle
    rw [hbefore, Option.mem_def.mp hrules] at hinto
    exact knownPatches_of_fits (hfits _ hj) hinto

/-! ### Merging -/

/-- All rules of a table have a known status. -/
def KnownStatuses (table : RuleTable) : Prop :=
  ∀ widgets ∈ table, ∀ rule ∈ widgets.2, rule.2.status.isKnown = true

lemma isKnown_status_patch {base : Option Rule} (hbase : ∀ rule ∈ base, rule.status.isKnown)
    (hpatch : ∀ status ∈ patch.status, status.isKnown) :
    (Rule.patch base patch).status.isKnown := by
  simp only [Rule.patch]
  split_ifs with hempty
  · rfl
  · cases hstatus : patch.status with
    | some status => exact hpatch status hstatus
    | none =>
      cases base with
      | some rule => exact hbase rule rfl
      | none => simp [hstatus] at hempty

def Overlay.changes (o : Overlay) (order : Order := .byName) : Table (Option (Table RulePatch)) :=
  (order.of (o.rules.getD [])).map fun entry => (Text.lower entry.1, entry.2)

lemma Overlay.exists_of_mem_changes {order : Order} {change : String × Option (Table RulePatch)}
    (h : change ∈ o.changes order) :
    ∃ entry ∈ o.rules.getD [], (Text.lower entry.1, entry.2) = change := by
  obtain ⟨entry, hentry, heq⟩ := mem_map.mp h
  exact ⟨entry, (order.perm _).mem_iff.mp hentry, heq⟩

def patchWidgets (old : Option (Table Rule)) (patches : Option (Table RulePatch)) : Table Rule :=
  update Rule.patch (old.getD []) (patches.getD [])

@[simp] lemma rules_merge (w : WidgetRules) (o : Overlay) (order : Order) :
    (w.merge o order).rules = update patchWidgets w.rules (o.changes order) := by
  rw [update, Overlay.changes, foldl_map]
  rfl

lemma KnownStatuses.merge (h : KnownStatuses w.rules) (ho : ∀ rules ∈ o.rules, KnownPatches rules)
    (order : Order) : KnownStatuses (w.merge o order).rules := by
  rw [rules_merge]
  refine forall_mem_update (Q := fun widgets : Table Rule =>
    ∀ rule ∈ widgets, rule.2.status.isKnown) h fun change hchange old hold => forall_mem_update
    (Q := fun rule : Rule => rule.status.isKnown) ?_ fun patch hpatch rule hrule => ?_
  · cases old with
    | none => simp
    | some widgets => exact hold widgets rfl
  · obtain ⟨entry, hentry, rfl⟩ := Overlay.exists_of_mem_changes hchange
    cases hrules : o.rules with
    | none => simp [hrules] at hentry
    | some rules =>
      cases hpatches : entry.2 with
      | none => simp [hpatches] at hpatch
      | some patches =>
        rw [hrules] at hentry
        rw [hpatches] at hpatch
        exact isKnown_status_patch hrule
          (ho rules hrules entry hentry patches hpatches patch hpatch)

/-! ### Rules that are reached -/

lemma withOverlay_eq_ok_iff {w' : WidgetRules} {order : Order} : w.withOverlay text order = .ok w' ↔
      ∃ members o, parse? text = some (.obj members) ∧ fitsSchema (.obj members) ∧
        intoParts false Overlay.parts members {} = some o ∧ w.merge o order = w' := by
  unfold withOverlay readOverlay validate parse?
  cases readFirst text with
  | none => simp [Except.map]
  | some first =>
    obtain ⟨j, rest⟩ := first
    dsimp only
    by_cases hfits : fitsSchema j
    · by_cases hrest : (skipGap rest).isEmpty
      · obtain ⟨members, rfl, -⟩ := exists_of_objectFits hfits
        rw [if_pos hfits, if_pos hrest]
        dsimp only [intoRecord]
        cases hread : intoParts false Overlay.parts members {} with
        | none => simp [Except.map, hread]
        | some o => simp [Except.map, hread, hfits]
      · simp [Except.map, hfits, hrest]
    · rw [if_neg hfits]
      constructor
      · rintro ⟨⟩
      · rintro ⟨members, o, hparse, hobj, -⟩
        split_ifs at hparse
        cases hparse
        exact absurd hobj hfits

/-- What changes of the mode, temporary rules and documents lead to from the built-in rules, where
the members of each document meet a condition. -/
inductive Reached (Meets : List (String × Json) → Prop) : WidgetRules → Prop where
  | builtin : Reached Meets builtin
  | withMode {w : WidgetRules} (mode : Mode) (hw : Reached Meets w) :
    Reached Meets (w.withMode mode)
  | withTemporary {w : WidgetRules} (ecosystem widget : String) (rule : Rule)
    (hw : Reached Meets w) : Reached Meets (w.withTemporary ecosystem widget rule)
  | withOverlay {w w' : WidgetRules} (text : List Char) (order : Order) (hw : Reached Meets w)
      (hmeets : ∀ members, parse? text = some (.obj members) → Meets members)
      (h : w.withOverlay text order = .ok w') : Reached Meets w'

lemma isKnown_mode_of_reached (h : Reached (LastNamed "reporting_mode") w) : w.mode.isKnown := by
  induction h with
  | builtin => rfl
  | withMode mode hw ih =>
    rw [withMode]
    split_ifs with hmode
    · exact hmode
    · exact ih
  | withTemporary _ _ _ hw ih => exact ih
  | withOverlay text order hw hmeets h ih =>
    obtain ⟨members, o, hparse, hfits, hread, rfl⟩ := withOverlay_eq_ok_iff.mp h
    have hknown := isKnown_mode_of_fits (all_eq_true.mp hfits) (hmeets members hparse) hread
    rw [merge]
    cases hmode : o.mode with
    | none => exact ih
    | some mode => exact hknown mode hmode

lemma rules_of_reached {Meets : List (String × Json) → Prop} {P : RuleTable → Prop}
    (hbuiltin : P builtin.rules) (hmerge : ∀ (w : WidgetRules) members o order, P w.rules →
      Meets members → fitsSchema (.obj members) →
      intoParts false Overlay.parts members {} = some o → P (w.merge o order).rules)
        (h : Reached Meets w) : P w.rules := by
  induction h with
  | builtin => exact hbuiltin
  | withMode mode hw ih =>
    rw [withMode]
    split_ifs
    · exact ih
    · exact ih
  | withTemporary _ _ _ hw ih => exact ih
  | withOverlay text order hw hmeets h ih =>
    obtain ⟨members, o, hparse, hfits, hread, rfl⟩ := withOverlay_eq_ok_iff.mp h
    exact hmerge _ members o order ih (hmeets members hparse) hfits hread

lemma knownStatuses_of_reached (h : Reached (OnceNamed "widget_exclusions") w) :
    KnownStatuses w.rules := by
  refine rules_of_reached ?_ (fun w members o order hw honce hfits hread => hw.merge ?_ order) h
  · unfold KnownStatuses
    decide
  · exact knownPatches_of_onceNamed (all_eq_true.mp hfits) honce hread

/-! ### Members that only the decoder sees -/

lemma fitsSchema_singleton (j : Json)
    (h : name ∉ ["reporting_mode", "last_updated", "widget_exclusions"]) :
    fitsSchema (.obj [(name, j)]) := by
  have hfits : memberFits name j := by
    unfold memberFits
    split
    case h_4 => rfl
    all_goals exact absurd (by decide) h
  simp [fitsSchema, objectFits, Table.ofPairs, Table.insert, hfits]

lemma notMem_of_sameFold (hne : name ≠ "reporting_mode") (hfold : sameFold "reporting_mode" name) :
    name ∉ ["reporting_mode", "last_updated", "widget_exclusions"] := by
  have honly : ∀ other ∈ ["reporting_mode", "last_updated", "widget_exclusions"],
      sameFold "reporting_mode" other → other = "reporting_mode" := by decide
  exact fun h => hne (honly name h hfold)

lemma partFor_mode (h : sameFold "reporting_mode" name) :
    partFor Overlay.parts name = partFor Overlay.parts "reporting_mode" := by
  have hother : sameFold "widget_exclusions" name = false := by
    rw [Text.sameFold_congr h]
    decide
  have hne : "widget_exclusions" ≠ name := by
    rintro rfl
    exact absurd h (by decide)
  by_cases hname : "reporting_mode" = name
  · rw [hname]
  · simp [partFor, Overlay.parts, h, hother, hne, hname]

lemma withOverlay_of_sameFold (w : WidgetRules) {word : String} (hne : name ≠ "reporting_mode")
    (hfold : sameFold "reporting_mode" name)
    (hparse : parse? text = some (.obj [(name, .str word)])) :
    w.withOverlay text = .ok { w with mode := ⟨word⟩ } := by
  refine withOverlay_eq_ok_iff.mpr ⟨_, { mode := some ⟨word⟩ }, hparse,
    fitsSchema_singleton _ (notMem_of_sameFold hne hfold), ?_, rfl⟩
  rw [intoParts, partFor_mode hfold]
  rfl

/-- All modes and statuses that are reached are known, if in each document the last member that
gives the mode is called by its name, and the members that give rules are at most one, called by its
name. In any other spelling, every word is taken for a mode. -/
theorem reached_isKnown (w : WidgetRules) :
    (Reached (Json.LastNamed "reporting_mode") w → w.mode.isKnown = true) ∧
    (Reached (Json.OnceNamed "widget_exclusions") w → KnownStatuses w.rules) ∧
    ∀ (name word : String) (text : List Char), name ≠ "reporting_mode" →
      sameFold "reporting_mode" name = true →
      Json.parse? text = some (.obj [(name, .str word)]) →
      w.withOverlay text = .ok { w with mode := ⟨word⟩ } :=
  ⟨isKnown_mode_of_reached, knownStatuses_of_reached, fun _ _ _ => withOverlay_of_sameFold w⟩

def shopDocument : List Char :=
  ("\x7b\"reporting_mode\":\"debug_mode\"," ++
    "\"widget_exclusions\":\x7b\"Shop\":\x7b\"cart\":\x7b\"status\":\"include\"\x7d\x7d\x7d\x7d").toList

def shopMembers : List (String × Json) :=
  [("reporting_mode", .str "debug_mode"),
   ("widget_exclusions", .obj [("Shop", .obj [("cart", .obj [("status", .str "include")])])])]

def shopOverlay : Overlay where
  rules := some [("Shop", some [("cart", { status := some .keep })])]
  mode := some .debug

def loudDocument : List Char := "\x7b\"Reporting_Mode\":\"loud\"\x7d".toList

/-- A document that gives the table of rules twice, first with a word that is no status. -/
def twiceDocument : List Char :=
  ("\x7b\"widget_exclusions\":\x7b\"elementor\":\x7b\"post_grid\":\x7b\"status\":\"maybe\"\x7d\x7d\x7d," ++
    "\"widget_exclusions\":\x7b\x7d\x7d").toList

lemma parse?_shopDocument : parse? shopDocument = some (.obj shopMembers) := by cbv

lemma parse?_loudDocument :
    parse? loudDocument = some (.obj [("Reporting_Mode", .str "loud")]) := by
  cbv

def shopRules : WidgetRules := builtin.merge shopOverlay

lemma withOverlay_shopDocument : builtin.withOverlay shopDocument = .ok shopRules :=
  withOverlay_eq_ok_iff.mpr ⟨shopMembers, shopOverlay,
    parse?_shopDocument, by decide +kernel, by decide +kernel, rfl⟩

theorem reached_isKnown_shop :
    (Reached (Json.LastNamed "reporting_mode") shopRules ∧ shopRules.mode.isKnown = true) ∧
    (Reached (Json.OnceNamed "widget_exclusions") shopRules ∧ KnownStatuses shopRules.rules) ∧
    Json.parse? loudDocument = some (.obj [("Reporting_Mode", .str "loud")]) ∧
    shopRules.withOverlay loudDocument = .ok { shopRules with mode := ⟨"loud"⟩ } := by
  have hmeets : ∀ (Meets : List (String × Json) → Prop), Meets shopMembers →
      ∀ members, Json.parse? shopDocument = some (.obj members) → Meets members := by
    intro Meets h members hparse
    rw [parse?_shopDocument] at hparse
    cases hparse
    exact h
  have hlast : Reached (Json.LastNamed "reporting_mode") shopRules :=
    .withOverlay shopDocument .byName .builtin
      (hmeets _ (by unfold Json.LastNamed; decide +kernel)) withOverlay_shopDocument
  have honce : Reached (Json.OnceNamed "widget_exclusions") shopRules :=
    .withOverlay shopDocument .byName .builtin
      (hmeets _ (by unfold Json.OnceNamed; decide +kernel)) withOverlay_shopDocument
  obtain ⟨hmode, hstatuses, hother⟩ := reached_isKnown shopRules
  exact ⟨⟨hlast, hmode hlast⟩, ⟨honce, hstatuses honce⟩, parse?_loudDocument,
    hother "Reporting_Mode" "loud" loudDocument (by decide) (by decide) parse?_loudDocument⟩

/-- Documents are merged that give words which are no mode and no status. -/
theorem unknown_words_merged :
    (∃ w, builtin.withOverlay loudDocument = .ok w ∧ w.mode.isKnown = false) ∧
    ∃ w, builtin.withOverlay twiceDocument = .ok w ∧ ¬ KnownStatuses w.rules := by
  constructor
  · exact ⟨_,
      withOverlay_of_sameFold builtin (by decide) (by decide) parse?_loudDocument, by decide⟩
  · refine ⟨builtin.merge { rules := some [("elementor",
      some [("post_grid", { status := some ⟨"maybe"⟩ })])] }, by decide +kernel, ?_⟩
    unfold KnownStatuses
    decide +kernel

end WidgetRules

end PluginAudit
