import PluginAudit.Proofs.WidgetOverlays

/-!
Widget rules that are exported and loaded again, onto the built-in rules. Main statement: the rules
that are reached come back, except that an empty text gives way to the built-in text of the widget.
-/

open List

namespace PluginAudit

open Table (get?_insert insert mem_of_get?)
open Json (intoText Parts through intoParts intoParts_append intoTable LastNamed OnceNamed)
open Json Text Table
open Option (map_some bind_some getD_some)

/-! ### Tables -/

namespace Table

variable {α β : Type} {table : Table α} {changes : Table β}

lemma Ordered.mem_iff (h : table.Ordered) {entry : String × α} :
    entry ∈ table ↔ get? entry.1 table = some entry.2 :=
  ⟨h.get?_of_mem, mem_of_get?⟩

lemma Ordered.eq_of_get? {other : Table α} (h : table.Ordered) (h' : other.Ordered)
    (hget : ∀ name, get? name table = get? name other) : table = other :=
  h.eq_of_mem_iff h' fun entry => by rw [h.mem_iff, h'.mem_iff, hget]

lemma Ordered.map (h : table.Ordered) (f : String × α → β) :
    Ordered (table.map fun entry => (entry.1, f entry)) :=
  pairwise_map.mpr h

lemma Ordered.update {base : Table α} (h : base.Ordered) (f : Option α → β → α)
    (changes : Table β) : (update f base changes).Ordered :=
  update_induction h fun _ _ _ htable => htable.insert _ _

/-- If each name is changed once, all changes are made to the values that were there before. -/
lemma get?_update_of_nodup (f : Option α → β → α) (base : Table α) (h : (changes.map (·.1)).Nodup)
    (name : String) : get? name (update f base changes) =
      (get? name changes).elim (get? name base) fun b => some (f (get? name base) b) := by
  unfold update
  induction changes generalizing base with
  | nil => rfl
  | cons change changes ih =>
    obtain ⟨key, b⟩ := change
    obtain ⟨hfirst, hrest⟩ := nodup_cons.mp h
    rw [foldl_cons, ih _ hrest, get?_cons, get?_insert]
    split_ifs with hkey
    · subst hkey
      have hnone : get? key changes = none := by
        cases hget : get? key changes with
        | none => rfl
        | some b => exact absurd (mem_map_of_mem (mem_of_get? hget)) hfirst
      rw [hnone]
      rfl
    · rfl

end Table

/-! ### Written members -/

namespace Json

variable {α : Type} {name : String} {parts : Parts α} {members : List (String × Json)}

@[simp] lemma intoItems_strs (items : List String) :
    intoItems "" intoText (items.map .str) = some items := by
  induction items with
  | nil => rfl
  | cons item items ih => simp [intoItems, intoText, ih]

@[simp] lemma intoList_strs (items : List String) (old : Option (List String)) :
    intoList "" intoText (.strs items) old = some (some items) := by
  rw [strs, intoList, intoItems_strs, map_some]

lemma intoParts_cons {β : Type} {j : Json} {get : α → β} {set : β → α → α}
    {into : Decoder β} {a : α} {part : β} (hpart : partFor parts name = some (through get set into))
    (hread : into j (get a) = some part) : intoParts false parts ((name, j) :: members) a =
      intoParts false parts members (set part a) := by
  rw [intoParts, hpart]
  dsimp only [through]
  rw [hread, map_some]

def memberOf (name : String) (write : α → Json) (part : Option α) : List (String × Json) :=
  (part.map fun c => (name, write c)).toList

lemma forall_mem_memberOf {write : α → Json} {part : Option α} {P : String × Json → Prop} :
    (∀ m ∈ memberOf name write part, P m) ↔ ∀ c ∈ part, P (name, write c) := by
  cases part <;> simp [memberOf]

lemma names_memberOf_sublist (name : String) (write : α → Json) (part : Option α) :
    ((memberOf name write part).map (·.1)).Sublist [name] := by
  cases part <;> simp [memberOf]

lemma intoParts_memberOf {β γ : Type} {get : α → Option β} {set : Option β → α → α}
    {into : Decoder (Option β)} {a : α} {write : γ → Json} {read : γ → β} {part : Option γ}
    (hpart : partFor parts name = some (through get set into))
    (hread : ∀ c ∈ part, into (write c) (get a) = some (some (read c))) (hnone : set none a = a) :
    intoParts false parts (memberOf name write part) a = some (set (part.map read) a) := by
  cases part with
  | none => exact congrArg some hnone.symm
  | some c => exact intoParts_cons hpart (hread c rfl)

lemma intoTable_map {β : Type} {zero : α} {into : Decoder α} {write : β → Json} (read : β → α)
    {table : Table β}
    (h : table.Ordered) (hread : ∀ entry ∈ table, into (write entry.2) zero = some (read entry.2)) :
    intoTable zero into (.obj (table.map fun entry => (entry.1, write entry.2))) none =
      some (some (table.map fun entry => (entry.1, read entry.2))) := by
  have hentries : ∀ before : Table α,
      intoEntries zero into (table.map fun entry => (entry.1, write entry.2)) before =
        some ((table.map fun entry => (entry.1, read entry.2)).foldl
          (fun table entry => insert entry.1 entry.2 table) before) := by
    clear h
    induction table with
    | nil => exact fun _ => rfl
    | cons entry table ih =>
      obtain ⟨hentry, htable⟩ := forall_mem_cons.mp hread
      intro before
      rw [map_cons, intoEntries, hentry]
      exact ih htable _
  rw [intoTable, hentries]
  exact congrArg (some ∘ some) (h.map fun entry => read entry.2).ofPairs_eq

end Json

/-! ### Lists that are united -/

namespace Widget

variable {base : List String} {extra : List String}

lemma unite_eq (base extra : List String) :
    unite base extra = base ++ (extra.filter (· ∉ base)).eraseDups := by
  rw [unite, foldl_once_eq]
  simp

lemma prefix_unite (base extra : List String) : base <+: unite base extra := by
  rw [unite_eq]
  exact prefix_append _ _

lemma unite_of_subset (h : ∀ item ∈ extra, item ∈ base) : unite base extra = base := by
  rw [unite_eq, filter_eq_nil_iff.mpr (by simpa using h)]
  simp

lemma Rule.word_status_patch (old : Option Rule) (p : RulePatch) :
    (Rule.patch old p).status.word ≠ "" := by
  unfold Rule.patch
  dsimp only
  split_ifs with hempty
  · decide
  · exact hempty

end Widget

namespace WidgetRules

open Widget

variable {w : WidgetRules} {table : RuleTable} {α : Type} {old : Option Rule}
  {tag : String} {widgets : Table Rule} {o : Overlay} {fits : String → Json → Bool}

/-! ### Rules that are reached -/

lemma ruleIn?_eq (table : RuleTable) (ecosystem widget : String) :
    ruleIn? table ecosystem widget = get? widget ((get? (lower ecosystem) table).getD []) := by
  rw [ruleIn?]
  cases get? (lower ecosystem) table <;> rfl

def builtinRule? (tag widget : String) : Option Rule :=
  get? widget ((get? tag builtinTable).getD [])

/-- What merging makes of a rule: its lists have each item once, and begin with those of the
built-in rule. -/
structure Grows (old new : Option Rule) : Prop where
  proper : ∀ r ∈ new, r.status.word ≠ "" ∧ r.methods.Nodup ∧ r.kinds.Nodup
  lists : ∀ b ∈ old, ∃ r ∈ new, b.methods <+: r.methods ∧ b.kinds <+: r.kinds

lemma Grows.patch {new : Option Rule} (h : Grows old new) (p : RulePatch) :
    Grows old (some (Rule.patch new p)) := by
  constructor
  · rintro r ⟨⟩
    have hlists : (new.getD { status := ⟨""⟩ }).methods.Nodup ∧
      (new.getD { status := ⟨""⟩ }).kinds.Nodup := by
      cases new with
      | none => exact ⟨nodup_nil, nodup_nil⟩
      | some r => exact (h.proper r rfl).2
    exact ⟨Rule.word_status_patch new p, nodup_foldl_once hlists.1, nodup_foldl_once hlists.2⟩
  · intro b hb
    obtain ⟨r, hr, hmethods, hkinds⟩ := h.lists b hb
    cases hr
    exact ⟨_, rfl, hmethods.trans (prefix_unite _ _), hkinds.trans (prefix_unite _ _)⟩

/-- The widgets of an ecosystem, grown from the built-in ones. -/
structure GrownWidgets (tag : String) (widgets : Table Rule) : Prop where
  ordered : widgets.Ordered
  grows : ∀ widget, Grows (builtinRule? tag widget) (Table.get? widget widgets)

lemma GrownWidgets.update (h : GrownWidgets tag widgets) (patches : Table RulePatch) :
    GrownWidgets tag (Table.update Rule.patch widgets patches) := by
  refine update_induction h fun patch _ widgets h => ⟨h.ordered.insert _ _, fun widget => ?_⟩
  rw [get?_insert]
  split_ifs with hname
  · rw [hname]
    exact (h.grows widget).patch patch.2
  · exact h.grows widget

/-- A table of rules, grown from the built-in one. Its tags are in lower case. -/
structure Grown (table : RuleTable) : Prop where
  ordered : table.Ordered
  tags : ∀ tag widgets, Table.get? tag table = some widgets → lower tag = tag
  has : ∀ tag, Table.get? tag table = none → Table.get? tag builtinTable = none
  widgets : ∀ tag, GrownWidgets tag ((Table.get? tag table).getD [])

lemma Grown.merge (h : Grown w.rules) (o : Overlay) (order : Order) :
    Grown (w.merge o order).rules := by
  rw [rules_merge]
  refine update_induction h fun change hchange table h =>
    ⟨h.ordered.insert _ _, fun tag widgets hget => ?_, fun tag hget => ?_, fun tag => ?_⟩
  · rw [get?_insert] at hget
    split_ifs at hget with htag
    · obtain ⟨entry, -, rfl⟩ := Overlay.exists_of_mem_changes hchange
      rw [← htag, lower_lower]
    · exact h.tags tag widgets hget
  · rw [get?_insert] at hget
    split_ifs at hget
    exact h.has tag hget
  · rw [get?_insert]
    split_ifs with htag
    · rw [htag]
      exact (h.widgets tag).update (change.2.getD [])
    · exact h.widgets tag

lemma grown_builtin : Grown builtin.rules := by
  change Grown builtinTable
  have hlower : ∀ entry ∈ builtinTable, lower entry.1 = entry.1 := by decide +kernel
  have hordered : ∀ entry ∈ builtinTable, Ordered entry.2 := by
    unfold Ordered
    decide +kernel
  have hproper : ∀ entry ∈ builtinTable, ∀ rule ∈ entry.2,
      rule.2.status.word ≠ "" ∧ rule.2.methods.Nodup ∧ rule.2.kinds.Nodup := by decide +kernel
  refine ⟨pairwise_singleton _ _, fun tag widgets htag => hlower (tag, widgets) (mem_of_get? htag),
    fun _ h => h, fun tag => ?_⟩
  cases htag : get? tag builtinTable with
  | none =>
    refine ⟨Pairwise.nil, fun widget => ?_⟩
    rw [builtinRule?, htag]
    constructor
    · rintro _ ⟨⟩
    · rintro _ ⟨⟩
  | some widgets =>
    have hmem := mem_of_get? htag
    refine ⟨hordered _ hmem, fun widget => ?_⟩
    rw [builtinRule?, htag]
    exact ⟨fun r hr => hproper _ hmem _ (mem_of_get? hr), fun b hb =>
      ⟨b, hb, prefix_rfl, prefix_rfl⟩⟩

lemma grown_of_reached {Meets : List (String × Json) → Prop} (h : Reached Meets w) :
    Grown w.rules :=
  rules_of_reached grown_builtin (fun _ _ o order hw _ _ _ => hw.merge o order) h

lemma Reached.mono {Meets Meets' : List (String × Json) → Prop}
    (hmeets : ∀ members, Meets members → Meets' members)
    (h : Reached Meets w) : Reached Meets' w := by
  induction h with
  | builtin => exact .builtin
  | withMode mode hw ih => exact .withMode mode ih
  | withTemporary ecosystem widget rule hw ih => exact .withTemporary ecosystem widget rule ih
  | withOverlay text order hw hmembers h ih =>
    exact .withOverlay text order ih
      (fun members hparse => hmeets members (hmembers members hparse)) h

/-! ### Written documents -/

lemma objectFits_iff {members : List (String × Json)} (h : (members.map (·.1)).Nodup) :
    objectFits fits (.obj members) ↔ ∀ m ∈ members, fits m.1 m.2 := by
  rw [objectFits, all_eq_true]
  simp only [mem_ofPairs_iff h]

lemma objectFits_map_iff {table : Table α} (h : table.Ordered) (write : α → Json) :
    objectFits fits (.obj (table.map fun entry => (entry.1, write entry.2))) ↔
      ∀ entry ∈ table, fits entry.1 (write entry.2) := by
  rw [objectFits_iff (h.map _).nodup_names]
  exact forall_mem_map

lemma isTexts_strs (items : List String) : isTexts (.strs items) := by
  refine all_eq_true.mpr fun j hj => ?_
  obtain ⟨s, -, rfl⟩ := mem_map.mp hj
  rfl

@[simp] lemma isOneOf_status_iff (s : Status) :
    isOneOf ["exclude", "temporary_exclude", "include"] (.str s.word) ↔ s.isKnown := by
  obtain ⟨word⟩ := s
  simp [isOneOf, Status.isKnown, Status.exclude, Status.temporaryExclude, Status.keep, or_assoc]

@[simp] lemma isOneOf_mode_iff (m : Mode) :
    isOneOf ["fatal_only", "all_errors", "debug_mode"] (.str m.word) ↔ m.isKnown := by
  obtain ⟨word⟩ := m
  simp [isOneOf, Mode.isKnown, Mode.fatalOnly, Mode.allErrors, Mode.debug, or_assoc]

def patchJson (p : RulePatch) : Json :=
  .obj (memberOf "status" (fun s : Status => .str s.word) p.status ++ memberOf "reason" .str
    p.reason ++ memberOf "methods" .strs p.methods ++ memberOf "error_types" .strs p.kinds ++
    memberOf "review_date" .str p.reviewDate ++ memberOf "future_proof" .bool p.futureProof)

def patchesJson (patches : Option (Table RulePatch)) : Json :=
  .obj ((patches.getD []).map fun entry => (entry.1, patchJson entry.2))

def Overlay.members (o : Overlay) : List (String × Json) :=
  memberOf "widget_exclusions" (fun rules : Table (Option (Table RulePatch)) =>
      .obj (rules.map fun entry => (entry.1, patchesJson entry.2))) o.rules ++
    memberOf "reporting_mode" (fun mode : Mode => .str mode.word) o.mode

@[simp] lemma into_patchJson (p : RulePatch) : RulePatch.into (patchJson p) {} = some p := by
  rw [RulePatch.into, patchJson, intoRecord]
  simp only [intoParts_append]
  rw [intoParts_memberOf rfl (fun _ _ => rfl) rfl, bind_some,
    intoParts_memberOf rfl (fun _ _ => rfl) rfl, bind_some,
    intoParts_memberOf rfl (fun _ _ => intoList_strs _ _) rfl, bind_some,
    intoParts_memberOf rfl (fun _ _ => intoList_strs _ _) rfl, bind_some,
    intoParts_memberOf rfl (fun _ _ => rfl) rfl, bind_some,
    intoParts_memberOf rfl (fun _ _ => rfl) rfl]
  simp [Function.comp_def]

lemma objectFits_patchJson_iff (p : RulePatch) :
    objectFits ruleMemberFits (patchJson p) ↔ ∀ status ∈ p.status, status.isKnown := by
  have hnodup : ruleMembers.Nodup := by decide
  rw [patchJson, objectFits_iff]
  · simp only [forall_mem_append, forall_mem_memberOf, ← isOneOf_status_iff]
    constructor
    · exact fun h => h.1.1.1.1.1
    · exact fun h => ⟨⟨⟨⟨⟨h, fun _ _ => rfl⟩, fun methods _ => isTexts_strs methods⟩,
        fun kinds _ => isTexts_strs kinds⟩, fun _ _ => rfl⟩, fun _ _ => rfl⟩
  · refine hnodup.sublist ?_
    simp only [map_append]
    exact (((((names_memberOf_sublist _ _ _).append (names_memberOf_sublist _ _ _)).append
      (names_memberOf_sublist _ _ _)).append (names_memberOf_sublist _ _ _)).append
      (names_memberOf_sublist _ _ _)).append (names_memberOf_sublist _ _ _)

lemma proper_patchJson (p : RulePatch) : (patchJson p).Proper := by
  refine .obj ?_
  simp only [forall_mem_append, forall_mem_memberOf]
  exact ⟨⟨⟨⟨⟨fun _ _ => .str _, fun _ _ => .str _⟩, fun _ _ => proper_strs _⟩,
    fun _ _ => proper_strs _⟩, fun _ _ => .str _⟩, fun _ _ => .bool _⟩

lemma proper_members (o : Overlay) : ∀ m ∈ o.members, m.2.Proper := by
  simp only [Overlay.members, forall_mem_append, forall_mem_memberOf]
  refine ⟨fun rules _ => .obj ?_, fun _ _ => .str _⟩
  exact forall_mem_map.mpr fun entry _ =>
    .obj (forall_mem_map.mpr fun patch _ => proper_patchJson patch.2)

lemma nodup_names_members (o : Overlay) (j : Json) :
    ((o.members ++ [("last_updated", j)]).map (·.1)).Nodup := by
  have hnodup : ["widget_exclusions", "reporting_mode", "last_updated"].Nodup := by decide
  refine hnodup.sublist ?_
  rw [map_append, Overlay.members, map_append]
  exact ((names_memberOf_sublist _ _ _).append (names_memberOf_sublist _ _ _)).append
    (Sublist.refl ["last_updated"])

section

variable (hordered : ∀ rules ∈ o.rules, rules.Ordered) (hpatches : ∀ rules ∈ o.rules,
  ∀ entry ∈ rules, ∃ patches, entry.2 = some patches ∧ Table.Ordered patches)
include hordered hpatches

@[simp] lemma intoParts_members : intoParts false Overlay.parts o.members {} = some o := by
  have hrules : ∀ rules ∈ o.rules, intoTable none (intoTable {} RulePatch.into)
      (.obj (rules.map fun entry => (entry.1, patchesJson entry.2))) none = some (some rules) := by
    intro rules hrules
    refine (intoTable_map id (hordered rules hrules) fun entry hentry => ?_).trans
      (congrArg (some ∘ some) (map_id rules))
    obtain ⟨patches, hsome, hordered⟩ := hpatches rules hrules entry hentry
    rw [hsome]
    exact (intoTable_map id hordered fun patch _ => into_patchJson patch.2).trans
      (congrArg (some ∘ some) (map_id patches))
  obtain ⟨rules, mode⟩ := o
  rw [Overlay.members, intoParts_append, intoParts_memberOf rfl hrules rfl, bind_some,
    intoParts_memberOf rfl (fun _ _ => rfl) rfl]
  cases rules <;> cases mode <;> rfl

lemma forall_memberFits_iff : (∀ m ∈ o.members, memberFits m.1 m.2) ↔
    (∀ rules ∈ o.rules, KnownPatches rules) ∧ ∀ mode ∈ o.mode, mode.isKnown := by
  simp only [Overlay.members, forall_mem_append, forall_mem_memberOf]
  refine and_congr (forall₂_congr fun rules hrules => ?_)
    (forall₂_congr fun mode _ => isOneOf_mode_iff mode)
  rw [memberFits, objectFits_map_iff (hordered rules hrules) patchesJson]
  refine forall₂_congr fun entry hentry => ?_
  obtain ⟨patches, hsome, hordered⟩ := hpatches rules hrules entry hentry
  rw [hsome, patchesJson, getD_some, objectFits_map_iff hordered patchJson]
  simp [objectFits_patchJson_iff]

end

/-! ### Exported documents -/

end WidgetRules

end PluginAudit
