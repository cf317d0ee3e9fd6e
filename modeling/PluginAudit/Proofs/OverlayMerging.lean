import PluginAudit.Proofs.WidgetRoundTrips

/-!
Documents that are merged onto widget rules. Main statement: a document that is accepted changes the
rules of the widgets that it mentions, part by part, and one that is refused nothing at all.
-/

open List

namespace PluginAudit

open Option (bind_some getD_some map_eq_some_iff)
open Text Json Table

/-! ### Tables -/

namespace Table

variable {α β : Type}

/-- Changes that change none of their own results change nothing when they are made again. -/
lemma Ordered.update_update {f : Option α → β → α} {base : Table α}
    (h : base.Ordered) {changes : Table β} (hnodup : (changes.map (·.1)).Nodup) (hf : ∀ name b,
      get? name changes = some b → f (some (f (get? name base) b)) b = f (get? name base) b) :
    Table.update f (Table.update f base changes) changes = Table.update f base changes := by
  have honce := h.update f changes
  refine (honce.update f changes).eq_of_get? honce fun name => ?_
  rw [get?_update_of_nodup f _ hnodup, get?_update_of_nodup f _ hnodup]
  cases hb : get? name changes with
  | none => rfl
  | some b => exact congrArg some (hf name b hb)

lemma get?_of_perm {changes changes' : Table β} (h : changes.Perm changes')
    (hnodup : (changes.map (·.1)).Nodup)
    (name : String) : get? name changes = get? name changes' := by
  have hnodup' := ((h.map _).nodup_iff).mp hnodup
  refine Option.ext fun b => ⟨fun hb => ?_, fun hb => ?_⟩
  · exact get?_of_mem_of_nodup hnodup' (h.mem_iff.mp (mem_of_get? hb))
  · exact get?_of_mem_of_nodup hnodup (h.mem_iff.mpr (mem_of_get? hb))

lemma Ordered.update_perm (f : Option α → β → α) {base : Table α} (h : base.Ordered)
    {changes changes' : Table β}
    (hperm : changes.Perm changes') (hnodup : (changes.map (·.1)).Nodup) :
    Table.update f base changes = Table.update f base changes' := by
  refine (h.update f changes).eq_of_get? (h.update f changes') fun name => ?_
  rw [get?_update_of_nodup f _ hnodup,
    get?_update_of_nodup f _ (((hperm.map _).nodup_iff).mp hnodup), get?_of_perm hperm hnodup]

end Table

namespace Json

variable {α : Type} {members : List (String × Json)} {zero : α} {into : Decoder α} {Q : α → Prop}

lemma forall_of_intoEntries (h : ∀ j a, into j zero = some a → Q a) {table read : Table α}
    (htable : ∀ entry ∈ table, Q entry.2)
    (hread : intoEntries zero into members table = some read) : ∀ entry ∈ read, Q entry.2 := by
  refine invariant_of_intoEntries (P := fun table => ∀ entry ∈ table, Q entry.2) ?_ htable hread
  intro name j a table ha htable entry hentry
  rcases mem_insert hentry with rfl | hentry
  · exact h _ _ ha
  · exact htable entry hentry

lemma intoTable_cases {j : Json} {old read : Option (Table α)}
    (hread : intoTable zero into j old = some read) : read = none ∨ ∃ members table,
      intoEntries zero into members (old.getD []) = some table ∧ read = some table := by
  cases j with
  | null => exact .inl (Option.some.inj hread).symm
  | obj members =>
    obtain ⟨table, htable, rfl⟩ := map_eq_some_iff.mp hread
    exact .inr ⟨members, table, htable, rfl⟩
  | _ => cases hread

lemma forall_of_intoTable (h : ∀ j a, into j zero = some a → Q a)
    {j : Json} {old read : Option (Table α)} (hold : ∀ table ∈ old, ∀ entry ∈ table, Q entry.2)
    (hread : intoTable zero into j old = some read) :
    ∀ table ∈ read, ∀ entry ∈ table, Q entry.2 := by
  have hbefore : ∀ entry ∈ old.getD [], Q entry.2 := by
    cases old with
    | none => simp
    | some table => exact hold table rfl
  rcases intoTable_cases hread with rfl | ⟨members, table, htable, rfl⟩
  · rintro _ ⟨⟩
  · rintro _ ⟨⟩
    exact forall_of_intoEntries h hbefore htable

lemma ordered_of_intoTable {j : Json} {read : Option (Table α)}
    (hread : intoTable zero into j none = some read) : ∀ table ∈ read, table.Ordered := by
  rcases intoTable_cases hread with rfl | ⟨members, table, htable, rfl⟩
  · rintro _ ⟨⟩
  · rintro _ ⟨⟩
    exact ordered_of_intoEntries Pairwise.nil htable

end Json

/-! ### Rules with the parts of a document -/

namespace Widget

@[simp] lemma mem_unite {base extra : List String} {item : String} :
    item ∈ unite base extra ↔ item ∈ base ∨ item ∈ extra := mem_foldl_once

@[simp] lemma unite_unite (base extra : List String) :
    unite (unite base extra) extra = unite base extra :=
  unite_of_subset fun _ hitem => mem_unite.mpr (.inr hitem)

@[simp] lemma Rule.patch_patch (old : Option Rule) (p : RulePatch) :
    Rule.patch (some (Rule.patch old p)) p = Rule.patch old p := by
  have hword := Rule.word_status_patch old p
  obtain ⟨status, reason, methods, kinds, reviewDate, futureProof⟩ := p
  simp only [Rule.patch, getD_some, unite_unite, Rule.mk.injEq, true_and] at hword ⊢
  refine ⟨?_, ?_, ?_, ?_⟩
  · cases status with
    | none => exact if_neg hword
    | some status => rfl
  · cases reason <;> rfl
  · cases reviewDate <;> rfl
  · cases futureProof <;> rfl

/-- What a patch makes of a rule: a part that is given takes the place of the old one, and lists go
on with the new items. An empty status is never left, since it is read as no status. -/
structure Rule.Patched (old : Option Rule) (p : RulePatch) (r : Rule) : Prop where
  status : p.status ≠ some ⟨""⟩ → r.status = p.status.getD (old.elim .exclude (·.status))
  emptyStatus : p.status = some ⟨""⟩ → r.status = .exclude
  reason : r.reason = p.reason.getD (old.elim "" (·.reason))
  reviewDate : r.reviewDate = p.reviewDate.getD (old.elim "" (·.reviewDate))
  futureProof : r.futureProof = p.futureProof.getD (old.elim false (·.futureProof))
  methods : r.methods =
    old.elim [] (·.methods) ++ ((p.methods.getD []).filter (· ∉ old.elim [] (·.methods))).eraseDups
  kinds : r.kinds =
    old.elim [] (·.kinds) ++ ((p.kinds.getD []).filter (· ∉ old.elim [] (·.kinds))).eraseDups
  covers : ∀ b ∈ old, ∀ method kind, b.covers method kind = true → r.covers method kind = true

lemma Rule.patched_patch {old : Option Rule} (h : ∀ b ∈ old, b.status.word ≠ "") (p : RulePatch) :
    Rule.Patched old p (Rule.patch old p) where
  status hgiven := by
    obtain ⟨status, reason, methods, kinds, reviewDate, futureProof⟩ := p
    cases status with
    | some s =>
      have hword : s.word ≠ "" := fun hempty => hgiven (congrArg (some ∘ Status.mk) hempty)
      exact if_neg hword
    | none =>
      cases old with
      | none => rfl
      | some b => exact if_neg (h b rfl)
  emptyStatus hgiven := by
    obtain ⟨status, reason, methods, kinds, reviewDate, futureProof⟩ := p
    obtain rfl : status = some ⟨""⟩ := hgiven
    rfl
  reason := by cases old <;> rfl
  reviewDate := by cases old <;> rfl
  futureProof := by cases old <;> rfl
  methods := by cases old <;> exact unite_eq _ _
  kinds := by cases old <;> exact unite_eq _ _
  covers := by
    rintro b ⟨⟩ method kind hcovers
    simp only [Rule.covers, Rule.patch, getD_some, Bool.and_eq_true, Bool.or_eq_true,
      contains_iff_mem] at hcovers ⊢
    have hmethods := (prefix_unite b.methods (p.methods.getD [])).subset
    have hkinds := (prefix_unite b.kinds (p.kinds.getD [])).subset
    exact ⟨hcovers.1.imp (hkinds ·) (hkinds ·), hcovers.2.imp (hmethods ·) (hmethods ·)⟩

end Widget

namespace WidgetRules

open Widget

variable {o : Overlay} {text : List Char} {ecosystem widget : String} {w : WidgetRules}

/-! ### Documents -/

/-- A text is accepted, and says this. -/
def IsOverlay (text : List Char) (o : Overlay) : Prop :=
  ∃ members, Json.parse? text = some (.obj members) ∧ fitsSchema (.obj members) = true ∧
    Json.intoParts false Overlay.parts members {} = some o

lemma withOverlay_of_isOverlay (w : WidgetRules) (h : IsOverlay text o) :
    w.withOverlay text = .ok (w.merge o) := by
  obtain ⟨members, hparse, hfits, hread⟩ := h
  exact withOverlay_eq_ok_iff.mpr ⟨members, o, hparse, hfits, hread, rfl⟩

lemma exists_error_of_not_isOverlay (w : WidgetRules) (h : ∀ o, ¬ IsOverlay text o) :
    ∃ e, w.withOverlay text = .error e := by
  cases hmerge : w.withOverlay text with
  | error e => exact ⟨e, rfl⟩
  | ok w' =>
    obtain ⟨members, o, hparse, hfits, hread, -⟩ := withOverlay_eq_ok_iff.mp hmerge
    exact absurd ⟨members, hparse, hfits, hread⟩ (h o)

/-- The tables of patches are in order. -/
def Overlay.OrderedPatches (o : Overlay) : Prop :=
  ∀ rules ∈ o.rules, ∀ entry ∈ rules, ∀ patches ∈ entry.2, Table.Ordered patches

lemma orderedPatches_of_isOverlay (h : IsOverlay text o) : o.OrderedPatches := by
  obtain ⟨members, -, -, hread⟩ := h
  refine invariant_of_intoParts (P := Overlay.OrderedPatches) ?_ ?_ hread
  · intro m _ into hinto old new hold hnew
    obtain ⟨part, hpart, rfl, -⟩ := exists_of_partFor hinto
    simp only [Overlay.parts, mem_cons, not_mem_nil, or_false] at hpart
    rcases hpart with rfl | rfl
    · obtain ⟨rules, hrules, rfl⟩ := map_eq_some_iff.mp hnew
      exact forall_of_intoTable (fun _ _ => ordered_of_intoTable) hold hrules
    · obtain ⟨mode, -, rfl⟩ := map_eq_some_iff.mp hnew
      exact hold
  · rintro _ ⟨⟩

/-- No two ecosystems of a document have the same name up to letter case. -/
def Overlay.Distinct (o : Overlay) : Prop :=
  ((o.rules.getD []).map fun entry => lower entry.1).Nodup

/-- A document says this about a widget of an ecosystem, up to letter case of the ecosystem. -/
def Overlay.Says (o : Overlay) (ecosystem widget : String) (p : RulePatch) : Prop :=
  ∃ rules name patches, o.rules = some rules ∧ (name, some patches) ∈ rules ∧
    lower name = lower ecosystem ∧ (widget, p) ∈ patches

/-! ### Written documents -/

protected def Overlay.text (o : Overlay) : List Char := ((Json.obj o.members).pretty ++ "\n").toList

/-- What can be written so that it is accepted: tables in order, and known words. -/
structure Overlay.Plain (o : Overlay) : Prop where
  ordered : ∀ rules ∈ o.rules, rules.Ordered
  patches :
    ∀ rules ∈ o.rules, ∀ entry ∈ rules, ∃ patches, entry.2 = some patches ∧ Table.Ordered patches
  statuses : ∀ rules ∈ o.rules, KnownPatches rules
  mode : ∀ mode ∈ o.mode, mode.isKnown = true

lemma Overlay.Plain.isOverlay_text (h : o.Plain) : IsOverlay o.text o := by
  have hnodup := nodup_names_members o .null
  rw [map_append] at hnodup
  refine ⟨o.members, parse?_pretty (.obj (proper_members o)), ?_,
    intoParts_members h.ordered h.patches⟩
  rw [fitsSchema, objectFits_iff hnodup.of_append_left]
  exact (forall_memberFits_iff h.ordered h.patches).mpr ⟨h.statuses, h.mode⟩

/-! ### Merging -/

lemma Overlay.Distinct.nodup (h : o.Distinct) : (o.changes.map (·.1)).Nodup := by
  rw [changes, map_map]
  exact h

lemma Overlay.OrderedPatches.of_get? (h : o.OrderedPatches) {tag : String}
    {patches : Option (Table RulePatch)}
    (hget : get? tag o.changes = some patches) : Ordered (patches.getD []) := by
  obtain ⟨entry, hentry, heq⟩ := Overlay.exists_of_mem_changes (mem_of_get? hget)
  cases heq
  cases hrules : o.rules with
  | none => simp [hrules] at hentry
  | some rules =>
    rw [hrules] at hentry
    cases hpatches : entry.2 with
    | none => exact Pairwise.nil
    | some patches => exact h rules hrules entry hentry patches hpatches

lemma merge_order (h : w.rules.Ordered) (hdistinct : o.Distinct) (order : Order) :
    w.merge o order = w.merge o := by
  have hrules : (w.merge o order).rules = (w.merge o).rules := by
    rw [rules_merge, rules_merge]
    exact (h.update_perm patchWidgets ((order.perm _).map _).symm hdistinct.nodup).symm
  rw [WidgetRules.mk.injEq]
  exact ⟨hrules, rfl, rfl⟩

/-- The document at a path, if it is accepted, has no two ecosystems of one name up to letter
case. -/
def DistinctAt (tree : Node) (path : String) : Prop :=
  ∀ content o, FileTree.read tree path = .ok content →
    readOverlay (Text.decodeBytes content) = .ok o → o.Distinct

lemma load_order (h : DistinctAt tree path) (order : Order) :
    load tree path order = load tree path := by
  unfold load
  cases hread : FileTree.read tree path with
  | error e => rfl
  | ok content =>
    simp only [withOverlay]
    cases ho : readOverlay (Text.decodeBytes content) with
    | error e => rfl
    | ok o =>
      rw [Except.map, Except.map, merge_order grown_builtin.ordered (h content o hread ho)]

def Overlay.patch? (o : Overlay) (ecosystem widget : String) : Option RulePatch :=
  (Table.get? (lower ecosystem) o.changes).bind fun patches => Table.get? widget (patches.getD [])

lemma says_iff (hdistinct : o.Distinct) (hordered : o.OrderedPatches) {p : RulePatch} :
    o.Says ecosystem widget p ↔ o.patch? ecosystem widget = some p := by
  constructor
  · rintro ⟨rules, name, patches, hrules, hmem, htag, hwidget⟩
    have hchange : (lower name, some patches) ∈ o.changes := by
      rw [Overlay.changes, hrules]
      exact mem_map.mpr ⟨_, hmem, rfl⟩
    have hget := get?_of_mem_of_nodup hdistinct.nodup hchange
    rw [Overlay.patch?, ← htag, hget]
    exact (hordered rules hrules _ hmem patches rfl).get?_of_mem hwidget
  · intro hpatch
    obtain ⟨patches, hget, hwidget⟩ := Option.bind_eq_some_iff.mp hpatch
    obtain ⟨⟨name, given⟩, hmem, heq⟩ := Overlay.exists_of_mem_changes (mem_of_get? hget)
    obtain ⟨htag, rfl⟩ := Prod.mk.inj heq
    cases hrules : o.rules with
    | none => simp [hrules] at hmem
    | some rules =>
      rw [hrules] at hmem
      cases given with
      | none => cases hwidget
      | some patches => exact ⟨rules, name, patches, hrules, hmem, htag, mem_of_get? hwidget⟩

lemma ruleIn?_merge (w : WidgetRules) (hdistinct : o.Distinct) (hordered : o.OrderedPatches)
    (ecosystem widget : String) : ruleIn? (w.merge o).rules ecosystem widget =
      (o.patch? ecosystem widget).elim (ruleIn? w.rules ecosystem widget) fun p =>
        some (Rule.patch (ruleIn? w.rules ecosystem widget) p) := by
  rw [ruleIn?_eq, ruleIn?_eq, rules_merge, get?_update_of_nodup _ _ hdistinct.nodup, Overlay.patch?]
  cases hget : get? (lower ecosystem) o.changes with
  | none => rfl
  | some patches => exact get?_update_of_nodup _ _ (hordered.of_get? hget).nodup_names widget

lemma merge_merge (h : Grown w.rules) (hdistinct : o.Distinct) (hordered : o.OrderedPatches) :
    (w.merge o).merge o = w.merge o := by
  have hrules : ((w.merge o).merge o).rules = (w.merge o).rules := by
    rw [rules_merge, rules_merge]
    refine h.ordered.update_update hdistinct.nodup fun tag patches hget => ?_
    refine (h.widgets tag).ordered.update_update
      (hordered.of_get? hget).nodup_names fun widget p _ => ?_
    exact Rule.patch_patch _ p
  have hmode : o.mode.getD (o.mode.getD w.mode) = o.mode.getD w.mode := by cases o.mode <;> rfl
  rw [WidgetRules.mk.injEq]
  exact ⟨hrules, rfl, hmode⟩

lemma Grown.word_status {table : RuleTable} (h : Grown table) :
    ∀ r ∈ ruleIn? table ecosystem widget, r.status.word ≠ "" := by
  intro r hr
  rw [ruleIn?_eq] at hr
  exact (((h.widgets (lower ecosystem)).grows widget).proper r hr).1

/-- What a document makes of the rules: only widgets that it mentions change. -/
structure Overlaid (w : WidgetRules) (o : Overlay) (w' : WidgetRules) : Prop where
  temporary : w'.temporary = w.temporary
  mode : w'.mode = o.mode.getD w.mode
  unmentioned : ∀ ecosystem widget, (∀ p, ¬ o.Says ecosystem widget p) →
    ruleIn? w'.rules ecosystem widget = ruleIn? w.rules ecosystem widget
  mentioned : ∀ ecosystem widget p, o.Says ecosystem widget p → ∃ r,
    ruleIn? w'.rules ecosystem widget = some r ∧ Rule.Patched (ruleIn? w.rules ecosystem widget) p r

lemma overlaid_merge (h : Grown w.rules) (hdistinct : o.Distinct) (hordered : o.OrderedPatches) :
    Overlaid w o (w.merge o) where
  temporary := rfl
  mode := rfl
  unmentioned ecosystem widget hnone := by
    have hpatch : o.patch? ecosystem widget = none :=
      Option.eq_none_iff_forall_ne_some.mpr fun p hp =>
        hnone p ((says_iff hdistinct hordered).mpr hp)
    rw [ruleIn?_merge w hdistinct hordered, hpatch, Option.elim_none]
  mentioned ecosystem widget p hsays := by
    have hpatch := (says_iff hdistinct hordered).mp hsays
    refine ⟨_, ?_, Rule.patched_patch h.word_status p⟩
    rw [ruleIn?_merge w hdistinct hordered, hpatch, Option.elim_some]

/-! ### Results -/

/-- An accepted document whose ecosystems differ up to letter case changes the widgets that it
mentions and nothing else, and merged again it changes nothing; everything with known words can be
said by such a document. A refused document is an error, and loading it leaves the built-in
rules. -/
theorem overlay_merging {w : WidgetRules} (h : Reached (fun _ => True) w) :
    (∀ text o, IsOverlay text o → o.Distinct →
      ∃ w', w.withOverlay text = .ok w' ∧ Overlaid w o w' ∧ w'.withOverlay text = .ok w') ∧
    (∀ o : Overlay, o.Plain → IsOverlay o.text o) ∧
    ∀ text, (∀ o, ¬ IsOverlay text o) → (∃ e, w.withOverlay text = .error e) ∧
      ∀ tree path content, FileTree.read tree path = .ok content → Text.decodeBytes content = text →
        load tree path = builtin := by
  have hgrown := grown_of_reached h
  refine ⟨fun text o ho hdistinct => ?_, fun o ho => ho.isOverlay_text, fun text hnone => ⟨?_, ?_⟩⟩
  · have hordered := orderedPatches_of_isOverlay ho
    have hagain := withOverlay_of_isOverlay (w.merge o) ho
    rw [merge_merge hgrown hdistinct hordered] at hagain
    exact ⟨w.merge o, withOverlay_of_isOverlay w ho, overlaid_merge hgrown hdistinct hordered,
      hagain⟩
  · exact exists_error_of_not_isOverlay w hnone
  · rintro tree path content hread rfl
    obtain ⟨e, he⟩ := exists_error_of_not_isOverlay builtin hnone
    rw [load, hread]
    dsimp only
    rw [he]

/-- Another status and a method for a widget with a built-in rule, and a new widget without
status. -/
def gridOverlay : Overlay where
  rules := some [("Elementor", some [("fresh_grid", { reason := some "new" }),
    ("post_grid", { status := some .temporaryExclude, methods := some ["render", "render"] })])]

theorem overlay_merging_grid :
    Reached (fun _ => True) shopRules ∧ gridOverlay.Plain ∧ IsOverlay gridOverlay.text gridOverlay ∧
    gridOverlay.Distinct ∧
    (∃ w', shopRules.withOverlay gridOverlay.text = .ok w' ∧ Overlaid shopRules gridOverlay w' ∧
      w'.withOverlay gridOverlay.text = .ok w') ∧
    (∀ o, ¬ IsOverlay "[]".toList o) ∧ ∃ e, shopRules.withOverlay "[]".toList = .error e := by
  have hreached : Reached (fun _ => True) shopRules :=
    .withOverlay shopDocument .byName .builtin (fun _ _ => trivial) withOverlay_shopDocument
  have hplain : gridOverlay.Plain := by
    constructor
    · rintro _ ⟨⟩
      exact pairwise_singleton _ _
    · rintro _ ⟨⟩ entry hentry
      obtain rfl := mem_singleton.mp hentry
      refine ⟨_, rfl, ?_⟩
      unfold Table.Ordered
      decide
    · rintro _ ⟨⟩ entry hentry
      obtain rfl := mem_singleton.mp hentry
      rintro _ ⟨⟩
      simp [Status.isKnown]
    · rintro _ ⟨⟩
  have hdistinct : gridOverlay.Distinct := pairwise_singleton _ _
  have hrefused : ∀ o, ¬ IsOverlay "[]".toList o := by
    rintro o ⟨members, hparse, -⟩
    have harray : Json.parse? "[]".toList = some (.arr []) := by cbv
    rw [harray] at hparse
    cases hparse
  obtain ⟨haccepted, hwritten, hothers⟩ := overlay_merging hreached
  exact ⟨hreached, hplain, hwritten _ hplain, hdistinct,
    haccepted _ _ (hwritten _ hplain) hdistinct, hrefused, (hothers _ hrefused).1⟩

/-- A document that gives an empty status, in a spelling of the member name that the schema does not
know. -/
def emptyStatusDocument : List Char :=
  ("\x7b\"Widget_Exclusions\":\x7b\"elementor\":" ++
    "\x7b\"post_grid\":\x7b\"status\":\"\"\x7d\x7d\x7d\x7d").toList

def emptyStatusOverlay : Overlay where
  rules := some [("elementor", some [("post_grid", { status := some ⟨""⟩ })])]

/-- A status that is given is not always the one that the rule has afterwards. -/
theorem given_status_replaced :
    IsOverlay emptyStatusDocument emptyStatusOverlay ∧ emptyStatusOverlay.Distinct ∧
    emptyStatusOverlay.Says "elementor" "post_grid" { status := some ⟨""⟩ } ∧
    ∃ w old r, builtin.withOverlay emptyStatusDocument = .ok w ∧
      ruleIn? builtin.rules "elementor" "post_grid" = some old ∧
        ruleIn? w.rules "elementor" "post_grid" = some r ∧
      r.status = .exclude ∧ r.status ≠ ⟨""⟩ ∧ r.status ≠ old.status := by
  have hparse : Json.parse? emptyStatusDocument = some (.obj [("Widget_Exclusions",
      .obj [("elementor", .obj [("post_grid", .obj [("status", .str "")])])])]) := by cbv
  have haccepted : IsOverlay emptyStatusDocument emptyStatusOverlay :=
    ⟨_, hparse, by decide +kernel, by decide +kernel⟩
  have hsays : emptyStatusOverlay.Says "elementor" "post_grid" { status := some ⟨""⟩ } :=
    ⟨_, _, _, rfl, mem_singleton_self _, rfl, mem_singleton_self _⟩
  refine ⟨haccepted, pairwise_singleton _ _, hsays, _, loadsMore,
    { loadsMore with status := .exclude },
    withOverlay_of_isOverlay builtin haccepted, ?_, ?_, rfl, ?_⟩
  · decide +kernel
  · decide +kernel
  · decide

end WidgetRules

end PluginAudit
