import PluginAudit.Proofs.ExtendedExemptions

/-!
Loading exemptions. Main statement: every name that a document lists is exempt, unless it starts
with a backslash or keys of the document are the same in lower case, and the rules that are listed
explain every decision.
-/

open List

namespace PluginAudit

open Text (lower)

lemma Table.get?_ofPairs {α : Type} {pairs : List (String × α)} {name : String} {value : α}
    (hmem : (name, value) ∈ pairs) (hall : ∀ other, (name, other) ∈ pairs → other = value) :
    get? name (ofPairs pairs) = some value := by
  have hfold : ∀ table : Table α, (name, value) ∈ pairs ∨ get? name table = some value →
      get? name (pairs.foldl (fun table entry => insert entry.1 entry.2 table) table) =
      some value := by
    clear hmem
    induction pairs with
    | nil => exact fun table h => h.resolve_left not_mem_nil
    | cons entry pairs ih =>
      intro table h
      apply ih fun other hother => hall other (mem_cons_of_mem _ hother)
      rw [get?_insert, or_iff_not_imp_left]
      intro hnot
      split_ifs with hname
      · exact congrArg some (hall entry.2 (hname ▸ mem_cons_self))
      · refine h.resolve_left fun hmem => ?_
        obtain rfl | hmem := mem_cons.mp hmem
        · exact hname rfl
        · exact hnot hmem
  exact hfold [] (.inl hmem)

namespace Exemption.Rules

variable {rules : Rules} {name : String}

/-- Rules name a function as they are listed: by itself, or by a pattern. -/
def ListsFunction (rules : Rules) (name : String) : Prop :=
  name ∈ rules.functions ∨ ∃ pattern ∈ rules.functionPatterns,
    PatternMatches name.toList pattern.toList

lemma namesFunction_of_mem (h : name ∈ rules.functions) : rules.NamesFunction name := by
  refine .inl ⟨name, h, ?_⟩
  split_ifs with hstar
  · obtain ⟨stem, stars, hname, hstem⟩ := exists_stem hstar
    rw [hname]
    exact .start stars hstem (prefix_append _ _)
  · rfl

end Exemption.Rules

namespace Exemptions

open Exemption (Rules)

variable {text : List Char} {e : Exemptions} {d : Document} {name : String} {detected : Tags}
  {entry : String × Rules} {parse? : List Char → Option (Option Yaml.Node)}

def documentOf? (text : List Char) (parse? : List Char → Option (Option Yaml.Node) := Yaml.parse?) :
    Option Document :=
  (parse? text).join.bind fun n => (Yaml.readRecord documentParts {} n).map (·.getD {})

lemma load_eq_ok_iff :
    load text parse? = .ok e ↔ ∃ d, documentOf? text parse? = some d ∧ ofDocument d = e := by
  unfold load documentOf?
  rcases parse? text with _ | _ | n
  · simp
  · simp
  · cases hread : Yaml.readRecord documentParts {} n <;> simp [hread]

lemma exempts_of_global (h : name.toList.head? ≠ some '\\') (d : Document) (detected : Tags) :
    (name ∈ d.global.classes → (ofDocument d).exemptsClass name detected) ∧
      (name ∈ d.global.functions → (ofDocument d).exemptsFunction name detected) := by
  have hplain := bare_iff.mp (.plain h)
  simp only [exemptsClass, exemptsFunction, hplain, ofDocument, Bool.or_eq_true]
  exact ⟨fun hmem => .inl (Rules.exemptsClass_compile_iff.mpr (.inl hmem)),
    fun hmem => .inl (Rules.exemptsFunction_compile_iff.mpr (Rules.namesFunction_of_mem hmem))⟩

lemma get?_ofDocument (hmem : entry ∈ d.ecosystems)
    (halone : ∀ other ∈ d.ecosystems, lower other.1 = lower entry.1 → other = entry) :
    Table.get? (lower entry.1) (ofDocument d).ecosystems = some entry.2.compile := by
  have hpairs : (ofDocument d).ecosystems =
      Table.ofPairs (d.ecosystems.map fun other => (lower other.1, other.2.compile)) := by
    rw [Table.ofPairs, foldl_map]
    rfl
  rw [hpairs]
  refine Table.get?_ofPairs (mem_map.mpr ⟨entry, hmem, rfl⟩) fun rules hrules => ?_
  obtain ⟨other, hother, heq⟩ := mem_map.mp hrules
  obtain ⟨hlower, rfl⟩ := Prod.mk.inj heq
  rw [halone other hother hlower]

lemma exempts_of_ecosystem (h : name.toList.head? ≠ some '\\') (hmem : entry ∈ d.ecosystems)
    (halone : ∀ other ∈ d.ecosystems, lower other.1 = lower entry.1 → other = entry)
    (hdetected : lower entry.1 ∈ detected) :
    (name ∈ entry.2.classes → (ofDocument d).exemptsClass name detected) ∧
      (name ∈ entry.2.functions → (ofDocument d).exemptsFunction name detected) := by
  have hplain := bare_iff.mp (.plain h)
  have hrules := get?_ofDocument hmem halone
  simp only [exemptsClass, exemptsFunction, hplain, Bool.or_eq_true, any_eq_true]
  refine ⟨fun hname => .inr ⟨_, hdetected, ?_⟩, fun hname => .inr ⟨_, hdetected, ?_⟩⟩
  · rw [hrules]
    exact Rules.exemptsClass_compile_iff.mpr (.inl hname)
  · rw [hrules]
    exact Rules.exemptsFunction_compile_iff.mpr (Rules.namesFunction_of_mem hname)

/-- Loading loses no rule. Each name of a document that is accepted is exempt, in every plugin if it
is listed among the rules that always apply, and in the plugins of an ecosystem if it is listed
under its key and no other key is the same in lower case. The keys may come in any order. -/
theorem listed_names_exempt (hload : load text parse? = .ok e) :
    ∃ d, documentOf? text parse? = some d ∧ ofDocument d = e ∧ ∀ order, order.Perm d.ecosystems →
      ∀ name detected, name.toList.head? ≠ some '\\' →
        (name ∈ d.global.classes →
          (ofDocument { d with ecosystems := order }).exemptsClass name detected = true) ∧
        (name ∈ d.global.functions →
          (ofDocument { d with ecosystems := order }).exemptsFunction name detected = true) ∧
        ∀ entry ∈ d.ecosystems,
          (∀ other ∈ d.ecosystems, Text.lower other.1 = Text.lower entry.1 → other = entry) →
          Text.lower entry.1 ∈ detected →
          (name ∈ entry.2.classes →
            (ofDocument { d with ecosystems := order }).exemptsClass name detected = true) ∧
          (name ∈ entry.2.functions →
            (ofDocument { d with ecosystems := order }).exemptsFunction name detected = true) := by
  obtain ⟨d, hdocument, rfl⟩ := load_eq_ok_iff.mp hload
  refine ⟨d, hdocument, rfl, fun order horder name detected hname => ?_⟩
  obtain ⟨hclasses, hfunctions⟩ := exempts_of_global hname { d with ecosystems := order } detected
  refine ⟨hclasses, hfunctions, fun entry hentry halone hdetected => ?_⟩
  exact exempts_of_ecosystem hname (horder.mem_iff.mpr hentry)
    (fun other hother => halone other (horder.mem_iff.mp hother)) hdetected

def shopDocument : List Char :=
  "global:\n  classes: [Cart]\necosystems:\n  Shop:\n    functions: [shop_total]\n  slider: \x7b\x7d\n".toList

theorem listed_names_exempt_shop :
    ∃ e d entry, load shopDocument = .ok e ∧ documentOf? shopDocument = some d ∧
      "Cart" ∈ d.global.classes ∧
      entry ∈ d.ecosystems ∧
        (∀ other ∈ d.ecosystems, Text.lower other.1 = Text.lower entry.1 → other = entry) ∧
      Text.lower entry.1 = "shop" ∧ "shop_total" ∈ entry.2.functions ∧
      e.exemptsClass "Cart" ["slider"] = true ∧ e.exemptsFunction "shop_total" ["shop"] = true := by
  have hparts : (documentOf? shopDocument).map (fun d => (d.global, d.ecosystems)) =
      some ({ classes := ["Cart"] },
      [("Shop", { functions := ["shop_total"] }), ("slider", {})]) := by
    decide +kernel
  obtain ⟨⟨global, ecosystems⟩, hdocument, hparts⟩ := Option.map_eq_some_iff.mp hparts
  obtain ⟨rfl, rfl⟩ := Prod.mk.inj hparts
  have hload := load_eq_ok_iff.mpr ⟨_, hdocument, rfl⟩
  obtain ⟨d, hd, -, hall⟩ := listed_names_exempt hload
  obtain rfl := Option.some.inj (hdocument.symm.trans hd)
  refine ⟨_, _, ("Shop", { functions := ["shop_total"] }), hload,
    hdocument, by decide, by decide, by decide, by decide,
    by decide, (hall _ (.refl _) "Cart" ["slider"] (by decide)).1 (by decide), ?_⟩
  exact ((hall _ (.refl _) "shop_total" ["shop"] (by decide)).2.2 ("Shop",
    { functions := ["shop_total"] }) (by decide) (by decide) (by decide)).2 (by decide)

/-- A name that is listed with a backslash is not exempt, and of two keys that are the same in lower
case one loses its rules. -/
theorem listed_names_lost :
    ((load "global:\n  classes: ['\\Foo']\n".toList).toOption.any fun e =>
      e.global.classes == ["\\Foo"] && !e.exemptsClass "\\Foo" []) = true ∧
    ((load
      "ecosystems:\n  Shop:\n    classes: [Cart]\n  shop:\n    classes: [Order]\n".toList).toOption.any
      fun e =>
      !(e.exemptsClass "Cart" ["shop"] && e.exemptsClass "Order" ["shop"])) = true :=
  ⟨by decide +kernel, by decide +kernel⟩

/-! ### Listed rules -/

def listed (e : Exemptions) (detected : Tags) : List Rules :=
  e.globalRules :: detected.map e.rulesOf

lemma exemptsClass_sorted_iff (rules : Rules) :
    rules.exemptsClass name ↔ rules.sorted.NamesClass name := by
  simp only [Rules.exemptsClass, Rules.sorted, Rules.NamesClass, Bool.or_eq_true, contains_iff_mem,
    any_eq_true, Exemption.covers_iff, mem_sortedNames]

lemma exemptsFunction_sorted_iff (rules : Rules) : rules.exemptsFunction name ↔
    rules.sorted.ListsFunction name := by
  simp only [Rules.exemptsFunction, Rules.sorted, Rules.ListsFunction, Bool.or_eq_true,
    contains_iff_mem, any_eq_true, Exemption.covers_iff, mem_sortedNames]

lemma any_get?_iff {decides : Rules → Bool} (named : Rules → Prop)
    (hlist : ∀ rules, decides rules ↔ named rules.sorted) (hempty : ¬ named {}) (e : Exemptions)
    (h : ∀ tag ∈ detected, lower tag = tag) :
    (detected.any fun tag => (Table.get? tag e.ecosystems).any decides) ↔
      ∃ rules ∈ detected.map e.rulesOf, named rules := by
  simp only [any_eq_true, mem_map, exists_exists_and_eq_and]
  refine exists_congr fun tag => and_congr_right fun htag => ?_
  rw [rulesOf, h tag htag]
  cases Table.get? tag e.ecosystems with
  | none => simpa using hempty
  | some rules => simpa using hlist rules

/-- A name is exempt in the plugins of some ecosystems exactly if the rules that are listed for
these name it without its leading backslash, or, for a class, if one of the patterns that always
apply does so. -/
theorem listed_rules_decide (e : Exemptions) (name : String)
    (h : ∀ tag ∈ detected, Text.lower tag = tag) :
    ∃ bare, Bare name bare ∧
      (e.exemptsClass name detected = true ↔ (∃ rules ∈ e.listed detected, rules.NamesClass bare) ∨
        ∃ pattern ∈ e.global.classPatterns, Exemption.PatternMatches bare.toList pattern.toList) ∧
      (e.exemptsFunction name detected = true ↔
        ∃ rules ∈ e.listed detected, rules.ListsFunction bare) := by
  refine ⟨plainName name, bare_iff.mpr rfl, ?_, ?_⟩
  · have hany := any_get?_iff (·.NamesClass (plainName name)) exemptsClass_sorted_iff
      (by simp [Rules.NamesClass]) e h
    rw [exemptsClass, Bool.or_eq_true, hany, exemptsClass_sorted_iff]
    simp only [listed, mem_cons, exists_eq_or_imp, globalRules, Rules.NamesClass, not_mem_nil,
      false_and, exists_false, or_false, Rules.sorted]
    exact or_right_comm
  · have hany := any_get?_iff (·.ListsFunction (plainName name)) exemptsFunction_sorted_iff
      (by simp [Rules.ListsFunction]) e h
    rw [exemptsFunction, Bool.or_eq_true, hany, exemptsFunction_sorted_iff]
    simp only [listed, mem_cons, exists_eq_or_imp]
    rfl

lemma load_eq_ok_of_toOption {e : Exemptions} (h : (load text).toOption = some e) :
    load text = .ok e := by
  cases hload : load text with
  | error => simp [hload, Except.toOption] at h
  | ok => simpa [hload, Except.toOption] using h

theorem listed_rules_decide_shop : ∃ e, load shopDocument = .ok e ∧
    (∀ tag ∈ Tags.ofNames [" Shop"], Text.lower tag = tag) ∧
    e.exemptsFunction "\\shop_total" (Tags.ofNames [" Shop"]) = true := by
  have hload : (load shopDocument).toOption = some ⟨{ classes := ["Cart"] },
      [("shop", { functions := ["shop_total"] }), ("slider", {})]⟩ := by
    decide +kernel
  have htags : ∀ tag ∈ Tags.ofNames [" Shop"], lower tag = tag := by decide +kernel
  refine ⟨_, load_eq_ok_of_toOption hload, htags, ?_⟩
  obtain ⟨bare, hbare, -, hfunction⟩ := listed_rules_decide _ "\\shop_total" htags
  obtain rfl :
      "shop_total" = bare := (bare_iff.mp (.lead "shop_total")).symm.trans (bare_iff.mp hbare)
  refine hfunction.mpr ⟨{ functions := ["shop_total"] }, ?_, .inl (by decide)⟩
  decide +kernel

/-- A class that a pattern exempts in every plugin is named by no rule that is listed. -/
theorem class_pattern_unlisted :
    ∃ e, load "global:\n  class_patterns: ['Foo*']\n".toList = .ok e ∧
      e.exemptsClass "FooBar" [] = true ∧
      ∀ rules ∈ e.listed [], ¬ rules.NamesClass "FooBar" := by
  have hload : (load "global:\n  class_patterns: ['Foo*']\n".toList).toOption =
      some ⟨{ classPatterns := ["Foo*"] }, []⟩ := by decide +kernel
  refine ⟨_, load_eq_ok_of_toOption hload, by decide +kernel, fun rules hrules => ?_⟩
  have hempty : listed ⟨{ classPatterns := ["Foo*"] }, []⟩ [] = [{}] := by decide
  rw [hempty, mem_singleton] at hrules
  simp [hrules, Rules.NamesClass]

end Exemptions

end PluginAudit
