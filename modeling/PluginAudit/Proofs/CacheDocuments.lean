import PluginAudit.Proofs.Contexts
import PluginAudit.Proofs.JsonText
import PluginAudit.Scan.Cache

/-!
The documents of kept results. The key of a scan tells its settings, and a report that is read from
the document of a report is this report, its moment apart.
-/

open List

namespace PluginAudit

open Json

namespace Json

variable {members : List (String × Json)} {α : Type}

/-! ### Proper documents -/

attribute [simp] Proper.null Proper.bool Proper.str

@[simp] lemma proper_obj_nil : (obj []).Proper := .obj (by simp)

lemma proper_obj_iff : (obj members).Proper ↔ ∀ m ∈ members, m.2.Proper :=
  ⟨fun h => by cases h; assumption, .obj⟩

@[simp] lemma proper_obj_cons {m : String × Json} :
    (obj (m :: members)).Proper ↔ m.2.Proper ∧ (obj members).Proper := by
  simp only [proper_obj_iff, forall_mem_cons]

@[simp] lemma proper_obj_append {others : List (String × Json)} :
    (obj (members ++ others)).Proper ↔ (obj members).Proper ∧ (obj others).Proper := by
  simp only [proper_obj_iff, forall_mem_append]

@[simp] lemma proper_obj_unless {p : Prop} [Decidable p] :
    (obj (if p then [] else members)).Proper ↔ (¬ p → (obj members).Proper) := by
  split <;> simp_all

@[simp] lemma proper_obj_option {f : α → String × Json} {a : Option α} :
    (obj (a.map f).toList).Proper ↔ ∀ x ∈ a, (f x).2.Proper := by
  cases a <;> simp

@[simp] lemma proper_int (n : Int) : (int n).Proper := .num (isNumeral_intText n)

lemma proper_double {x : Double} (h : x.isFinite) : (double x).Proper := .num (isNumeral_write _ h)

@[simp] lemma proper_strs (items : List String) : (strs items).Proper :=
  .arr (forall_mem_map.mpr fun _ _ => .str _)

@[simp] lemma proper_orNull {f : α → Json} (a : Option α) (h : ∀ x, (f x).Proper) :
    (orNull f a).Proper := by
  cases a with
  | none => exact .null
  | some x => exact h x

lemma proper_listing {write : α → Json} {items : Listing α}
    (h : ∀ item ∈ items.items, (write item).Proper) :
    (orNull (fun all => .arr (all.map write)) items).Proper := by
  cases items with
  | none => exact .null
  | some all => exact .arr (forall_mem_map.mpr h)

lemma forall_mem_memberUnless {P : String × Json → Prop} {absent : Bool} {name : String} {j : Json}
    (h : P (name, j)) : ∀ m ∈ memberUnless absent name j, P m := by
  intro m hm
  unfold memberUnless at hm
  split at hm
  · cases hm
  · rw [mem_singleton.mp hm]
    exact h

end Json

/-! ### Keys -/

namespace Settings

@[simp] lemma proper_listJson (items : List String) : (listJson items).Proper := by
  rw [listJson]
  split <;> simp

lemma proper_toJson {s : Settings} (h : s.lint.rate.isFinite) : s.toJson.Proper := by
  simp [toJson, proper_double h]

lemma listJson_injective {items others : List String} (h : listJson items = listJson others) :
    items = others := by
  have hstr : Function.Injective str := fun a b hab => by cases hab; rfl
  unfold listJson at h
  split at h
  · split at h
    · simp_all
    · cases h
  · split at h
    · cases h
    · exact hstr.list_map (arr.inj h)

/-- The settings that a report depends on, apart from the files and the runtime that they name. -/
structure Alike (s s' : Settings) : Prop where
  phpVersions : s.phpVersions = s'.phpVersions
  wpVersions : s.wpVersions = s'.wpVersions
  severities : s.severities = s'.severities
  mode : s.mode = s'.mode
  exclusionConfig : s.exclusionConfig = s'.exclusionConfig
  forceEcosystems : s.forceEcosystems = s'.forceEcosystems
  ignoreDependencies : s.ignoreDependencies = s'.ignoreDependencies
  detectors : s.detectors = s'.detectors
  suppress : s.suppress = s'.suppress

lemma alike_of_toJson_eq {s s' : Settings} (h : s.toJson = s'.toJson) : Alike s s' := by
  have hlabel : Function.Injective Severity.label := fun a b hab => by
    cases a
    cases b
    simpa using hab
  simp only [toJson, obj.injEq, cons.injEq, Prod.mk.injEq, true_and, and_true, str.injEq,
    bool.injEq] at h
  obtain ⟨hphp, hwp, hseverities, hmode, hexclusion, hforce, -, hignore, -, -, hdetectors, -, -, -,
      -, hsuppress, -⟩ := h
  refine ⟨listJson_injective hphp, listJson_injective hwp,
    hlabel.list_map (listJson_injective hseverities), ?_, hexclusion, listJson_injective hforce,
    hignore, listJson_injective hdetectors, listJson_injective hsuppress⟩
  cases hs : s.mode
  cases hs' : s'.mode
  simpa [hs, hs'] using hmode

end Settings

namespace Scan.Cache

lemma proper_keyJson {root : String} {file : Option String} {s : Settings}
    (h : s.lint.rate.isFinite) : (keyJson root file s).Proper := by
  have hsettings := Settings.proper_toJson (s := { s with cache := ⟨false, ""⟩ }) h
  simp [keyJson, textMember, memberUnless, hsettings]

/-- The settings without those of the cache. -/
abbrev asked (s : Settings) : Json := Settings.toJson { s with cache := ⟨false, ""⟩ }

lemma eq_of_keyJson_eq {root root' : String} {file file' : Option String} {s s' : Settings}
    (h : keyJson root file s = keyJson root' file' s') :
    Path.clean root = Path.clean root' ∧ asked s = asked s' := by
  simp only [keyJson, obj.injEq] at h
  obtain ⟨hstart, hvalues⟩ := append_inj' h rfl
  simp only [cons_append, nil_append, cons.injEq, Prod.mk.injEq, str.injEq, true_and,
    and_true] at hstart hvalues
  exact ⟨hstart.1, hvalues⟩

end Scan.Cache

/-! ### Reading records -/

namespace Json

variable {α β : Type} {parts : Parts α} {members others : List (String × Json)} {a b c : α}
  {into : Decoder β} {name : String} {j : Json} {get : α → β} {set : β → α → α} {part : β}
  {write : β → Json}

/-- All that a decoder can make of a document. -/
def Reads (into : Decoder β) (j : Json) (old new : β) : Prop :=
  ∀ read, into j old = some read → read = new

lemma exists_reads (into : Decoder β) (j : Json) (old : β) : ∃ new, Reads into j old new := by
  cases h : into j old with
  | none => exact ⟨old, fun read hread => by rw [h] at hread; cases hread⟩
  | some new => exact ⟨new, fun read hread => by rw [h] at hread; cases hread; rfl⟩

/-- All that the parts of a record can make of some members. -/
def Fills (parts : Parts α) (members : List (String × Json)) (old new : α) : Prop :=
  ∀ read, intoParts false parts members old = some read → read = new

lemma Fills.nil : Fills parts [] a a := by
  intro read h
  cases h
  rfl

lemma Fills.cons (hpart : partFor parts name = some (through get set into))
    (hread : Reads into j (get a) part)
    (hrest : Fills parts members (set part a) b) : Fills parts ((name, j) :: members) a b := by
  intro read h
  rw [intoParts, hpart] at h
  dsimp only [through] at h
  cases hinto : into j (get a) with
  | none => simp [hinto] at h
  | some found =>
    rw [hinto] at h
    rw [hread found hinto] at h
    exact hrest read h

@[simp] lemma intoParts_append (members others : List (String × Json)) (a : α) :
    intoParts false parts (members ++ others) a =
      (intoParts false parts members a).bind (intoParts false parts others) := by
  induction members generalizing a with
  | nil => rfl
  | cons member members ih =>
    obtain ⟨name, j⟩ := member
    rw [cons_append, intoParts, intoParts]
    split
    · split
      · exact ih _
      · rfl
    · exact ih _

lemma Fills.append (h : Fills parts members a b) (h' : Fills parts others b c) :
    Fills parts (members ++ others) a c := by
  intro read hread
  rw [intoParts_append] at hread
  obtain ⟨middle, hmiddle, hread⟩ := Option.bind_eq_some_iff.mp hread
  rw [h middle hmiddle] at hread
  exact h' read hread

lemma Fills.trans_eq (h : Fills parts members a b) (heq : b = c) : Fills parts members a c :=
  heq ▸ h

lemma Fills.unless {absent : Bool} (hpart : partFor parts name = some (through get set into))
    (hread : Reads into j (get a) part) (habsent : absent → set part a = a)
    (heq : set part a = b) : Fills parts (memberUnless absent name j) a b := by
  subst heq
  cases absent with
  | true =>
    rw [habsent rfl]
    exact Fills.nil
  | false => exact Fills.cons hpart hread Fills.nil

lemma reads_record (h : Fills parts members a b) :
    Reads (intoRecord false parts) (.obj members) a b :=
  h

lemma Reads.through (h : Reads into j (get a) part) :
    Reads (through get set into) j a (set part a) := by
  intro read hread
  obtain ⟨found, hfound, rfl⟩ := Option.map_eq_some_iff.mp hread
  rw [h found hfound]

lemma reads_text (s old : String) : Reads intoText (.str s) old s := by
  intro read h
  cases h
  rfl

lemma reads_bool (value old : Bool) : Reads intoBool (.bool value) old value := by
  intro read h
  cases h
  rfl

lemma reads_int (n old : Int) : Reads intoInt (.int n) old n := fun _ h => eq_of_readInt?_intText h

lemma fills_count {n : Int} {get : α → Int} {set : Int → α → α}
    (hpart : partFor parts name = some (through get set intoInt)) (hzero : n = 0 → set n a = a)
    (heq : set n a = b) : Fills parts (countMember name n) a b :=
  .unless hpart (reads_int _ _) (fun h => hzero (beq_iff_eq.mp h)) heq

lemma map_eq_of_intoItems {γ : Type} {zero : β} {write : α → Json} {items : List α} {f : β → γ}
    {g : α → γ} (h : ∀ item ∈ items, ∀ read, into (write item) zero = some read → f read = g item)
    {all : List β}
    (hread : intoItems zero into (items.map write) = some all) : all.map f = items.map g := by
  induction items generalizing all with
  | nil =>
    cases hread
    rfl
  | cons item items ih =>
    obtain ⟨first, hfirst, hrest⟩ := Option.bind_eq_some_iff.mp hread
    obtain ⟨rest, hall, hcons⟩ := Option.bind_eq_some_iff.mp hrest
    cases hcons
    rw [map_cons, map_cons, h item mem_cons_self first hfirst, ih (forall_mem_cons.mp h).2 hall]

lemma reads_list {zero : β} {items : Listing β}
    (h : ∀ item ∈ items.items, Reads into (write item) zero item) (old : Listing β) :
    Reads (intoList zero into) (orNull (fun all => .arr (all.map write)) items) old items := by
  intro read hread
  cases items with
  | none =>
    cases hread
    rfl
  | some all =>
    obtain ⟨found, hfound, rfl⟩ := Option.map_eq_some_iff.mp hread
    simpa [Listing.items] using map_eq_of_intoItems (f := id) (g := id) h hfound

lemma reads_texts (items old : Listing String) : Reads intoTexts (orNull .strs items) old items :=
  reads_list (fun item _ => reads_text item "") old

lemma orNull_labels (severities : Listing Severity) :
    orNull (fun all => strs (all.map (·.label))) severities =
    orNull .strs (severities.map fun all => all.map (·.label)) := by
  cases severities <;> rfl

lemma reads_table {zero : β} {table : Table β} (hordered : Table.Ordered table)
    (h : ∀ entry ∈ table, Reads into (write entry.2) zero entry.2) : Reads (intoTable zero into)
      (.obj (table.map fun entry => (entry.1, write entry.2))) (some []) (some table) := by
  have hentries :
      ∀ (rest before : Table β), (∀ entry ∈ rest, Reads into (write entry.2) zero entry.2) → ∀ read,
      intoEntries zero into (rest.map fun entry => (entry.1, write entry.2)) before = some read →
        read = rest.foldl (fun table entry => Table.insert entry.1 entry.2 table) before := by
    intro rest
    induction rest with
    | nil =>
      intro before _ read hread
      cases hread
      rfl
    | cons entry rest ih =>
      intro before h read hread
      obtain ⟨value, hvalue, hread⟩ := Option.bind_eq_some_iff.mp hread
      rw [h entry mem_cons_self value hvalue] at hread
      exact ih _ (forall_mem_cons.mp h).2 read hread
  intro read hread
  obtain ⟨found, hfound, rfl⟩ := Option.map_eq_some_iff.mp hread
  rw [hentries table [] h found hfound]
  exact congrArg some hordered.ofPairs_eq

end Json

/-! ### Contexts -/

namespace Value

lemma fieldsToJson_eq_map (fields : List (String × Value)) :
    fieldsToJson fields = fields.map fun field => (field.1, field.2.toJson) := by
  induction fields with
  | nil => rfl
  | cons field fields ih => rw [fieldsToJson, fieldToJson, ih, map_cons]

lemma Plain.proper {v : Value} (h : v.Plain) : v.toJson.Proper := by
  induction h with
  | text s => exact .str s
  | bool b => exact .bool b
  | record _ _ ih =>
    rw [toJson, fieldsToJson_eq_map]
    exact .obj (forall_mem_map.mpr ih)

lemma Plain.toValue_toJson {v : Value} (h : v.Plain) : v.toJson.toValue = some v := by
  induction h with
  | text s => rw [toJson, toValue]
  | bool b => rw [toJson, toValue]
  | @record fields ordered plain ih =>
    have hfields : toFields (fieldsToJson fields) = some fields := by
      clear ordered plain
      induction fields with
      | nil => rw [fieldsToJson, toFields]
      | cons field fields ihfields =>
        rw [fieldsToJson, toFields, fieldToJson, toField, ih field mem_cons_self,
          ihfields (forall_mem_cons.mp ih).2]
        rfl
    rw [toJson, toValue, hfields, Option.map_some, ordered.ofPairs_eq]

end Value

namespace Finding

lemma reads_context {f : Finding} (h : f.Plain) :
    Reads intoContext (.obj (Value.fieldsToJson f.context)) [] f.context := by
  cases h with
  | record ordered plain =>
    intro read hread
    obtain ⟨found, hfound, rfl⟩ := Option.map_eq_some_iff.mp hread
    have hvalues : ∀ entry ∈ f.context, Reads intoValue entry.2.toJson .null entry.2 := by
      intro entry hentry read hread
      rw [intoValue, (plain entry hentry).toValue_toJson] at hread
      cases hread
      rfl
    rw [Value.fieldsToJson_eq_map] at hfound
    rw [reads_table ordered hvalues found hfound]
    rfl

end Finding

namespace Issue

lemma reads_toJson {i : Issue} (h : i.finding.Plain) :
    Reads (intoRecord false parts) i.toJson ⟨.blank, "", ""⟩ i := by
  obtain ⟨⟨kind, message, file, line, severity, suggestion, context⟩, relativePath, fingerprint⟩ :=
    i
  have hsuggestion : (if suggestion = "" then [] else [("suggestion", str suggestion)]) =
      memberUnless (suggestion == "") "suggestion" (.str suggestion) := by
    simp [memberUnless]
  have hcontext :
      (if context.isEmpty then [] else [("context", .obj (Value.fieldsToJson context))]) =
      memberUnless context.isEmpty "context" (.obj (Value.fieldsToJson context)) := rfl
  refine reads_record ?_
  rw [Finding.members, hsuggestion, hcontext]
  refine .append (.append (.append
    (.cons rfl (.through (reads_text _ _)) (.cons rfl (.through (reads_text _ _))
      (.cons rfl (.through (reads_text _ _)) (.cons rfl (.through (reads_int _ _))
        (.cons rfl (.through (reads_text _ _)) .nil)))))
    (.unless rfl (.through (reads_text _ _)) ?_ rfl))
    (.unless rfl (.through (Finding.reads_context h)) ?_ rfl))
    (.cons rfl (reads_text _ _) (.cons rfl (reads_text _ _) .nil))
  · intro hempty
    cases beq_iff_eq.mp hempty
    rfl
  · intro hempty
    cases isEmpty_iff.mp hempty
    rfl

end Issue

namespace Outcome

lemma reads_toJson {o : Outcome} (h : ∀ i ∈ o.issues.items, i.finding.Plain) :
    Reads (intoRecord false parts) o.toJson {} o := by
  obtain ⟨php, wp, passed, issues, suppressed, baselined⟩ := o
  refine reads_record ?_
  exact .trans_eq (.append (.append
    (.cons rfl (reads_text _ _) (.cons rfl (reads_text _ _) (.cons rfl (reads_bool _ _)
      (.cons rfl (reads_list (fun i hi => Issue.reads_toJson (h i hi)) _) .nil))))
    (fills_count rfl (fun hzero => hzero ▸ rfl) rfl))
    (fills_count rfl (fun hzero => hzero ▸ rfl) rfl)) rfl

end Outcome

namespace Summary

lemma reads_counts {counts : Table Int} (h : Table.Ordered counts) :
    Reads intoCounts (Table.countsJson counts) [] counts := by
  intro read hread
  obtain ⟨found, hfound, rfl⟩ := Option.map_eq_some_iff.mp hread
  rw [reads_table h (fun entry _ => reads_int entry.2 0) found hfound]
  rfl

lemma reads_toJson {s : Summary} (hseverity : Table.Ordered s.bySeverity)
    (hkind : Table.Ordered s.byKind) : Reads (intoRecord false parts) s.toJson {} s := by
  obtain ⟨all, passed, failed, found, bySeverity, byKind, suppressed, baselined⟩ := s
  refine reads_record ?_
  refine .append (b := ⟨all, passed, failed, found, bySeverity, byKind, suppressed, 0⟩) ?_
    (fills_count rfl (fun hzero => hzero ▸ rfl) rfl)
  refine .append (b := ⟨all, passed, failed, found, bySeverity, byKind, 0, 0⟩) ?_
    (fills_count rfl (fun hzero => hzero ▸ rfl) rfl)
  refine .append (b := ⟨all, passed, failed, found, bySeverity, [], 0, 0⟩) ?_
    (.unless rfl (reads_counts hkind) (fun hempty => isEmpty_iff.mp hempty ▸ rfl) rfl)
  refine .append (b := ⟨all, passed, failed, found, [], [], 0, 0⟩) ?_
    (.unless rfl (reads_counts hseverity) (fun hempty => isEmpty_iff.mp hempty ▸ rfl) rfl)
  exact .trans_eq (.cons rfl (reads_int _ _) (.cons rfl (reads_int _ _)
    (.cons rfl (reads_int _ _) (.cons rfl (reads_int _ _) .nil)))) rfl

end Summary

namespace Report

/-- A report as a scan makes it, before the cache has its say. -/
structure Plain (r : Report) : Prop where
  cache : r.cache = none
  baseline : r.baseline = none
  bySeverity : Table.Ordered r.summary.bySeverity
  byKind : Table.Ordered r.summary.byKind
  finding : ∀ o ∈ r.outcomes.items, ∀ i ∈ o.issues.items, i.finding.Plain

lemma exists_reads_toJson {r : Report} (h : r.Plain) :
    ∃ moment, Reads into r.toJson {} { r with generatedAt := moment } := by
  obtain ⟨moment, hmoment⟩ :=
    exists_reads intoMoment (.str r.generatedAt.fullText) ⟨-62135596800, 0, 0⟩
  refine ⟨moment, ?_⟩
  obtain ⟨hcache, hbaseline, hseverity, hkind, hfinding⟩ := h
  obtain ⟨schema, runId, generatedAt, root, php, wp, severities, mode, ecosystems, files, outcomes,
      summary, cache, baseline, warnings⟩ := r
  cases hcache
  cases hbaseline
  have hback : ((severities.map fun all => all.map (·.label)).map fun all => all.map (⟨·⟩)) =
      severities := by
    cases severities with
    | none => rfl
    | some all => exact congrArg some ((map_map ..).trans (map_id'' (fun _ => rfl) all))
  refine reads_record ?_
  refine .append (.append (.append (b := ⟨schema, runId, moment, root, php, wp, severities, mode,
    ecosystems, files, outcomes, summary, none, none, []⟩) ?_ .nil) .nil)
    (.unless rfl (reads_texts (some warnings) _) (fun hempty => isEmpty_iff.mp hempty ▸ rfl) rfl)
  refine .append (b := ⟨schema, runId, moment, root, php, wp, severities, mode, none, 0, none, {},
    none, none, []⟩) (.append (b := ⟨schema, runId, moment, root, php, wp, severities, "", none, 0,
    none, {}, none, none,
    []⟩) ?_ (.unless rfl (reads_text _ _) (fun hempty => beq_iff_eq.mp hempty ▸ rfl) rfl)) ?_
  · rw [orNull_labels]
    refine .cons rfl (reads_text _ _) (.cons rfl (reads_text _ _) (.cons rfl hmoment ?_))
    dsimp only
    refine .cons rfl (reads_text _ _) (.cons rfl (reads_texts _ _) (.cons rfl (reads_texts _ _) ?_))
    dsimp only
    refine .trans_eq (.cons rfl (reads_texts _ _) .nil) ?_
    dsimp only
    rw [hback]
  · refine .cons rfl (reads_texts _ _) (.cons rfl (reads_int _ _) ?_)
    dsimp only
    exact .trans_eq (.cons rfl (reads_list (fun o ho => Outcome.reads_toJson (hfinding o ho)) _)
      (.cons rfl (Summary.reads_toJson hseverity hkind) .nil)) rfl

end Report

lemma Issue.proper_toJson {i : Issue} (h : (Value.record i.finding.context).toJson.Proper) :
    i.toJson.Proper := by
  rw [Value.toJson] at h
  simp [toJson, Finding.members, h]

lemma Outcome.proper_toJson {o : Outcome}
    (h : ∀ i ∈ o.issues.items, (Value.record i.finding.context).toJson.Proper) :
    o.toJson.Proper := by
  have hissues := proper_listing fun i hi => Issue.proper_toJson (h i hi)
  simp [toJson, countMember, memberUnless, hissues]

lemma Summary.proper_toJson (s : Summary) : s.toJson.Proper := by
  have hcounts (counts : Table Int) : (Table.countsJson counts).Proper :=
    .obj (forall_mem_map.mpr fun _ _ => proper_int _)
  simp [toJson, hcounts, countMember, memberUnless]

lemma CacheNote.proper_toJson (c : CacheNote) : c.toJson.Proper := by
  simp [toJson, textMember, memberUnless]

lemma BaselineNote.proper_toJson (b : BaselineNote) : b.toJson.Proper := by
  simp [toJson, textMember, memberUnless]

lemma Report.proper_toJson {r : Report} (h : ∀ o ∈ r.outcomes.items, ∀ i ∈ o.issues.items,
    (Value.record i.finding.context).toJson.Proper) : r.toJson.Proper := by
  have houtcomes :
      r.outcomesJson.Proper := proper_listing fun o ho => Outcome.proper_toJson (h o ho)
  simp [toJson, textMember, memberUnless, houtcomes, Summary.proper_toJson, CacheNote.proper_toJson,
    BaselineNote.proper_toJson]

/-! ### Kept documents -/

namespace Scan.Cache

lemma proper_pointerJson (p : CachePointer) : (pointerJson p).Proper := by
  simp [pointerJson]

@[simp] lemma pointer?_compact_pointerJson (p : CachePointer) :
    pointer? (compact (pointerJson p)).toList = some p := by
  rw [pointer?, parse?_compact (proper_pointerJson p)]
  rfl

lemma proper_document {r : Report} (h : r.Plain) : (obj [("report", r.toJson)]).Proper := by
  simpa using Report.proper_toJson fun o ho i hi => Value.Plain.proper (h.finding o ho i hi)

lemma exists_of_object?_objectText {r read : Report} (h : r.Plain)
    (hread : object? (objectText r).toList = some read) :
    ∃ moment, read = { r with generatedAt := moment } := by
  obtain ⟨moment, hmoment⟩ := Report.exists_reads_toJson h
  refine ⟨moment, hmoment read ?_⟩
  rw [object?, objectText, parse?_compact (proper_document h), Option.bind_some] at hread
  have hpart : partFor [("report", Report.into)] "report" = some Report.into := rfl
  rw [intoRecord, intoParts, hpart] at hread
  cases hinto : Report.into r.toJson {} with
  | none => simp [hinto] at hread
  | some found =>
    simp only [hinto, intoParts] at hread
    exact hread

end Scan.Cache

end PluginAudit
