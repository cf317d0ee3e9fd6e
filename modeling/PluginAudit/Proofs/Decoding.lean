import PluginAudit.Proofs.CacheDocuments
import PluginAudit.Report.Baseline

/-!
What the documents of reports and snapshots are read as: reports with the same combinations and the
same fingerprints, if numbers and moments are read again as they were written.
-/

open List

namespace PluginAudit

open Decimal (fitsInt)
open Json

namespace Json

variable {α β γ : Type} {into : Decoder α} {zero : α} {parts : Parts α} {get : α → β}
  {set : β → α → α} {j : Json} {write : β → Json}
  {members : List (String × Json)} {items : Listing β} {name : String} {view f : α → γ}

/-! ### Documents that are taken -/

/-- A decoder takes a document, whatever it is put into. -/
def Accepts (into : Decoder α) (j : Json) : Prop := ∀ old, ∃ new, into j old = some new

lemma accepts_text (s : String) : Accepts intoText (.str s) := fun _ => ⟨s, rfl⟩

lemma accepts_bool (b : Bool) : Accepts intoBool (.bool b) := fun _ => ⟨b, rfl⟩

lemma accepts_int {n : Int} (h : fitsInt n) : Accepts intoInt (.int n) := by
  intro old
  refine ⟨n, (readInt?_intText n).trans ?_⟩
  rw [if_pos h]

lemma Accepts.through {into : Decoder β} (h : Accepts into j) :
    Accepts (Json.through get set into) j := by
  intro old
  obtain ⟨part, hpart⟩ := h (get old)
  exact ⟨set part old, by rw [Json.through, hpart, Option.map_some]⟩

lemma exists_intoItems (zero : α) {items : List Json} (h : ∀ j ∈ items, Accepts into j) :
    ∃ all, intoItems zero into items = some all := by
  induction items with
  | nil => exact ⟨[], rfl⟩
  | cons j items ih =>
    obtain ⟨first, hfirst⟩ := h j mem_cons_self zero
    obtain ⟨rest, hrest⟩ := ih (forall_mem_cons.mp h).2
    exact ⟨first :: rest, by simp [intoItems, hfirst, hrest]⟩

lemma accepts_list (h : ∀ item ∈ items.items, Accepts into (write item)) :
    Accepts (intoList zero into) (orNull (fun all => .arr (all.map write)) items) := by
  intro old
  cases items with
  | none => exact ⟨none, rfl⟩
  | some all =>
    obtain ⟨read, hread⟩ := exists_intoItems zero (forall_mem_map.mpr h)
    exact ⟨some read, by
      rw [orNull, intoList, show all = Listing.items (some all) from rfl, hread, Option.map_some]⟩

lemma accepts_texts (items : Listing String) : Accepts intoTexts (orNull .strs items) :=
  accepts_list fun item _ => accepts_text item

lemma accepts_table (h : ∀ m ∈ members, Accepts into m.2) :
    Accepts (intoTable zero into) (.obj members) := by
  have hentries : ∀ before, ∃ table, intoEntries zero into members before = some table := by
    induction members with
    | nil => exact fun before => ⟨before, rfl⟩
    | cons m members ih =>
      intro before
      obtain ⟨value, hvalue⟩ := h m mem_cons_self zero
      obtain ⟨table, htable⟩ := ih (forall_mem_cons.mp h).2 (Table.insert m.1 value before)
      exact ⟨table, by simp [intoEntries, hvalue, htable]⟩
  intro old
  obtain ⟨table, htable⟩ := hentries (old.getD [])
  exact ⟨some table, by simp [intoTable, htable]⟩

lemma accepts_option (h : Accepts into j) : Accepts (intoOption zero into) j := by
  intro old
  cases j with
  | null => exact ⟨none, rfl⟩
  | _ =>
    obtain ⟨new, hnew⟩ := h (old.getD zero)
    exact ⟨some new, by simp [intoOption, hnew]⟩

/-- A record has a part for each of some members, and the part takes it. -/
def Takes (parts : Parts α) (members : List (String × Json)) : Prop :=
  ∀ m ∈ members, ∃ into, partFor parts m.1 = some into ∧ Accepts into m.2

lemma Takes.nil : Takes parts [] := by simp [Takes]

lemma Takes.cons {into : Decoder β} (hpart : partFor parts name = some (through get set into))
    (h : Accepts into j) (hrest : Takes parts members) : Takes parts ((name, j) :: members) :=
  forall_mem_cons.mpr ⟨⟨_, hpart, h.through⟩, hrest⟩

lemma Takes.append {others : List (String × Json)} (h : Takes parts members)
    (hothers : Takes parts others) : Takes parts (members ++ others) :=
  forall_mem_append.mpr ⟨h, hothers⟩

lemma Takes.unless {p : Prop} [Decidable p] (h : Takes parts members) :
    Takes parts (if p then [] else members) := by
  split
  · exact .nil
  · exact h

lemma Takes.option {f : β → String × Json} {a : Option β} (h : ∀ x ∈ a, Takes parts [f x]) :
    Takes parts (a.map f).toList := by
  cases a with
  | none => exact .nil
  | some x => exact h x rfl

lemma accepts_record (h : Takes parts members) :
    Accepts (intoRecord false parts) (.obj members) := by
  have hparts : ∀ old, ∃ new, intoParts false parts members old = some new := by
    induction members with
    | nil => exact fun old => ⟨old, rfl⟩
    | cons m members ih =>
      intro old
      obtain ⟨into, hpart, haccepts⟩ := h m mem_cons_self
      obtain ⟨next, hnext⟩ := haccepts old
      obtain ⟨new, hnew⟩ := ih (forall_mem_cons.mp h).2 next
      exact ⟨new, by simp [intoParts, hpart, hnext, hnew]⟩
  exact hparts

/-! ### Fields that are read -/

/-- Reading a member leaves a field as it is. -/
def KeepsOn (parts : Parts α) (view : α → γ) (m : String × Json) : Prop :=
  ∀ into, partFor parts m.1 = some into → ∀ old new, into m.2 old = some new → view new = view old

lemma keepsOn_through {into : Decoder β} (hpart : partFor parts name = some (through get set into))
    (h : ∀ part a, view (set part a) = view a) (j : Json) : KeepsOn parts view (name, j) := by
  intro found hfound old new hnew
  rw [hpart] at hfound
  cases hfound
  obtain ⟨part, -, rfl⟩ := Option.map_eq_some_iff.mp hnew
  exact h part old

lemma invariant_of_intoParts {P : α → Prop}
    (h : ∀ m ∈ members, ∀ into, partFor parts m.1 = some into →
      ∀ old new, P old → into m.2 old = some new → P new) {old new : α} (hold : P old)
    (hread : intoParts false parts members old = some new) : P new := by
  induction members generalizing old with
  | nil =>
    cases hread
    exact hold
  | cons m members ih =>
    obtain ⟨hm, hmembers⟩ := forall_mem_cons.mp h
    rw [intoParts] at hread
    split at hread
    case h_1 into hpart =>
      split at hread
      case h_1 next hnext => exact ih hmembers (hm into hpart old next hold hnext) hread
      case h_2 => cases hread
    case h_2 => exact ih hmembers hold hread

lemma view_of_intoParts (h : ∀ m ∈ members, KeepsOn parts view m) {old new : α}
    (hread : intoParts false parts members old = some new) : view new = view old :=
  invariant_of_intoParts (P := fun a => view a = view old)
    (fun m hm into hpart a b ha hb => (h m hm into hpart a b hb).trans ha) rfl hread

lemma exists_of_intoParts {into : Decoder β}
    (hpart : partFor parts name = some (through get set into)) (view : α → γ)
    {after : List (String × Json)} (hafter : ∀ m ∈ after, KeepsOn parts view m) {old new : α}
    (hread : intoParts false parts ((name, j) :: after) old = some new) :
    ∃ part, into j (get old) = some part ∧ view new = view (set part old) := by
  rw [intoParts, hpart] at hread
  cases hnext : into j (get old) with
  | none => simp [through, hnext] at hread
  | some part =>
    simp only [through, hnext, Option.map_some] at hread
    exact ⟨part, rfl, view_of_intoParts hafter hread⟩

lemma map_eq_of_intoList {g : β → γ}
    (h : ∀ item read, into (write item) zero = some read → f read = g item) {old read : Listing α}
    (hread : intoList zero into (orNull (fun all => .arr (all.map write)) items) old = some read) :
    read.items.map f = items.items.map g := by
  cases items with
  | none =>
    cases hread
    rfl
  | some all =>
    obtain ⟨found, hfound, rfl⟩ := Option.map_eq_some_iff.mp hread
    exact map_eq_of_intoItems (fun item _ => h item) hfound

end Json

/-! ### Legible values -/

namespace Value

variable {v : Value}

lemma itemsToJson_eq_map (items : List Value) : itemsToJson items = items.map toJson := by
  induction items with
  | nil => rfl
  | cons item items ih => rw [itemsToJson, ih, map_cons]

/-- A value whose numbers are read again after they have been written. -/
inductive Legible : Value → Prop
  | null : Legible .null
  | bool (b : Bool) : Legible (.bool b)
  | text (s : String) : Legible (.text s)
  | number {x : Double} (finite : x.isFinite = true)
    (reads : (Decimal.readDouble? (Decimal.write numberStyle x).toList).isSome = true) :
    Legible (.number x)
  | list {items : List Value} (legible : ∀ item ∈ items, Legible item) : Legible (.list items)
  | record {fields : List (String × Value)} (legible : ∀ field ∈ fields, Legible field.2) :
    Legible (.record fields)

lemma Legible.proper (h : v.Legible) : v.toJson.Proper := by
  induction h with
  | null => exact .null
  | bool b => exact .bool b
  | text s => exact .str s
  | number finite => exact proper_double finite
  | list _ ih =>
    rw [toJson, itemsToJson_eq_map]
    exact .arr (forall_mem_map.mpr ih)
  | record _ ih =>
    rw [toJson, fieldsToJson_eq_map]
    exact .obj (forall_mem_map.mpr ih)

lemma exists_toValues {items : List Value}
    (h : ∀ item ∈ items, ∃ read, item.toJson.toValue = some read) :
    ∃ all, toValues (itemsToJson items) = some all := by
  induction items with
  | nil => exact ⟨[], rfl⟩
  | cons item items ih =>
    obtain ⟨first, hfirst⟩ := h item mem_cons_self
    obtain ⟨rest, hrest⟩ := ih (forall_mem_cons.mp h).2
    exact ⟨first :: rest, by simp [itemsToJson, toValues, hfirst, hrest]⟩

lemma exists_toFields {fields : List (String × Value)}
    (h : ∀ field ∈ fields, ∃ read, field.2.toJson.toValue = some read) :
    ∃ all, toFields (fieldsToJson fields) = some all := by
  induction fields with
  | nil => exact ⟨[], rfl⟩
  | cons field fields ih =>
    obtain ⟨name, value⟩ := field
    obtain ⟨first, hfirst⟩ := h _ mem_cons_self
    obtain ⟨rest, hrest⟩ := ih (forall_mem_cons.mp h).2
    refine ⟨(name, first) :: rest, ?_⟩
    simp [fieldsToJson, fieldToJson, toFields, toField, hfirst, hrest]

lemma Legible.exists_toValue (h : v.Legible) : ∃ read, v.toJson.toValue = some read := by
  induction h with
  | null => exact ⟨.null, rfl⟩
  | bool b => exact ⟨.bool b, rfl⟩
  | text s => exact ⟨.text s, rfl⟩
  | @number x _ reads =>
    obtain ⟨read, hread⟩ := Option.isSome_iff_exists.mp reads
    exact ⟨.number read, by simp [toJson, double, toValue, hread]⟩
  | list _ ih =>
    obtain ⟨all, hall⟩ := exists_toValues ih
    exact ⟨.list all, by simp [toJson, toValue, hall]⟩
  | record _ ih =>
    obtain ⟨all, hall⟩ := exists_toFields ih
    exact ⟨.record (Table.ofPairs all), by simp [toJson, toValue, hall]⟩

lemma Plain.legible (h : v.Plain) : v.Legible := by
  induction h with
  | text s => exact .text s
  | bool b => exact .bool b
  | record _ _ ih => exact .record ih

end Value

/-- The text of a moment is read as a moment. -/
def Moment.Legible (m : Moment) : Prop := (parse? m.fullText.toList).isSome = true

lemma accepts_moment {m : Moment} (h : m.Legible) : Accepts intoMoment (.str m.fullText) := by
  intro old
  obtain ⟨read, hread⟩ := Option.isSome_iff_exists.mp h
  exact ⟨read, hread⟩

/-! ### Issues -/

namespace Issue

structure Legible (i : Issue) : Prop where
  line : fitsInt i.finding.line = true
  context : (Value.record i.finding.context).Legible

lemma accepts_context {f : Finding} (h : (Value.record f.context).Legible) :
    Accepts Finding.intoContext (.obj (Value.fieldsToJson f.context)) := by
  cases h with
  | record legible =>
    intro old
    have hvalues : ∀ m ∈ Value.fieldsToJson f.context, Accepts intoValue m.2 := by
      rw [Value.fieldsToJson_eq_map]
      exact forall_mem_map.mpr fun field hfield _ => (legible field hfield).exists_toValue
    obtain ⟨table, htable⟩ := accepts_table hvalues (some old)
    exact ⟨table.getD [], by rw [Finding.intoContext, htable, Option.map_some]⟩

lemma accepts_toJson {i : Issue} (h : i.Legible) : Accepts (intoRecord false parts) i.toJson :=
  accepts_record (.append (.append (.append
    (.cons rfl (accepts_text _).through (.cons rfl (accepts_text _).through
      (.cons rfl (accepts_text _).through (.cons rfl (accepts_int h.line).through
        (.cons rfl (accepts_text _).through .nil)))))
    (.unless (.cons rfl (accepts_text _).through .nil)))
    (.unless (.cons rfl (accepts_context h.context).through .nil)))
    (.cons rfl (accepts_text _) (.cons rfl (accepts_text _) .nil)))

lemma fingerprint_of_read {i old read : Issue}
    (h : intoRecord false parts i.toJson old = some read) : read.fingerprint = i.fingerprint := by
  rw [toJson, intoRecord, intoParts_append] at h
  obtain ⟨found, -, h⟩ := Option.bind_eq_some_iff.mp h
  cases h
  rfl

end Issue

/-! ### Outcomes -/

namespace Outcome

structure Legible (o : Outcome) : Prop where
  issues : ∀ i ∈ o.issues.items, i.Legible
  suppressed : fitsInt o.suppressed = true
  baselined : fitsInt o.baselined = true

lemma Legible.accepts_toJson {o : Outcome} (h : o.Legible) :
    Accepts (intoRecord false parts) o.toJson :=
  accepts_record (.append (.append
    (.cons rfl (accepts_text _) (.cons rfl (accepts_text _) (.cons rfl (accepts_bool _)
      (.cons rfl (accepts_list fun i hi => Issue.accepts_toJson (h.issues i hi)) .nil))))
    (.unless (.cons rfl (accepts_int h.suppressed) .nil)))
    (.unless (.cons rfl (accepts_int h.baselined) .nil)))

def mark (o : Outcome) : String × String × List String :=
  (o.php, o.wp, o.issues.items.map (·.fingerprint))

lemma mark_of_read {o read : Outcome} (h : intoRecord false parts o.toJson {} = some read) :
    read.mark = o.mark := by
  have hcounts : ∀ m ∈ countMember "suppressed" o.suppressed ++ countMember "baselined" o.baselined,
      KeepsOn parts mark m :=
    forall_mem_append.mpr ⟨forall_mem_memberUnless (keepsOn_through rfl (by intros; rfl) _),
      forall_mem_memberUnless (keepsOn_through rfl (by intros; rfl) _)⟩
  rw [toJson, append_assoc] at h
  -- the members before the findings are read as they stand
  replace h : intoParts false parts (("findings", _) :: _) ⟨o.php, o.wp, o.passed, none, 0, 0⟩ =
    some read := h
  obtain ⟨issues, hissues, hmark⟩ := exists_of_intoParts rfl mark hcounts h
  rw [hmark, mark, mark, map_eq_of_intoList (fun _ _ => Issue.fingerprint_of_read) hissues]

end Outcome

/-! ### Reports -/

namespace Summary

structure Legible (s : Summary) : Prop where
  combinations : fitsInt s.combinations = true
  passed : fitsInt s.passedCombinations = true
  failed : fitsInt s.failedCombinations = true
  total : fitsInt s.totalFindings = true
  bySeverity : ∀ entry ∈ s.bySeverity, fitsInt entry.2 = true
  byKind : ∀ entry ∈ s.byKind, fitsInt entry.2 = true
  suppressed : fitsInt s.suppressed = true
  baselined : fitsInt s.baselined = true

lemma accepts_counts {counts : Table Int} (h : ∀ entry ∈ counts, fitsInt entry.2) :
    Accepts intoCounts (Table.countsJson counts) := by
  intro old
  have hmembers : ∀ m ∈ counts.map fun entry => (entry.1, int entry.2), Accepts intoInt m.2 :=
    forall_mem_map.mpr fun entry hentry => accepts_int (h entry hentry)
  obtain ⟨table, htable⟩ := accepts_table hmembers (some old)
  exact ⟨table.getD [], by rw [intoCounts, Table.countsJson, htable, Option.map_some]⟩

lemma accepts_toJson {s : Summary} (h : s.Legible) : Accepts (intoRecord false parts) s.toJson :=
  accepts_record (.append (.append (.append (.append
    (.cons rfl (accepts_int h.combinations) (.cons rfl (accepts_int h.passed)
      (.cons rfl (accepts_int h.failed) (.cons rfl (accepts_int h.total) .nil))))
    (.unless (.cons rfl (accepts_counts h.bySeverity) .nil)))
    (.unless (.cons rfl (accepts_counts h.byKind) .nil)))
    (.unless (.cons rfl (accepts_int h.suppressed) .nil)))
    (.unless (.cons rfl (accepts_int h.baselined) .nil)))

end Summary

lemma CacheNote.accepts_toJson (c : CacheNote) : Accepts (intoRecord false parts) c.toJson :=
  accepts_record (.append (.append (.append (.append (.cons rfl (accepts_bool _) .nil)
    (.unless (.cons rfl (accepts_text _) .nil))) (.cons rfl (accepts_bool _) .nil))
    (.unless (.cons rfl (accepts_bool _) .nil))) (.unless (.cons rfl (accepts_text _) .nil)))

lemma BaselineNote.accepts_toJson {b : BaselineNote} (h : fitsInt b.baselined) :
    Accepts (intoRecord false parts) b.toJson :=
  accepts_record (.append (.append (.unless (.cons rfl (accepts_text _) .nil))
    (.unless (.cons rfl (accepts_text _) .nil))) (.cons rfl (accepts_int h) .nil))

namespace Report

variable {r : Report}

/-- A report whose numbers and moment are read again after they have been written. -/
structure Legible (r : Report) : Prop where
  generatedAt : r.generatedAt.Legible
  filesScanned : fitsInt r.filesScanned = true
  outcomes : ∀ o ∈ r.outcomes.items, o.Legible
  summary : r.summary.Legible
  baseline : ∀ b ∈ r.baseline, fitsInt b.baselined = true

lemma accepts_toJson (h : r.Legible) : Accepts into r.toJson := by
  rw [toJson, orNull_labels]
  exact accepts_record (.append (.append (.append (.append (.append (.cons rfl (accepts_text _)
    (.cons rfl (accepts_text _) (.cons rfl (accepts_moment h.generatedAt)
      (.cons rfl (accepts_text _) (.cons rfl (accepts_texts _) (.cons rfl (accepts_texts _)
        (.cons rfl (accepts_texts _) .nil))))))) (.unless (.cons rfl (accepts_text _) .nil)))
    (.cons rfl (accepts_texts _) (.cons rfl (accepts_int h.filesScanned)
      (.cons rfl (accepts_list fun o ho =>
    (h.outcomes o ho).accepts_toJson) (.cons rfl (Summary.accepts_toJson h.summary) .nil)))))
    (.option fun c _ => .cons rfl (accepts_option c.accepts_toJson) .nil)) (.option fun b hb =>
    .cons rfl (accepts_option (BaselineNote.accepts_toJson (h.baseline b hb))) .nil))
    (.unless (.cons rfl (accepts_texts (some r.warnings)) .nil)))

lemma Legible.proper (h : r.Legible) : r.toJson.Proper :=
  Report.proper_toJson fun o ho i hi => ((h.outcomes o ho).issues i hi).context.proper

lemma exists_members_toJson (r : Report) :
    ∃ members, r.toJson = .obj members ∧ ∀ m ∈ members, m.1 ∈ parts.map (·.1) := by
  refine ⟨_, rfl, forall_mem_append.mpr ⟨forall_mem_append.mpr ⟨forall_mem_append.mpr
    ⟨forall_mem_append.mpr ⟨forall_mem_append.mpr ⟨?_, ?_⟩, ?_⟩, ?_⟩, ?_⟩, ?_⟩⟩
  · simp [parts]
  · exact forall_mem_memberUnless (by simp [parts])
  · simp [parts]
  · cases r.cache <;> simp [parts]
  · cases r.baseline <;> simp [parts]
  · exact forall_mem_memberUnless (by simp [parts])

def marks (r : Report) : List (String × String × List String) := r.outcomes.items.map Outcome.mark

lemma marks_of_read {old read : Report} (h : into r.toJson old = some read) :
    read.marks = r.marks := by
  let notes := (r.cache.map fun c => ("cache", c.toJson)).toList ++
    ((r.baseline.map fun b => ("baseline", b.toJson)).toList ++
      memberUnless r.warnings.isEmpty "warnings" (.strs r.warnings))
  have hafter : ∀ m ∈ ("summary", r.summary.toJson) :: notes, KeepsOn parts marks m := by
    refine forall_mem_cons.mpr ⟨keepsOn_through rfl (by intros; rfl) _, forall_mem_append.mpr ⟨?_,
      forall_mem_append.mpr ⟨?_, forall_mem_memberUnless (keepsOn_through rfl (by intros; rfl) _)⟩⟩⟩
    · cases r.cache with
      | none => simp
      | some c => simpa using keepsOn_through rfl (by intros; rfl) _
    · cases r.baseline with
      | none => simp
      | some b => simpa using keepsOn_through rfl (by intros; rfl) _
  rw [toJson, into, intoRecord, append_assoc, append_assoc, append_assoc, intoParts_append] at h
  obtain ⟨found, -, h⟩ := Option.bind_eq_some_iff.mp h
  change intoParts false parts ([_, _] ++ ("combinations", _) :: ("summary", _) :: notes) found =
    _ at h
  rw [intoParts_append] at h
  obtain ⟨found, -, h⟩ := Option.bind_eq_some_iff.mp h
  obtain ⟨outcomes, houtcomes, hmarks⟩ := exists_of_intoParts rfl marks hafter h
  rw [hmarks]
  exact map_eq_of_intoList (fun _ _ => Outcome.mark_of_read) houtcomes

end Report

/-! ### Snapshots -/

namespace Snapshot

structure Legible (s : Snapshot) : Prop where
  savedAt : s.savedAt.Legible
  report : s.report.Legible

lemma exists_ofJson? {s : Snapshot} (h : s.Legible) (hschema : Text.isBlank s.schema = false) :
    ∃ read, ofJson? s.toJson = some read ∧ read.schema = s.schema ∧ read.key = s.key ∧
      read.report.marks = s.report.marks := by
  obtain ⟨moment, hmoment⟩ := accepts_moment h.savedAt (Moment.mk (-62135596800) 0 0)
  obtain ⟨report, hreport⟩ := Report.accepts_toJson h.report {}
  have hparts : partFor parts "baselineSchemaVersion" = some (through (·.schema)
      (fun v s => { s with schema := v }) intoText) ∧
      partFor parts "key" = some (through (·.key) (fun v s => { s with key := v }) intoText) ∧
      partFor parts "savedAt" =
    some (through (·.savedAt) (fun v s => { s with savedAt := v }) intoMoment) ∧
      partFor parts "report" = some (through (·.report) (fun v s => { s with report := v })
        Report.into) := ⟨rfl, rfl, rfl, rfl⟩
  have hread : intoRecord false parts s.toJson {} = some ⟨s.schema, s.key, moment, report⟩ := by
    simp [toJson, intoRecord, intoParts, hparts, through, intoText, hmoment, hreport]
  refine ⟨⟨s.schema, s.key, moment, report⟩, ?_, rfl, rfl, Report.marks_of_read hreport⟩
  rw [ofJson?, hread]
  simp [hschema]

lemma ofJson?_report (r : Report) : ofJson? r.toJson = none := by
  have hnone : ∀ name ∈ Report.parts.map (·.1), (partFor parts name).isNone := by decide
  obtain ⟨members, htoJson, hnames⟩ := r.exists_members_toJson
  have hkeeps : ∀ m ∈ members, KeepsOn parts id m := by
    intro m hm into hinto
    have hmissing := hnone m.1 (hnames m hm)
    rw [hinto] at hmissing
    cases hmissing
  rw [htoJson, ofJson?]
  cases hread : intoRecord false parts (.obj members) {} with
  | none => rfl
  | some read =>
    obtain rfl : read = {} := view_of_intoParts hkeeps hread
    rfl

end Snapshot

lemma Scan.Cache.exists_object?_objectText {r : Report} (h : r.Legible) :
    ∃ read, object? (objectText r).toList = some read := by
  have hproper : (obj [("report", r.toJson)]).Proper := by
    refine .obj ?_
    simpa using h.proper
  have hpart : partFor [("report", Report.into)] "report" = some Report.into := rfl
  have haccepts :
      Accepts (intoRecord false [("report", Report.into)]) (.obj [("report", r.toJson)]) := by
    refine accepts_record fun m hm => ?_
    obtain rfl := mem_singleton.mp hm
    exact ⟨Report.into, hpart, Report.accepts_toJson h⟩
  obtain ⟨read, hread⟩ := haccepts {}
  refine ⟨read, ?_⟩
  rw [object?, objectText, parse?_compact hproper, Option.bind_some, hread]

end PluginAudit
