import PluginAudit.Detector.Basic
import PluginAudit.Proofs.Tables

/-!
The contexts of findings. What detectors put there are texts and records of texts and truth values,
with their names in order, so that a document can hold it without loss.
-/

namespace PluginAudit

namespace Value

/-- A value without numbers, whose records have their names in order. -/
inductive Plain : Value → Prop
  | text (s : String) : Plain (.text s)
  | bool (b : Bool) : Plain (.bool b)
  | record {fields : List (String × Value)} (ordered : Table.Ordered fields)
    (plain : ∀ field ∈ fields, Plain field.2) : Plain (.record fields)

lemma plain_record_ofPairs {pairs : List (String × Value)} (h : ∀ pair ∈ pairs, pair.2.Plain) :
    (record (Table.ofPairs pairs)).Plain :=
  .record (Table.ordered_ofPairs pairs) fun pair hpair => h pair (Table.mem_ofPairs hpair)

end Value

namespace Finding

variable {f : Finding} {entries : List (String × String)}

def Plain (f : Finding) : Prop := (Value.record f.context).Plain

lemma plain_of_context_nil (h : f.context = []) : f.Plain := by
  rw [Plain, h]
  exact .record List.Pairwise.nil (by simp)

lemma plain_of_texts (h : f.context = Detector.texts entries) : f.Plain := by
  rw [Plain, h]
  refine Value.plain_record_ofPairs fun pair hpair => ?_
  obtain ⟨entry, -, rfl⟩ := List.mem_map.mp hpair
  exact .text entry.2

lemma Plain.withContext (h : f.Plain) (key : String) {value : Value} (hvalue : value.Plain) :
    (f.withContext key value).Plain := by
  cases h with
  | record ordered plain =>
    refine .record (ordered.insert key value) fun field hfield => ?_
    rcases Table.mem_insert hfield with rfl | hfield
    · exact hvalue
    · exact plain field hfield

/-- What a detector says of its findings: they name the judged file and have plain contexts. -/
structure ReportedIn (path : String) (f : Finding) : Prop where
  file : f.file = path
  plain : f.Plain

lemma reportedIn_of_texts {path : String} (hfile : f.file = path)
    (h : f.context = Detector.texts entries) : f.ReportedIn path :=
  ⟨hfile, plain_of_texts h⟩

end Finding

end PluginAudit
