import PluginAudit.Proofs.ResultMap
import PluginAudit.Proofs.Truncation

/-!
Kept results whose files were damaged. Main statement: files that were cut short are never taken, a
document with the digest of a stored report holds this report, and in all other cases the scan is
done again.
-/

namespace PluginAudit.Scan

open FileTree Cache

/-! ### What a look-up reads -/

namespace Cache

variable {p : CachePointer}

/-- The files that a report is taken from: the pointer of an entry, for the input of the entry, and
the document that it names. -/
structure Yields (c : Cache) (tree : Node) (here : String) (e : CacheEntry) (pointer : Bytes)
    (p : CachePointer) (document : Bytes) (r : Report) : Prop where
  usable : c.usable = true
  pointed : readUnder tree here c.path (c.pointerPath e.key) = .ok pointer
  decoded : pointer? (Text.decodeBytes pointer) = some p
  input : p.input = e.input
  found : readUnder tree here c.path (c.objectPath p.object) = .ok document
  holds : object? (Text.decodeBytes document) = some r

variable {c : Cache} {tree : Node} {here : String} {e : CacheEntry} {r : Report}

lemma lookup?_eq_ok_iff : c.lookup? tree here e = some (.ok r) ↔
    ∃ pointer p document, c.Yields tree here e pointer p document r := by
  constructor
  · intro h
    obtain ⟨pointer, p, document, hpointed, hdecoded, hinput, hfound, hholds⟩ := lookup?_eq_ok h
    have husable : c.usable := by
      by_contra hnot
      rw [lookup?_of_not_usable (Bool.not_eq_true _ ▸ hnot)] at h
      cases h
    exact ⟨pointer, p, document, husable, hpointed, hdecoded, hinput, hfound, hholds⟩
  · rintro ⟨pointer, p, document, husable, hpointed, hdecoded, hinput, hfound, hholds⟩
    simp [lookup?, husable, hpointed, hdecoded, follow, hinput, hfound, hholds]

/-! ### Files that were cut short -/

/-- Some bytes of a text up to a place before its end. -/
def Truncated (bytes : Bytes) (text : String) : Prop :=
  ∃ n < (bytesOf text).length, bytes = (bytesOf text).take n

lemma pointer?_of_truncated {bytes : Bytes} (h : Truncated bytes (Json.compact (pointerJson p))) :
    pointer? (Text.decodeBytes bytes) = none := by
  obtain ⟨n, hn, rfl⟩ := h
  rw [pointer?, pointerJson, Json.parse?_take_eq_none (proper_pointerJson p) hn, Option.bind_none]

lemma object?_of_truncated {bytes : Bytes} {r : Report} (hr : r.Plain)
    (h : Truncated bytes (objectText r)) : object? (Text.decodeBytes bytes) = none := by
  obtain ⟨n, hn, rfl⟩ := h
  rw [object?, objectText, Json.parse?_take_eq_none (proper_document hr) hn, Option.bind_none]

lemma Yields.object?_eq {pointer document : Bytes} (h : c.Yields tree here e pointer p document r)
    {stored : Report} (hdigest : Digest.sha256Hex document = digestText (objectText stored))
    (hinj : Set.InjOn Digest.sha256Hex {document, bytesOf (objectText stored)}) :
    object? (objectText stored).toList = some r := by
  have hsame : document = bytesOf (objectText stored) := hinj (by simp) (by simp) hdigest
  rw [← decodeBytes_bytesOf, ← hsame]
  exact h.holds

@[simp] lemma hit_prepare (tree : Node) (s : CacheSettings) (root : String) :
    (prepare tree s root).2.hit = false := by
  unfold prepare
  by_cases henabled : s.enabled
  · simp only [henabled, Bool.not_true, Bool.false_eq_true, if_false]
    split
    · rfl
    · split <;> rfl
  · simp [henabled]

end Cache

/-! ### Scans over any files -/

namespace Visit

variable (v : Visit) (t : Target) (paths : List String) (ecosystems : Tags)

def opened : Cache × CacheEntry :=
  entryOf v.means (v.prepared t)
    (Cache.prepare v.world.tree v.request.settings.cache t.root).2 v.request t paths ecosystems

/-- The files that the scan takes a report from. -/
def Yields (pointer : Bytes) (p : CachePointer) (document : Bytes) (r : Report) : Prop :=
  (v.opened t paths ecosystems).1.Yields (v.prepared t) v.means.here
    (v.opened t paths ecosystems).2 pointer p document r

/-- The scan ends as its plan does, and does not say that it used a kept report. -/
def Recomputes : Prop :=
  ∃ (warnings : List String) (note : Option CacheNote), (∀ n ∈ note, n.hit = false) ∧
    (runOn v.means v.world v.request t paths ecosystems).2 =
      (planOf v.means (v.prepared t) t.root paths ecosystems v.request.settings).map fun p =>
        { planReport v.means p v.request.settings with
          warnings := (planReport v.means p v.request.settings).warnings ++ warnings, cache :=
            note }

lemma prepare_eq : prepare v.world.tree v.request.settings.cache t.root =
    (v.prepared t, (prepare v.world.tree v.request.settings.cache t.root).2) := Prod.mk.eta.symm

lemma entryOf_eq_opened : entryOf v.means (v.prepared t)
    (prepare v.world.tree v.request.settings.cache t.root).2 v.request t paths ecosystems =
      ((v.opened t paths ecosystems).1, (v.opened t paths ecosystems).2) := Prod.mk.eta.symm

variable {v t paths ecosystems}

lemma recomputes_of_miss
    (h : ∀ r, (v.opened t paths ecosystems).1.lookup? (v.prepared t) v.means.here
    (v.opened t paths ecosystems).2 ≠ some (.ok r)) : v.Recomputes t paths ecosystems := by
  obtain ⟨reason, hrun⟩ := exists_runOn_of_miss (v.prepare_eq t)
    (v.entryOf_eq_opened t paths ecosystems) h
  unfold Recomputes
  rw [hrun]
  cases hplan : planOf v.means (v.prepared t) t.root paths ecosystems v.request.settings with
  | error cause => exact ⟨[], none, by simp, rfl⟩
  | ok p =>
    refine ⟨_, _, fun n hn => ?_, congrArg Except.ok execute_eq.2⟩
    rw [hit_of_note? hn, hit_store]
    exact (entryOf_frame ..).2.2.trans (hit_prepare ..)

/-- Whatever files are among the kept results, a report is taken from them exactly where one is a
pointer for the input of the scan and another, which it names, is a document of a report. What was
cut short is neither, and a document with the digest that a store gave its report holds this report.
In all other cases the scan is done again. -/
theorem yields_or_recomputes (v : Visit) (t : Target) (paths : List String) (ecosystems : Tags) :
    (∀ r, (v.opened t paths ecosystems).1.lookup? (v.prepared t) v.means.here
      (v.opened t paths ecosystems).2 =
      some (.ok r) ↔ ∃ pointer p document, v.Yields t paths ecosystems pointer p document r) ∧
    (∀ pointer p document r, v.Yields t paths ecosystems pointer p document r →
      (runOn v.means v.world v.request t paths ecosystems).2 =
        .ok (reuse v.means (v.opened t paths ecosystems).1 r) ∧
      (∀ written, ¬ Cache.Truncated pointer (Cache.pointerJson written).compact) ∧
      (∀ stored : Report, stored.Plain → ¬ Cache.Truncated document (Cache.objectText stored)) ∧
      ∀ stored : Report, stored.Plain → p.object = Cache.digestText (Cache.objectText stored) →
        Digest.sha256Hex document = p.object →
        Set.InjOn Digest.sha256Hex {document, bytesOf (Cache.objectText stored)} →
        ∃ moment, r = { stored with generatedAt := moment }) ∧
    ((∀ pointer p document r, ¬ v.Yields t paths ecosystems pointer p document r) →
      v.Recomputes t paths ecosystems) := by
  refine ⟨fun r => Cache.lookup?_eq_ok_iff, fun pointer p document r h => ⟨?_, ?_, ?_, ?_⟩,
    fun hnone => ?_⟩
  · have hlookup := Cache.lookup?_eq_ok_iff.mpr ⟨pointer, p, document, h⟩
    exact (runOn_of_hit (v.prepare_eq t) (v.entryOf_eq_opened t paths ecosystems) hlookup).2
  · intro written hcut
    have hdecoded := h.decoded
    rw [Cache.pointer?_of_truncated hcut] at hdecoded
    cases hdecoded
  · intro stored hplain hcut
    have hholds := h.holds
    rw [Cache.object?_of_truncated hplain hcut] at hholds
    cases hholds
  · intro stored hplain hobject hdigest hinj
    exact Cache.exists_of_object?_objectText hplain (h.object?_eq (hdigest.trans hobject) hinj)
  · refine recomputes_of_miss fun r hlookup => ?_
    obtain ⟨pointer, p, document, h⟩ := Cache.lookup?_eq_ok_iff.mp hlookup
    exact hnone pointer p document r h

end Visit

/-- A result that was stored, with an empty document in place of its own. -/
def spoiledFiles : List (String × Node) :=
  [("keys", .dir [("k.json", pointerNode "1" { runId := "first" })]),
    ("objects", .dir [(Cache.digestText (Cache.objectText { runId := "first" }) ++ ".json",
      .file (bytesOf "\x7b\x7d") .plain)])]

lemma yields_spoiledFiles : sampleCache.Yields (.dir [("c", .dir spoiledFiles)]) "/" ⟨"k", "1"⟩
    (bytesOf (pointerJson ⟨"1", digestText (objectText { runId := "first" })⟩).compact)
    ⟨"1", digestText (objectText { runId := "first" })⟩ (bytesOf "\x7b\x7d") {} := by
  have habs : Path.isAbsolute sampleCache.path := by decide
  have hleads := leadsTo_sampleCache spoiledFiles
  have hkey : Node.ValidName "k.json" := by decide
  have hobject := (validName_digestText (objectText { runId := "first" })).toIsName
  constructor
  case usable => rfl
  case pointed => exact readUnder_file habs hleads validName_keys.toIsName hkey.toIsName rfl rfl "/"
  case decoded => rw [decodeBytes_bytesOf, pointer?_compact_pointerJson]
  case input => rfl
  case found =>
    have hget : Table.get? (digestText (objectText { runId := "first" }) ++ ".json")
        [(digestText (objectText { runId := "first" }) ++ ".json",
          Node.file (bytesOf "\x7b\x7d") .plain)] = some (.file (bytesOf "\x7b\x7d") .plain) := by
      simp [Table.get?]
    exact readUnder_file habs hleads validName_objects.toIsName hobject rfl hget "/"
  case holds =>
    rw [decodeBytes_bytesOf]
    decide +kernel

/-- A report is taken from an edited document, whose digest is not the one that the pointer
gives. -/
theorem exists_hit_of_other_digest :
    ¬ ∀ (c : Cache) (tree : Node) (here : String) (e : CacheEntry) (r : Report),
      c.lookup? tree here e = some (.ok r) → ∃ pointer p document,
        c.Yields tree here e pointer p document r ∧ Digest.sha256Hex document = p.object := by
  intro h
  have hyields := yields_spoiledFiles
  obtain ⟨pointer, p, document, hother, hdigest⟩ :=
    h _ _ _ _ _ (Cache.lookup?_eq_ok_iff.mpr ⟨_, _, _, hyields⟩)
  obtain rfl := Except.ok.inj (hother.pointed.symm.trans hyields.pointed)
  obtain rfl := Option.some.inj (hother.decoded.symm.trans hyields.decoded)
  obtain rfl := Except.ok.inj (hother.found.symm.trans hyields.found)
  revert hdigest
  decide +kernel

end PluginAudit.Scan
