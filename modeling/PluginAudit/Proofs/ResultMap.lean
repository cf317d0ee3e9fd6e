import PluginAudit.Proofs.CacheHistory

/-!
Kept results as a map. Main statement: what is found for an entry is the last report that was stored
under its key, if that was stored for the same input, whatever was stored under other keys.
-/

open List

namespace PluginAudit.Scan.Cache

open Table (get? insert get?_insert)
open FileTree Node

variable {n tree' : Node}

/-! ### The map -/

/-- A report that is stored for an entry. -/
structure Stored where
  entry : CacheEntry
  report : Report

namespace Stored

variable (s : Stored)

def kept : Report := { s.report with cache := none }

def readBack : Report := (object? (objectText s.kept).toList).getD {}

def objectName : String := digestText (objectText s.kept) ++ ".json"

end Stored

def storeAll (c : Cache) (tree : Node) (history : List Stored) : Node × Cache :=
  history.foldl (fun now s => now.2.store now.1 s.entry s.report) (tree, c)

def latest? (history : List Stored) (key : String) : Option Stored :=
  (history.filter (·.entry.key = key)).getLast?

def answer (history : List Stored) (e : CacheEntry) : Option (Except Invalidation Report) :=
  (latest? history e.key).map fun s =>
    if s.entry.input = e.input then .ok s.readBack else .error .inputChanged

/-- Different documents among those of the stored reports have different digests. -/
def Collisionless (history : List Stored) : Prop :=
  Set.InjOn Digest.sha256Hex {bytes | ∃ s ∈ history, bytes = bytesOf (objectText s.kept)}

variable {history : List Stored} {s : Stored} {key : String} {e : CacheEntry}

lemma latest?_concat (history : List Stored) (s : Stored) (key : String) :
    latest? (history ++ [s]) key = if s.entry.key = key then some s else latest? history key := by
  by_cases h : s.entry.key = key <;> simp [latest?, h]

lemma mem_of_latest? (h : latest? history key = some s) : s ∈ history :=
  mem_of_mem_filter (mem_of_getLast? h)

lemma answer_filter (history : List Stored) (e : CacheEntry) :
    answer (history.filter (·.entry.key = e.key)) e = answer history e := by
  simp [answer, latest?, filter_filter]

lemma Collisionless.mono {history' : List Stored} (h : Collisionless history)
    (hsub : ∀ s ∈ history', s ∈ history) : Collisionless history' := by
  apply Set.InjOn.mono _ h
  rintro bytes ⟨s, hs, rfl⟩
  exact ⟨s, hsub s hs, rfl⟩

lemma Collisionless.objectNode_eq {s' : Stored} (h : Collisionless history) (hs : s ∈ history)
    (hs' : s' ∈ history)
    (hname : s.objectName = s'.objectName) : objectNode s.kept = objectNode s'.kept := by
  have hbytes := h ⟨s, hs, rfl⟩ ⟨s', hs', rfl⟩ (eq_of_append_json hname)
  rw [objectNode, objectNode, hbytes]

/-! ### The files -/

/-- Each key that was used has a pointer to what was stored last. -/
def PointsAt (history : List Stored) (keys : List (String × Node)) : Prop :=
  ∀ key, get? (key ++ ".json") keys = (latest? history key).map fun s =>
    pointerNode s.entry.input s.kept

/-- The files are those of the stored reports. -/
structure Contains (history : List Stored) (objects : List (String × Node)) : Prop where
  object : ∀ s ∈ history, get? s.objectName objects = some (objectNode s.kept)
  origin : ∀ file n, get? file objects = some n → ∃ s ∈ history, s.objectName = file ∧
    objectNode s.kept = n

/-- The directories of results hold what was stored. -/
def Reflects (path : String) (tree : Node) (place : List String) (history : List Stored) : Prop :=
  ∃ entries keys objects, LeadsTo tree (Path.cleanComponents path) place entries ∧
    get? "keys" entries = some (.dir keys) ∧ get? "objects" entries = some (.dir objects) ∧
    PointsAt history keys ∧ Contains history objects

variable {keys objects : Table Node}

lemma PointsAt.exists_file (h : PointsAt history keys)
    (hget : get? (key ++ ".json") keys = some n) : ∃ content mode, n = .file content mode := by
  rw [h key, Option.map_eq_some_iff] at hget
  obtain ⟨s, -, rfl⟩ := hget
  exact ⟨_, _, rfl⟩

lemma PointsAt.insert (h : PointsAt history keys) (s : Stored) : PointsAt (history ++ [s])
      (insert (s.entry.key ++ ".json") (pointerNode s.entry.input s.kept) keys) := by
  intro key
  rw [get?_insert, latest?_concat]
  by_cases hkey : s.entry.key = key
  · rw [if_pos (by rw [hkey]), if_pos hkey, Option.map_some]
  · rw [if_neg (fun hname => hkey (eq_of_append_json hname)), if_neg hkey, h key]

lemma Contains.concat_of_mem (h : Contains history objects)
    (hobject : get? s.objectName objects = some (objectNode s.kept)) :
    Contains (history ++ [s]) objects := by
  constructor
  · intro t ht
    rcases mem_append.mp ht with ht | ht
    · exact h.object t ht
    · rw [mem_singleton.mp ht, hobject]
  · intro file n hget
    obtain ⟨t, ht, hname⟩ := h.origin file n hget
    exact ⟨t, mem_append_left _ ht, hname⟩

lemma Contains.insert (h : Contains history objects) (hmissing : get? s.objectName objects = none) :
    Contains (history ++ [s]) (insert s.objectName (objectNode s.kept) objects) := by
  constructor
  · intro t ht
    rw [get?_insert]
    rcases mem_append.mp ht with ht | ht
    · rw [if_neg, h.object t ht]
      intro hname
      have hobject := h.object t ht
      rw [← hname, hmissing] at hobject
      cases hobject
    · rw [mem_singleton.mp ht, if_pos rfl]
  · intro file n hget
    rw [get?_insert] at hget
    split at hget
    case isTrue hname =>
      cases hget
      exact ⟨s, mem_concat_self, hname, rfl⟩
    case isFalse =>
      obtain ⟨t, ht, hname⟩ := h.origin file n hget
      exact ⟨t, mem_append_left _ ht, hname⟩

lemma Contains.get?_objectName (h : Contains history objects)
    (hinj : Collisionless (history ++ [s])) :
    get? s.objectName objects = none ∨ get? s.objectName objects = some (objectNode s.kept) := by
  cases hget : get? s.objectName objects with
  | none => exact .inl rfl
  | some n =>
    obtain ⟨t, ht, hname, rfl⟩ := h.origin _ n hget
    rw [hinj.objectNode_eq (mem_append_left _ ht) mem_concat_self hname]
    exact .inr rfl

/-! ### One store -/

variable {c : Cache} {tree : Node} {place : List String}

def Stored.pointerText (s : Stored) : String :=
  Json.compact (pointerJson ⟨s.entry.input, digestText (objectText s.kept)⟩)

lemma write_of_stat (h : stat tree (c.objectPath (digestText (objectText s.kept))) = .ok n) :
    c.write tree s.entry s.report =
      overwrite tree (c.pointerPath s.entry.key) (bytesOf s.pointerText) := by
  unfold Stored.kept at h
  simp only [write, h, bind, Except.bind]
  rfl

lemma write_of_overwrite (h : stat tree (c.objectPath (digestText (objectText s.kept))) =
      .error .notFound) (hwrite : overwrite tree (c.objectPath (digestText (objectText s.kept)))
      (bytesOf (objectText s.kept)) = .ok tree') : c.write tree s.entry s.report =
      overwrite tree' (c.pointerPath s.entry.key) (bytesOf s.pointerText) := by
  unfold Stored.kept at h hwrite
  simp only [write, h, hwrite, bind, Except.bind]
  rfl

lemma exists_write_object (c : Cache) (habs : Path.isAbsolute c.path)
    (hinj : Collisionless (history ++ [s]))
    {entries : Table Node} (hleads : LeadsTo tree (Path.cleanComponents c.path) place entries)
    (hkeys : get? "keys" entries = some (.dir keys))
    (hobjects : get? "objects" entries = some (.dir objects)) (h : Contains history objects) :
    ∃ tree₁ entries₁ objects₁, c.write tree s.entry s.report =
        overwrite tree₁ (c.pointerPath s.entry.key) (bytesOf s.pointerText) ∧
      LeadsTo tree₁ (Path.cleanComponents c.path) place entries₁ ∧
      get? "keys" entries₁ = some (.dir keys) ∧ get? "objects" entries₁ = some (.dir objects₁) ∧
      Contains (history ++ [s]) objects₁ := by
  have hname := validName_objects.toIsName
  have hfile := (validName_digestText (objectText s.kept)).toIsName
  rcases h.get?_objectName hinj with hmissing | hthere
  · have hold :
        ∀ old, get? s.objectName objects = some old → ∃ content mode, old = .file content mode :=
      fun old hget => by simp [hmissing] at hget
    refine ⟨_, _, _, write_of_overwrite (stat_fileMissing habs hleads hname hfile hobjects hmissing)
      (overwrite_file habs hleads hname hfile hobjects hold (bytesOf (objectText s.kept))),
      leadsTo_put_over hleads hobjects hold _ _, ?_, ?_, h.insert hmissing⟩
    · rw [get?_insert, if_neg (by decide), hkeys]
    · rw [get?_insert, if_pos rfl]
      rfl
  · exact ⟨tree, entries, objects,
      write_of_stat (stat_file habs hleads hname hfile hobjects hthere), hleads, hkeys,
      hobjects, h.concat_of_mem hthere⟩

lemma Reflects.exists_write (h : Reflects c.path tree place history) (habs : Path.isAbsolute c.path)
    (hinj : Collisionless (history ++ [s])) (hkey : ValidName (s.entry.key ++ ".json")) : ∃ tree',
      c.write tree s.entry s.report = .ok tree' ∧ Reflects c.path tree' place (history ++ [s]) := by
  obtain ⟨entries, keys, objects, hleads, hkeys, hobjects, hpoints, hcontains⟩ := h
  obtain ⟨tree₁, entries₁, objects₁, hwrite, hleads₁, hkeys₁, hobjects₁, hcontains₁⟩ :=
    exists_write_object c habs hinj hleads hkeys hobjects hcontains
  have hold : ∀ old, get? (s.entry.key ++ ".json") keys = some old →
      ∃ content mode, old = .file content mode :=
    fun _ hget => hpoints.exists_file hget
  refine ⟨_, hwrite.trans
    (overwrite_file habs hleads₁ validName_keys.toIsName hkey.toIsName hkeys₁ hold _), _, _, _,
    leadsTo_put_over hleads₁ hkeys₁ hold _ _, ?_, ?_, hpoints.insert s, hcontains₁⟩
  · rw [get?_insert, if_pos rfl]
    rfl
  · rw [get?_insert, if_neg (by decide), hobjects₁]

/-! ### Looking up -/

lemma Reflects.lookup?_eq (h : Reflects c.path tree place history) (husable : c.usable)
    (habs : Path.isAbsolute c.path) (hlegible : ∀ s ∈ history, s.kept.Legible)
    (hkey : ValidName (e.key ++ ".json")) (here : String) :
    c.lookup? tree here e = answer history e := by
  obtain ⟨entries, keys, objects, hleads, hkeys, hobjects, hpoints, hcontains⟩ := h
  have hpointer := hpoints e.key
  cases hlatest : latest? history e.key with
  | none =>
    rw [hlatest, Option.map_none] at hpointer
    obtain ⟨cause, hread⟩ :=
      exists_readUnder_missing habs hleads validName_keys.toIsName hkey.toIsName hkeys hpointer here
    rw [answer, hlatest, lookup?, husable, pointerPath, hread]
    rfl
  | some s =>
    rw [hlatest, Option.map_some] at hpointer
    have hmem := mem_of_latest? hlatest
    rw [answer, hlatest, Option.map_some]
    by_cases hinput : s.entry.input = e.input
    · obtain ⟨read, hread⟩ := exists_object?_objectText (hlegible s hmem)
      rw [hinput] at hpointer
      rw [if_pos hinput, Stored.readBack, hread, Option.getD_some]
      exact lookup?_of_kept habs hleads hkeys hobjects husable hpointer
        (hcontains.object s hmem) hkey hread here
    · have hread :=
        readUnder_file habs hleads validName_keys.toIsName hkey.toIsName hkeys hpointer here
      rw [if_neg hinput, lookup?, husable, pointerPath, hread]
      simp [Cache.follow, hinput]

/-! ### Stores one after the other -/

lemma store_of_write {r : Report} (husable : c.usable) (h : c.write tree e r = .ok tree') :
    c.store tree e r = (tree', { c with written := true }) := by
  simp [store, husable, h]

lemma Reflects.exists_storeAll (h : Reflects c.path tree place []) (husable : c.usable)
    (habs : Path.isAbsolute c.path) (hinj : Collisionless history)
    (hnames : ∀ s ∈ history, ValidName (s.entry.key ++ ".json")) : ∃ tree',
      c.storeAll tree history = (tree', { c with written := c.written || !history.isEmpty }) ∧
      Reflects c.path tree' place history := by
  induction history using List.reverseRecOn with
  | nil => exact ⟨tree, by simp [storeAll], h⟩
  | append_singleton history s ih =>
    obtain ⟨tree₁, hstore, hreflects⟩ := ih (hinj.mono fun t ht => mem_append_left _ ht)
      fun t ht => hnames t (mem_append_left _ ht)
    obtain ⟨tree', hwrite, hreflects'⟩ :=
      hreflects.exists_write habs hinj (hnames s mem_concat_self)
    refine ⟨tree', ?_, hreflects'⟩
    -- a store does not look at what was written before
    have hlast : store { c with written := c.written || !history.isEmpty } tree₁ s.entry s.report =
        (tree', { c with written := true }) := store_of_write husable hwrite
    rw [storeAll] at hstore ⊢
    rw [foldl_append, hstore, foldl_cons, foldl_nil, hlast]
    simp

/-- The directories of results are a map. After any history of stores that begins with empty
directories, all of which succeed, what is found for an entry is the last report that was stored
under its key, read back from its document, if that was stored for the same input; it is known to be
outdated if it was stored for another input, and nothing is known under a key that was not used.
What was stored under other keys does not count. -/
theorem lookup?_storeAll {entries : List (String × Node)} (husable : c.usable = true)
    (habs : Path.isAbsolute c.path = true)
    (hleads : LeadsTo tree (Path.cleanComponents c.path) place entries)
    (hkeys : get? "keys" entries = some .emptyDir)
    (hobjects : get? "objects" entries = some .emptyDir)
    (hnames : ∀ s ∈ history, ValidName (s.entry.key ++ ".json"))
    (hlegible : ∀ s ∈ history, s.kept.Legible) (hinj : Collisionless history) :
    ∃ tree',
      c.storeAll tree history = (tree', { c with written := c.written || !history.isEmpty }) ∧
      (∀ s ∈ history, object? (objectText s.kept).toList = some s.readBack ∧
        (s.kept.Plain → ∃ moment, s.readBack = { s.kept with generatedAt := moment })) ∧
      ∀ here e, ValidName (e.key ++ ".json") → c.lookup? tree' here e = answer history e ∧
        c.lookup? (c.storeAll tree (history.filter (·.entry.key = e.key))).1 here e =
          c.lookup? tree' here e := by
  have hempty : Reflects c.path tree place [] :=
    ⟨entries, [], [], hleads, hkeys, hobjects, fun _ => rfl, by simp, by simp⟩
  obtain ⟨tree', hstore, hreflects⟩ := hempty.exists_storeAll husable habs hinj hnames
  refine ⟨tree', hstore, ?_, ?_⟩
  · intro s hs
    obtain ⟨read, hread⟩ := exists_object?_objectText (hlegible s hs)
    have hback : s.readBack = read := by rw [Stored.readBack, hread, Option.getD_some]
    refine ⟨by rw [hread, hback], fun hplain => ?_⟩
    rw [hback]
    exact exists_of_object?_objectText hplain hread
  · intro here e hkey
    have hlookup := hreflects.lookup?_eq husable habs hlegible hkey here
    refine ⟨hlookup, ?_⟩
    have hsub : ∀ s ∈ history.filter (·.entry.key = e.key), s ∈ history :=
      fun s hs => (mem_filter.mp hs).1
    obtain ⟨tree₁, hstore₁, hreflects₁⟩ := hempty.exists_storeAll husable habs (hinj.mono hsub)
      fun s hs => hnames s (hsub s hs)
    rw [hstore₁, hlookup, ← answer_filter]
    exact hreflects₁.lookup?_eq husable habs (fun s hs => hlegible s (hsub s hs)) hkey here

def sampleCache : Cache := { path := "/c", enabled := true, usable := true }

def emptyStore : Node := .dir [("c", .dir [("keys", .emptyDir), ("objects", .emptyDir)])]

/-- The first report is stored under two keys, and the second one replaces it under one of them. -/
def sampleHistory : List Stored :=
  [⟨⟨"a", "1"⟩, { runId := "first" }⟩, ⟨⟨"b", "1"⟩, { runId := "first" }⟩,
    ⟨⟨"a", "2"⟩, { runId := "second" }⟩]

lemma plain_ofRunId (runId : String) : Report.Plain { runId := runId } :=
  ⟨rfl, rfl, .nil, .nil, by simp [Listing.items]⟩

lemma legible_ofRunId (runId : String) : Report.Legible { runId := runId } := by
  have hempty : Report.Legible {} :=
    { generatedAt := by unfold Moment.Legible; decide +kernel
      filesScanned := by decide
      outcomes := by simp [Listing.items]
      summary := by constructor <;> decide
      baseline := by simp }
  exact ⟨hempty.generatedAt, hempty.filesScanned, hempty.outcomes, hempty.summary, hempty.baseline⟩

lemma leadsTo_sampleCache (entries : Table Node) :
    LeadsTo (.dir [("c", .dir entries)]) (Path.cleanComponents sampleCache.path) ["c"] entries := by
  rw [show Path.cleanComponents sampleCache.path = ["c"] by decide]
  refine ⟨by decide, ?_, rfl⟩
  rw [resolve_rooted (by decide)]
  exact follow_names (by decide) rfl (by simp)

lemma collisionless_sampleHistory : Collisionless sampleHistory := by
  have hdigest : digestText (objectText { runId := "first" }) ≠
    digestText (objectText { runId := "second" }) := by
    decide +kernel
  have hall :
      ∀ s ∈ sampleHistory, s.kept = { runId := "first" } ∨ s.kept = { runId := "second" } := by
    simp [sampleHistory, Stored.kept]
  rintro bytes ⟨s, hs, rfl⟩ bytes' ⟨s', hs', rfl⟩ hsame
  rcases hall s hs with h | h <;> rcases hall s' hs' with h' | h' <;> rw [h, h'] at hsame ⊢
  · exact absurd hsame hdigest
  · exact absurd hsame.symm hdigest

theorem lookup?_storeAll_sampleHistory :
    ∃ tree' first second, sampleCache.storeAll emptyStore sampleHistory =
        (tree', { sampleCache with written := true }) ∧
      sampleCache.lookup? tree' "/" ⟨"a", "1"⟩ = some (.error .inputChanged) ∧
      (sampleCache.lookup? tree' "/" ⟨"a", "2"⟩ = some (.ok second) ∧ second.runId = "second") ∧
      (sampleCache.lookup? tree' "/" ⟨"b", "1"⟩ = some (.ok first) ∧ first.runId = "first") ∧
      sampleCache.lookup? tree' "/" ⟨"d", "1"⟩ = none := by
  have hnames : ∀ s ∈ sampleHistory, ValidName (s.entry.key ++ ".json") := by decide
  have hkept : ∀ s ∈ sampleHistory, s.kept = { runId := s.report.runId } := by
    simp [sampleHistory, Stored.kept]
  have hlegible : ∀ s ∈ sampleHistory, s.kept.Legible := fun s hs => hkept s hs ▸ legible_ofRunId _
  have husable : sampleCache.usable = true := rfl
  have hleads := leadsTo_sampleCache [("keys", .emptyDir), ("objects", .emptyDir)]
  obtain ⟨tree', hstore, hread, hlookup⟩ :=
    lookup?_storeAll husable (by decide) hleads rfl rfl hnames hlegible collisionless_sampleHistory
  have hrunId : ∀ s ∈ sampleHistory, s.readBack.runId = s.report.runId := by
    intro s hs
    obtain ⟨moment, hback⟩ := (hread s hs).2 (hkept s hs ▸ plain_ofRunId _)
    rw [hback]
    rfl
  have hfound : ∀ e, ValidName (e.key ++ ".json") →
      sampleCache.lookup? tree' "/" e = answer sampleHistory e :=
    fun e hkey => (hlookup "/" e hkey).1
  refine ⟨tree', Stored.readBack ⟨⟨"b", "1"⟩, { runId := "first" }⟩,
    Stored.readBack ⟨⟨"a", "2"⟩, { runId := "second" }⟩, hstore, (hfound _ (by decide)).trans rfl,
    ⟨(hfound _ (by decide)).trans rfl, hrunId _ (by simp [sampleHistory])⟩,
    ⟨(hfound _ (by decide)).trans rfl, hrunId _ (by simp [sampleHistory])⟩,
    (hfound _ (by decide)).trans rfl⟩

end PluginAudit.Scan.Cache
