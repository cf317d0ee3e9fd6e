import PluginAudit.Proofs.OverlayMerging
import PluginAudit.Proofs.PlanAgreement

/-!
One scan, by what it finds among kept results: it returns a kept one, or makes a plan and keeps what
it finds, or, where no results are kept, makes a plan and leaves the files as they are.
-/

namespace PluginAudit.Scan

open Cache (store note? prepare pathOf inputRecords keyDigest digestText recordText lookup?)

variable {m : Means} {w : World} {q : Request} {t : Target} {paths : List String} {tags : Tags}
  {tree : Node} {c c' : Cache} {e : CacheEntry} {r : Report} {note : CacheNote}

lemma run_of_survey (h : survey m w.tree q = .ok (t, paths, tags)) :
    run m w q = runOn m w q t paths tags := by
  rw [run, h]

lemma exists_survey_of_run (hrun : (run m w q).2 = .ok r) : ∃ t paths tags,
    survey m w.tree q = .ok (t, paths, tags) ∧ (runOn m w q t paths tags).2 = .ok r := by
  cases hsurvey : survey m w.tree q with
  | error cause =>
    rw [run, hsurvey] at hrun
    cases hrun
  | ok surveyed => exact ⟨_, _, _, rfl, run_of_survey hsurvey ▸ hrun⟩

lemma execute_eq {p : Plan} {s : Settings} :
    (execute m w c e p s).1.tree = (c.store w.tree e (planReport m p s)).1 ∧
      (execute m w c e p s).2 = { planReport m p s with
        warnings := (planReport m p s).warnings ++ (c.store w.tree e (planReport m p s)).2.warnings
        cache := (c.store w.tree e (planReport m p s)).2.note? } := ⟨rfl, rfl⟩

@[simp] lemma hit_store (c : Cache) (tree : Node) (e : CacheEntry) (r : Report) :
    (c.store tree e r).2.hit = c.hit := by
  unfold store
  split
  · rfl
  · split <;> rfl

lemma hit_of_note? (h : c.note? = some note) : note.hit = c.hit := by
  unfold note? at h
  split at h
  · cases h
    rfl
  · cases h

lemma prepare_of_disabled {s : CacheSettings} (hcache : s.enabled = false) (tree : Node)
    (root : String) :
    prepare tree s root = (tree, { path := pathOf s root, enabled := false }) := by
  simp [prepare, hcache]

section Entry

variable (hprepare : prepare w.tree q.settings.cache t.root = (tree, c))
  (hentry : entryOf m tree c q t paths tags = (c', e))

include hprepare hentry

lemma runOn_of_hit {r : Report} (hlookup : c'.lookup? tree m.here e = some (.ok r)) :
    (runOn m w q t paths tags).1.tree = tree ∧
      (runOn m w q t paths tags).2 = .ok (reuse m c' r) := by
  simp only [runOn, hprepare, hentry, hlookup, and_self]

lemma enabled_of_lookup? {r : Except Invalidation Report}
    (hlookup : c'.lookup? tree m.here e = some r) : q.settings.cache.enabled := by
  by_contra hdisabled
  rw [prepare_of_disabled (Bool.eq_false_of_not_eq_true hdisabled)] at hprepare
  cases hprepare
  cases hentry
  cases hlookup

lemma exists_runOn_of_miss (hlookup : ∀ r, c'.lookup? tree m.here e ≠ some (.ok r)) :
    ∃ reason, runOn m w q t paths tags =
      match planOf m tree t.root paths tags q.settings with
      | .error cause => ({ w with tree }, .error cause)
      | .ok p =>
        let done := execute m { w with tree } { c' with invalidation := reason } e p q.settings
        (done.1, .ok done.2) := by
  unfold runOn
  simp only [hprepare, hentry]
  cases hfound : c'.lookup? tree m.here e with
  | none => exact ⟨_, rfl⟩
  | some known =>
    cases known with
    | ok r => exact absurd hfound (hlookup r)
    | error reason => exact ⟨_, rfl⟩

lemma runOn_cases :
    (∃ r, c'.lookup? tree m.here e = some (.ok r) ∧ (runOn m w q t paths tags).1.tree = tree ∧
      (runOn m w q t paths tags).2 = .ok (reuse m c' r)) ∨ (∃ cause,
      (runOn m w q t paths tags).1.tree = tree ∧ (runOn m w q t paths tags).2 = .error cause) ∨
    ∃ p warnings note, ∃ c'' : Cache, planOf m tree t.root paths tags q.settings = .ok p ∧
      (runOn m w q t paths tags).1.tree = (c''.store tree e (planReport m p q.settings)).1 ∧
      (runOn m w q t paths tags).2 =
        .ok { planReport m p q.settings with warnings, cache := note } := by
  by_cases hlookup : ∃ r, c'.lookup? tree m.here e = some (.ok r)
  · obtain ⟨r, hr⟩ := hlookup
    exact .inl ⟨r, hr, runOn_of_hit hprepare hentry hr⟩
  · rw [not_exists] at hlookup
    obtain ⟨reason, hrun⟩ := exists_runOn_of_miss hprepare hentry hlookup
    cases hplan : planOf m tree t.root paths tags q.settings with
    | error cause =>
      rw [hplan] at hrun
      exact .inr (.inl ⟨cause, by rw [hrun], by rw [hrun]⟩)
    | ok p =>
      rw [hplan] at hrun
      have hdone := execute_eq (m := m) (w := { w with tree })
        (c := { c' with invalidation := reason }) (e := e) (p := p) (s := q.settings)
      exact .inr (.inr ⟨p, _, _, _, rfl, (congrArg (·.1.tree) hrun).trans hdone.1,
        (congrArg Prod.snd hrun).trans (congrArg Except.ok hdone.2)⟩)

lemma hit_of_miss (hlookup : ∀ r, c'.lookup? tree m.here e ≠ some (.ok r)) {r : Report}
    (hrun : (runOn m w q t paths tags).2 = .ok r) {note : CacheNote} (hnote : r.cache = some note) :
    note.hit = c'.hit := by
  obtain ⟨reason, heq⟩ := exists_runOn_of_miss hprepare hentry hlookup
  rw [heq] at hrun
  cases hplan : planOf m tree t.root paths tags q.settings with
  | error cause => simp [hplan] at hrun
  | ok p =>
    rw [hplan] at hrun
    cases hrun
    rw [execute_eq.2] at hnote
    rw [hit_of_note? hnote, hit_store]

lemma runOn_of_write (husable : c'.usable) (hlookup : ∀ r, c'.lookup? tree m.here e ≠ some (.ok r))
    {p : Plan} (hplan : planOf m tree t.root paths tags q.settings = .ok p) {tree' : Node}
    (hwrite : c'.write tree e (planReport m p q.settings) = .ok tree') :
    (runOn m w q t paths tags).1.tree = tree' := by
  obtain ⟨reason, hrun⟩ := exists_runOn_of_miss hprepare hentry hlookup
  rw [hplan] at hrun
  have hwrite' :
      { c' with invalidation := reason }.write tree e (planReport m p q.settings) = .ok tree' :=
    hwrite
  have hstore :
      ({ c' with invalidation := reason }.store tree e (planReport m p q.settings)).1 = tree' := by
    rw [store, hwrite', if_neg (by simp [husable])]
  rw [hrun]
  exact execute_eq.1.trans hstore

end Entry

lemma entryOf_eq {c : Cache} (husable : c.usable) (hfinite : q.settings.lint.rate.isFinite)
    {records : List String} (hrecords : inputRecords tree m.here t.root paths q.config
      q.settings.exclusionConfig tags = .ok records) : entryOf m tree c q t paths tags =
      (c, ⟨keyDigest t.root t.file q.settings, digestText (recordText records)⟩) := by
  rw [entryOf, Cache.inputDigest, husable, hfinite, hrecords]
  rfl

lemma entryOf_cases (m : Means) (tree : Node) (q : Request) (t : Target) (paths : List String)
    (tags : Tags) (husable : c.usable) :
    (∃ c', entryOf m tree c q t paths tags = (c', ⟨"", ""⟩) ∧ c'.usable = false ∧ c'.hit = c.hit) ∨
      q.settings.lint.rate.isFinite ∧ ∃ records, inputRecords tree m.here t.root paths q.config
          q.settings.exclusionConfig tags = .ok records ∧ entryOf m tree c q t paths tags =
          (c, ⟨keyDigest t.root t.file q.settings, digestText (recordText records)⟩) := by
  cases hrate : q.settings.lint.rate.isFinite with
  | false =>
    refine .inl ⟨c.disable (Json.unwritable q.settings.lint.rate), ?_, rfl, rfl⟩
    rw [entryOf, husable, hrate]
    rfl
  | true =>
    cases hrecords :
      inputRecords tree m.here t.root paths q.config q.settings.exclusionConfig tags with
    | error cause =>
      refine .inl ⟨c.disable cause.message, ?_, rfl, rfl⟩
      rw [entryOf, Cache.inputDigest, husable, hrate, hrecords]
      rfl
    | ok records => exact .inr ⟨rfl, records, rfl, entryOf_eq husable hrate hrecords⟩

lemma lookup?_of_not_usable (h : c.usable = false) (tree : Node) (here : String) (e : CacheEntry) :
    c.lookup? tree here e = none := by
  rw [lookup?, h]
  rfl

lemma store_of_not_usable (h : c.usable = false) (tree : Node) (e : CacheEntry) (r : Report) :
    c.store tree e r = (tree, c) := by
  rw [store, h]
  rfl

lemma lookup?_eq_ok {here : String} (h : c.lookup? tree here e = some (.ok r)) :
    ∃ content p content', FileTree.readUnder tree here c.path (c.pointerPath e.key) = .ok content ∧
      Cache.pointer? (Text.decodeBytes content) = some p ∧ p.input = e.input ∧
      FileTree.readUnder tree here c.path (c.objectPath p.object) = .ok content' ∧
      Cache.object? (Text.decodeBytes content') = some r := by
  unfold lookup? at h
  split at h
  · cases h
  split at h
  · cases h
  rename_i content hcontent
  rw [Option.some.injEq] at h
  split at h
  · cases h
  rename_i p hp
  unfold Cache.follow at h
  split at h
  · cases h
  rename_i hinput
  split at h
  · cases h
  rename_i content' hcontent'
  split at h
  · rename_i found hfound
    cases h
    exact ⟨content, p, content', hcontent, hp, not_not.mp hinput, hcontent', hfound⟩
  · cases h

lemma exists_lookup_of_hit (hprepare : prepare w.tree q.settings.cache t.root = (tree, c))
    (husable : c.usable) (hhit : c.hit = false) (hrun : (runOn m w q t paths tags).2 = .ok r)
    (hnote : r.cache = some note)
    (hkept : note.hit) : q.settings.lint.rate.isFinite ∧ ∃ records kept,
      inputRecords tree m.here t.root paths q.config q.settings.exclusionConfig tags = .ok records ∧
      c.lookup? tree m.here ⟨keyDigest t.root t.file q.settings,
        digestText (recordText records)⟩ = some (.ok kept) ∧ r = reuse m c kept := by
  have hmiss : ∀ c' e, entryOf m tree c q t paths tags = (c', e) → c'.hit = false →
      ∃ kept, c'.lookup? tree m.here e = some (.ok kept) := by
    intro c' e hentry hfalse
    by_contra hnone
    rw [not_exists] at hnone
    rw [hit_of_miss hprepare hentry hnone hrun hnote, hfalse] at hkept
    cases hkept
  rcases entryOf_cases m tree q t paths tags husable with
    ⟨c', hentry, hnot, hsame⟩ | ⟨hfinite, records, hrecords, hentry⟩
  · obtain ⟨kept, hlookup⟩ := hmiss _ _ hentry (hsame.trans hhit)
    rw [lookup?_of_not_usable hnot] at hlookup
    cases hlookup
  · obtain ⟨kept, hlookup⟩ := hmiss _ _ hentry hhit
    refine ⟨hfinite, records, kept, hrecords, hlookup, ?_⟩
    rw [(runOn_of_hit hprepare hentry hlookup).2] at hrun
    exact (Except.ok.inj hrun).symm

lemma store_cases (c : Cache) (tree : Node) (e : CacheEntry) (r : Report) :
    (c.store tree e r).1 = tree ∨ FileTree.left (c.write tree e r) = (c.store tree e r).1 := by
  unfold store
  split
  · exact .inl rfl
  · cases c.write tree e r with
    | ok tree' => exact .inr rfl
    | error failed => exact .inr rfl

/-- A scan changes no file besides those of the results, where it keeps what it found by itself. -/
lemma runOn_tree (m : Means) (paths : List String) (tags : Tags)
    (hprepare : prepare w.tree q.settings.cache t.root = (tree, c))
    (husable : c.usable) (hhit : c.hit = false) :
    (runOn m w q t paths tags).1.tree = tree ∨ q.settings.lint.rate.isFinite ∧
        (∀ r note, (runOn m w q t paths tags).2 = .ok r → r.cache = some note → note.hit = false) ∧
        ∃ records p, ∃ c' : Cache,
          inputRecords tree m.here t.root paths q.config q.settings.exclusionConfig tags =
            .ok records ∧ planOf m tree t.root paths tags q.settings = .ok p ∧
          c'.path = c.path ∧ FileTree.left (c'.write tree ⟨keyDigest t.root t.file q.settings,
            digestText (recordText records)⟩ (planReport m p q.settings)) =
              (runOn m w q t paths tags).1.tree := by
  rcases entryOf_cases m tree q t paths tags husable with
    ⟨c', hentry, hnot, -⟩ | ⟨hfinite, records, hrecords, hentry⟩
  · left
    have hlookup := lookup?_of_not_usable hnot tree m.here ⟨"", ""⟩
    obtain ⟨reason, hrun⟩ := exists_runOn_of_miss hprepare hentry (by simp [hlookup])
    rw [hrun]
    cases planOf m tree t.root paths tags q.settings with
    | error cause => rfl
    | ok p =>
      have hnot' : { c' with invalidation := reason }.usable = false := hnot
      exact execute_eq.1.trans (by rw [store_of_not_usable hnot'])
  · by_cases hlookup : ∃ r, c.lookup? tree m.here ⟨keyDigest t.root t.file q.settings,
        digestText (recordText records)⟩ = some (.ok r)
    · obtain ⟨r, hr⟩ := hlookup
      exact .inl (runOn_of_hit hprepare hentry hr).1
    · rw [not_exists] at hlookup
      obtain ⟨reason, hrun⟩ := exists_runOn_of_miss hprepare hentry hlookup
      cases hplan : planOf m tree t.root paths tags q.settings with
      | error cause =>
        rw [hplan] at hrun
        exact .inl (by rw [hrun])
      | ok p =>
        rw [hplan] at hrun
        have htree :
            (runOn m w q t paths tags).1.tree = ({ c with invalidation := reason }.store tree
            ⟨keyDigest t.root t.file q.settings, digestText (recordText records)⟩
            (planReport m p q.settings)).1 := by
          rw [hrun]
          exact execute_eq.1
        rw [htree]
        refine (store_cases _ _ _ _).imp_right fun hwrite => ?_
        refine ⟨hfinite, fun r note hr hnote => ?_, records, p, _, hrecords, rfl, rfl, hwrite⟩
        rw [hit_of_miss hprepare hentry hlookup hr hnote, hhit]

@[simp] lemma enabled_prepare (tree : Node) (s : CacheSettings) (root : String) :
    (prepare tree s root).2.enabled = s.enabled := by
  unfold prepare
  dsimp only
  split
  · rfl
  · split
    · rfl
    · split <;> rfl

lemma entryOf_frame (m : Means) (tree : Node) (c : Cache) (q : Request) (t : Target)
    (paths : List String) (tags : Tags) : (entryOf m tree c q t paths tags).1.path = c.path ∧
      (entryOf m tree c q t paths tags).1.enabled = c.enabled ∧
      (entryOf m tree c q t paths tags).1.hit = c.hit := by
  unfold entryOf
  split
  · exact ⟨rfl, rfl, rfl⟩
  · split
    · exact ⟨rfl, rfl, rfl⟩
    · split <;> exact ⟨rfl, rfl, rfl⟩

lemma exists_planReport_of_run (hrun : (run m w q).2 = .ok r)
    (hfresh : ∀ note ∈ r.cache, note.hit = false) :
    ∃ t paths tags tree p warnings note, survey m w.tree q = .ok (t, paths, tags) ∧
      planOf m tree t.root paths tags q.settings = .ok p ∧
      r = { planReport m p q.settings with warnings, cache := note } := by
  obtain ⟨t, paths, tags, hsurvey, hrun⟩ := exists_survey_of_run hrun
  rcases hprepare : prepare w.tree q.settings.cache t.root with ⟨tree, c⟩
  rcases hentry : entryOf m tree c q t paths tags with ⟨c', e⟩
  rcases runOn_cases hprepare hentry with
    ⟨kept, hlookup, -, hkept⟩ | ⟨cause, -, herror⟩ | ⟨p, warnings, note, -, hplan, -, hreport⟩
  · -- a kept result says so
    have henabled : c'.enabled := by
      have hentries := (entryOf_frame m tree c q t paths tags).2.1
      have hcache := enabled_prepare w.tree q.settings.cache t.root
      rw [hentry] at hentries
      rw [hprepare, enabled_of_lookup? hprepare hentry hlookup] at hcache
      exact hentries.trans hcache
    rw [hkept] at hrun
    cases hrun
    have hnote :=
      hfresh ⟨true, c'.path, true, c'.written, (c'.invalidation.map Invalidation.word).getD ""⟩
      (by simp [reuse, note?, henabled])
    cases hnote
  · rw [herror] at hrun
    cases hrun
  · rw [hreport] at hrun
    exact ⟨t, paths, tags, tree, p, warnings, note, hsurvey, hplan, (Except.ok.inj hrun).symm⟩

def planned (m : Means) (tree : Node) (q : Request) : Except Error Plan := do
  let (t, paths, tags) ← survey m tree q
  planOf m tree t.root paths tags q.settings

lemma run_uncached (hcache : q.settings.cache.enabled = false) :
    (run m w q).2 = (planned m w.tree q).map (planReport m · q.settings) := by
  rw [planned]
  cases hsurvey : survey m w.tree q with
  | error cause => rw [run, hsurvey]; rfl
  | ok found =>
    obtain ⟨t, paths, tags⟩ := found
    have hentry :
        entryOf m w.tree { path := pathOf q.settings.cache t.root, enabled := false } q t paths
        tags = (_, ⟨"", ""⟩) := rfl
    obtain ⟨reason, hrun⟩ := exists_runOn_of_miss (prepare_of_disabled hcache w.tree t.root) hentry
      (fun r h => by cases h)
    rw [run_of_survey hsurvey, hrun]
    change _ = (planOf m w.tree t.root paths tags q.settings).map (planReport m · q.settings)
    cases planOf m w.tree t.root paths tags q.settings with
    | error cause => rfl
    | ok p =>
      refine congrArg Except.ok (execute_eq.2.trans ?_)
      change { planReport m p q.settings with
        warnings := (planReport m p q.settings).warnings ++ [], cache := none } = _
      rw [List.append_nil]
      rfl

def Means.inOrder (m : Means) (order : WidgetRules.Order) : Means := { m with order }

@[simp] lemma Means.inOrder_order (m : Means) : m.inOrder m.order = m := rfl

/-- The rules for widgets that a scan reads name no ecosystem twice, up to letter case. -/
def DistinctRules (m : Means) (tree : Node) (s : Settings) : Prop :=
  Text.isBlank s.exclusionConfig = false →
    WidgetRules.DistinctAt tree (Path.seenFrom m.here s.exclusionConfig)

lemma widgetsOf_order {s : Settings} (h : DistinctRules m tree s) (order : WidgetRules.Order) :
    widgetsOf (m.inOrder order) tree s = widgetsOf m tree s := by
  unfold widgetsOf Means.inOrder
  cases hblank : Text.isBlank s.exclusionConfig with
  | true => rfl
  | false => rw [WidgetRules.load_order (h hblank) order, WidgetRules.load_order (h hblank) m.order]

lemma planned_order (h : DistinctRules m tree q.settings) (order : WidgetRules.Order) :
    planned (m.inOrder order) tree q = planned m tree q := by
  unfold planned planOf
  rw [widgetsOf_order h]
  rfl

end PluginAudit.Scan
