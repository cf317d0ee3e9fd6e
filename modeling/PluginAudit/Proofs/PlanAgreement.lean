import Mathlib.Data.List.Forall2
import PluginAudit.Proofs.CacheDocuments
import PluginAudit.Proofs.SourceFiles
import PluginAudit.Proofs.WorkerPool

/-!
What a report depends on. Two scans that read the same files, follow the same rules for widgets and
have runtimes with the same answers make the same report, its number and moment apart.
-/

open List

namespace PluginAudit

open Detector

open Detector.Syntax (Memo)

/-! ### Detectors with the same findings -/

namespace Detector

/-- Detectors of one key that find the same in some files. -/
structure Alike (paths : List String) (d d' : Detector) : Prop where
  key : d.key = d'.key
  judge :
    ∀ target f, f.path ∈ paths → ((d.judge target f).run {}).1 = ((d'.judge target f).run {}).1

variable {paths : List String}

lemma Alike.refl (d : Detector) : Alike paths d d := ⟨rfl, fun _ _ _ => rfl⟩

lemma forall₂_alike_builtins (env : Surroundings) {means means' : Means}
    (hchanges : means.changes = means'.changes)
    (h : ∀ path ∈ paths, (means.linter.map fun lint => lint path) = means'.linter.map fun lint =>
      lint path) : Forall₂ (Alike paths) (builtins env means) (builtins env means') := by
  unfold builtins
  rw [hchanges]
  refine .cons ⟨rfl, fun target f hf => ?_⟩ (forall₂_same.mpr fun d _ => Alike.refl d)
  change (Syntax.detect means.linter means.live {} f).2 =
    (Syntax.detect means'.linter means'.live {} f).2
  rw [(Syntax.detect_of_truthful (truthful_empty means) f).1,
    (Syntax.detect_of_truthful (truthful_empty means') f).1]
  congr 1
  have hpath := h f.path hf
  cases hlinter : means.linter with
  | none =>
    rw [hlinter, Option.map_none, eq_comm, Option.map_eq_none_iff] at hpath
    rw [hpath]
  | some lint =>
    rw [hlinter, Option.map_some, eq_comm, Option.map_eq_some_iff] at hpath
    obtain ⟨lint', hlinter', hsame⟩ := hpath
    rw [hlinter']
    simp only [Option.elim_some, Syntax.diagnosed, hsame]

namespace Registry

variable {r r' : Registry}

lemma isNone_withKey?_of_alike (h : Forall₂ (Alike paths) r r') (key : String) :
    (withKey? r key).isNone = (withKey? r' key).isNone := by
  unfold withKey?
  induction h with
  | nil => rfl
  | @cons d d' _ _ hd _ ih =>
    rw [find?_cons, find?_cons, hd.key]
    cases d'.key == key with
    | true => rfl
    | false => exact ih

lemma exists_select_of_alike (h : Forall₂ (Alike paths) r r') {ids : List String}
    {detectors : List Detector} (hselect : select r ids = .ok detectors) :
    ∃ detectors', select r' ids = .ok detectors' ∧ Forall₂ (Alike paths) detectors detectors' := by
  unfold select at hselect ⊢
  split
  case isTrue hempty =>
    rw [if_pos hempty] at hselect
    cases hselect
    exact ⟨r', rfl, h⟩
  case isFalse hempty =>
    simp only [if_neg hempty, isNone_withKey?_of_alike h] at hselect
    split at hselect
    · cases hselect
    · rename_i hnone
      cases hselect
      refine ⟨_, rfl, ?_⟩
      clear hempty hnone
      induction h with
      | nil => exact .nil
      | @cons d d' _ _ hd _ ih =>
        rw [filter_cons, filter_cons, hd.key]
        split
        · exact .cons hd ih
        · exact ih

end Registry

lemma subset_of_select {r : Registry} {ids : List String} {detectors : List Detector}
    (h : Registry.select r ids = .ok detectors) : detectors ⊆ r := by
  unfold Registry.select at h
  split at h
  · cases h
    exact Subset.refl _
  · split at h
    · cases h
    · cases h
      exact filter_subset_self _

end Detector

namespace Scan

variable {f : Source.File}

/-! ### Judgements -/

lemma Pool.foundIn_of_alike {paths : List String} {detectors detectors' : List Detector}
    (h : Forall₂ (Alike paths) detectors detectors') (target : Combination) (hf : f.path ∈ paths) :
    foundIn target {} detectors f = foundIn target {} detectors' f := by
  unfold foundIn
  induction h with
  | nil => rfl
  | cons hd _ ih => rw [flatMap_cons, flatMap_cons, hd.judge target f hf, ih]

/-- Each combination is judged by what its detectors find in the files, whatever was checked
before. -/
lemma judgements_eq_map {p : Plan} {env : Surroundings} {means : Detector.Means}
    (h : p.detectors ⊆ Detector.builtins env means) (s : Settings) :
    (judgements p s).1 = (combinations s).map fun target =>
      judge p s target (Finding.sort (p.files.flatMap (Pool.foundIn target {} p.detectors))) := by
  have hrun : ∀ (targets : List Combination) (memo : Memo), Detector.Truthful means memo →
      ((targets.mapM fun target => do
        return judge p s target (← findingsFor p target) :
          StateM Memo (List Judgement)).run memo).1 =
      targets.map fun target =>
        judge p s target (Finding.sort (p.files.flatMap (Pool.foundIn target {} p.detectors))) := by
    intro targets
    induction targets with
    | nil => exact fun _ _ => rfl
    | cons target targets ih =>
      intro memo hmemo
      obtain ⟨hfound, hsound⟩ := @Pool.run_judgeAll _ _ _ _ p.files (Detector.truthful_empty means)
        (fun d hd => Detector.steady_of_mem_builtins (h hd) target) _ hmemo
      rw [mapM_cons, map_cons, ← hfound]
      exact congrArg _ (ih _ hsound)
  exact hrun _ _ (Detector.truthful_empty means)

/-! ### Plans -/

/-- Runtimes that give the same answers for some files. -/
structure Toolchain.Agrees (paths : List String) (t t' : Toolchain) : Prop where
  inventory : t.inventory = t'.inventory
  warnings : t.warnings = t'.warnings
  linter :
    ∀ path ∈ paths, (t.linter.map fun lint => lint path) = t'.linter.map fun lint => lint path

variable {m m' : Means} {tree tree' : Node} {root : String} {paths : List String} {tags : Tags}
  {s s' : Settings} {p : Plan}

def filesOf (m : Means) (tree : Node) (root : String) (paths : List String) : List Source.File :=
  paths.filterMap fun path => Source.File.load? tree m.here root path

def surroundingsOf (m : Means) (tree : Node) (root : String) (paths : List String) (tags : Tags)
    (s : Settings) : Surroundings :=
  { root, ecosystems := tags, widgets := widgetsOf m tree s
    symbols := SymbolIndex.addFiles {} (filesOf m tree root paths)
    runtime := (toolchainOf m tree s).inventory }

def meansOf (m : Means) (tree : Node) (s : Settings) : Detector.Means :=
  { linter := (toolchainOf m tree s).linter, live := !m.cancelled }

abbrev registryOf (m : Means) (tree : Node) (root : String) (paths : List String) (tags : Tags)
    (s : Settings) : Detector.Registry :=
  Detector.builtins (surroundingsOf m tree root paths tags s) (meansOf m tree s)

lemma planOf_of_compile {rules : List Suppression.Rule}
    (hrules : Suppression.compile s.suppress = .ok rules)
    (hlive : (m.cancelled && !paths.isEmpty) = false) : planOf m tree root paths tags s =
      ((Registry.select (registryOf m tree root paths tags s) s.detectors).mapError .detector).map
        fun detectors => ⟨root, paths, filesOf m tree root paths, tags, rules, widgetsOf m tree s,
          toolchainOf m tree s, detectors⟩ := by
  rw [planOf, hrules, hlive]
  rfl

lemma planOf_eq_ok_iff : planOf m tree root paths tags s = .ok p ↔ (m.cancelled && !paths.isEmpty) =
      false ∧ ∃ rules detectors, Suppression.compile s.suppress = .ok rules ∧
      Registry.select (registryOf m tree root paths tags s) s.detectors = .ok detectors ∧
      p = ⟨root, paths, filesOf m tree root paths, tags, rules, widgetsOf m tree s,
        toolchainOf m tree s, detectors⟩ := by
  cases hrules : Suppression.compile s.suppress with
  | error e => simp [planOf, hrules, Except.mapError, bind, Except.bind]
  | ok rules =>
    cases hcancelled : m.cancelled && !paths.isEmpty with
    | true =>
      rw [planOf, hrules, hcancelled]
      simp [Except.mapError, bind, Except.bind, throw, throwThe, MonadExceptOf.throw]
    | false =>
      rw [planOf_of_compile hrules hcancelled]
      cases Registry.select (registryOf m tree root paths tags s) s.detectors with
      | error e => simp [Except.mapError, Except.map]
      | ok detectors => simp [Except.mapError, Except.map, eq_comm]

def planReport (m : Means) (p : Plan) (s : Settings) : Report := reportOf m p s (judgements p s).1

/-- All that a plan takes from a file tree and a runtime. -/
structure Agree (root : String) (paths : List String) (m m' : Means) (tree tree' : Node)
    (s s' : Settings) : Prop where
  settings : s.Alike s'
  file : ∀ path ∈ paths,
    Source.File.load? tree m.here root path = Source.File.load? tree' m'.here root path
  widgets : widgetsOf m tree s = widgetsOf m' tree' s'
  toolchain : Toolchain.Agrees paths (toolchainOf m tree s) (toolchainOf m' tree' s')

lemma path_mem_of_mem_filesOf (h : f ∈ filesOf m tree root paths) : f.path ∈ paths := by
  obtain ⟨path, hpath, hload⟩ := mem_filterMap.mp h
  unfold Source.File.load? at hload
  split at hload
  · cases hload
    exact hpath
  · cases hload

variable (h : Agree root paths m m' tree tree' s s')

include h

lemma Agree.filesOf_eq : filesOf m tree root paths = filesOf m' tree' root paths :=
  filterMap_congr h.file

lemma Agree.surroundingsOf_eq :
    surroundingsOf m tree root paths tags s = surroundingsOf m' tree' root paths tags s' := by
  rw [surroundingsOf, surroundingsOf, h.filesOf_eq, h.widgets, h.toolchain.inventory]

lemma Agree.exists_planOf (hlive : m'.cancelled = false)
    (hplan : planOf m tree root paths tags s = .ok p) :
    ∃ p', planOf m' tree' root paths tags s' = .ok p' ∧ p.rules = p'.rules ∧
      ∀ target, p.files.flatMap (Pool.foundIn target {} p.detectors) =
        p'.files.flatMap (Pool.foundIn target {} p'.detectors) := by
  obtain ⟨-, rules, detectors, hrules, hselect, rfl⟩ := planOf_eq_ok_iff.mp hplan
  have hbuiltins : Forall₂ (Alike paths) (registryOf m tree root paths tags s)
      (builtins (surroundingsOf m tree root paths tags s) (meansOf m' tree' s')) :=
    forall₂_alike_builtins _ rfl h.toolchain.linter
  obtain ⟨detectors', hselect', halike⟩ := Registry.exists_select_of_alike hbuiltins hselect
  rw [h.surroundingsOf_eq, h.settings.detectors] at hselect'
  rw [h.settings.suppress] at hrules
  refine ⟨_,
    planOf_eq_ok_iff.mpr ⟨by rw [hlive, Bool.false_and], rules, detectors', hrules, hselect', rfl⟩,
    rfl, fun target => ?_⟩
  rw [← h.filesOf_eq]
  exact flatMap_congr fun f hf => Pool.foundIn_of_alike halike target (path_mem_of_mem_filesOf hf)

lemma Agree.exists_planReport (hlive : m'.cancelled = false)
    (hplan : planOf m tree root paths tags s = .ok p) :
    ∃ p', planOf m' tree' root paths tags s' = .ok p' ∧
      planReport m' p' s' = { planReport m p s with runId := m'.runId, generatedAt := m'.now } := by
  obtain ⟨p', hplan', hrules, hfound⟩ := h.exists_planOf hlive hplan
  refine ⟨p', hplan', ?_⟩
  obtain ⟨-, _, _, -, hselect, hp⟩ := planOf_eq_ok_iff.mp hplan
  obtain ⟨-, _, _, -, hselect', hp'⟩ := planOf_eq_ok_iff.mp hplan'
  have hjudged : (judgements p s).1 = (judgements p' s').1 := by
    have hroot : p.root = p'.root := by rw [hp, hp']
    rw [judgements_eq_map (p := p) (by rw [hp]; exact Detector.subset_of_select hselect),
      judgements_eq_map (p := p') (by rw [hp']; exact Detector.subset_of_select hselect')]
    unfold combinations
    rw [h.settings.phpVersions, h.settings.wpVersions]
    refine map_congr_left fun target _ => ?_
    rw [hfound target]
    unfold judge
    rw [h.settings.ignoreDependencies, h.settings.severities, hrules, hroot]
  rw [planReport, planReport, ← hjudged, hp, hp']
  unfold reportOf Report.finalize
  simp only [h.settings.phpVersions, h.settings.wpVersions, h.settings.severities, h.widgets,
    h.toolchain.warnings]

/-! ### Plain reports -/

omit h

lemma ordered_tallyAll (names : List String) : Table.Ordered (Report.tallyAll names) := by
  rw [Report.tallyAll, ← foldr_reverse]
  induction names.reverse with
  | nil => exact Pairwise.nil
  | cons name names ih => exact ih.insert _ _

lemma finding_mem_of_mem_judge {target : Combination} {found : List Finding} {i : Issue}
    (h : i ∈ (judge p s target found).outcome.issues.items) : i.finding ∈ found := by
  obtain ⟨f, hf, rfl⟩ := mem_map.mp h
  have hkept : f ∈ Suppression.kept p.rules p.root target.php target.wp
      (if s.ignoreDependencies then found.filter (!·.kind.isDependency) else found) := by
    unfold Finding.filterSeverities at hf
    split at hf
    · exact hf
    · exact mem_of_mem_filter hf
  have hown := mem_of_mem_filter hkept
  split at hown
  · exact mem_of_mem_filter hown
  · exact hown

lemma plain_planReport (hplan : planOf m tree root paths tags s = .ok p) :
    (planReport m p s).Plain := by
  obtain ⟨-, _, _, -, hselect, hp⟩ := planOf_eq_ok_iff.mp hplan
  have hdetectors : p.detectors ⊆ registryOf m tree root paths tags s := by
    rw [hp]
    exact subset_of_select hselect
  refine ⟨rfl, rfl, ordered_tallyAll _, ordered_tallyAll _, fun o ho i hi => ?_⟩
  obtain ⟨outcome, houtcome, rfl⟩ := mem_map.mp ho
  obtain ⟨judged, hjudged, rfl⟩ := mem_map.mp houtcome
  rw [judgements_eq_map hdetectors] at hjudged
  obtain ⟨target, -, rfl⟩ := mem_map.mp hjudged
  have hfound := (Finding.sort_perm _).subset (finding_mem_of_mem_judge hi)
  obtain ⟨f, -, hf⟩ := mem_flatMap.mp hfound
  obtain ⟨d, hd, hf⟩ := mem_flatMap.mp hf
  exact (reportedIn_of_mem_builtins (hdetectors hd) (truthful_empty _) hf).plain

end Scan

end PluginAudit
