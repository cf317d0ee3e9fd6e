import PluginAudit.Proofs.Fingerprints
import PluginAudit.Proofs.TemplateUses

/-!
Templates are recognised by their path below the root of a plugin. Main statement: wherever the
plugin lies, the same is found in its templates, unless the path starts with two dots.
-/

open List

namespace PluginAudit.Detector.Template

open PluginAudit.Path (isAbsolute components cleanComponents join base rooted)

variable {root here there path file file' : String} {env : Surroundings}

/-! ### Paths -/

/-- A clean path that goes down from the root. -/
structure GoesDown (path : String) : Prop where
  relative : isAbsolute path = false
  clean : Path.clean path = path
  ne_dot : path ≠ "."
  no_dots : ".." ∉ components path

lemma GoesDown.join_eq (h : GoesDown path) (hroot : isAbsolute root) :
    join [root, path] = rooted (cleanComponents root ++ components path) := by
  rw [Path.join_cons hroot, flatMap_singleton]
  rintro part hpart n hn
  rw [mem_singleton.mp hpart] at hn
  exact Path.isName_of_mem_components h.no_dots hn

lemma GoesDown.isName (h : GoesDown path) (hroot : isAbsolute root) :
    ∀ n ∈ cleanComponents root ++ components path, Path.IsName n :=
  forall_mem_append.mpr ⟨fun _ => Path.isName_of_mem_cleanComponents hroot,
    fun _ => Path.isName_of_mem_components h.no_dots⟩

lemma GoesDown.exists_base (h : GoesDown path) :
    ∃ name, ∀ root, isAbsolute root → base (join [root, path]) = name := by
  rcases eq_nil_or_concat (components path) with hnil | ⟨init, name, hnames⟩
  · have hdot := Path.ofComponents_of_clean h.relative h.clean
    rw [hnil] at hdot
    exact absurd hdot.symm h.ne_dot
  · refine ⟨name, fun root hroot => ?_⟩
    have hname : name ∈ components path := by simp [hnames]
    rw [h.join_eq hroot, hnames, concat_eq_append, ← append_assoc]
    exact Path.base_rooted_concat _ (Path.isName_of_mem_components h.no_dots hname)

lemma GoesDown.relativeTo_join (h : GoesDown path) (hstart : path.startsWith ".." = false)
    (hroot : isAbsolute root) : relativeTo root (join [root, path]) = path := by
  have hway : Path.relative? root (join [root, path]) = some path := by
    rw [@Path.relative?_of_append root _ (components path),
      Path.ofComponents_of_clean h.relative h.clean]
    · rw [h.join_eq hroot, Path.isAbsolute_rooted, hroot]
    · rw [h.join_eq hroot, Path.cleanComponents_rooted (h.isName hroot)]
  rw [relativeTo, if_neg (Path.ne_empty_of_isAbsolute hroot), hway]
  simp [hstart]

lemma isTemplate_congr (hbase : base file = base file')
    (hpath : relativeTo here file = relativeTo there file') :
    isTemplate here file = isTemplate there file' := by
  simp only [isTemplate, hbase, hpath]

/-! ### Findings -/

lemma screened_congr {candidate? : Candidate} (hcandidate : ∀ widget number line use,
      candidate? file widget number line use =
        (candidate? file' widget number line use).map ({ · with file := file }))
    (hbase : base file = base file') (hpath : relativeTo here file = relativeTo there file')
    (lines : List (List Char)) :
    (screened candidate? { env with root := here } ⟨file, lines⟩).map ({ · with file := path }) =
      (screened candidate? { env with root := there } ⟨file', lines⟩).map
        ({ · with file := path }) := by
  have huses : usesIn here ⟨file, lines⟩ = usesIn there ⟨file', lines⟩ := by
    simp only [usesIn, isTemplate_congr hbase hpath]
  have hscreen := bind_screen_map (g := ({ · with file := file })) (fun _ => rfl) fun _ _ _ => rfl
  simp only [screened, huses, hpath, hcandidate, hscreen, map_filterMap, Option.map_map]
  rfl

/-- Wherever a plugin lies, a file at a path below its root that does not start with two dots is a
template or not, it is one of the same widget, and the same is found in the same lines, up to the
place of the file. -/
theorem templates_relocated (hhere : isAbsolute here = true) (hthere : isAbsolute there = true)
    (hpath : GoesDown path) (hstart : path.startsWith ".." = false) :
    isTemplate here (join [here, path]) = isTemplate there (join [there, path]) ∧
    widgetOf (relativeTo here (join [here, path])) =
      widgetOf (relativeTo there (join [there, path])) ∧
    ∀ (env : Surroundings) (lines : List (List Char)),
      (detectMethods { env with root := here } ⟨join [here, path], lines⟩).map
        ({ · with file := path }) = (detectMethods { env with root := there } ⟨join [there, path],
          lines⟩).map ({ · with file := path }) ∧
      (detectObject { env with root := here } ⟨join [here, path], lines⟩).map
        ({ · with file := path }) = (detectObject { env with root := there } ⟨join [there, path],
          lines⟩).map ({ · with file := path }) := by
  obtain ⟨name, hname⟩ := hpath.exists_base
  have hbase := (hname here hhere).trans (hname there hthere).symm
  have hrelative :=
    (hpath.relativeTo_join hstart hhere).trans (hpath.relativeTo_join hstart hthere).symm
  simp only [detectMethods_eq_screened, detectObject_eq_screened]
  refine ⟨isTemplate_congr hbase hrelative, congrArg widgetOf hrelative, fun env lines =>
    ⟨screened_congr (fun _ _ _ => methodCandidate?_eq_map fun _ risk => ?_) hbase hrelative lines,
      screened_congr (fun _ _ _ => objectCandidate?_eq_map (fun _ _ => ?_) fun _ =>
      ?_) hbase hrelative lines⟩⟩
  · cases risk <;> simp [methodFinding, placeContext, hbase]
  · simp [objectMethodFinding, placeContext, hbase]
  · simp [propertyFinding, placeContext, hbase]

theorem templates_relocated_widget :
    GoesDown "inc/a.php" ∧
      isTemplate "/srv/templates/../x" (join ["/srv/templates/../x", "inc/a.php"]) =
      isTemplate "/views" (join ["/views", "inc/a.php"]) := by
  have hpath : GoesDown "inc/a.php" := ⟨by decide, by decide +kernel, by decide, by decide +kernel⟩
  exact ⟨hpath, (templates_relocated (by decide) (by decide) hpath (by decide +kernel)).1⟩

/-- Below a directory whose name starts with two dots, a file is a template if the plugin lies in a
directory of templates. -/
theorem template_by_checkout : GoesDown "..parts/a.php" ∧
    isTemplate "/srv/templates" (join ["/srv/templates", "..parts/a.php"]) = true ∧
    isTemplate "/srv/plugin" (join ["/srv/plugin", "..parts/a.php"]) = false :=
  ⟨⟨by decide, by decide +kernel, by decide, by decide +kernel⟩, by decide +kernel,
    by decide +kernel⟩

end PluginAudit.Detector.Template
