import PluginAudit.Finding
import PluginAudit.Proofs.Paths
import PluginAudit.Proofs.Utf8

/-!
Fingerprints of findings. A finding keeps its fingerprint when the plugin is moved, and the bytes
that are hashed tell kind, path and message apart.
-/

open List

namespace PluginAudit

open PluginAudit.Path

namespace Path

variable {path : String}

/-! ### Paths below a root -/

@[simp] lemma isAbsolute_clean (path : String) : isAbsolute (clean path) = isAbsolute path := by
  cases h : isAbsolute path with
  | true => rw [clean_of_isAbsolute h, isAbsolute_rooted]
  | false => exact (isAbsolute_clean_of_relative h).1

lemma cleanComponents_congr {other : String} (h : clean path = clean other) :
    cleanComponents path = cleanComponents other := by
  rw [← components_clean, h, components_clean]

/-- The clean path of a file goes on from the clean path of the root, without a step up. -/
def IsBelow (root file : String) (names : List String) : Prop :=
  isAbsolute root = isAbsolute file ∧ cleanComponents file = cleanComponents root ++ names ∧
    names.head? ≠ some ".."

variable {root file : String} {names : List String}

lemma relative?_of_append (habs : isAbsolute root = isAbsolute file)
    (hfile : cleanComponents file = cleanComponents root ++ names) :
    relative? root file = some (ofComponents false names) := by
  unfold relative?
  by_cases hnames : names = []
  · have hsame : clean root = clean file := by rw [clean, clean, habs, hfile, hnames, append_nil]
    rw [hnames]
    simp only [hsame, if_true]
    rfl
  · have hdiffer : clean root ≠ clean file := by
      intro h
      have hcomponents := cleanComponents_congr h
      rw [hfile] at hcomponents
      exact hnames (self_eq_append_right.mp hcomponents)
    have hdot : clean file ≠ "." := by
      intro h
      have hcomponents := components_clean file
      rw [h, hfile, show components "." = [] by decide] at hcomponents
      exact hnames (append_eq_nil_iff.mp hcomponents.symm).2
    have hempty : names.isEmpty = false := by simpa using hnames
    simp only [hdiffer, if_false, isAbsolute_clean, habs, bne_self_eq_false, Bool.false_eq_true,
      hdot, hfile, dropCommon_append, ofComponents, hempty]
    rfl

lemma leaves_dots_intercalate (names : List String) : leaves ("/".intercalate (".." :: names)) := by
  rw [leaves, Bool.or_eq_true, beq_iff_eq, String.startsWith_string_iff]
  cases names with
  | nil => exact .inl (by simp)
  | cons name names =>
    right
    rw [String.intercalate_cons_cons, String.toList_append]
    exact prefix_append _ _

lemma leaves_ofComponents (h : ∀ n ∈ names, components n = [n]) (hhead : names.head? ≠ some "..") :
    leaves (ofComponents false names) = false := by
  cases names with
  | nil => decide
  | cons name names =>
    have htext : ofComponents false (name :: names) = "/".intercalate (name :: names) := rfl
    have hcomponents := components_intercalate h
    have hdots : components ".." = [".."] := by decide
    have hname : name ≠ ".." := by simpa using hhead
    rw [htext, leaves, Bool.or_eq_false_iff, beq_eq_false_iff_ne, ← Bool.not_eq_true,
      String.startsWith_string_iff]
    constructor
    · intro htext
      rw [htext, hdots] at hcomponents
      exact hname (List.cons.inj hcomponents).1.symm
    · rintro ⟨rest, hrest⟩
      have hsplit : "/".intercalate (name :: names) = ".." ++ "/" ++ String.ofList rest := by
        rw [← String.toList_inj, ← hrest]
        simp
      rw [hsplit, components_append_slash, hdots] at hcomponents
      exact hname (List.cons.inj hcomponents).1.symm

/-- A clean path that goes on from that of the root, although the file is not below it, goes on with
a step up. -/
lemma head?_of_not_isBelow (h : ∀ names, ¬ IsBelow root file names)
    (habs : isAbsolute root = isAbsolute file)
    {down : List String} (hdown : (if clean file = "." then ["."] else cleanComponents file) =
      cleanComponents root ++ down) : down.head? = some ".." := by
  split at hdown
  · rename_i hdot
    -- the file is the current directory, and so is the root
    have hfile : cleanComponents file = [] := by
      rw [← components_clean, hdot]
      decide
    cases hroot : cleanComponents root with
    | nil => exact absurd ⟨habs, by rw [hroot, hfile, append_nil], by simp⟩ (h [])
    | cons name names =>
      rw [hroot] at hdown
      have hname : name ∈ cleanComponents root := by simp [hroot]
      exact absurd (List.cons.inj hdown).1.symm (mem_cleanComponents hname).2.1
  · by_contra hhead
    exact h down ⟨habs, hdown, hhead⟩

lemma leaves_of_relative? (h : ∀ names, ¬ IsBelow root file names)
    (hpath : relative? root file = some path) : leaves path := by
  have hsame : clean root ≠ clean file := by
    intro hclean
    exact h [] ⟨by rw [← isAbsolute_clean root, hclean, isAbsolute_clean],
      by rw [append_nil, cleanComponents_congr hclean], by simp⟩
  unfold relative? at hpath
  dsimp only at hpath
  rw [if_neg hsame] at hpath
  generalize htarget : (if clean file = "." then ["."] else cleanComponents file) = target at hpath
  obtain ⟨common, hup, hdown⟩ := exists_common (cleanComponents root) target
  split at hpath
  · exact absurd hpath (by simp)
  · rename_i habs
    rw [isAbsolute_clean, isAbsolute_clean, Bool.not_eq_true, bne_eq_false_iff_eq] at habs
    split at hpath
    · exact absurd hpath (by simp)
    · rename_i up down _ hway
      rw [hway] at hup hdown
      cases Option.some.inj hpath
      cases up with
      | cons name up => exact leaves_dots_intercalate _
      | nil =>
        rw [append_nil] at hup
        subst hup
        obtain ⟨rest, rfl⟩ :=
          head?_eq_some_iff.mp (head?_of_not_isBelow h habs (htarget.trans hdown))
        exact leaves_dots_intercalate _

lemma isName_of_mem_components (hdots : ".." ∉ components path) {name : String}
    (h : name ∈ components path) : IsName name := by
  obtain ⟨hempty, hdot, hslash⟩ := mem_components h
  exact ⟨hempty, hdot, fun heq => hdots (heq ▸ h), hslash⟩

lemma isBelow_of_clean_eq (hroot : isAbsolute root) (hdots : ".." ∉ components path)
    (hfile : clean file = clean (root ++ "/" ++ path)) : IsBelow root file (components path) := by
  have habs : isAbsolute (root ++ "/" ++ path) := by
    rw [String.append_assoc]
    exact isAbsolute_append hroot _
  have hnames : ∀ n ∈ components path, IsName n := fun _ => isName_of_mem_components hdots
  refine ⟨by rw [hroot, ← isAbsolute_clean, hfile, isAbsolute_clean, habs], ?_, fun h => hdots ?_⟩
  · rw [cleanComponents_congr hfile, cleanComponents, habs, components_append_slash, foldl_append,
      foldl_pushComponent_of_isName _ hnames, cleanComponents, hroot, reverse_append,
      reverse_reverse]
  · exact mem_of_mem_head? h

lemma ofComponents_of_clean (hpath : isAbsolute path = false) (hclean : clean path = path) :
    ofComponents false (components path) = path := by
  have hparts : components path = cleanComponents path := by rw [← components_clean, hclean]
  rw [hparts, ← hpath]
  exact hclean

end Path

namespace Finding

variable {f g : Finding}

/-! ### The path of a file from the root -/

variable {root file : String}

lemma relativePathOf_of_isBelow {names : List String} (hroot : Text.isBlank root = false)
    (h : IsBelow root file names) : relativePathOf root file = ofComponents false names := by
  obtain ⟨habs, hfile, hhead⟩ := h
  have hparts : ∀ n ∈ names, components n = [n] := by
    intro n hn
    have hmem : n ∈ cleanComponents file := by
      rw [hfile]
      exact mem_append_right _ hn
    obtain ⟨hempty, hdot, hslash⟩ := mem_cleanComponents hmem
    exact components_of_part hempty hdot hslash
  rw [relativePathOf, hroot, relative?_of_append habs hfile]
  simp [leaves_ofComponents hparts hhead]

lemma relativePathOf_of_not_isBelow (hroot : Text.isBlank root = false)
    (h : ∀ names, ¬ IsBelow root file names) : relativePathOf root file = base file := by
  rw [relativePathOf, hroot]
  cases hpath : relative? root file with
  | none => rfl
  | some path => simp [leaves_of_relative? h hpath]

lemma isBlank_of_isAbsolute (h : isAbsolute root) : Text.isBlank root = false := by
  rw [isAbsolute, beq_iff_eq] at h
  obtain ⟨rest, hrest⟩ := head?_eq_some_iff.mp h
  rw [Text.isBlank, hrest, all_cons, show Text.isSpace '/' = false by decide, Bool.false_and]

lemma relativePath_of_clean_eq {path : String} (hroot : isAbsolute root)
    (hpath : isAbsolute path = false) (hclean : clean path = path) (hdots : ".." ∉ components path)
    (hfile : clean f.file = clean (root ++ "/" ++ path)) : f.relativePath root = path := by
  rw [relativePath, relativePathOf_of_isBelow (isBlank_of_isAbsolute hroot)
    (isBelow_of_clean_eq hroot hdots hfile), ofComponents_of_clean hpath hclean]

/-! ### The bytes of a fingerprint -/

lemma fingerprintBytes_eq (f : Finding) (root : String) :
    f.fingerprintBytes root = bytesOf f.kind.code ++ 0 :: (bytesOf (f.relativePath root) ++ 0 ::
      (bytesOf f.message ++ [0])) := by
  simp [fingerprintBytes, bytesOf]

lemma fingerprint_congr {other : String} (hkind : f.kind = g.kind)
    (hmessage : f.message = g.message) (hpath : f.relativePath root = g.relativePath other) :
    f.fingerprint root = g.fingerprint other := by
  rw [fingerprint, fingerprint, fingerprintBytes, fingerprintBytes, hkind, hmessage, hpath]

/-- The bytes tell kind, path and message apart, unless a null byte stands in the kind or the
path. -/
lemma eq_of_fingerprintBytes_eq {other : String} (hfkind : 0 ∉ bytesOf f.kind.code)
    (hgkind : 0 ∉ bytesOf g.kind.code)
    (hfpath : 0 ∉ bytesOf (f.relativePath root)) (hgpath : 0 ∉ bytesOf (g.relativePath other))
    (h : f.fingerprintBytes root = g.fingerprintBytes other) :
    f.kind = g.kind ∧ f.relativePath root = g.relativePath other ∧ f.message = g.message := by
  rw [fingerprintBytes_eq, fingerprintBytes_eq] at h
  obtain ⟨hcode, hrest⟩ := Text.append_cons_cancel hfkind hgkind h
  obtain ⟨hpath, hmessage⟩ := Text.append_cons_cancel hfpath hgpath hrest
  exact ⟨congrArg Kind.mk (bytesOf_injective hcode), bytesOf_injective hpath,
    bytesOf_injective (append_cancel_right hmessage)⟩

/-- Two findings of one kind and message, at one path of two copies of a plugin, have the same
relative path and the same fingerprint, wherever the copies lie, however the paths of their files
are written and whatever else the findings say. The bytes that are hashed tell apart what differs in
kind, relative path or message, as long as kind and path hold no null byte, and the fingerprint is
the first sixteen digits of their digest. A file outside of the root is named by the last part of
its path. -/
theorem fingerprint_of_relocated :
    (∀ (here there path : String) (f g : Finding), Path.isAbsolute here = true →
      Path.isAbsolute there = true →
      Path.isAbsolute path = false → Path.clean path = path → ".." ∉ Path.components path →
      f.kind = g.kind → f.message = g.message →
      Path.clean f.file = Path.clean (here ++ "/" ++ path) →
      Path.clean g.file = Path.clean (there ++ "/" ++ path) →
      f.relativePath here = path ∧ g.relativePath there = path ∧
        f.fingerprint here = g.fingerprint there) ∧
    (∀ (here there : String) (f g : Finding), 0 ∉ bytesOf f.kind.code → 0 ∉ bytesOf g.kind.code →
      0 ∉ bytesOf (f.relativePath here) → 0 ∉ bytesOf (g.relativePath there) →
      f.fingerprintBytes here = g.fingerprintBytes there →
      f.kind = g.kind ∧ f.relativePath here = g.relativePath there ∧ f.message = g.message) ∧
    (∀ (root : String) (f : Finding), Text.isBlank root = false →
      (∀ names, ¬ Path.IsBelow root f.file names) →
      f.relativePath root = Path.base f.file) ∧
    ∀ (root : String) (f : Finding), (f.fingerprint root).length = 16 ∧
      (f.fingerprint root).toList <+: (Digest.sha256Hex (f.fingerprintBytes root)).toList := by
  refine ⟨?_, ?_, ?_, fun root f => ?_⟩
  · intro here there path f g hhere hthere hpath hclean hdots hkind hmessage hf hg
    have hfpath := relativePath_of_clean_eq hhere hpath hclean hdots hf
    have hgpath := relativePath_of_clean_eq hthere hpath hclean hdots hg
    exact ⟨hfpath, hgpath, fingerprint_congr hkind hmessage (hfpath.trans hgpath.symm)⟩
  · intro here there f g hfkind hgkind hfpath hgpath hbytes
    exact eq_of_fingerprintBytes_eq hfkind hgkind hfpath hgpath hbytes
  · intro root f hroot houtside
    exact relativePathOf_of_not_isBelow hroot houtside
  · have hlength : (Digest.sha256Hex (f.fingerprintBytes root)).toList.length = 64 := by
      rw [Digest.sha256Hex, Digest.hex, String.toList_ofList]
      rfl
    rw [fingerprint, String.length_ofList, String.toList_ofList, length_take, hlength]
    exact ⟨rfl, take_prefix _ _⟩

/-- A plugin is copied to the top of the file system; the name of its file begins with dots, and the
paths are not clean. A directory whose name is the start of another name is not above it. -/
theorem fingerprint_of_relocated_dots :
    let f : Finding := ⟨.removedFunction, "m", "/srv/x/../plugin/inc/..a.php", 3, .error, "", []⟩
    let g : Finding := ⟨.removedFunction, "m", "//inc/./..a.php", 8, .warning, "", []⟩
    let other : Finding := ⟨.removedFunction, "n", "/inc/..a.php", 8, .warning, "", []⟩
    f.fingerprint "/srv/plugin/" = g.fingerprint "/" ∧
      g.fingerprintBytes "/" ≠ other.fingerprintBytes "/" ∧
      f.relativePath "/srv/plug" = "..a.php" := by
  intro f g other
  refine ⟨?_, ?_, ?_⟩
  · exact (fingerprint_of_relocated.1 "/srv/plugin/" "/" "inc/..a.php" f g (by decide) (by decide)
      (by decide)
      (by decide +kernel) (by decide +kernel) rfl rfl (by decide +kernel) (by decide +kernel)).2.2
  · intro h
    have hmessage :=
      (fingerprint_of_relocated.2.1 "/" "/" g other (by decide +kernel) (by decide +kernel)
      (by decide +kernel) (by decide +kernel) h).2.2
    exact absurd hmessage (by decide)
  · have hbase : Path.base f.file = "..a.php" := by decide +kernel
    refine (fingerprint_of_relocated.2.2.1 "/srv/plug" f (by decide) ?_).trans hbase
    rintro names ⟨-, hnames, -⟩
    have hfile : Path.cleanComponents f.file = ["srv", "plugin", "inc", "..a.php"] := by
      decide +kernel
    have hroot : Path.cleanComponents "/srv/plug" = ["srv", "plug"] := by decide +kernel
    simp [hfile, hroot] at hnames

end Finding

end PluginAudit
