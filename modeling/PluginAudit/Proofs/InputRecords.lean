import Mathlib.Data.Char
import Mathlib.Data.List.Lex
import PluginAudit.Proofs.EcosystemEvidence
import PluginAudit.Proofs.JsonText
import PluginAudit.Proofs.SourceFiles

/-!
The text of what a scan reads. Its records have no length and no escapes; still, scans that are
asked for the same and have one text read the same, unless a file is called like the label of a
record.
-/

open List

namespace PluginAudit.Scan

open Text (isBlank trim)
open Cache (record recordText extraDigest fileDigest inputRecords)
open PluginAudit.Path (relative? clean join rooted)

variable {tree : Node} {here root path config exclusions digest : String} {frame : InputFrame}
  {e : InputEntry} {ecosystems : Tags} {s : Settings} {tags others records paths : List String}
  {rest rest' : List Char}
  {tag word here' : String} {x y : List Char} {files : List String} {tree' : Node}

/-! ### Lists of tags

The tags of a scan are the forced ones, which may hold any character, and recognised ones, which are
words. Two such lists with the same forced tags can be told apart by their texts, although a forced
tag may hold the comma that separates tags, or the end of a line. -/

/-- Every character of a word comes after the comma, so it is neither a comma nor the end of a
line. -/
structure IsWord (tag : String) : Prop where
  ne_empty : tag ≠ ""
  gt_comma : ∀ c ∈ tag.toList, ',' < c

lemma IsWord.append_ne_newline (h : IsWord tag) : tag.toList ++ x ≠ '\n' :: y := by
  intro heq
  obtain ⟨c, t, hchars⟩ :=
    exists_cons_of_ne_nil fun hnil => h.ne_empty (String.toList_eq_nil_iff.mp hnil)
  rw [hchars, cons_append, cons.injEq] at heq
  have hgt := h.gt_comma c (by rw [hchars]; exact mem_cons_self)
  exact absurd (heq.1 ▸ hgt) (by decide)

def afterTag (tags : List String) (rest : List Char) : List Char :=
  tags.flatMap (fun tag => ',' :: tag.toList) ++ '\n' :: rest

@[simp] lemma afterTag_cons (tag : String) (tags : List String) (rest : List Char) :
    afterTag (tag :: tags) rest = ',' :: (tag.toList ++ afterTag tags rest) := by
  simp [afterTag]

lemma exists_afterTag_eq_cons (tags : List String) (rest : List Char) :
    ∃ c t, afterTag tags rest = c :: t ∧ (c = ',' ∨ c = '\n') := by
  cases tags with
  | nil => exact ⟨'\n', rest, rfl, .inr rfl⟩
  | cons tag tags => exact ⟨',', _, afterTag_cons tag tags rest, .inl rfl⟩

lemma exists_of_lt_of_lt {s t b : List Char} (hst : s < t) (htb : t < s ++ ',' :: b) :
    ∃ c t', t = s ++ c :: t' ∧ c ≤ ',' := by
  induction s generalizing t with
  | nil =>
    cases t with
    | nil => exact absurd hst (lt_irrefl _)
    | cons c t =>
      rw [nil_append, cons_lt_cons_iff] at htb
      exact ⟨c, t, rfl, htb.elim le_of_lt fun h => h.1.le⟩
  | cons d s ih =>
    cases t with
    | nil => exact absurd hst (not_lt_nil _)
    | cons c t =>
      rw [cons_lt_cons_iff] at hst
      rw [cons_append, cons_lt_cons_iff] at htb
      rcases hst with hst | ⟨rfl, hst⟩
      · rcases htb with htb | ⟨rfl, htb⟩
        · exact absurd hst htb.asymm
        · exact absurd hst (lt_irrefl _)
      · rcases htb with htb | ⟨-, htb⟩
        · exact absurd htb (lt_irrefl _)
        · obtain ⟨c, t', rfl, hc⟩ := ih hst htb
          exact ⟨c, t', rfl, hc⟩

/-- A text that stays the same when a word and a comma are put before it, up to what follows it, is
made of this word and commas. -/
lemma eq_of_shift (hword : IsWord word) {s r r' : List Char}
    (hr' : ∃ c t, r' = c :: t ∧ (c = ',' ∨ c = '\n'))
    (h : word.toList ++ ',' :: (s ++ r) = s ++ r') : r' = ',' :: (word.toList ++ r) := by
  induction hn : s.length using Nat.strong_induction_on generalizing s with
  | _ n ih =>
    rcases append_eq_append_iff.mp h with ⟨t, hs, ht⟩ | ⟨t, hw, ht⟩
    · -- the text starts with the word
      cases t with
      | nil =>
        rw [append_nil] at hs
        rw [nil_append] at ht
        rw [← ht, hs]
      | cons c t =>
        rw [cons_append, cons.injEq] at ht
        obtain ⟨rfl, ht⟩ := ht
        refine ih t.length ?_ ?_ rfl
        · rw [← hn, hs]
          simp
          omega
        · rw [← ht, hs]
          simp
    · -- the word starts with the text, so what follows the text would be a letter of it
      cases t with
      | nil =>
        rw [append_nil] at hw
        rw [nil_append] at ht
        rw [ht, hw]
      | cons c t =>
        obtain ⟨d, t', hd, hmark⟩ := hr'
        rw [hd, cons_append, cons.injEq] at ht
        have hgt := hword.gt_comma c (by rw [hw]; simp)
        rw [← ht.1] at hgt
        rcases hmark with rfl | rfl <;> exact absurd hgt (by decide)

/-- A list of tags up to the end of the line, and then another text. -/
def tagText (tags : List String) (rest : List Char) : List Char :=
  match tags with
  | [] => '\n' :: rest
  | tag :: tags => tag.toList ++ afterTag tags rest

lemma intercalate_append_newline (tags : List String) (rest : List Char) :
    (",".intercalate tags).toList ++ '\n' :: rest = tagText tags rest := by
  rw [String.toList_intercalate]
  cases tags with
  | nil => rfl
  | cons tag tags =>
    rw [map_cons, show (",".toList) = [','] from rfl, Json.intercalate_comma_cons, flatMap_map,
      append_assoc]
    rfl

lemma tagText_eq_of_afterTag_eq (h : afterTag tags rest = afterTag others rest') :
    tagText tags rest = tagText others rest' := by
  cases tags with
  | nil =>
    cases others with
    | nil => exact h
    | cons other others => simp [afterTag] at h
  | cons tag tags =>
    cases others with
    | nil => simp [afterTag] at h
    | cons other others =>
      rw [afterTag_cons, afterTag_cons, cons.injEq] at h
      exact h.2

lemma word_or_mem_of_cons (h : ∀ t ∈ tag :: tags, IsWord t ∨ t ∈ tag :: others)
    (hafter : ∀ t ∈ tags, tag < t) : ∀ t ∈ tags, IsWord t ∨ t ∈ others := by
  intro t ht
  refine (h t (mem_cons_of_mem _ ht)).imp_right fun hin => ?_
  exact (mem_cons.mp hin).resolve_left (hafter t ht).ne'

/-- A text of tags does not start with a word if no tag is this word or a smaller one. -/
lemma not_tagText_eq_word (hword : IsWord word) (htags : tags.Pairwise (· < ·))
    (hothers : others.Pairwise (· < ·))
    (hlt : ∀ tag ∈ tags, word < tag) (hlt' : ∀ tag ∈ others, word < tag)
    (hmem : ∀ tag ∈ tags, IsWord tag ∨ tag ∈ others)
    (hmem' : ∀ tag ∈ others, IsWord tag ∨ tag ∈ tags) :
    word.toList ++ afterTag tags rest ≠ tagText others rest' := by
  induction others generalizing tags with
  | nil => exact hword.append_ne_newline
  | cons other others ih =>
    intro h
    obtain ⟨hafter, hothers'⟩ := pairwise_cons.mp hothers
    have hless := String.lt_iff_toList_lt.mp (hlt' other mem_cons_self)
    rcases append_eq_append_iff.mp h with ⟨t, hother, ht⟩ | ⟨t, hother, -⟩
    swap
    · -- the other tag cannot be a start of the word, since it is greater
      exact absurd hless (IsPrefix.le ⟨t, hother.symm⟩)
    cases t with
    | nil =>
      rw [append_nil] at hother
      rw [hother] at hless
      exact lt_irrefl _ hless
    | cons c t =>
      obtain ⟨mark, after, hmark, hcases⟩ := exists_afterTag_eq_cons tags rest
      have hc : c = mark := by
        rw [hmark, cons_append, cons.injEq] at ht
        exact ht.1.symm
      -- the other tag goes on with a comma or a line end, so it is no word
      have hnot : ¬ IsWord other := by
        intro hword'
        have hgt := hword'.gt_comma c (by rw [hother]; simp)
        rw [hc] at hgt
        rcases hcases with rfl | rfl <;> exact absurd hgt (by decide)
      have hin := (hmem' other mem_cons_self).resolve_left hnot
      cases tags with
      | nil => cases hin
      | cons first tags =>
        obtain ⟨hfirst, htags'⟩ := pairwise_cons.mp htags
        rw [afterTag_cons, cons_append, cons.injEq] at ht
        obtain ⟨rfl, ht⟩ := ht
        -- nothing stands between the word and the other tag
        have heq : first = other := by
          by_contra hne
          have hfo : first < other := hfirst other ((mem_cons.mp hin).resolve_left (Ne.symm hne))
          have hnotin : first ∉ other :: others := by
            intro hin'
            rcases mem_cons.mp hin' with h' | h'
            · exact hne h'
            · exact absurd hfo (hafter first h').asymm
          have hwordFirst := (hmem first mem_cons_self).resolve_right hnotin
          have hfo' := String.lt_iff_toList_lt.mp hfo
          rw [hother] at hfo'
          obtain ⟨d, t', hd, hle⟩ :=
            exists_of_lt_of_lt (String.lt_iff_toList_lt.mp (hlt first mem_cons_self)) hfo'
          exact absurd (hwordFirst.gt_comma d (by rw [hd]; simp)) (not_lt.mpr hle)
        subst heq
        rw [hother, append_assoc] at ht
        have hshift := eq_of_shift hword (exists_afterTag_eq_cons others rest') ht
        refine ih htags' hothers' (forall_mem_cons.mp hlt).2
          (forall_mem_cons.mp hlt').2 (word_or_mem_of_cons hmem hfirst)
          (word_or_mem_of_cons hmem' hafter) ?_
        rw [← afterTag_cons] at hshift
        exact (tagText_eq_of_afterTag_eq hshift).symm

/-- Of two lists of tags, the one with the smaller first tag starts with a word, so their texts
differ. -/
lemma tagText_ne_of_lt {other : String} (hlt : tag < other) (htags : (tag :: tags).Pairwise (· < ·))
    (hothers : (other :: others).Pairwise (· < ·))
    (hmem : ∀ t ∈ tag :: tags, IsWord t ∨ t ∈ other :: others)
    (hmem' : ∀ t ∈ other :: others, IsWord t ∨ t ∈ tag :: tags) :
    tagText (tag :: tags) rest ≠ tagText (other :: others) rest' := by
  obtain ⟨hafter, htags'⟩ := pairwise_cons.mp htags
  have hless : ∀ t ∈ other :: others, tag < t := by
    intro t ht
    rcases mem_cons.mp ht with rfl | ht
    · exact hlt
    · exact hlt.trans ((pairwise_cons.mp hothers).1 t ht)
  have hword : IsWord tag :=
    (hmem tag mem_cons_self).resolve_right fun hin => lt_irrefl _ (hless tag hin)
  refine not_tagText_eq_word hword htags' hothers hafter hless
    (forall_mem_cons.mp hmem).2 fun t ht => ?_
  exact (hmem' t ht).imp_right fun hin => (mem_cons.mp hin).resolve_left (hless t ht).ne'

lemma eq_of_tagText_eq (htags : tags.Pairwise (· < ·)) (hothers : others.Pairwise (· < ·))
    (hmem : ∀ tag ∈ tags, IsWord tag ∨ tag ∈ others)
    (hmem' : ∀ tag ∈ others, IsWord tag ∨ tag ∈ tags)
    (h : tagText tags rest = tagText others rest') : tags = others := by
  induction tags generalizing others with
  | nil =>
    cases others with
    | nil => rfl
    | cons other others =>
      exact absurd h.symm ((hmem' other mem_cons_self).resolve_right (by simp)).append_ne_newline
  | cons tag tags ih =>
    cases others with
    | nil => exact absurd h ((hmem tag mem_cons_self).resolve_right (by simp)).append_ne_newline
    | cons other others =>
      rcases lt_trichotomy tag other with hlt | rfl | hlt
      · exact absurd h (tagText_ne_of_lt hlt htags hothers hmem hmem')
      · obtain ⟨hafter, htags'⟩ := pairwise_cons.mp htags
        obtain ⟨hafter', hothers'⟩ := pairwise_cons.mp hothers
        rw [ih htags' hothers' (word_or_mem_of_cons hmem hafter) (word_or_mem_of_cons hmem' hafter')
          (tagText_eq_of_afterTag_eq (append_cancel_left h))]
      · exact absurd h.symm (tagText_ne_of_lt hlt hothers htags hmem' hmem)

/-! ### Records -/

def recordLabels : List String := ["config", "exclusions", "composer", "ecosystems"]

/-- A record before it is written. -/
inductive InputEntry where
  | file (name digest : String)
  | extra (label path digest : String)
  | ecosystems (tags : List String)

def InputEntry.text : InputEntry → String
  | .file name digest => record [name, digest]
  | .extra label path digest => record [label, path, digest]
  | .ecosystems tags => record ["ecosystems", ",".intercalate tags]

/-- What the scans that are asked for the same have in common: the path of the rules for widgets,
that of the manifest, and the forced tags. -/
structure InputFrame where
  exclusions : String
  composer : String
  forced : List String

/-- The entries of a scan. -/
inductive InputEntry.Fits (frame : InputFrame) : InputEntry → Prop
  | file {name digest : String} (name_nul : '\x00' ∉ name.toList) (name_label : name ∉ recordLabels)
    (digest_line : '\n' ∉ digest.toList) : Fits frame (.file name digest)
  | config {path digest : String} (path_nul : '\x00' ∉ path.toList)
    (digest_line : '\n' ∉ digest.toList) : Fits frame (.extra "config" path digest)
  | exclusions {path digest : String} (path_eq : path = frame.exclusions)
    (digest_line : '\n' ∉ digest.toList) : Fits frame (.extra "exclusions" path digest)
  | composer {path digest : String} (path_eq : path = frame.composer)
    (digest_line : '\n' ∉ digest.toList) : Fits frame (.extra "composer" path digest)
  | ecosystems {tags : List String} (ordered : tags.Pairwise (· < ·)) (forced : frame.forced ⊆ tags)
    (word : ∀ tag ∈ tags, IsWord tag ∨ tag ∈ frame.forced) : Fits frame (.ecosystems tags)

@[simp] lemma toList_record_pair (a b : String) :
    (record [a, b]).toList = a.toList ++ '\x00' :: b.toList := by
  simp [record]

@[simp] lemma toList_record_triple (a b c : String) :
    (record [a, b, c]).toList = a.toList ++ '\x00' :: (b.toList ++ '\x00' :: c.toList) := by
  simp [record]

def InputEntry.head : InputEntry → String
  | .file name _ => name
  | .extra label _ _ => label
  | .ecosystems _ => "ecosystems"

def InputEntry.tail : InputEntry → String
  | .file _ digest => digest
  | .extra _ path digest => record [path, digest]
  | .ecosystems tags => ",".intercalate tags

@[simp] lemma InputEntry.toList_text (e : InputEntry) :
    e.text.toList = e.head.toList ++ '\x00' :: e.tail.toList := by
  cases e with
  | file name digest => exact toList_record_pair name digest
  | extra label path digest =>
    rw [text, toList_record_triple, tail, toList_record_pair]
    rfl
  | ecosystems tags => exact toList_record_pair _ _

lemma InputEntry.Fits.nul_notMem_head (h : e.Fits frame) : '\x00' ∉ e.head.toList := by
  cases h with
  | file name_nul => exact name_nul
  | _ => simp [head]

lemma InputEntry.Fits.head_mem_labels (h : e.Fits frame)
    (hfile : ∀ name digest, e ≠ .file name digest) : e.head ∈ recordLabels := by
  cases h with
  | file => exact absurd rfl (hfile _ _)
  | _ => simp [head, recordLabels]

/-- A path and a digest up to the end of the line: a path without zero characters ends at the first
one. -/
lemma eq_of_extra_tail {path' digest' : String} (hpath : '\x00' ∉ path.toList ∨ path = path')
    (hpath' : '\x00' ∉ path'.toList ∨ path = path') (hline : '\n' ∉ digest.toList)
    (hline' : '\n' ∉ digest'.toList) (h : (record [path, digest]).toList ++ '\n' :: x =
      (record [path', digest']).toList ++ '\n' :: y) : path = path' ∧ digest = digest' := by
  rw [toList_record_pair, toList_record_pair, append_assoc, append_assoc] at h
  obtain rfl | hne := eq_or_ne path path'
  · have hrest := append_cancel_left h
    rw [cons_append, cons_append, cons.injEq] at hrest
    exact ⟨rfl, String.toList_inj.mp (Text.append_cons_cancel hline hline' hrest.2).1⟩
  · obtain ⟨hsame, -⟩ := Text.append_cons_cancel (hpath.resolve_right hne)
      (hpath'.resolve_right hne) h
    exact absurd (String.toList_inj.mp hsame) hne

lemma InputEntry.Fits.isFile_of_head_eq {name : String} (h : Fits frame (.file name digest))
    (h' : e.Fits frame) (hhead : name = e.head) : ∃ digest', e = .file name digest' := by
  cases h with
  | file name_nul name_label digest_line =>
    by_contra hnot
    refine name_label (hhead ▸ h'.head_mem_labels fun other digest' he => hnot ⟨digest', ?_⟩)
    rw [he, hhead, he]
    rfl

lemma InputEntry.Fits.eq_of_append {e' : InputEntry} (h : e.Fits frame) (h' : e'.Fits frame)
    (heq : e.text.toList ++ '\n' :: x = e'.text.toList ++ '\n' :: y) : e = e' := by
  rw [toList_text, toList_text, append_assoc, append_assoc] at heq
  obtain ⟨hhead, htail⟩ := Text.append_cons_cancel h.nul_notMem_head h'.nul_notMem_head heq
  rw [String.toList_inj] at hhead
  have hfile : ∀ name digest, e' = .file name digest → ∃ digest', e = .file name digest' := by
    rintro name digest rfl
    exact h'.isFile_of_head_eq h hhead.symm
  cases h with
  | @file name digest name_nul name_label digest_line =>
    obtain ⟨digest', rfl⟩ := (Fits.file name_nul name_label digest_line).isFile_of_head_eq h' hhead
    cases h' with
    | file _ _ digest_line' =>
      rw [String.toList_inj.mp (Text.append_cons_cancel digest_line digest_line' htail).1]
  | config path_nul digest_line =>
    cases h' with
    | file => simp at hfile
    | config path_nul' digest_line' =>
      obtain ⟨rfl, rfl⟩ :=
        eq_of_extra_tail (.inl path_nul) (.inl path_nul') digest_line digest_line' htail
      rfl
    | _ => simp [head] at hhead
  | exclusions path_eq digest_line | composer path_eq digest_line =>
    cases h' with
    | file => simp at hfile
    | exclusions path_eq' digest_line' | composer path_eq' digest_line' =>
      first
      | simp [head] at hhead; done
      | have hpath := path_eq.trans path_eq'.symm
        obtain ⟨rfl, rfl⟩ := eq_of_extra_tail (.inr hpath) (.inr hpath) digest_line digest_line' htail
        rfl
    | _ => simp [head] at hhead
  | ecosystems ordered forced word =>
    cases h' with
    | file => simp at hfile
    | ecosystems ordered' forced' word' =>
      change (",".intercalate _).toList ++ '\n' :: x =
        (",".intercalate _).toList ++ '\n' :: y at htail
      rw [intercalate_append_newline, intercalate_append_newline] at htail
      rw [eq_of_tagText_eq ordered ordered' (fun tag ht => (word tag ht).imp_right (forced' ·))
        (fun tag ht => (word' tag ht).imp_right (forced ·)) htail]
    | _ => simp [head] at hhead

lemma perm_of_recordText_eq {entries others : List InputEntry} (h : ∀ e ∈ entries, e.Fits frame)
    (h' : ∀ e ∈ others, e.Fits frame)
    (heq : recordText (entries.map (·.text)) = recordText (others.map (·.text))) :
    entries.Perm others := by
  -- the records in order are those of the entries in some order
  have hsorted (l : List InputEntry) : (recordText (l.map (·.text))).toList =
      (l.mergeSort fun a b => a.text ≤ b.text).flatMap fun e => e.text.toList ++ ['\n'] := by
    have hmap := map_mergeSort (r := fun a b => decide (a.text ≤ b.text))
      (s := fun a b => decide (a ≤ b)) (f := InputEntry.text) (l := l) (by simp)
    rw [recordText, ← hmap, String.toList_join, map_map, flatMap_map]
    simp
  have hcode : ∀ l l' : List InputEntry, (∀ e ∈ l, e.Fits frame) → (∀ e ∈ l', e.Fits frame) →
      l.flatMap (fun e => e.text.toList ++ ['\n']) = l'.flatMap (fun e => e.text.toList ++ ['\n']) →
      l = l' := by
    intro l
    induction l with
    | nil =>
      intro l' _ _ hflat
      cases l' with
      | nil => rfl
      | cons e l' => simp at hflat
    | cons e l ih =>
      intro l' hl hl' hflat
      cases l' with
      | nil => simp at hflat
      | cons e' l' =>
        simp only [flatMap_cons, append_assoc, singleton_append] at hflat
        obtain rfl := (hl e mem_cons_self).eq_of_append (hl' e' mem_cons_self) hflat
        have hrest := append_cancel_left hflat
        rw [cons.injEq] at hrest
        rw [ih l' (forall_mem_cons.mp hl).2 (forall_mem_cons.mp hl').2 hrest.2]
  have hsame : (entries.mergeSort fun a b => a.text ≤ b.text) = others.mergeSort fun a b =>
      a.text ≤ b.text := by
    refine hcode _ _ (fun e he => h e (mem_mergeSort.mp he))
      (fun e he => h' e (mem_mergeSort.mp he)) ?_
    rw [← hsorted, ← hsorted, heq]
  have hperm := (mergeSort_perm entries fun a b => a.text ≤ b.text).symm
  rw [hsame] at hperm
  exact hperm.trans (mergeSort_perm _ _)

/-! ### Ecosystems -/

lemma isWord_tagOf_of_mem_detect {limit : Int} {e : Ecosystem.Evidence}
    (h : e ∈ (Ecosystem.detect (Ecosystem.Detector.withMaxFiles {} limit) tree root).evidence) :
    IsWord (tagOf e.ecosystem) := by
  have hword : ∀ name ∈ ["elementor", "woocommerce"], tagOf name ≠ "" ∧
      ((tagOf name).toList.all fun c => decide (',' < c)) := by
    decide +kernel
  have hmem : e.ecosystem ∈ ["elementor", "woocommerce"] := Ecosystem.ecosystem_mem_names h
  obtain ⟨hne, hall⟩ := hword _ hmem
  exact ⟨hne, fun c hc => of_decide_eq_true (all_eq_true.mp hall c hc)⟩

lemma ecosystemsOf_spec {m : Means} (h : ecosystemsOf m tree root s = .ok ecosystems) :
    ecosystems.Pairwise (· < ·) ∧ Tags.ofNames s.forceEcosystems ⊆ ecosystems ∧
      ∀ tag ∈ ecosystems, IsWord tag ∨ tag ∈ Tags.ofNames s.forceEcosystems := by
  have hunion : ∃ tags : Tags, (∀ tag ∈ tags, IsWord tag) ∧
      Tags.union tags (Tags.ofNames s.forceEcosystems) = ecosystems := by
    unfold ecosystemsOf at h
    dsimp only at h
    split at h
    · exact ⟨[], by simp, Except.ok.inj h⟩
    · split at h
      · cases h
      · refine ⟨_, fun tag ht => ?_, Except.ok.inj h⟩
        rw [Ecosystem.justified_detect] at ht
        obtain ⟨-, e, he, rfl⟩ := Ecosystem.mem_tagsOf_iff.mp ht
        exact isWord_tagOf_of_mem_detect he
  obtain ⟨tags, hwords, rfl⟩ := hunion
  refine ⟨pairwise_sortedNames _, fun tag ht => mem_sortedNames.mpr (mem_append_right _ ht), ?_⟩
  intro tag ht
  exact (mem_append.mp (mem_sortedNames.mp ht)).imp_left (hwords tag)

/-! ### The records of a scan -/

lemma exists_hexDigit_of_mem_sha256Hex {bytes : Bytes} {c : Char}
    (h : c ∈ (Digest.sha256Hex bytes).toList) : ∃ n < 16, c = Text.hexDigit n := by
  rw [Digest.sha256Hex, Digest.hex, String.toList_ofList] at h
  obtain ⟨b, -, hb⟩ := mem_flatMap.mp h
  simp only [Text.hexDigits, nil_append, cons_append, mem_cons, not_mem_nil, or_false] at hb
  rcases hb with hb | hb
  · exact ⟨_, Nat.mod_lt _ (by omega), hb⟩
  · exact ⟨_, Nat.mod_lt _ (by omega), hb⟩

lemma newline_notMem_sha256Hex (bytes : Bytes) : '\n' ∉ (Digest.sha256Hex bytes).toList := by
  have hdigit : ∀ n < 16, '\n' ≠ Text.hexDigit n := by decide
  intro hmem
  obtain ⟨n, hn, heq⟩ := exists_hexDigit_of_mem_sha256Hex hmem
  exact hdigit n hn heq

lemma newline_notMem_extraDigest (h : extraDigest tree here path = .ok digest) :
    '\n' ∉ digest.toList := by
  unfold extraDigest fileDigest at h
  cases hread : FileTree.readBeside tree here path with
  | ok content =>
    rw [hread] at h
    cases h
    exact newline_notMem_sha256Hex content
  | error e =>
    rw [hread] at h
    dsimp only [Except.map] at h
    split at h
    · cases h
      decide
    · cases h

def fileEntry (tree : Node) (here root path : String) : InputEntry :=
  .file ((relative? root path).getD path) ((fileDigest tree here path).toOption.getD "")

def extraOf? (tree : Node) (here : String) (labelled : String × String) : Option InputEntry :=
  if isBlank labelled.2 then none
  else some (.extra labelled.1 (clean (trim labelled.2))
    ((extraDigest tree here (trim labelled.2)).toOption.getD ""))

def labelledPaths (root config exclusions : String) : List (String × String) :=
  [("config", config), ("exclusions", exclusions), ("composer", join [root, "composer.json"])]

def inputEntries (tree : Node) (here root : String) (files : List String)
    (config exclusions : String) (ecosystems : Tags) : List InputEntry :=
  files.map (fileEntry tree here root) ++ (labelledPaths root config exclusions).filterMap
    (extraOf? tree here) ++ [.ecosystems ecosystems]

lemma mapM_eq_ok {ε α β : Type} {f : α → Except ε β} {l : List α} {results : List β}
    (h : l.mapM f = .ok results) (g : α → β) (hg : ∀ a b, f a = .ok b → b = g a) :
    results = l.map g ∧ ∀ a ∈ l, f a = .ok (g a) := by
  induction l generalizing results with
  | nil =>
    cases h
    exact ⟨rfl, by simp⟩
  | cons a l ih =>
    rw [mapM_cons] at h
    obtain ⟨b, hb, h⟩ := exists_of_bind_eq_ok h
    obtain ⟨rest, hrest, h⟩ := exists_of_bind_eq_ok h
    cases h
    obtain ⟨rfl, hall⟩ := ih hrest
    obtain rfl := hg a b hb
    refine ⟨rfl, fun a' ha' => ?_⟩
    rcases mem_cons.mp ha' with rfl | ha'
    · exact hb
    · exact hall a' ha'

lemma fileRecord_eq_ok {record : String} (h : Cache.fileRecord tree here root path = .ok record) :
    record = (fileEntry tree here root path).text ∧
      ∃ content, FileTree.readBeside tree here path = .ok content := by
  unfold Cache.fileRecord fileDigest at h
  unfold fileEntry fileDigest
  cases hread : FileTree.readBeside tree here path with
  | error e =>
    rw [hread] at h
    cases h
  | ok content =>
    rw [hread] at h
    cases h
    exact ⟨rfl, content, rfl⟩

lemma extraRecord_eq_ok {label : String} {record : Option String}
    (h : Cache.extraRecord tree here label path = .ok record) :
    record = (extraOf? tree here (label, path)).map (·.text) ∧ (isBlank path = false →
        ∃ digest, extraDigest tree here (trim path) = .ok digest) := by
  unfold Cache.extraRecord at h
  unfold extraOf?
  by_cases hblank : isBlank path
  · rw [if_pos hblank] at h ⊢
    cases h
    exact ⟨rfl, fun h => absurd hblank (by simp [h])⟩
  · rw [if_neg hblank] at h ⊢
    dsimp only at h
    cases hdigest : extraDigest tree here (trim path) with
    | error e =>
      rw [hdigest] at h
      cases h
    | ok digest =>
      rw [hdigest] at h
      cases h
      exact ⟨rfl, fun _ => ⟨digest, rfl⟩⟩

lemma inputRecords_eq_ok
    (h : inputRecords tree here root files config exclusions ecosystems = .ok records) :
    records = (inputEntries tree here root files config exclusions ecosystems).map (·.text) ∧
      (∀ path ∈ files, ∃ content, FileTree.readBeside tree here path = .ok content) ∧
      ∀ labelled ∈ labelledPaths root config exclusions, isBlank labelled.2 = false →
        ∃ digest, extraDigest tree here (trim labelled.2) = .ok digest := by
  obtain ⟨sources, hsources, h⟩ := exists_of_bind_eq_ok h
  obtain ⟨extras, hextras, h⟩ := exists_of_bind_eq_ok h
  cases h
  obtain ⟨rfl, hfiles⟩ := mapM_eq_ok hsources (fun path => (fileEntry tree here root path).text)
    fun path record hrecord => (fileRecord_eq_ok hrecord).1
  obtain ⟨rfl, hlabelled⟩ :=
    mapM_eq_ok hextras (fun labelled => (extraOf? tree here labelled).map (·.text))
    fun labelled record hrecord => (extraRecord_eq_ok hrecord).1
  refine ⟨?_, fun path hpath => (fileRecord_eq_ok (hfiles path hpath)).2,
    fun labelled hmem => (extraRecord_eq_ok (hlabelled labelled hmem)).2⟩
  rw [inputEntries, map_append, map_append, map_map, map_filterMap, filterMap_map]
  rfl

/-- What scans of a root with the same settings have in common. -/
def frameOf (root exclusions : String) (s : Settings) : InputFrame where
  exclusions := clean (trim exclusions)
  composer := clean (trim (join [root, "composer.json"]))
  forced := Tags.ofNames s.forceEcosystems

lemma Scanned.nul_notMem_relative {root : List String} (h : Scanned root paths)
    (hpath : path ∈ paths) : '\x00' ∉ ((relative? (rooted root) path).getD path).toList := by
  obtain ⟨names, hne, hvalid, rfl⟩ := h.below path hpath
  rw [Path.relative?_rooted_append h.isName (fun n hn => (hvalid n hn).toIsName) hne,
    Option.getD_some]
  intro hmem
  rcases Path.mem_toList_intercalate hmem with hslash | ⟨name, hname, hc⟩
  · exact absurd hslash (by decide)
  · exact (hvalid name hname).no_nul hc

lemma mem_inputEntries_iff : e ∈ inputEntries tree here root files config exclusions ecosystems ↔
      (∃ path ∈ files, e = fileEntry tree here root path) ∨
      (∃ labelled ∈ labelledPaths root config exclusions, isBlank labelled.2 = false ∧
        e = .extra labelled.1 (clean (trim labelled.2))
          ((extraDigest tree here (trim labelled.2)).toOption.getD "")) ∨
      e = .ecosystems ecosystems := by
  simp only [inputEntries, extraOf?, mem_append, mem_map, mem_filterMap, mem_singleton,
    Option.ite_none_left_eq_some, Option.some.injEq, Bool.not_eq_true, or_assoc, @eq_comm _ e]

lemma fits_of_mem_inputEntries {m : Means} {root : List String} (hscanned : Scanned root paths)
    (hecosystems : ecosystemsOf m tree (rooted root) s = .ok ecosystems)
    (hconfig : '\x00' ∉ config.toList)
    (hlabels : ∀ path ∈ paths, (relative? (rooted root) path).getD path ∉ recordLabels)
    (hrecords : inputRecords tree' here (rooted root) paths config exclusions ecosystems =
      .ok records) : ∀ e ∈ inputEntries tree' here (rooted root) paths config exclusions ecosystems,
      e.Fits (frameOf (rooted root) exclusions s) := by
  obtain ⟨-, hfiles, hextras⟩ := inputRecords_eq_ok hrecords
  intro e he
  rcases mem_inputEntries_iff.mp he with ⟨path, hpath, rfl⟩ | ⟨labelled, hmem, hblank, rfl⟩ | rfl
  · obtain ⟨content, hcontent⟩ := hfiles path hpath
    refine .file (hscanned.nul_notMem_relative hpath) (hlabels path hpath) ?_
    rw [fileDigest, hcontent]
    exact newline_notMem_sha256Hex content
  · obtain ⟨digest, hdigest⟩ := hextras labelled hmem hblank
    have hline := newline_notMem_extraDigest hdigest
    rw [hdigest]
    dsimp only [Except.toOption, Option.getD_some]
    simp only [labelledPaths, mem_cons, not_mem_nil, or_false] at hmem
    rcases hmem with rfl | rfl | rfl
    · refine .config (fun hnul => ?_) hline
      rcases Path.mem_toList_clean hnul with h | h | h
      · exact absurd h (by decide)
      · exact absurd h (by decide)
      · rw [Text.toList_trim] at h
        exact hconfig (Text.trimChars_subset _ h)
    · exact .exclusions (by simp only [frameOf]) hline
    · exact .composer (by simp only [frameOf]) hline
  · obtain ⟨hordered, hforced, hword⟩ := ecosystemsOf_spec hecosystems
    exact .ecosystems hordered hforced hword

/-- A scanned file with an entry in another scan of the root is scanned there, with the same
digest. -/
lemma Scanned.eq_of_fileEntry_mem {top : List String} (h : Scanned top paths)
    (hfiles : Scanned top files) (hpath : path ∈ paths) (hmem : fileEntry tree' here' (rooted top)
      path ∈ inputEntries tree here (rooted top) files config exclusions ecosystems) :
    path ∈ files ∧ (fileDigest tree' here' path).toOption.getD "" =
      (fileDigest tree here path).toOption.getD "" := by
  obtain ⟨path', hpath', heq⟩ : ∃ path' ∈ files, fileEntry tree' here' (rooted top) path =
      fileEntry tree here (rooted top) path' := by
    simpa [mem_inputEntries_iff, fileEntry] using hmem
  obtain ⟨hname, hdigest⟩ := InputEntry.file.inj heq
  obtain ⟨names, hne, hvalid, rfl⟩ := h.below path hpath
  obtain ⟨names', hne', hvalid', rfl⟩ := hfiles.below path' hpath'
  have hrelative := Path.relative?_rooted_append h.isName (fun n hn => (hvalid n hn).toIsName) hne
  have hrelative' :=
    Path.relative?_rooted_append h.isName (fun n hn => (hvalid' n hn).toIsName) hne'
  have hsame : top ++ names = top ++ names' := by
    refine Path.relative?_injective h.isName (isName_append h.isName hvalid)
      (isName_append h.isName hvalid') ?_
    rw [hrelative, hrelative'] at hname ⊢
    rw [Option.getD_some, Option.getD_some] at hname
    rw [hname]
  rw [hsame]
  exact ⟨hpath', by rw [hsame] at hdigest; exact hdigest⟩

/-- Scans of one root with fitting entries whose records have the same text read the same files,
rules for widgets and ecosystems. -/
lemma agree_of_recordText_eq {root paths' : List String} (hscanned : Scanned root paths)
    (hscanned' : Scanned root paths') {config' : String}
    {ecosystems' : Tags} {records' : List String} (hrecords : inputRecords tree here
      (rooted root) paths config exclusions ecosystems = .ok records) (hrecords' : inputRecords
      tree' here' (rooted root) paths' config' exclusions ecosystems' = .ok records') (hfits : ∀ e ∈
      inputEntries tree here (rooted root) paths config exclusions ecosystems, e.Fits frame)
    (hfits' : ∀ e ∈ inputEntries tree' here' (rooted root) paths' config' exclusions ecosystems',
      e.Fits frame)
    (heq : recordText records = recordText records') : paths = paths' ∧ ecosystems = ecosystems' ∧
      (∀ path ∈ paths, fileDigest tree here path = fileDigest tree' here' path) ∧
      (isBlank exclusions = false → extraDigest tree here (trim exclusions) =
        extraDigest tree' here' (trim exclusions)) := by
  obtain ⟨rfl, hfiles, hextras⟩ := inputRecords_eq_ok hrecords
  obtain ⟨rfl, hfiles', hextras'⟩ := inputRecords_eq_ok hrecords'
  have hperm := perm_of_recordText_eq hfits hfits' heq
  have hentry {tree : Node} {here config : String} {paths : List String} {ecosystems : Tags}
      {path : String} (hpath : path ∈ paths) : fileEntry tree here (rooted root) path ∈
        inputEntries tree here (rooted root) paths config exclusions ecosystems :=
    mem_inputEntries_iff.mpr (.inl ⟨path, hpath, rfl⟩)
  have hfile : ∀ path ∈ paths, path ∈ paths' ∧ (fileDigest tree here path).toOption.getD "" =
      (fileDigest tree' here' path).toOption.getD "" := fun path hpath =>
    hscanned.eq_of_fileEntry_mem hscanned' hpath (hperm.subset (hentry hpath))
  have hfile' : ∀ path ∈ paths', path ∈ paths := fun path hpath =>
    (hscanned'.eq_of_fileEntry_mem hscanned hpath (hperm.symm.subset (hentry hpath))).1
  have hpaths : paths = paths' := hscanned.ordered.eq_of_mem_iff hscanned'.ordered
    fun path => ⟨fun h => (hfile path h).1, hfile' path⟩
  refine ⟨hpaths, ?_, fun path hpath => ?_, fun hblank => ?_⟩
  · simpa [mem_inputEntries_iff, fileEntry] using hperm.subset
      (mem_inputEntries_iff.mpr (.inr (.inr rfl)))
  · obtain ⟨hmem, hdigest⟩ := hfile path hpath
    obtain ⟨content, hcontent⟩ := hfiles path hpath
    obtain ⟨content', hcontent'⟩ := hfiles' path hmem
    rw [fileDigest, fileDigest, hcontent, hcontent'] at hdigest ⊢
    exact congrArg Except.ok hdigest
  · have hlabel (config : String) :
        ("exclusions", exclusions) ∈ labelledPaths (rooted root) config exclusions := by
      simp [labelledPaths]
    obtain ⟨digest, hdigest⟩ := hextras _ (hlabel config) hblank
    obtain ⟨digest', hdigest'⟩ := hextras' _ (hlabel config') hblank
    have hmem :=
      hperm.subset (mem_inputEntries_iff.mpr (.inr (.inl ⟨_, hlabel config, hblank, rfl⟩)))
    have hsame : digest = digest' := by
      simpa [mem_inputEntries_iff, fileEntry, labelledPaths, hblank, hdigest, hdigest',
        Except.toOption] using hmem
    rw [hdigest, hdigest', hsame]

end PluginAudit.Scan
