import PluginAudit.Proofs.Truncation
import PluginAudit.Proofs.WidgetOverlays
import PluginAudit.Settings.Load

/-!
Settings in JSON. Main statement: bytes are taken as settings only if they are one document in which
all names are known, or such a document with a closing bracket after it.
-/

open List

namespace PluginAudit

namespace Text

variable {bytes rest more : List UInt8} {lead : UInt8} {c : Char} {n : Nat}

/-! ### Bytes one after the other -/

lemma sequence?_append (h : sequence? lead rest = some (c, n)) (more : List UInt8) :
    sequence? lead (rest ++ more) = some (c, n) ∧ n ≤ rest.length := by
  unfold sequence? at h ⊢
  rcases rest with _ | ⟨b, _ | ⟨c, _ | ⟨d, rest⟩⟩⟩ <;> grind

lemma isContinuation_of_sequence? {found : Char × Nat} (h : sequence? lead rest = none)
    (hmore : sequence? lead (rest ++ more) = some found) : ∀ b ∈ rest, isContinuation b := by
  unfold sequence? at h hmore
  rcases rest with _ | ⟨b, _ | ⟨c, _ | ⟨d, rest⟩⟩⟩ <;> grind

lemma decodeBytes_append (h : (decodeBytes bytes).getLast? ≠ some replacement) (more : List UInt8) :
    decodeBytes (bytes ++ more) = decodeBytes bytes ++ decodeBytes more := by
  fun_induction decodeBytes bytes with
  | case1 => rfl
  | case2 lead rest c n hread ih =>
    obtain ⟨hread', hn⟩ := sequence?_append hread more
    rw [cons_append, decodeBytes, hread']
    dsimp only
    rw [drop_append_of_le_length hn, ih, cons_append]
    intro hlast
    exact h (by rw [getLast?_cons, hlast]; rfl)
  | case3 lead rest hread ih =>
    cases hmore : sequence? lead (rest ++ more) with
    | some found =>
      -- all bytes of the cut character are replaced, the last one too
      have hcut := decodeBytes_continuations (isContinuation_of_sequence? hread hmore)
      rw [hcut, ← replicate_succ, getLast?_replicate] at h
      exact absurd rfl h
    | none =>
      rw [cons_append, decodeBytes, hmore]
      dsimp only
      rw [ih, cons_append]
      intro hlast
      exact h (by rw [getLast?_cons, hlast]; rfl)

lemma toNat_ofNat_cases (n : Nat) : (Char.ofNat n).toNat = n ∨ (Char.ofNat n).toNat = 0 := by
  by_cases h : n.isValidChar
  · exact .inl (by rw [Char.ofNat, dif_pos h]; rfl)
  · exact .inr (by rw [Char.ofNat, dif_neg h]; rfl)

lemma toNat_of_sequence? (h : sequence? lead rest = some (c, n)) :
    c.toNat = lead.toNat ∨ c.toNat = 0 ∨ 128 ≤ c.toNat := by
  suffices ∃ k, c = Char.ofNat k ∧ (k = lead.toNat ∨ 128 ≤ k) by
    obtain ⟨k, rfl, hk⟩ := this
    rcases toNat_ofNat_cases k with h | h <;> omega
  unfold sequence? at h
  repeat' split at h
  all_goals cases h
  · exact ⟨_, rfl, .inl rfl⟩
  all_goals
    refine ⟨_, rfl, .inr ?_⟩
    simp only [payload, Bool.and_eq_true, Bool.or_eq_true, Bool.not_eq_true', Bool.not_eq_false,
      beq_iff_eq, decide_eq_true_eq, isContinuation_iff, UInt8.le_iff_toNat_le, UInt8.lt_iff_toNat_lt,
      ← UInt8.toNat_inj, UInt8.reduceToNat] at *
    omega

lemma exists_decodeBytes_cons (b : UInt8) (more : List UInt8) :
    ∃ c text, decodeBytes (b :: more) = c :: text ∧
    (c.toNat = b.toNat ∨ c.toNat = 0 ∨ 128 ≤ c.toNat) := by
  rw [decodeBytes]
  cases hread : sequence? b more with
  | none => exact ⟨_, _, rfl, .inr (.inr (by decide))⟩
  | some found =>
    obtain ⟨c, n⟩ := found
    exact ⟨c, _, rfl, toNat_of_sequence? hread⟩

end Text

namespace Json

variable {α : Type} {j : Json} {s w : List Char} {parts : Parts α} {a b : α} {path : List String}

/-! ### The end of a document -/

lemma IsNumeral.toNat_lt (h : IsNumeral s) : ∀ c ∈ s, c.toNat < 128 := by
  have hdigit (c : Char) (hc : c.isDigit) : c.toNat < 128 := by
    have hnine := (Char.isDigit_iff_toNat.mp hc).2
    exact Nat.lt_of_le_of_lt hnine (by decide)
  obtain @⟨whole, fraction, exponent, negative, hwhole, hfraction, hexponent⟩ := h
  simp only [forall_mem_append]
  refine ⟨⟨⟨?_, fun c hc => hdigit c (hwhole.isDigits.digit c hc)⟩, ?_⟩, ?_⟩
  · cases negative <;> simp [signText]
  · cases hfraction with
    | none => simp
    | digits all => exact forall_mem_cons.mpr ⟨by decide, fun c hc => hdigit c (all.digit c hc)⟩
  · cases hexponent with
    | none => simp
    | @digits mark sign digits mark_eq sign_eq all =>
      rw [forall_mem_cons, forall_mem_append]
      refine ⟨by rcases mark_eq with rfl | rfl <;> decide, ?_,
        fun c hc => hdigit c (all.digit c hc)⟩
      rcases sign_eq with rfl | rfl | rfl <;> simp

lemma Spells.getLast?_eq (h : Spells j w) : ∃ c, w.getLast? = some c ∧ c.toNat < 128 := by
  cases h with
  | num h =>
    obtain ⟨c, t, hn, -⟩ := h.exists_cons
    exact ⟨_, getLast?_eq_some_getLast (by simp [hn]), h.toNat_lt _ (getLast_mem _)⟩
  | str h =>
    obtain ⟨body, rfl, -⟩ := h.exists_body
    exact ⟨'"', by simp [getLast?_cons], by decide⟩
  | arr => exact ⟨']', by simp [bracketText, getLast?_cons], by decide⟩
  | obj => exact ⟨'\x7d', by simp [bracketText, getLast?_cons], by decide⟩
  | _ => exact ⟨_, rfl, by decide⟩

lemma IsDocument.getLast?_ne (h : IsDocument s j) : s.getLast? ≠ some Text.replacement := by
  obtain ⟨p, rfl, rfl, hp⟩ := h
  obtain ⟨c, hlast, hc⟩ := hp.getLast?_eq
  have hascii (d : Char) (hd : d.toNat < 128) : d ≠ Text.replacement := by
    rintro rfl
    exact absurd hd (by decide)
  rw [Part.written, getLast?_append, getLast?_append, hlast]
  cases hafter : p.after.getLast? with
  | none => simpa using hascii c hc
  | some d =>
    have hgap := p.isGap_after d (mem_of_getLast? hafter)
    simp only [isGap, Bool.or_eq_true, beq_iff_eq] at hgap
    have hd : d.toNat < 128 := by rcases hgap with ((rfl | rfl) | rfl) | rfl <;> decide
    simpa using hascii d hd

/-! ### The names of members -/

/-- The names on the way to a member of a document. -/
inductive HasMember : Json → List String → Prop
  | here {members : List (String × Json)} {m : String × Json} (h : m ∈ members) :
    HasMember (.obj members) [m.1]
  | inside {members : List (String × Json)} {m : String × Json} {path : List String}
    (h : m ∈ members) (hpath : HasMember m.2 path) : HasMember (.obj members) (m.1 :: path)
  | item {items : List Json} {j : Json} {path : List String} (h : j ∈ items)
    (hpath : HasMember j path) : HasMember (.arr items) path

lemma exists_part_of_mem {members : List (String × Json)}
    (h : intoParts true parts members a = some b) {m : String × Json} (hm : m ∈ members) :
    ∃ part ∈ parts, Text.sameFold part.1 m.1 ∧ ∃ old new, part.2 m.2 old = some new := by
  induction members generalizing a with
  | nil => cases hm
  | cons member members ih =>
    obtain ⟨name, value⟩ := member
    rw [intoParts] at h
    split at h
    · rename_i into hpart
      split at h
      · rename_i new hnew
        rcases mem_cons.mp hm with rfl | hm
        · obtain ⟨part, hmem, rfl, hname⟩ := exists_of_partFor hpart
          exact ⟨part, hmem, hname, a, new, hnew⟩
        · exact ih h hm
      · cases h
    · cases h

lemma exists_of_intoRecord (h : intoRecord true parts j a = some b) (hpath : HasMember j path) :
    ∃ part ∈ parts, ∃ name below, path = name :: below ∧ Text.sameFold part.1 name ∧
      (below = [] ∨ ∃ value old new, part.2 value old = some new ∧ HasMember value below) := by
  cases hpath with
  | item => cases h
  | here hm =>
    obtain ⟨part, hpart, hname, -⟩ := exists_part_of_mem h hm
    exact ⟨part, hpart, _, [], rfl, hname, .inl rfl⟩
  | inside hm hbelow =>
    obtain ⟨part, hpart, hname, old, new, hread⟩ := exists_part_of_mem h hm
    exact ⟨part, hpart, _, _, rfl, hname, .inr ⟨_, old, new, hread, hbelow⟩⟩

lemma exists_of_intoItems {into : Decoder α} {zero : α} {items : List Json} {all : List α}
    (h : intoItems zero into items = some all) (hj : j ∈ items) : ∃ a, into j zero = some a := by
  induction items generalizing all with
  | nil => cases hj
  | cons item items ih =>
    simp only [intoItems, Option.bind_eq_bind, Option.bind_eq_some_iff] at h
    obtain ⟨a, ha, rest, hrest, -⟩ := h
    rcases mem_cons.mp hj with rfl | hj
    · exact ⟨a, ha⟩
    · exact ih hrest hj

end Json

namespace Settings

variable {α : Type} {path : List String} {j : Json}

open Json

lemma Field.not_hasMember {f : Field α} {a b : α} (h : f.ofJson j a = some b) :
    ¬ HasMember j path := by
  intro hpath
  cases f with
  | texts put =>
    obtain ⟨all, hread, -⟩ := Option.map_eq_some_iff.mp h
    cases hpath with
    | item hj hbelow =>
      obtain ⟨all, hread, -⟩ := Option.map_eq_some_iff.mp hread
      obtain ⟨text, htext⟩ := exists_of_intoItems hread hj
      cases hbelow <;> cases htext
    | _ => cases hread
  | _ => cases hpath <;> cases h

/-- The names that a shape gives its fields and sections, each with those on the way to it. -/
def Shape.paths (s : Shape α) : List (List String) :=
  s.fields.map (fun f => [f.1]) ++ s.sections.flatMap fun part => [part.1] :: part.2.map fun f =>
    [part.1, f.1]

/-- All names of members of a document are known, up to letter case. -/
def Shape.Knows (s : Shape α) (j : Json) : Prop :=
  ∀ path, HasMember j path →
    ∃ known ∈ s.paths, Forall₂ (fun a b => Text.sameFold a b = true) known path

lemma Field.eq_nil {f : Field α} {below : List String}
    (h : below = [] ∨ ∃ value old new, f.ofJson value old = some new ∧ HasMember value below) :
    below = [] := by
  rcases h with h | ⟨value, old, new, hread, hbelow⟩
  · exact h
  · exact absurd hbelow (Field.not_hasMember hread)

lemma Shape.knows_of_ofJson? {s : Shape α} {zero a : α} (h : s.ofJson? zero j = some a) :
    s.Knows j := by
  intro path hpath
  obtain ⟨part, hpart, name, below, rfl, hname, hbelow⟩ := exists_of_intoRecord h hpath
  simp only [jsonParts, mem_append, mem_map] at hpart
  simp only [paths, mem_append, mem_map, mem_flatMap, mem_cons]
  rcases hpart with ⟨f, hf, rfl⟩ | ⟨entry, hentry, rfl⟩
  · obtain rfl := Field.eq_nil hbelow
    exact ⟨[f.1], .inl ⟨f, hf, rfl⟩, .cons hname .nil⟩
  · rcases hbelow with rfl | ⟨value, old, new, hread, hvalue⟩
    · exact ⟨[entry.1], .inr ⟨entry, hentry, .inl rfl⟩, .cons hname .nil⟩
    · obtain ⟨part, hpart, inner, below, rfl, hinner, hbelow⟩ := exists_of_intoRecord hread hvalue
      obtain ⟨f, hf, rfl⟩ := mem_map.mp hpart
      obtain rfl := Field.eq_nil hbelow
      exact ⟨[entry.1, f.1], .inr ⟨entry, hentry, .inr ⟨f, hf, rfl⟩⟩,
        .cons hname (.cons hinner .nil)⟩

/-! ### Reading settings -/

def whiteBytes : List UInt8 := [0x20, 0x09, 0x0A, 0x0D]

def closingBytes : List UInt8 := [0x5D, 0x7D]

/-- Loading the settings of a plugin finds a document at a path and reads its bytes. -/
structure Gives (tree : Node) (here root explicit path : String) (content : Bytes) : Prop where
  located : locate tree (Path.absolute here root) (Text.trim explicit) = .ok (some path)
  read : (if Text.trim explicit = "" || isUnder (Path.absolute here root) path then
      FileTree.readUnder tree here (Path.absolute here root) path
    else FileTree.readBeside tree here path) = .ok content

section Loading

variable {path : String} {content : Bytes}

lemma draftOf_json (h : Format.ofPath path = .json) :
    draftOf path content = draftOfJson path (Text.decodeBytes content) := by
  simp [draftOf, h]

lemma load_of_error {tree : Node} {here root explicit : String} {e : LoadError}
    (h : Gives tree here root explicit path content) (he : draftOf path content = .error e) :
    load tree here root explicit = .error e := by
  simp only [load, h.located, h.read, he, bind, Except.bind, Except.mapError]

lemma exists_of_draftOfJson {text : List Char} {d : Draft} (h : draftOfJson path text = .ok d) :
    ∃ front j rest, text = front ++ rest ∧ IsDocument front j ∧ Draft.shape.ofJson? {} j = some d ∧
      ∀ c ∈ rest.head?, c = ']' ∨ c = '\x7d' := by
  unfold draftOfJson at h
  split at h
  · cases h
  · rename_i j rest hread
    split at h
    · cases h
    · rename_i draft hdraft
      obtain ⟨gap, w, rfl, hgap, hw⟩ := sound _ _ _ _ hread
      obtain ⟨after, hafter, hrest⟩ := exists_gap rest
      have hend : draft = d ∧ ∀ c ∈ (skipGap rest).head?, c = ']' ∨ c = '\x7d' := by
        split at h <;> cases h
        all_goals
          rename_i heq
          simp [heq]
      obtain ⟨rfl, hhead⟩ := hend
      exact ⟨gap ++ (w ++ after), j, skipGap rest, by rw [append_assoc, append_assoc, ← hrest],
        ⟨⟨j, w, gap, after, hgap, hafter⟩, rfl, rfl, hw⟩, hdraft, hhead⟩

lemma exists_num_of_readFirst {front text rest : List Char} {n : String} {k : Json}
    (h : IsDocument front (.num n)) (hread : readFirst (front ++ text) = some (k, rest)) :
    ∃ m, k = .num m := by
  obtain ⟨p, rfl, -, hp⟩ := h
  obtain ⟨c, t, hc, hstarts⟩ := hp.starts
  obtain ⟨gap, w, hs, hgap, hw⟩ := sound _ _ _ _ hread
  obtain ⟨d, u, rfl, hstarts'⟩ := hw.starts
  -- both values start with the first character that is no white space
  have hskip := congrArg skipGap hs
  rw [Part.written, append_assoc, skipGap_append p.isGap_before, skipGap_append hgap,
    hc, cons_append, cons_append, cons_append, skipGap_cons _ hstarts.not_gap.1,
    skipGap_cons _ hstarts'.not_gap.1] at hskip
  obtain ⟨rfl, -⟩ := List.cons.inj hskip
  cases k with
  | num m => exact ⟨m, rfl⟩
  | bool b =>
    cases b <;> cases hstarts' <;> rcases hstarts with h | h <;> exact absurd h (by decide)
  | _ => cases hstarts'; rcases hstarts with h | h <;> exact absurd h (by decide)

lemma exists_error_of_draftOfJson {front text : List Char}
    {j : Json} {c : Char} (h : IsDocument front j) (hc : isGap c = false ∧ c ≠ ']' ∧ c ≠ '\x7d') :
    ∃ e, draftOfJson path (front ++ c :: text) = .error e := by
  obtain ⟨hgap, hbracket, hbrace⟩ := hc
  unfold draftOfJson
  by_cases hnum : ∃ n, j = .num n
  · obtain ⟨n, rfl⟩ := hnum
    cases hread : readFirst (front ++ c :: text) with
    | none => exact ⟨_, rfl⟩
    | some found =>
      obtain ⟨m, hm⟩ := exists_num_of_readFirst h hread
      exact ⟨.malformed path .json, by dsimp only; rw [hm]; rfl⟩
  · obtain ⟨p, rfl, rfl, hp⟩ := h
    have hread : readFirst (p.before ++ (p.text ++ (p.after ++ c :: text))) =
        some (p.value, p.after ++ c :: text) :=
      hp.readFirst p.isGap_before fun n hn => absurd ⟨n, hn⟩ hnum
    rw [Part.written, append_assoc, append_assoc, hread]
    dsimp only
    rw [skipGap_append p.isGap_after, skipGap_cons _ hgap]
    cases Draft.shape.ofJson? {} p.value with
    | none => exact ⟨_, rfl⟩
    | some draft => exact ⟨.several path, by simp [hbracket, hbrace]⟩

lemma closes_of_not_mem {b : UInt8} {c : Char} (hwhite : b ∉ whiteBytes)
    (hclosing : b ∉ closingBytes) (hc : c.toNat = b.toNat ∨ c.toNat = 0 ∨ 128 ≤ c.toNat) :
    isGap c = false ∧ c ≠ ']' ∧ c ≠ '\x7d' := by
  have hne (k : UInt8) (hk : k.toNat ≠ 0 ∧ k.toNat < 128) (hb : b ≠ k) : c.toNat ≠ k.toNat := by
    intro hcode
    rcases hc with hc | hc | hc
    · exact hb (UInt8.toNat_inj.mp (hc.symm.trans hcode))
    · omega
    · omega
  simp only [whiteBytes, closingBytes, mem_cons, not_mem_nil, or_false, not_or] at hwhite hclosing
  refine ⟨Bool.eq_false_iff.mpr fun hgap => ?_, ?_, ?_⟩
  · simp only [isGap, Bool.or_eq_true, beq_iff_eq] at hgap
    rcases hgap with ((rfl | rfl) | rfl) | rfl
    · exact hne 0x20 (by decide) hwhite.1 rfl
    · exact hne 0x09 (by decide) hwhite.2.1 rfl
    · exact hne 0x0A (by decide) hwhite.2.2.1 rfl
    · exact hne 0x0D (by decide) hwhite.2.2.2 rfl
  · rintro rfl
    exact hne 0x5D (by decide) hclosing.1 rfl
  · rintro rfl
    exact hne 0x7D (by decide) hclosing.2 rfl

/-- Bytes that are taken as settings start with one document, all of whose names are known, and a
bracket that closes is all that can follow it. One document and other bytes behind it are refused,
and with them the whole of the settings. -/
theorem settings_one_document (hpath : Format.ofPath path = .json) :
    (∀ d, draftOf path content = .ok d → ∃ text j rest, Text.decodeBytes content = text ++ rest ∧
      Json.IsDocument text j ∧ Draft.shape.Knows j ∧ ∀ c ∈ rest.head?, c = ']' ∨ c = '\x7d') ∧
    (∀ value b more j, content = value ++ b :: more → Json.IsDocument (Text.decodeBytes value) j →
      b ∉ whiteBytes → b ∉ closingBytes → ∃ e, draftOf path content = .error e) ∧
    ∀ tree here root explicit e, Gives tree here root explicit path content →
      draftOf path content = .error e → load tree here root explicit = .error e := by
  refine ⟨fun d hd => ?_, ?_, fun tree here root explicit e => load_of_error⟩
  · rw [draftOf_json hpath] at hd
    obtain ⟨front, j, rest, htext, hdoc, hdraft, hrest⟩ := exists_of_draftOfJson hd
    exact ⟨front, j, rest, htext, hdoc, Shape.knows_of_ofJson? hdraft, hrest⟩
  · rintro value b more j rfl hdoc hwhite hclosing
    obtain ⟨c, text, htext, hc⟩ := Text.exists_decodeBytes_cons b more
    rw [draftOf_json hpath, Text.decodeBytes_append hdoc.getLast?_ne, htext]
    exact exists_error_of_draftOfJson hdoc (closes_of_not_mem hwhite hclosing hc)

theorem settings_one_document_pair :
    ∃ e, draftOf "/plugin/wpfatal.json" (bytesOf "\x7b\x7d" ++ 0x31 :: []) = .error e := by
  refine (settings_one_document (by decide)).2.1 _ _ _ (.obj []) rfl ?_ (by decide) (by decide)
  rw [decodeBytes_bytesOf, ← Json.parse?_eq_some_iff]
  rfl

/-- What follows a bracket behind the document is not looked at. -/
theorem settings_before_bracket : draftOf "/plugin/wpfatal.json" (bytesOf "\x7b\x7d ] x") = .ok {} ∧
    ¬ ∃ j, Json.IsDocument (Text.decodeBytes (bytesOf "\x7b\x7d ] x")) j := by
  have hparse : Json.parse? "\x7b\x7d ] x".toList = none := rfl
  rw [draftOf_json (by decide), decodeBytes_bytesOf]
  refine ⟨rfl, ?_⟩
  rintro ⟨j, hj⟩
  rw [← Json.parse?_eq_some_iff, hparse] at hj
  cases hj

end Loading

end Settings

end PluginAudit
