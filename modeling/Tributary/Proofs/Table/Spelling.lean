import Mathlib.Data.List.Basic
import Tributary.Table.Name

/-!
# Spellings of table names

A text spells segments if it joins their spellings by dots: a bare identifier spells itself, and any segment but the
empty one may stand in quotes. Reading accepts exactly the spellings, and writing picks one of them.

* `SpellsSegment`, `Spells`: the grammar, said without the reader.
* `readSegments_eq_ok_iff`, `parse_eq_ok_iff`, `exists_parse_iff`: reading accepts it exactly, whatever the characters
  are.
* `parse_text`: what is written for a name is read as that name.
-/

namespace Tributary.TableName

open Text

/-! ## Grammar -/

/-- The spellings of a segment: as it is, if it is a bare identifier, or between quotes, with each quote inside
written twice, if it is not empty. -/
inductive SpellsSegment : (text segment : List Char) → Prop
  | bare {cs : List Char} (h : isBare cs = true) : SpellsSegment cs cs
  | quoted {cs : List Char} (h : cs ≠ []) : SpellsSegment ('\"' :: (double cs ++ ['\"'])) cs

/-- A text spells some segments if it is made of their spellings with dots between them. -/
inductive Spells : (text : List Char) → (segments : List (List Char)) → Prop
  | last {text segment : List Char} (h : SpellsSegment text segment) : Spells text [segment]
  | dot {text segment rest : List Char} {segments : List (List Char)} (h : SpellsSegment text segment)
    (hrest : Spells rest segments) : Spells (text ++ '.' :: rest) (segment :: segments)

theorem SpellsSegment.ne_nil {text segment : List Char} (h : SpellsSegment text segment) : segment ≠ [] := by
  cases h with
  | bare h =>
    rintro rfl
    cases h
  | quoted h => exact h

theorem Spells.ne_nil {text : List Char} {segments : List (List Char)} (h : Spells text segments) :
    segments ≠ [] := by
  cases h <;> exact List.cons_ne_nil _ _

theorem Spells.filled {text : List Char} {segments : List (List Char)} (h : Spells text segments) :
    [] ∉ segments := by
  induction h with
  | last h => exact fun hin => h.ne_nil (List.mem_singleton.1 hin).symm
  | dot h _ ih =>
    intro hin
    rcases List.mem_cons.1 hin with hfirst | hrest
    · exact h.ne_nil hfirst.symm
    · exact ih hrest

/-! ## Characters of bare identifiers -/

theorem isFollowing_of_mem_bare {cs : List Char} (h : isBare cs = true) {c : Char} (hc : c ∈ cs) :
    isFollowing c = true := by
  cases cs with
  | nil => cases hc
  | cons first rest =>
    obtain ⟨hfirst, hrest⟩ := Bool.and_eq_true_iff.1 h
    rcases List.mem_cons.1 hc with rfl | hc
    · simp only [isInitial, Bool.or_eq_true] at hfirst
      rcases hfirst with h | h <;> simp [isFollowing, Char.isAlphanum, h]
    · exact List.all_eq_true.1 hrest c hc

theorem range_of_isFollowing {c : Char} (h : isFollowing c = true) :
    c.toNat = 36 ∨ 48 ≤ c.toNat ∧ c.toNat ≤ 57 ∨ 65 ≤ c.toNat ∧ c.toNat ≤ 122 := by
  change (((decide (c.val ≥ 65 ∧ c.val ≤ 90) || decide (c.val ≥ 97) && decide (c.val ≤ 122)) ||
    decide (c.val ≥ 48) && decide (c.val ≤ 57)) || c == '_' || c == '$') = true at h
  simp only [Bool.or_eq_true, Bool.and_eq_true, decide_eq_true_eq, beq_iff_eq, ge_iff_le,
    UInt32.le_iff_toNat_le] at h
  change ((((65 ≤ c.toNat ∧ c.toNat ≤ 90) ∨ (97 ≤ c.toNat ∧ c.toNat ≤ 122)) ∨
    (48 ≤ c.toNat ∧ c.toNat ≤ 57)) ∨ c = '_') ∨ c = '$' at h
  rcases h with (((h | h) | h) | rfl) | rfl
  · omega
  · omega
  · omega
  · decide
  · decide

theorem not_blank_of_isFollowing {c : Char} (h : isFollowing c = true) : isBlank c = false := by
  have hrange := range_of_isFollowing h
  rw [Bool.eq_false_iff]
  intro hblank
  simp only [isBlank, blankRanges, List.any_cons, List.any_nil, Bool.or_eq_true, Bool.and_eq_true,
    decide_eq_true_eq, Bool.false_eq_true, or_false] at hblank
  omega

theorem ne_of_isFollowing {c : Char} (h : isFollowing c = true) : c ≠ '.' ∧ c ≠ '\"' := by
  have hrange := range_of_isFollowing h
  constructor
  · rintro rfl
    have : ('.').toNat = 46 := rfl
    omega
  · rintro rfl
    have : ('\"').toNat = 34 := rfl
    omega

/-! ## Reading a segment -/

/-- The text behind a segment: nothing, or a dot and more. -/
def Continues (rest : List Char) : Prop := rest = [] ∨ ∃ more, rest = '.' :: more

theorem readQuoted_double (cs : List Char) {rest : List Char} (hrest : ∀ more, rest ≠ '\"' :: more) :
    readQuoted (double cs ++ '\"' :: rest) = some (cs, rest) := by
  induction cs with
  | nil =>
    cases rest with
    | nil => rfl
    | cons c rest =>
      have hc : c ≠ '\"' := fun h => hrest rest (h ▸ rfl)
      show readQuoted ('\"' :: c :: rest) = _
      simp [readQuoted, hc]
  | cons c cs ih =>
    rw [double]
    split
    · next hc =>
      rw [List.cons_append, List.cons_append, readQuoted, ih, hc]
      rfl
    · next hc =>
      rw [List.cons_append]
      simp [readQuoted, hc, ih]

/-- What is read between quotes is written with its quotes doubled. -/
theorem eq_double_of_readQuoted {cs segment rest : List Char} (h : readQuoted cs = some (segment, rest)) :
    cs = double segment ++ '\"' :: rest := by
  fun_induction readQuoted cs generalizing segment with
  | case1 => cases h
  | case2 cs ih =>
    obtain ⟨⟨inner, more⟩, hinner, he⟩ := Option.map_eq_some_iff.1 h
    cases he
    rw [ih hinner]
    simp [double]
  | case3 cs =>
    cases h
    rfl
  | case4 c cs _ hc ih =>
    obtain ⟨⟨inner, more⟩, hinner, he⟩ := Option.map_eq_some_iff.1 h
    cases he
    rw [ih hinner]
    simp [double, hc]

/-- A spelling is read up to the dot or the end behind it. -/
theorem readSegment_append {text segment rest : List Char} (h : SpellsSegment text segment)
    (hrest : Continues rest) : readSegment (text ++ rest) = .ok (segment, rest) := by
  cases h with
  | bare hbare =>
    have hnodot : ∀ c ∈ text, (c != '.') = true := fun c hc =>
      bne_iff_ne.2 (ne_of_isFollowing (isFollowing_of_mem_bare hbare hc)).1
    have htake : (text ++ rest).takeWhile (· != '.') = text := by
      rw [List.takeWhile_append_of_pos hnodot]
      rcases hrest with rfl | ⟨more, rfl⟩ <;> simp
    have hdrop : (text ++ rest).dropWhile (· != '.') = rest := by
      rw [List.dropWhile_append_of_pos hnodot]
      rcases hrest with rfl | ⟨more, rfl⟩ <;> simp
    unfold readSegment
    split
    · next quoted heq =>
      -- a bare identifier does not start with a quote
      cases text with
      | nil => cases hbare
      | cons c cs =>
        have hc := (ne_of_isFollowing (isFollowing_of_mem_bare hbare List.mem_cons_self)).2
        exact absurd (List.cons.inj heq).1 hc
    · simp only [htake, hdrop, hbare, if_true]
  | quoted hne =>
    have hquoted : readQuoted (double segment ++ ['\"'] ++ rest) = some (segment, rest) := by
      rw [List.append_assoc]
      refine readQuoted_double segment fun more h => ?_
      rcases hrest with rfl | ⟨_, rfl⟩ <;> cases h
    rw [List.cons_append, readSegment, hquoted]
    cases segment with
    | nil => exact absurd rfl hne
    | cons c cs => rfl

/-- What is read as a segment is one of its spellings. -/
theorem spellsSegment_of_readSegment {cs segment rest : List Char} (h : readSegment cs = .ok (segment, rest)) :
    ∃ text, SpellsSegment text segment ∧ cs = text ++ rest := by
  unfold readSegment at h
  split at h
  · split at h
    · cases h
    · cases h
    · next hne hquoted =>
      cases h
      refine ⟨_, .quoted hne, ?_⟩
      rw [eq_double_of_readQuoted hquoted]
      simp
  · dsimp only at h
    split at h
    · next hbare =>
      cases h
      exact ⟨_, .bare hbare, List.takeWhile_append_dropWhile.symm⟩
    · cases h

/-! ## Reading a name -/

theorem readSegments_of_spells {text : List Char} {segments : List (List Char)} (h : Spells text segments) :
    readSegments text = .ok segments := by
  induction h with
  | @last text segment h =>
    have hread := readSegment_append h (.inl rfl)
    rw [List.append_nil] at hread
    rw [readSegments]
    split <;> simp_all
  | @dot text segment rest segments h _ ih =>
    have hread := readSegment_append h (.inr ⟨rest, rfl⟩)
    rw [readSegments]
    split <;> simp_all [Except.map]

theorem spells_of_readSegments {text : List Char} {segments : List (List Char)}
    (h : readSegments text = .ok segments) : Spells text segments := by
  fun_induction readSegments text generalizing segments with
  | case1 => cases h
  | case2 cs segment hread =>
    cases h
    obtain ⟨text, hspells, rfl⟩ := spellsSegment_of_readSegment hread
    rw [List.append_nil]
    exact .last hspells
  | case3 cs segment rest hread _ ih =>
    obtain ⟨text, hspells, rfl⟩ := spellsSegment_of_readSegment hread
    cases hrest : readSegments rest with
    | error flaw =>
      rw [hrest] at h
      cases h
    | ok others =>
      rw [hrest] at h
      cases h
      exact .dot hspells (ih hrest)
  | case4 => cases h

/-- Reading accepts exactly the spellings. -/
theorem readSegments_eq_ok_iff {text : List Char} {segments : List (List Char)} :
    readSegments text = .ok segments ↔ Spells text segments :=
  ⟨spells_of_readSegments, readSegments_of_spells⟩

/-! ## Names -/

theorem filled_map_toList (t : TableName) : [] ∉ t.segments.map String.toList := by
  intro hin
  obtain ⟨segment, hsegment, hnil⟩ := List.mem_map.1 hin
  rw [String.toList_eq_nil_iff.1 hnil] at hsegment
  exact t.filled hsegment

theorem ofSegments_eq_ok_iff {segments : List String} {t : TableName} :
    ofSegments segments = .ok t ↔ t.segments = segments := by
  unfold ofSegments
  constructor
  · intro h
    split at h
    · split at h
      · cases h
      · cases h
        rfl
    · cases h
  · rintro rfl
    rw [dif_pos ⟨t.nonempty, t.bounded⟩, dif_neg t.filled]

theorem ofChars_eq_ok_iff {cs : List Char} {t : TableName} :
    ofChars cs = .ok t ↔ Spells cs (t.segments.map String.toList) := by
  have hinverse (segments : List (List Char)) (h : t.segments = segments.map String.ofList) :
      t.segments.map String.toList = segments := by
    rw [h, List.map_map]
    simp
  rw [← readSegments_eq_ok_iff]
  unfold ofChars
  constructor
  · intro h
    split at h
    · cases h
    · next segments hread =>
      split at h
      · next name hname =>
        cases h
        rw [hread, hinverse segments (ofSegments_eq_ok_iff.1 hname)]
      · cases h
  · intro hread
    rw [hread]
    have hname : ofSegments ((t.segments.map String.toList).map String.ofList) = .ok t := by
      rw [ofSegments_eq_ok_iff, List.map_map]
      simp
    simp only [hname]

/-- A text is read as a name exactly if, blanks at its ends apart, it spells the segments of the name. -/
theorem parse_eq_ok_iff {raw : String} {t : TableName} :
    parse raw = .ok t ↔ Spells (trimChars raw.toList) (t.segments.map String.toList) := by
  rw [← ofChars_eq_ok_iff]
  unfold parse
  constructor
  · intro h
    split at h
    · next name hname =>
      cases h
      exact hname
    · cases h
  · intro h
    rw [h]

/-- One to three segments that are not empty are the segments of a name. -/
theorem exists_ofSegments {segments : List String} (hne : segments ≠ []) (hlength : segments.length ≤ maxSegments)
    (hfilled : "" ∉ segments) : ∃ t, ofSegments segments = .ok t ∧ t.segments = segments := by
  refine ⟨⟨segments, hne, hlength, hfilled⟩, ?_, rfl⟩
  rw [ofSegments_eq_ok_iff]

/-- A text is read as a name with some segments exactly if there are not too many of them and, blanks at its ends
apart, it spells them. -/
theorem exists_parse_iff {raw : String} {segments : List String} :
    (∃ t, parse raw = .ok t ∧ t.segments = segments) ↔
      segments.length ≤ maxSegments ∧ Spells (trimChars raw.toList) (segments.map String.toList) := by
  constructor
  · rintro ⟨t, hparse, rfl⟩
    exact ⟨t.bounded, parse_eq_ok_iff.1 hparse⟩
  · rintro ⟨hlength, hspells⟩
    have hne : segments ≠ [] := by
      rintro rfl
      exact hspells.ne_nil rfl
    have hfilled : "" ∉ segments := fun hin => hspells.filled (List.mem_map.2 ⟨"", hin, rfl⟩)
    obtain ⟨t, -, rfl⟩ := exists_ofSegments hne hlength hfilled
    exact ⟨t, parse_eq_ok_iff.2 hspells, rfl⟩

/-! ## Writing -/

theorem spellsSegment_segmentChars {cs : List Char} (h : cs ≠ []) : SpellsSegment (segmentChars cs) cs := by
  unfold segmentChars
  split
  · next hbare => exact .bare hbare
  · exact .quoted h

theorem spells_joinSegments {segments : List (List Char)} (hne : segments ≠ []) (hfilled : [] ∉ segments) :
    Spells (joinSegments segments) segments := by
  induction segments with
  | nil => exact absurd rfl hne
  | cons first rest ih =>
    obtain ⟨hfirst, hrest⟩ := not_or.1 (mt List.mem_cons.2 hfilled)
    have hspells := spellsSegment_segmentChars (Ne.symm hfirst)
    cases rest with
    | nil => exact .last hspells
    | cons second more => exact .dot hspells (ih (List.cons_ne_nil _ _) hrest)

theorem spells_chars (t : TableName) : Spells t.chars (t.segments.map String.toList) :=
  spells_joinSegments (by simpa using t.nonempty) t.filled_map_toList

/-- A spelling of a segment starts and ends with no blank. -/
theorem SpellsSegment.ends {text segment : List Char} (h : SpellsSegment text segment) :
    (∃ c, text.head? = some c ∧ isBlank c = false) ∧ ∃ c, text.getLast? = some c ∧ isBlank c = false := by
  cases h with
  | bare h =>
    have hne : text ≠ [] := by
      rintro rfl
      cases h
    have hblank {c : Char} (hc : c ∈ text) : isBlank c = false :=
      not_blank_of_isFollowing (isFollowing_of_mem_bare h hc)
    exact ⟨⟨_, List.head?_eq_some_head hne, hblank (List.head_mem hne)⟩,
      ⟨_, List.getLast?_eq_some_getLast hne, hblank (List.getLast_mem hne)⟩⟩
  | quoted _ =>
    refine ⟨⟨_, rfl, by decide⟩, ⟨'\"', ?_, by decide⟩⟩
    rw [← List.cons_append, List.getLast?_concat]

theorem Spells.ends {text : List Char} {segments : List (List Char)} (h : Spells text segments) :
    (∃ c, text.head? = some c ∧ isBlank c = false) ∧ ∃ c, text.getLast? = some c ∧ isBlank c = false := by
  induction h with
  | last h => exact h.ends
  | @dot text segment rest segments h _ ih =>
    obtain ⟨⟨c, hhead, hc⟩, -⟩ := h.ends
    obtain ⟨-, d, hlast, hd⟩ := ih
    refine ⟨⟨c, ?_, hc⟩, ⟨d, ?_, hd⟩⟩
    · rw [List.head?_append, hhead]
      rfl
    · rw [List.getLast?_append, List.getLast?_cons, hlast]
      rfl

theorem trimChars_of_spells {text : List Char} {segments : List (List Char)} (h : Spells text segments) :
    trimChars text = text := by
  obtain ⟨⟨c, hhead, hc⟩, ⟨d, hlast, hd⟩⟩ := h.ends
  refine trimChars_of_ends (fun x hx => ?_) fun x hx => ?_
  · cases hhead.symm.trans hx
    exact hc
  · cases hlast.symm.trans hx
    exact hd

/-- What is written for a name is read as that name. -/
theorem parse_text (t : TableName) : parse t.text = .ok t := by
  rw [parse_eq_ok_iff, text, String.toList_ofList, trimChars_of_spells (spells_chars t)]
  exact spells_chars t

theorem text_injective {t t' : TableName} (h : t.text = t'.text) : t = t' := by
  have hread := parse_text t
  rw [h, parse_text] at hread
  exact (Except.ok.inj hread).symm

end Tributary.TableName
