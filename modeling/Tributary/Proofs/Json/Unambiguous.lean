import Tributary.Json.Printer
import Tributary.Proofs.Number.Shortest

/-!
# Compact text determines the value

Texts of values can be told apart even when more text follows, because of the delimiters: an escape says
where it ends, a string ends at the first bare quote, and neither a comma nor a bracket belongs to a number.

* `Json.escape_unambiguous`, `Json.quoted_unambiguous`: strings of any characters.
* `Value.chars_unambiguous`: values, under any text that does not go on with a number.
* `Value.chars_injective`.
-/

namespace Tributary

namespace Json

/-! ## Strings -/

/-- The value of a hexadecimal digit. -/
def hexValue (c : Char) : Nat := if c.isDigit then c.toNat - '0'.toNat else c.toNat - 'a'.toNat + 10

/-- Reads one character of a string and what follows it. -/
def unescape : List Char → Option (Char × List Char)
  | '\\' :: 'u' :: _ :: _ :: high :: low :: rest =>
    some (Char.ofNat (16 * hexValue high + hexValue low), rest)
  | '\\' :: 'n' :: rest => some ('\n', rest)
  | '\\' :: 'r' :: rest => some ('\r', rest)
  | '\\' :: 't' :: rest => some ('\t', rest)
  | '\\' :: 'b' :: rest => some ('\x08', rest)
  | '\\' :: 'f' :: rest => some ('\x0c', rest)
  | '\\' :: c :: rest => some (c, rest)
  | c :: rest => some (c, rest)
  | [] => none

theorem hexValue_hexDigit {n : Nat} (h : n < 16) : hexValue (hexDigit n) = n := by
  revert n
  decide

theorem unescape_bare {c : Char} (hc : c ≠ '\\') (rest : List Char) :
    unescape (c :: rest) = some (c, rest) := by
  simp [unescape, hc]

theorem unescape_escape (c : Char) (rest : List Char) : unescape (escape c ++ rest) = some (c, rest) := by
  unfold escape
  split
  · next h => rw [h]; rfl
  split
  · next h => rw [h]; rfl
  split
  · next h => rw [h]; rfl
  split
  · next h => rw [h]; rfl
  split
  · next h => rw [h]; rfl
  split
  · next h => rw [h]; rfl
  split
  · next h => rw [h]; rfl
  split
  · next h =>
    have hvalue : 16 * hexValue (hexDigit (c.toNat / 16)) + hexValue (hexDigit (c.toNat % 16)) = c.toNat := by
      rw [hexValue_hexDigit (by omega), hexValue_hexDigit (by omega)]
      omega
    simp only [List.cons_append, List.nil_append, unescape, hvalue, Char.ofNat_toNat]
  · next hslash _ _ _ _ _ _ =>
    exact unescape_bare hslash rest

theorem escape_unambiguous {c d : Char} {r s : List Char} (h : escape c ++ r = escape d ++ s) :
    c = d ∧ r = s := by
  have hread := unescape_escape c r
  rw [h, unescape_escape] at hread
  cases hread
  exact ⟨rfl, rfl⟩

theorem escape_ne_quote (c : Char) (r s : List Char) : escape c ++ r ≠ '\"' :: s := by
  intro h
  unfold escape at h
  split at h
  · cases h
  · next hquote =>
    repeat (split at h; · cases h)
    exact hquote (List.cons.inj h).1

theorem escapes_unambiguous {cs ds r s : List Char}
    (h : cs.flatMap escape ++ '\"' :: r = ds.flatMap escape ++ '\"' :: s) : cs = ds ∧ r = s := by
  induction cs generalizing ds with
  | nil =>
    cases ds with
    | nil => exact ⟨rfl, (List.cons.inj h).2⟩
    | cons d ds =>
      -- an escape never starts with the closing quote, so both texts end at once
      rw [List.flatMap_cons, List.append_assoc] at h
      exact absurd h.symm (escape_ne_quote d _ _)
  | cons c cs ih =>
    cases ds with
    | nil =>
      rw [List.flatMap_cons, List.append_assoc] at h
      exact absurd h (escape_ne_quote c _ _)
    | cons d ds =>
      rw [List.flatMap_cons, List.flatMap_cons, List.append_assoc, List.append_assoc] at h
      obtain ⟨rfl, hrest⟩ := escape_unambiguous h
      obtain ⟨rfl, rfl⟩ := ih hrest
      exact ⟨rfl, rfl⟩

theorem quoted_unambiguous {a b : String} {r s : List Char} (h : quoted a ++ r = quoted b ++ s) :
    a = b ∧ r = s := by
  unfold quoted at h
  rw [List.cons_append, List.cons_append, List.append_assoc, List.append_assoc] at h
  obtain ⟨hchars, hrest⟩ := escapes_unambiguous (List.cons.inj h).2
  exact ⟨String.toList_inj.1 hchars, hrest⟩

end Json

namespace Value

/-! ## Values -/

/-- Text that does not go on with a number. -/
def Stops (cs : List Char) : Prop := ∀ c, cs.head? = some c → ¬ Binary64.Numeric c

theorem stops_nil : Stops [] := fun _ h => nomatch h

theorem stops_cons {c : Char} (hc : ¬ Binary64.Numeric c) (cs : List Char) : Stops (c :: cs) := by
  intro d hd
  cases hd
  exact hc

theorem number_unambiguous {xs ys r s : List Char} (hx : ∀ c ∈ xs, Binary64.Numeric c)
    (hy : ∀ c ∈ ys, Binary64.Numeric c) (hr : Stops r) (hs : Stops s) (h : xs ++ r = ys ++ s) :
    xs = ys ∧ r = s := by
  induction xs generalizing ys with
  | nil =>
    cases ys with
    | nil => exact ⟨rfl, h⟩
    | cons y ys =>
      refine absurd (hy y List.mem_cons_self) (hr y ?_)
      rw [List.nil_append] at h
      rw [h]
      rfl
  | cons x xs ih =>
    cases ys with
    | nil =>
      refine absurd (hx x List.mem_cons_self) (hs x ?_)
      rw [List.nil_append] at h
      rw [← h]
      rfl
    | cons y ys =>
      obtain ⟨rfl, hrest⟩ := List.cons.inj h
      obtain ⟨rfl, rfl⟩ := ih (fun c hc => hx c (List.mem_cons_of_mem _ hc))
        (fun c hc => hy c (List.mem_cons_of_mem _ hc)) hrest
      exact ⟨rfl, rfl⟩

/-- A number is told from every other value by its first character. -/
theorem number_ne {n : Number} {c : Char} (hc : ¬ Binary64.Numeric c) (r s : List Char) :
    n.text ++ r ≠ c :: s := by
  intro h
  obtain ⟨d, ds, hd⟩ := List.exists_cons_of_ne_nil n.text_ne_nil
  rw [hd, List.cons_append] at h
  obtain ⟨rfl, -⟩ := List.cons.inj h
  exact hc (n.numeric_text d (hd ▸ List.mem_cons_self))

/-- What follows an item of an array. -/
def itemTail : List Value → List Char
  | [] => [']']
  | v :: vs => ',' :: itemChars (v :: vs)

theorem itemChars_cons (v : Value) (vs : List Value) : itemChars (v :: vs) = chars v ++ itemTail vs := by
  cases vs <;> rfl

/-- What follows a property of a document. -/
def fieldTail : List (String × Value) → List Char
  | [] => ['\x7d']
  | f :: rest => ',' :: fieldChars (f :: rest)

theorem fieldChars_cons (name : String) (v : Value) (rest : List (String × Value)) :
    fieldChars ((name, v) :: rest) = Json.quoted name ++ ':' :: (chars v ++ fieldTail rest) := by
  cases rest <;> rfl

theorem stops_itemTail (vs : List Value) (r : List Char) : Stops (itemTail vs ++ r) := by
  cases vs <;> exact stops_cons (by simp [Binary64.Numeric]) _

theorem stops_fieldTail (fields : List (String × Value)) (r : List Char) : Stops (fieldTail fields ++ r) := by
  cases fields <;> exact stops_cons (by simp [Binary64.Numeric]) _

theorem chars_ne_bracket (v : Value) (r s : List Char) : chars v ++ r ≠ ']' :: s := by
  cases v with
  | number n => exact number_ne (by simp [Binary64.Numeric]) r s
  | bool b => cases b <;> simp [chars]
  | _ => simp [chars, Json.quoted]

mutual

/-- The text of a value determines it, and where it ends. -/
theorem chars_unambiguous : (v w : Value) → {r s : List Char} → Stops r → Stops s →
    chars v ++ r = chars w ++ s → v = w ∧ r = s
  | .null, w, r, s, _, _, h => by
    cases w with
    | null => exact ⟨rfl, List.append_cancel_left h⟩
    | number n => exact absurd h.symm (number_ne (by simp [Binary64.Numeric]) _ _)
    | bool b => cases b <;> simp [chars] at h
    | _ => simp [chars, Json.quoted] at h
  | .bool a, w, r, s, _, _, h => by
    cases w with
    | number n => cases a <;> exact absurd h.symm (number_ne (by simp [Binary64.Numeric]) _ _)
    | bool b => cases a <;> cases b <;> simp_all [chars]
    | _ => cases a <;> simp [chars, Json.quoted] at h
  | .number m, w, r, s, hr, hs, h => by
    cases w with
    | number n =>
      -- nothing closes a number, so only here it matters how the text goes on
      obtain ⟨htext, hrest⟩ := number_unambiguous m.numeric_text n.numeric_text hr hs h
      exact ⟨congrArg number (Number.text_injective htext), hrest⟩
    | bool b => cases b <;> exact absurd h (number_ne (by simp [Binary64.Numeric]) _ _)
    | _ => exact absurd h (number_ne (by simp [Binary64.Numeric]) _ _)
  | .string a, w, r, s, _, _, h => by
    cases w with
    | number n => exact absurd h.symm (number_ne (by simp [Binary64.Numeric]) _ _)
    | string b =>
      obtain ⟨rfl, hrest⟩ := Json.quoted_unambiguous h
      exact ⟨rfl, hrest⟩
    | bool b => cases b <;> simp [chars, Json.quoted] at h
    | _ => simp [chars, Json.quoted] at h
  | .array vs, w, r, s, _, _, h => by
    cases w with
    | number n => exact absurd h.symm (number_ne (by simp [Binary64.Numeric]) _ _)
    | array ws =>
      obtain ⟨rfl, hrest⟩ := itemChars_unambiguous vs ws (List.cons.inj h).2
      exact ⟨rfl, hrest⟩
    | bool b => cases b <;> simp [chars] at h
    | _ => simp [chars, Json.quoted] at h
  | .document fs, w, r, s, _, _, h => by
    cases w with
    | number n => exact absurd h.symm (number_ne (by simp [Binary64.Numeric]) _ _)
    | document gs =>
      obtain ⟨rfl, hrest⟩ := fieldChars_unambiguous fs gs (List.cons.inj h).2
      exact ⟨rfl, hrest⟩
    | bool b => cases b <;> simp [chars] at h
    | _ => simp [chars, Json.quoted] at h

theorem itemChars_unambiguous : (vs ws : List Value) → {r s : List Char} →
    itemChars vs ++ r = itemChars ws ++ s → vs = ws ∧ r = s
  | [], [], r, s, h => ⟨rfl, List.append_cancel_left h⟩
  | [], w :: ws, r, s, h => by
    rw [itemChars_cons, List.append_assoc] at h
    exact absurd h.symm (chars_ne_bracket w _ _)
  | v :: vs, [], r, s, h => by
    rw [itemChars_cons, List.append_assoc] at h
    exact absurd h (chars_ne_bracket v _ _)
  | v :: vs, w :: ws, r, s, h => by
    rw [itemChars_cons, itemChars_cons, List.append_assoc, List.append_assoc] at h
    obtain ⟨rfl, htail⟩ := chars_unambiguous v w (stops_itemTail vs r) (stops_itemTail ws s) h
    cases vs with
    | nil =>
      cases ws with
      | nil => exact ⟨rfl, List.append_cancel_left htail⟩
      | cons w ws => simp [itemTail] at htail
    | cons v' vs =>
      cases ws with
      | nil => simp [itemTail] at htail
      | cons w ws =>
        obtain ⟨hitems, hrest⟩ := itemChars_unambiguous (v' :: vs) (w :: ws) (List.cons.inj htail).2
        exact ⟨congrArg (v :: ·) hitems, hrest⟩

theorem fieldChars_unambiguous : (fs gs : List (String × Value)) → {r s : List Char} →
    fieldChars fs ++ r = fieldChars gs ++ s → fs = gs ∧ r = s
  | [], [], r, s, h => ⟨rfl, List.append_cancel_left h⟩
  | [], (n, w) :: gs, r, s, h => by
    rw [fieldChars_cons] at h
    simp [fieldChars, Json.quoted] at h
  | (n, v) :: fs, [], r, s, h => by
    rw [fieldChars_cons] at h
    simp [fieldChars, Json.quoted] at h
  | (m, v) :: fs, (n, w) :: gs, r, s, h => by
    rw [fieldChars_cons, fieldChars_cons, List.append_assoc, List.append_assoc] at h
    obtain ⟨rfl, hafter⟩ := Json.quoted_unambiguous h
    have hvalues : chars v ++ (fieldTail fs ++ r) = chars w ++ (fieldTail gs ++ s) := by
      simpa only [List.cons_append, List.append_assoc, List.cons.injEq, true_and] using hafter
    obtain ⟨rfl, htail⟩ := chars_unambiguous v w (stops_fieldTail fs r) (stops_fieldTail gs s) hvalues
    cases fs with
    | nil =>
      cases gs with
      | nil => exact ⟨rfl, List.append_cancel_left htail⟩
      | cons g gs => simp [fieldTail] at htail
    | cons f fs =>
      cases gs with
      | nil => simp [fieldTail] at htail
      | cons g gs =>
        obtain ⟨hfields, hrest⟩ := fieldChars_unambiguous (f :: fs) (g :: gs) (List.cons.inj htail).2
        exact ⟨congrArg ((m, v) :: ·) hfields, hrest⟩

end

theorem chars_injective {v w : Value} (h : v.chars = w.chars) : v = w :=
  (chars_unambiguous v w stops_nil stops_nil (by rw [h])).1

end Value

end Tributary
