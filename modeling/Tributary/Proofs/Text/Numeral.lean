import Mathlib.Tactic.Ring
import Tributary.Text.Numeral

/-!
# Digits determine the number

* `decimal_injective`, `signed_injective`: two numbers with the same digits are the same.
* `ofDigitChars_zeros`: zeros behind the digits of a number scale it by a power of ten.
* `readInt_padded`, `readInt_signed`: what is written for a number in range is read as that number.
-/

namespace Tributary.Text

theorem ofDigitChars_decimal (n : Nat) : Nat.ofDigitChars 10 (decimal n) 0 = n :=
  Nat.ofDigitChars_toDigits (by decide) (by decide)

theorem decimal_injective {m n : Nat} (h : decimal m = decimal n) : m = n := by
  rw [← ofDigitChars_decimal m, h, ofDigitChars_decimal]

theorem decimal_ne_nil (n : Nat) : decimal n ≠ [] := Nat.toDigits_ne_nil

theorem isDigit_of_mem_decimal {n : Nat} {c : Char} (h : c ∈ decimal n) : c.isDigit = true :=
  Nat.isDigit_of_mem_toDigits (by decide) (by decide) h

theorem decimal_ne_minus (n : Nat) (cs : List Char) : decimal n ≠ '-' :: cs := by
  intro h
  have hdigit : '-'.isDigit = true := isDigit_of_mem_decimal (n := n) (h ▸ List.mem_cons_self)
  exact absurd hdigit (by decide)

theorem signed_injective {m n : Int} (h : signed m = signed n) : m = n := by
  unfold signed at h
  split at h <;> split at h
  · have := decimal_injective (List.cons.inj h).2
    omega
  · exact absurd h.symm (decimal_ne_minus _ _)
  · exact absurd h (decimal_ne_minus _ _)
  · have := decimal_injective h
    omega

theorem signed_ne_nil (n : Int) : signed n ≠ [] := by
  unfold signed
  split
  · exact List.cons_ne_nil _ _
  · exact decimal_ne_nil _

theorem isDigit_or_minus_of_mem_signed {n : Int} {c : Char} (h : c ∈ signed n) :
    c.isDigit = true ∨ c = '-' := by
  unfold signed at h
  split at h
  · rcases List.mem_cons.1 h with rfl | h
    · exact .inr rfl
    · exact .inl (isDigit_of_mem_decimal h)
  · exact .inl (isDigit_of_mem_decimal h)

theorem ofDigitChars_zeros (count n : Nat) :
    Nat.ofDigitChars 10 (List.replicate count '0') n = n * 10 ^ count := by
  induction count generalizing n with
  | zero => simp [Nat.ofDigitChars]
  | succ count ih =>
    have hzero : Nat.ofDigitChars 10 ('0' :: List.replicate count '0') n =
        Nat.ofDigitChars 10 (List.replicate count '0') (10 * n + 0) := rfl
    rw [List.replicate_succ, hzero, ih, Nat.pow_succ]
    ring

/-! ## Reading what was written -/

theorem le_ofDigitChars (cs : List Char) (n : Nat) : n ≤ Nat.ofDigitChars 10 cs n := by
  rw [Nat.ofDigitChars_eq_ofDigitChars_zero]
  have hscale : n ≤ 10 ^ cs.length * n := Nat.le_mul_of_pos_left n (Nat.pow_pos (by decide))
  omega

/-- Digits are read as the number that they denote, unless it passes the limit. -/
theorem readDigits_of_le {limit : Nat} (excess : NumeralFlaw) {cs : List Char} {n : Nat}
    (hdigits : ∀ c ∈ cs, c.isDigit = true) (h : Nat.ofDigitChars 10 cs n ≤ limit) :
    readDigits limit excess n cs = .ok (Nat.ofDigitChars 10 cs n) := by
  induction cs generalizing n with
  | nil => rfl
  | cons c cs ih =>
    obtain ⟨hc, hcs⟩ := List.forall_mem_cons.1 hdigits
    rw [Nat.ofDigitChars_cons, Nat.mul_comm] at h ⊢
    -- the digits that follow only make the number larger
    have hle : n * 10 + (c.toNat - '0'.toNat) ≤ limit := Nat.le_trans (le_ofDigitChars cs _) h
    rw [readDigits, digit?, if_pos hc]
    dsimp only
    rw [if_neg (Nat.not_lt.2 hle), ih hcs h]

theorem isDigit_of_mem_filled {count n : Nat} {c : Char} (h : c ∈ List.replicate count '0' ++ decimal n) :
    c.isDigit = true := by
  rcases List.mem_append.1 h with h | h
  · rw [List.eq_of_mem_replicate h]
    rfl
  · exact isDigit_of_mem_decimal h

theorem filled_ne_nil (count n : Nat) : List.replicate count '0' ++ decimal n ≠ [] :=
  List.append_ne_nil_of_right_ne_nil _ (decimal_ne_nil n)

theorem readUnsigned_filled {limit n : Nat} (excess : NumeralFlaw) (count : Nat) (h : n ≤ limit) :
    readUnsigned limit excess (List.replicate count '0' ++ decimal n) = .ok n := by
  have hvalue : Nat.ofDigitChars 10 (List.replicate count '0' ++ decimal n) 0 = n := by
    rw [Nat.ofDigitChars_append, ofDigitChars_zeros, Nat.zero_mul, ofDigitChars_decimal]
  have hread := readDigits_of_le excess (fun _ => isDigit_of_mem_filled) (hvalue.symm ▸ h)
  rw [hvalue] at hread
  rw [← hread]
  cases hcs : List.replicate count '0' ++ decimal n with
  | nil => exact absurd hcs (filled_ne_nil count n)
  | cons c cs => rfl

/-- A text of digits has no sign. -/
theorem readInt_of_digits {cs : List Char} (bits : Nat) (hne : cs ≠ []) (hdigits : ∀ c ∈ cs, c.isDigit = true) :
    readInt bits cs = (readUnsigned (twoTo (bits - 1) - 1) .tooLarge cs).map Int.ofNat := by
  unfold readInt
  split
  · exact absurd rfl hne
  · exact absurd (hdigits '-' List.mem_cons_self) (by decide)
  · exact absurd (hdigits '+' List.mem_cons_self) (by decide)
  · rfl

/-- A number in range is read back from its digits, however many zeros fill them up. -/
theorem readInt_padded {bits : Nat} {n : Int} (width : Nat) (hlow : -(twoTo (bits - 1) : Int) ≤ n)
    (hhigh : n < twoTo (bits - 1)) : readInt bits (padded width n) = .ok n := by
  unfold padded
  dsimp only
  split
  · next hneg =>
    rw [readInt, readUnsigned_filled _ _ (by omega)]
    exact congrArg Except.ok (show -(n.natAbs : Int) = n by omega)
  · next hpos =>
    rw [readInt_of_digits bits (filled_ne_nil _ _) fun _ => isDigit_of_mem_filled,
      readUnsigned_filled _ _ (by omega)]
    exact congrArg Except.ok (Int.natAbs_of_nonneg (Int.not_lt.1 hpos))

theorem padded_zero (n : Int) : padded 0 n = signed n := by simp [padded, signed]

theorem readInt_signed {bits : Nat} {n : Int} (hlow : -(twoTo (bits - 1) : Int) ≤ n)
    (hhigh : n < twoTo (bits - 1)) : readInt bits (signed n) = .ok n := by
  rw [← padded_zero, readInt_padded 0 hlow hhigh]

end Tributary.Text
