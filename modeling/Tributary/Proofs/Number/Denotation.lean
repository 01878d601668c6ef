import Mathlib.Tactic.FieldSimp
import Mathlib.Tactic.Linarith
import Tributary.Proofs.Number.Rounding

/-!
# What numbers denote

Numbers count as equal across their classes if they are nearest to one binary64 number, which large integers
may be without denoting it. Their canonical forms are more particular: a float becomes an integer only where
it denotes that integer, and only in the signed range.

* `Number.value`: the rational number that a number denotes.
* `Number.canonical_float_eq_integer_iff`: when a float is written as an integer.
* `Number.canonical_eq_iff_of_same`: when numbers that count as equal have one canonical form.
-/

namespace Tributary

namespace Binary64

/-- The rational number that a magnitude stands for. -/
def quotient (magnitude : Nat) : ℚ := (ratio magnitude).1 / (ratio magnitude).2

/-- The rational number that is denoted. -/
def value (x : Binary64) : ℚ := if x.negative then -quotient x.magnitude else quotient x.magnitude

theorem quotient_eq_iff (magnitude k : Nat) :
    quotient magnitude = k ↔ (ratio magnitude).1 = k * (ratio magnitude).2 := by
  have hpos : ((ratio magnitude).2 : ℚ) ≠ 0 := Nat.cast_ne_zero.2 (ratio_den_pos magnitude).ne'
  rw [quotient, div_eq_iff hpos]
  exact_mod_cast Iff.rfl

theorem quotient_nonneg (magnitude : Nat) : 0 ≤ quotient magnitude :=
  div_nonneg (Nat.cast_nonneg _) (Nat.cast_nonneg _)

/-- Integral numbers are those that denote integers, and their floor is what they denote. -/
theorem value_eq_intCast_iff (x : Binary64) (n : Int) :
    x.value = n ↔ x.isIntegral = true ∧ x.floor = n := by
  constructor
  · intro h
    have hsigned : quotient x.magnitude = if x.negative then -(n : ℚ) else n := by
      rw [← h, value]
      split <;> simp
    have habs : quotient x.magnitude = n.natAbs := by
      rw [Nat.cast_natAbs, Int.cast_abs, ← abs_of_nonneg (quotient_nonneg _), hsigned]
      split <;> simp
    have hratio := (quotient_eq_iff _ _).1 habs
    refine ⟨beq_iff_eq.2 (Nat.mod_eq_zero_of_dvd ⟨n.natAbs, hratio.trans (Nat.mul_comm _ _)⟩), ?_⟩
    rw [floor_of_ratio hratio, Int.natCast_natAbs]
    rw [habs, Nat.cast_natAbs] at hsigned
    split at hsigned
    · rename_i hneg
      have hint : |n| = -n := by exact_mod_cast hsigned
      rw [if_pos hneg, hint, Int.neg_neg]
    · rename_i hneg
      rw [if_neg hneg]
      exact_mod_cast hsigned
  · rintro ⟨hintegral, rfl⟩
    obtain ⟨k, hk⟩ := exists_of_isIntegral hintegral
    rw [floor_of_ratio hk, value, (quotient_eq_iff _ _).2 hk]
    split <;> simp

/-- Numbers of one rank are identical, but for the two zeros. -/
theorem eq_or_zero_of_rank_eq {x y : Binary64} (h : x.rank = y.rank) :
    x = y ∨ x.value = 0 ∧ y.value = 0 := by
  by_cases hzero : x.rank = 0
  · have hratio : (ratio 0).1 = 0 * (ratio 0).2 := by
      unfold ratio
      generalize 1074 = unit
      simp [significand_eq]
    have hquotient : quotient 0 = 0 := ((quotient_eq_iff 0 0).2 hratio).trans Nat.cast_zero
    have hx := (rank_eq_zero_iff x).1 hzero
    have hy := (rank_eq_zero_iff y).1 (h ▸ hzero)
    right
    constructor
    · simp [value, hx, hquotient]
    · simp [value, hy, hquotient]
  · left
    obtain ⟨nx, mx, hx⟩ := x
    obtain ⟨ny, my, hy⟩ := y
    unfold rank at h hzero
    cases nx <;> cases ny <;> simp at h hzero ⊢ <;> omega

end Binary64

namespace Number

/-- The rational number that is denoted. -/
def value : Number → ℚ
  | .integer n _ => n
  | .float x => x.value

/-- Whether the number is of the class of integers. -/
def isInteger : Number → Bool
  | .integer _ _ => true
  | .float _ => false

/-- Both numbers denote the same, in one class or else below the end of the signed range. -/
structure Aligned (a b : Number) : Prop where
  value : a.value = b.value
  narrow : a.isInteger = b.isInteger ∨ a.value < 9223372036854775808

theorem value_integer_lt_iff (n : Int) (hn) :
    (integer n hn).value < 9223372036854775808 ↔ n < 9223372036854775808 := by
  show (n : ℚ) < 9223372036854775808 ↔ n < 9223372036854775808
  exact_mod_cast Iff.rfl

theorem integral?_eq_some_iff (x : Binary64) {n : Int} (hn) :
    integral? x = some (.integer n hn) ↔ x.value = n ∧ n < 9223372036854775808 := by
  rw [Binary64.value_eq_intCast_iff]
  unfold integral?
  constructor
  · intro h
    split at h
    · rename_i hx
      obtain ⟨hfloor, hinteger⟩ := ofInt?_eq_some h
      cases hinteger
      exact ⟨⟨hx.1, rfl⟩, hx.2.2⟩
    · cases h
  · rintro ⟨⟨hintegral, rfl⟩, hlt⟩
    rw [if_pos ⟨hintegral, hn.1, hlt⟩, ofInt?, dif_pos hn]

/-- A float is written as an integer if that is what it denotes, within the signed range. -/
theorem canonical_float_eq_integer_iff (x : Binary64) {n : Int} (hn) :
    canonical (.float x) = .integer n hn ↔ x.value = n ∧ n < 9223372036854775808 := by
  rw [← integral?_eq_some_iff x hn, canonical]
  cases hx : integral? x with
  | none => simp
  | some a => simp

theorem canonical_float_eq_of_rank_eq {x y : Binary64} (h : x.rank = y.rank) :
    canonical (.float x) = canonical (.float y) := by
  rcases Binary64.eq_or_zero_of_rank_eq h with rfl | ⟨hx, hy⟩
  · rfl
  · have hzero {z : Binary64} (hz : z.value = 0) : canonical (.float z) = .integer 0 (by decide) :=
      (canonical_float_eq_integer_iff z _).2 ⟨hz.trans Int.cast_zero.symm, by decide⟩
    rw [hzero hx, hzero hy]

/-- Numbers that count as equal have one canonical form exactly if they are aligned. -/
theorem canonical_eq_iff_of_same {a b : Number} (h : a.same b = true) :
    a.canonical = b.canonical ↔ a.Aligned b := by
  cases a with
  | integer m hm =>
    cases b with
    | integer n hn =>
      obtain rfl : m = n := beq_iff_eq.1 h
      exact ⟨fun _ => ⟨rfl, .inl rfl⟩, fun _ => rfl⟩
    | float y =>
      refine eq_comm.trans ((canonical_float_eq_integer_iff y hm).trans ⟨?_, ?_⟩)
      · rintro ⟨hvalue, hlt⟩
        exact ⟨hvalue.symm, .inr ((value_integer_lt_iff m hm).2 hlt)⟩
      · rintro ⟨hvalue, hclass | hlt⟩
        · cases hclass
        · exact ⟨hvalue.symm, (value_integer_lt_iff m hm).1 hlt⟩
  | float x =>
    cases b with
    | integer n hn =>
      refine (canonical_float_eq_integer_iff x hn).trans ⟨?_, ?_⟩
      · rintro ⟨hvalue, hlt⟩
        refine ⟨hvalue, .inr ?_⟩
        exact hvalue.trans_lt ((value_integer_lt_iff n hn).2 hlt)
      · rintro ⟨hvalue, hclass | hlt⟩
        · cases hclass
        · exact ⟨hvalue, (value_integer_lt_iff n hn).1 (hvalue.symm.trans_lt hlt)⟩
    | float y =>
      have hrank : x.rank = y.rank := beq_iff_eq.1 h
      refine ⟨fun _ => ⟨?_, .inl rfl⟩, fun _ => canonical_float_eq_of_rank_eq hrank⟩
      rcases Binary64.eq_or_zero_of_rank_eq hrank with rfl | ⟨hx, hy⟩
      · rfl
      · exact hx.trans hy.symm

end Number

end Tributary
