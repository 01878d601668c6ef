import Mathlib.Algebra.Group.Nat.Defs
import Tributary.Number.Basic

/-!
# Integral binary64 numbers

A magnitude is its exponent and its significand, so an integer that some magnitude denotes exactly is
rounded to that magnitude.

* `Binary64.magnitude_eq`, `Binary64.normal_or_zero_scale`: a magnitude from its two parts.
* `Binary64.roundRatio_of_ratio`: rounding is exact where it can be.
* `Binary64.rank_ofInt_floor`: an integral number counts as the integer that it denotes.
* `Number.same_of_canonical`: writing integral floats as integers keeps values apart.
-/

namespace Tributary.Binary64

/-! ## The parts of a magnitude -/

theorem significand_eq (m : Nat) :
    significand m = if m < 4503599627370496 then m else 4503599627370496 + m % 4503599627370496 :=
  rfl

theorem scaleOf_eq (m : Nat) : scaleOf m = m / 4503599627370496 - 1 := rfl

theorem magnitude_eq (m : Nat) : scaleOf m * 4503599627370496 + significand m = m := by
  rw [significand_eq, scaleOf_eq]
  split <;> omega

theorem significand_lt (m : Nat) : significand m < 2 ^ 53 := by
  rw [significand_eq]
  split <;> omega

theorem normal_or_zero_scale (m : Nat) : 2 ^ 52 ≤ significand m ∨ scaleOf m = 0 := by
  rw [significand_eq, scaleOf_eq]
  split <;> omega

theorem significand_mod_two (m : Nat) : significand m % 2 = m % 2 := by
  rw [significand_eq]
  split <;> omega

/-! ## Rounding what is exact -/

theorem roundDiv_one (n : Nat) : roundDiv n 1 = n := by
  simp [roundDiv, Nat.mod_one]

theorem roundDiv_mul_self (n d : Nat) (hd : 0 < d) : roundDiv (n * d) d = n := by
  simp [roundDiv, Nat.mul_div_cancel n hd, hd]

theorem binade_one {k : Nat} (hk : k ≠ 0) : binade k 1 = (k.log2 : Int) := by
  have hlog : Nat.log2 1 = 0 := by decide
  have hle : twoTo k.log2 ≤ k := Nat.log2_self_le hk
  unfold binade
  simp only [hlog, Int.ofNat_zero, Int.sub_zero, Int.toNat_natCast, Nat.one_mul]
  rw [if_neg (by omega), if_pos hle]

theorem pow_le_of_mul {a b : Nat} (h : 2 ^ a ≤ b) (c : Nat) : 2 ^ (a + c) ≤ b * 2 ^ c := by
  rw [Nat.pow_add]
  exact Nat.mul_le_mul_right _ h

theorem mul_lt_pow {a b : Nat} (h : b < 2 ^ a) (c : Nat) : b * 2 ^ c < 2 ^ (a + c) := by
  rw [Nat.pow_add]
  exact Nat.mul_lt_mul_of_pos_right h (Nat.two_pow_pos c)

/-- The exponent of an integer is that of the magnitude which denotes it. -/
theorem log2_of_ratio {s e k bits : Nat} (hk : k ≠ 0) (hlow : 2 ^ bits ≤ s) (hhigh : s < 2 ^ (bits + 1))
    {unit : Nat} (h : s * 2 ^ e = k * 2 ^ unit) : k.log2 + unit = bits + e := by
  have hle : 2 ^ (bits + e) < 2 ^ (k.log2 + 1 + unit) := calc
    2 ^ (bits + e) ≤ s * 2 ^ e := pow_le_of_mul hlow e
    _ = k * 2 ^ unit := h
    _ < 2 ^ (k.log2 + 1 + unit) := mul_lt_pow Nat.lt_log2_self unit
  have hge : 2 ^ (k.log2 + unit) < 2 ^ (bits + 1 + e) := calc
    2 ^ (k.log2 + unit) ≤ k * 2 ^ unit := pow_le_of_mul (Nat.log2_self_le hk) unit
    _ = s * 2 ^ e := h.symm
    _ < 2 ^ (bits + 1 + e) := mul_lt_pow hhigh e
  have h1 := (Nat.pow_lt_pow_iff_right (by decide)).1 hle
  have h2 := (Nat.pow_lt_pow_iff_right (by decide)).1 hge
  omega

theorem roundAt_of_ratio {s e k unit : Nat} (h : s * 2 ^ e = k * 2 ^ unit) :
    roundAt k 1 ((e : Int) - unit) = s := by
  unfold roundAt
  split
  · next hneg =>
    have hsplit : unit = (-((e : Int) - unit)).toNat + e := by omega
    have hs : k * 2 ^ (-((e : Int) - unit)).toNat = s := by
      refine Nat.eq_of_mul_eq_mul_right (Nat.two_pow_pos e) ?_
      rw [Nat.mul_assoc, ← Nat.pow_add, ← hsplit, h]
    exact (roundDiv_one _).trans hs
  · next hpos =>
    have hsplit : e = ((e : Int) - unit).toNat + unit := by omega
    have hk : s * 2 ^ ((e : Int) - unit).toNat = k := by
      refine Nat.eq_of_mul_eq_mul_right (Nat.two_pow_pos unit) ?_
      rw [Nat.mul_assoc, ← Nat.pow_add, ← hsplit, h]
    rw [← hk, Nat.one_mul]
    exact roundDiv_mul_self s _ (Nat.two_pow_pos _)

/-- An integer that a magnitude denotes is rounded to it. -/
theorem roundRatio_of_ratio {m k : Nat} (hfinite : m < binary64Limit)
    (h : (ratio m).1 = k * (ratio m).2) : roundRatio k 1 = some m := by
  have hparts := magnitude_eq m
  unfold ratio at h
  generalize hunit : 1074 = unit at h
  replace h : significand m * 2 ^ scaleOf m = k * 2 ^ unit := h
  by_cases hk : k = 0
  · have hzero : significand m = 0 := by
      rw [hk, Nat.zero_mul] at h
      exact (Nat.mul_eq_zero.1 h).resolve_right (Nat.ne_of_gt (Nat.two_pow_pos _))
    have hm : m = 0 := by
      have := normal_or_zero_scale m
      omega
    rw [hm, hk]
    rfl
  · have hnormal : 2 ^ 52 ≤ significand m := by
      refine (normal_or_zero_scale m).resolve_right fun hscale => ?_
      have hlarge : 2 ^ (0 + unit) ≤ k * 2 ^ unit := pow_le_of_mul (Nat.pos_of_ne_zero hk) unit
      rw [← h, hscale, Nat.pow_zero, Nat.mul_one] at hlarge
      have := (Nat.pow_lt_pow_iff_right (by decide)).1 (Nat.lt_of_le_of_lt hlarge (significand_lt m))
      omega
    have hlog := log2_of_ratio hk hnormal (significand_lt m) h
    have he : max (-1074) (binade k 1 - 52) = (scaleOf m : Int) - unit := by
      rw [binade_one hk]
      omega
    have hexp : ((scaleOf m : Int) - unit + 1074).toNat = scaleOf m := by omega
    unfold roundRatio
    simp only [if_neg hk, he, hexp, roundAt_of_ratio h]
    rw [show scaleOf m * twoTo 52 + significand m = m from hparts, if_pos hfinite]

/-! ## Integral numbers -/

theorem exists_of_isIntegral {x : Binary64} (h : x.isIntegral = true) :
    ∃ k, (ratio x.magnitude).1 = k * (ratio x.magnitude).2 := by
  have hmod : (ratio x.magnitude).1 % (ratio x.magnitude).2 = 0 := beq_iff_eq.1 h
  exact (Nat.dvd_of_mod_eq_zero hmod).imp fun k hk => hk.trans (Nat.mul_comm _ _)

theorem ratio_den_pos (m : Nat) : 0 < (ratio m).2 := by
  unfold ratio
  generalize 1074 = unit
  exact Nat.two_pow_pos unit

theorem floor_of_ratio {x : Binary64} {k : Nat}
    (h : (ratio x.magnitude).1 = k * (ratio x.magnitude).2) :
    x.floor = if x.negative then -(k : Int) else k := by
  have hpos := ratio_den_pos x.magnitude
  have hup : (k * (ratio x.magnitude).2 + ((ratio x.magnitude).2 - 1)) / (ratio x.magnitude).2 = k := by
    rw [Nat.mul_comm, Nat.mul_add_div hpos, Nat.div_eq_of_lt (by omega), Nat.add_zero]
  have hdown : k * (ratio x.magnitude).2 / (ratio x.magnitude).2 = k := Nat.mul_div_cancel k hpos
  simp only [floor, h, hup, hdown]

/-- An integral number has the rank of the integer that it denotes. -/
theorem rank_ofInt_floor {x : Binary64} (h : x.isIntegral = true) : (ofInt x.floor).rank = x.rank := by
  obtain ⟨k, hk⟩ := exists_of_isIntegral h
  have hround := roundRatio_of_ratio x.finite hk
  have hfloor := floor_of_ratio hk
  have habs : x.floor.natAbs = k := by
    rw [hfloor]
    split <;> omega
  have hof : ofInt x.floor = ⟨decide (x.floor < 0), x.magnitude, x.finite⟩ := by
    unfold ofInt
    rw [habs, hround]
    simp [ofMagnitude?, x.finite]
  rw [hof]
  have hzero : k = 0 → x.magnitude = 0 := by
    intro hk0
    rw [hk0] at hround
    exact (Option.some.inj hround).symm
  unfold rank
  cases hneg : x.negative
  · have hsign : decide (x.floor < 0) = false := by simp [hfloor, hneg]
    simp [hsign]
  · by_cases hk0 : k = 0
    · simp [hzero hk0]
    · have hsign : decide (x.floor < 0) = true := by
        simp only [hfloor, hneg, if_true, decide_eq_true_eq]
        omega
      simp [hsign]

end Tributary.Binary64

namespace Tributary.Number

theorem ofInt?_eq_some {n : Int} {a : Number} (h : ofInt? n = some a) : ∃ hn, a = .integer n hn := by
  unfold ofInt? at h
  split at h
  · next hn => exact ⟨hn, (Option.some.inj h).symm⟩
  · cases h

theorem integral?_eq_some {x : Binary64} {a : Number} (h : integral? x = some a) :
    x.isIntegral = true ∧ ∃ hn, a = .integer x.floor hn := by
  unfold integral? at h
  split at h
  · next hx => exact ⟨hx.1, ofInt?_eq_some h⟩
  · cases h

/-- A canonical float is itself, or the integer that it denotes. -/
theorem canonical_float (x : Binary64) :
    canonical (.float x) = .float x ∨
      x.isIntegral = true ∧ ∃ hn, canonical (.float x) = .integer x.floor hn := by
  have hcanonical : canonical (.float x) = (integral? x).getD (.float x) := rfl
  cases hx : integral? x with
  | none =>
    rw [hx] at hcanonical
    exact .inl hcanonical
  | some a =>
    obtain ⟨hintegral, hn, rfl⟩ := integral?_eq_some hx
    rw [hx] at hcanonical
    exact .inr ⟨hintegral, hn, hcanonical⟩

theorem rank_of_canonical_float {x : Binary64} {n : Int} {hn} (h : canonical (.float x) = .integer n hn) :
    (Binary64.ofInt n).rank = x.rank := by
  rcases canonical_float x with hx | ⟨hintegral, hx', hx⟩
  · rw [hx] at h
    cases h
  · rw [hx] at h
    cases h
    exact Binary64.rank_ofInt_floor hintegral

/-- Numbers with one canonical form have one value. -/
theorem same_of_canonical : {a b : Number} → a.canonical = b.canonical → a.same b = true
  | .integer m hm, .integer n hn, h => by
    cases h
    exact beq_self_eq_true m
  | .integer m hm, .float y, h => beq_iff_eq.2 (rank_of_canonical_float h.symm)
  | .float x, .integer n hn, h => beq_iff_eq.2 (rank_of_canonical_float h).symm
  | .float x, .float y, h => by
    refine beq_iff_eq.2 ?_
    rcases canonical_float x with hx | ⟨-, hn, hx⟩
    · rcases canonical_float y with hy | ⟨-, hn, hy⟩
      · rw [hx, hy] at h
        cases h
        rfl
      · rw [hx, hy] at h
        cases h
    · exact (rank_of_canonical_float hx).symm.trans (rank_of_canonical_float (h.symm.trans hx))

end Tributary.Number
