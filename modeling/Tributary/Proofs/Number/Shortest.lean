import Mathlib.Data.List.TakeWhile
import Mathlib.Order.Monotone.Basic
import Mathlib.Tactic.FieldSimp
import Mathlib.Tactic.Linarith
import Mathlib.Tactic.Positivity
import Tributary.Number.Shortest
import Tributary.Proofs.Number.Rounding
import Tributary.Proofs.Text.Numeral

/-!
# The text of a binary64 number determines it

Every decimal is read back by at most one magnitude: the intervals of two magnitudes meet at most in an end,
and of two neighbouring magnitudes only the even one owns it. The text of a number denotes a decimal which
its magnitude reads back, so numbers with one text are one number.

* `Binary64.readsBack_shortest`: the printed decimal reads back.
* `Binary64.eq_of_readsBack`: two magnitudes that read back one value are the same.
* `Binary64.denoted_decimalText`: the value can be read from the text.
* `Number.text_injective`: floats and integers alike.
-/

namespace Tributary

open Text

namespace Decimal

/-- The number that a decimal stands for. -/
def value (d : Decimal) : ℚ := d.digits * (10 : ℚ) ^ d.exponent

/-- The number in units of a quarter of the least positive magnitude. -/
def units (d : Decimal) : ℚ := d.value * (twoTo 1076 : ℕ)

end Decimal

namespace Binary64

/-! ## Intervals -/

/-- The lower end of the decimals that read back, in the unit of `Decimal.units`. -/
def lowEnd (m : Nat) : Nat := lower m * 2 ^ scaleOf m

/-- The upper end, in the same unit. -/
def highEnd (m : Nat) : Nat := upper m * 2 ^ scaleOf m

theorem lower_eq (m : Nat) :
    lower m = if m % 4503599627370496 = 0 ∧ 9007199254740992 ≤ m then 4 * significand m - 1
      else 4 * significand m - 2 := rfl

/-- Intervals adjoin: one ends where the next one starts. -/
theorem highEnd_eq_lowEnd_succ (m : Nat) : highEnd m = lowEnd (m + 1) := by
  unfold highEnd lowEnd upper center
  rw [lower_eq]
  by_cases hstep : (m + 1) % 4503599627370496 = 0 ∧ 9007199254740992 ≤ m + 1
  · have hsig : significand m = 9007199254740991 ∧ significand (m + 1) = 4503599627370496 := by
      rw [significand_eq, significand_eq]
      split <;> split <;> omega
    have hscale : scaleOf (m + 1) = scaleOf m + 1 := by
      rw [scaleOf_eq, scaleOf_eq]
      omega
    rw [if_pos hstep, hsig.1, hsig.2, hscale, Nat.pow_succ]
    omega
  · have hsig : significand (m + 1) = significand m + 1 := by
      rw [significand_eq, significand_eq]
      split <;> split <;> omega
    have hscale : scaleOf (m + 1) = scaleOf m := by
      rw [scaleOf_eq, scaleOf_eq]
      omega
    rw [if_neg hstep, hsig, hscale]
    congr 1

theorem lowEnd_lt_highEnd (m : Nat) : lowEnd m < highEnd m := by
  refine Nat.mul_lt_mul_of_pos_right ?_ (Nat.two_pow_pos _)
  unfold upper center
  rw [lower_eq]
  split <;> omega

theorem lowEnd_strictMono : StrictMono lowEnd :=
  strictMono_nat_of_lt_succ fun m => (lowEnd_lt_highEnd m).trans_eq (highEnd_eq_lowEnd_succ m)

/-! ## Reading back -/

theorem inUnits_pos (m : Nat) (d : Decimal) : 0 < (inUnits m d).2 := by
  unfold inUnits
  split
  · exact Nat.mul_pos (Nat.pow_pos (by decide)) (Nat.two_pow_pos _)
  · exact Nat.two_pow_pos _

theorem inUnits_units (m : Nat) (d : Decimal) :
    ((inUnits m d).1 : ℚ) * 2 ^ scaleOf m = d.units * (inUnits m d).2 := by
  have htwo : ((twoTo (scaleOf m) : Nat) : ℚ) = 2 ^ scaleOf m := by
    exact Nat.cast_pow 2 (scaleOf m)
  have hten : ∀ k, ((tenTo k : Nat) : ℚ) = 10 ^ k := fun k => by exact Nat.cast_pow 10 k
  unfold inUnits Decimal.units Decimal.value
  generalize 1076 = unit
  split
  · next hneg =>
    obtain ⟨k, hk⟩ : ∃ k : Nat, d.exponent = -(k : Int) := ⟨(-d.exponent).toNat, by omega⟩
    simp only [hk, neg_neg, Int.toNat_natCast, zpow_neg, zpow_natCast, Nat.cast_mul, htwo, hten]
    field_simp
  · next hpos =>
    obtain ⟨k, hk⟩ : ∃ k : Nat, d.exponent = (k : Int) := ⟨d.exponent.toNat, by omega⟩
    simp only [hk, Int.toNat_natCast, zpow_natCast, Nat.cast_mul, htwo, hten]

theorem le_inUnits_iff (m n : Nat) (d : Decimal) :
    n * (inUnits m d).2 ≤ (inUnits m d).1 ↔ ((n * 2 ^ scaleOf m : Nat) : ℚ) ≤ d.units := by
  have hpos : (0 : ℚ) < (inUnits m d).2 := by exact_mod_cast inUnits_pos m d
  have htwo : (0 : ℚ) < 2 ^ scaleOf m := by positivity
  rw [← mul_le_mul_iff_left₀ hpos, ← inUnits_units, Nat.cast_mul, Nat.cast_pow, mul_right_comm]
  rw [Nat.cast_ofNat, mul_le_mul_iff_left₀ htwo]
  exact_mod_cast Iff.rfl

theorem inUnits_le_iff (m n : Nat) (d : Decimal) :
    (inUnits m d).1 ≤ n * (inUnits m d).2 ↔ d.units ≤ ((n * 2 ^ scaleOf m : Nat) : ℚ) := by
  have hpos : (0 : ℚ) < (inUnits m d).2 := by exact_mod_cast inUnits_pos m d
  have htwo : (0 : ℚ) < 2 ^ scaleOf m := by positivity
  rw [← mul_le_mul_iff_left₀ hpos, ← inUnits_units, Nat.cast_mul, Nat.cast_pow, mul_right_comm]
  rw [Nat.cast_ofNat, mul_le_mul_iff_left₀ htwo]
  exact_mod_cast Iff.rfl

theorem readsBack_bounds {m : Nat} {d : Decimal} (h : readsBack m d = true) :
    (lowEnd m : ℚ) ≤ d.units ∧ d.units ≤ highEnd m := by
  unfold lowEnd highEnd
  rw [← le_inUnits_iff, ← inUnits_le_iff]
  unfold readsBack at h
  split at h
  · simpa using h
  · simp only [Bool.and_eq_true, decide_eq_true_eq] at h
    exact ⟨h.1.le, h.2.le⟩

theorem readsBack_bounds_of_odd {m : Nat} {d : Decimal} (h : readsBack m d = true) (hodd : m % 2 = 1) :
    (lowEnd m : ℚ) < d.units ∧ d.units < highEnd m := by
  unfold readsBack at h
  rw [if_neg (by rw [significand_mod_two]; omega)] at h
  simp only [Bool.and_eq_true, decide_eq_true_eq] at h
  refine ⟨not_le.1 fun hle => ?_, not_le.1 fun hle => ?_⟩
  · have := (inUnits_le_iff m (lower m) d).2 hle
    omega
  · have := (le_inUnits_iff m (upper m) d).2 hle
    omega

theorem not_readsBack_both {m n : Nat} (hlt : m < n) {d e : Decimal} (hm : readsBack m d = true)
    (hn : readsBack n e = true) : d.units ≠ e.units := by
  intro heq
  have hupper : d.units ≤ lowEnd (m + 1) := highEnd_eq_lowEnd_succ m ▸ (readsBack_bounds hm).2
  have hlower : (lowEnd n : ℚ) ≤ d.units := heq ▸ (readsBack_bounds hn).1
  have hend : lowEnd n ≤ lowEnd (m + 1) := by exact_mod_cast hlower.trans hupper
  have hnext : n = m + 1 := by
    have := lowEnd_strictMono.le_iff_le.1 hend
    omega
  subst hnext
  -- the common end belongs to the even one of the two magnitudes
  rcases Nat.mod_two_eq_zero_or_one m with heven | hodd
  · have := (readsBack_bounds_of_odd hn (by omega)).1
    linarith
  · have := (readsBack_bounds_of_odd hm hodd).2
    rw [highEnd_eq_lowEnd_succ] at this
    linarith

/-- A value is read back by one magnitude only. -/
theorem eq_of_readsBack {m n : Nat} {d e : Decimal} (hm : readsBack m d = true)
    (hn : readsBack n e = true) (h : d.value = e.value) : m = n := by
  have hunits : d.units = e.units := by rw [Decimal.units, h, Decimal.units]
  rcases Nat.lt_trichotomy m n with hlt | heq | hgt
  · exact absurd hunits (not_readsBack_both hlt hm hn)
  · exact heq
  · exact absurd hunits.symm (not_readsBack_both hgt hn hm)

/-! ## The search -/

theorem readsBack_of_center {m : Nat} {d : Decimal}
    (h : (inUnits m d).1 = center m * (inUnits m d).2) : readsBack m d = true := by
  have hpos := inUnits_pos m d
  have hupper : center m * (inUnits m d).2 < upper m * (inUnits m d).2 :=
    Nat.mul_lt_mul_of_pos_right (by unfold upper; omega) hpos
  have hlower : lower m * (inUnits m d).2 ≤ center m * (inUnits m d).2 := by
    refine Nat.mul_le_mul_right _ ?_
    unfold lower
    split <;> omega
  unfold readsBack
  simp only [h]
  split
  · simp [hlower, hupper.le]
  · next hodd =>
    have hlt : lower m * (inUnits m d).2 < center m * (inUnits m d).2 := by
      refine Nat.mul_lt_mul_of_pos_right ?_ hpos
      unfold lower center
      split <;> omega
    simp [hlt, hupper]

theorem readsBack_exactDecimal (m : Nat) : readsBack m (exactDecimal m) = true := by
  refine readsBack_of_center ?_
  have hneg : (exactDecimal m).exponent < 0 := (by decide : (-1074 : Int) < 0)
  have hexponent : (-(exactDecimal m).exponent).toNat = 1074 := rfl
  have hdigits : (exactDecimal m).digits = significand m * twoTo (scaleOf m) * Nat.pow 5 1074 := rfl
  unfold inUnits
  rw [if_pos hneg, hexponent, hdigits, center, show 1076 = 1074 + 2 from rfl]
  generalize 1074 = unit
  have hten : tenTo unit = twoTo unit * Nat.pow 5 unit := Nat.mul_pow 2 5 unit
  have htwo : twoTo (unit + 2) = twoTo unit * 2 * 2 := rfl
  rw [hten, htwo]
  ring

theorem nearer_eq_or (m below : Nat) (exponent : Int) :
    nearer m below exponent = below ∨ nearer m below exponent = below + 1 := by
  unfold nearer
  grind

theorem readsBack_onGrid? {m : Nat} {exponent : Int} {d : Decimal}
    (h : onGrid? m exponent = some d) : readsBack m d = true := by
  simp only [onGrid?] at h
  split at h
  · next hbelow habove =>
    cases h
    rcases nearer_eq_or m (gridFloor m exponent) exponent with heq | heq <;> rw [heq]
    · exact hbelow
    · exact habove
  · next hbelow _ =>
    cases h
    exact hbelow
  · next _ habove =>
    cases h
    exact habove
  · cases h

theorem readsBack_searchGrids (m count : Nat) (exponent : Int) :
    readsBack m (searchGrids m count exponent) = true := by
  induction count generalizing exponent with
  | zero => exact readsBack_exactDecimal m
  | succ count ih =>
    unfold searchGrids
    split
    · next d hd => exact readsBack_onGrid? hd
    · exact ih _

/-- What is printed for a magnitude reads back to it. -/
theorem readsBack_shortest (m : Nat) : readsBack m (shortest m) = true := readsBack_searchGrids m 20 _

/-! ## Text -/

/-- The exponent that follows the mark in a decimal text. -/
def denotedExponent : List Char → Int
  | '-' :: ds => -(Nat.ofDigitChars 10 ds 0 : Int)
  | '+' :: ds => Nat.ofDigitChars 10 ds 0
  | _ => 0

/-- The number that a decimal text denotes: the digits before and after its point, scaled by its exponent. -/
def denoted (cs : List Char) : ℚ :=
  let mantissa := cs.takeWhile (· ≠ 'e')
  let whole := mantissa.takeWhile (· ≠ '.')
  let fraction := (mantissa.dropWhile (· ≠ '.')).drop 1
  let exponent := denotedExponent ((cs.dropWhile (· ≠ 'e')).drop 1)
  Nat.ofDigitChars 10 (whole ++ fraction) 0 * (10 : ℚ) ^ (exponent - fraction.length)

/-- Digits only. -/
def Digits (cs : List Char) : Prop := ∀ c ∈ cs, c.isDigit = true

theorem digits_decimal (n : Nat) : Digits (decimal n) := fun _ h => isDigit_of_mem_decimal h

theorem digits_zeros (count : Nat) : Digits (List.replicate count '0') := by
  intro c hc
  rw [List.eq_of_mem_replicate hc]
  decide

theorem Digits.append {cs ds : List Char} (hc : Digits cs) (hd : Digits ds) : Digits (cs ++ ds) :=
  fun c h => (List.mem_append.1 h).elim (hc c) (hd c)

theorem Digits.ne {cs : List Char} (h : Digits cs) {c stop : Char} (hc : c ∈ cs)
    (hstop : stop.isDigit = false) :
    decide (c ≠ stop) = true := by
  have hdigit := h c hc
  refine decide_eq_true fun heq => ?_
  rw [heq, hstop] at hdigit
  cases hdigit

theorem denoted_point {whole fraction mark : List Char} (hwhole : Digits whole) (hfraction : Digits fraction)
    (hmark : mark.takeWhile (· ≠ 'e') = []) :
    denoted (whole ++ '.' :: (fraction ++ mark)) =
      Nat.ofDigitChars 10 (whole ++ fraction) 0 *
        (10 : ℚ) ^ (denotedExponent (mark.drop 1) - fraction.length) := by
  have hrest : mark.dropWhile (· ≠ 'e') = mark := by
    have := List.takeWhile_append_dropWhile (p := fun c => decide (c ≠ 'e')) (l := mark)
    rwa [hmark, List.nil_append] at this
  have hmantissa : (whole ++ '.' :: (fraction ++ mark)).takeWhile (· ≠ 'e') = whole ++ '.' :: fraction := by
    rw [List.takeWhile_append_of_pos fun c hc => hwhole.ne hc (by decide),
      List.takeWhile_cons_of_pos (by decide),
      List.takeWhile_append_of_pos fun c hc => hfraction.ne hc (by decide), hmark, List.append_nil]
  have hexponent : (whole ++ '.' :: (fraction ++ mark)).dropWhile (· ≠ 'e') = mark := by
    rw [List.dropWhile_append_of_pos fun c hc => hwhole.ne hc (by decide),
      List.dropWhile_cons_of_pos (by decide),
      List.dropWhile_append_of_pos fun c hc => hfraction.ne hc (by decide), hrest]
  have hbefore : (whole ++ '.' :: fraction).takeWhile (· ≠ '.') = whole := by
    rw [List.takeWhile_append_of_pos fun c hc => hwhole.ne hc (by decide),
      List.takeWhile_cons_of_neg (by decide),
      List.append_nil]
  have hafter : (whole ++ '.' :: fraction).dropWhile (· ≠ '.') = '.' :: fraction := by
    rw [List.dropWhile_append_of_pos fun c hc => hwhole.ne hc (by decide),
      List.dropWhile_cons_of_neg (by decide)]
  simp only [denoted, hmantissa, hexponent, hbefore, hafter, List.drop_one, List.tail_cons]

theorem denoted_positional {whole fraction : List Char} (hwhole : Digits whole)
    (hfraction : Digits fraction) :
    denoted (whole ++ '.' :: fraction) =
      Nat.ofDigitChars 10 (whole ++ fraction) 0 * (10 : ℚ) ^ (-(fraction.length : Int)) := by
  have h := denoted_point hwhole hfraction (List.takeWhile_nil (p := fun c => decide (c ≠ 'e')))
  rwa [List.append_nil, List.drop_nil, show denotedExponent [] = 0 from rfl, zero_sub] at h

theorem denoted_whole {whole : List Char} (hwhole : Digits whole) (mark : List Char) :
    denoted (whole ++ 'e' :: mark) =
      Nat.ofDigitChars 10 whole 0 * (10 : ℚ) ^ denotedExponent mark := by
  have hmantissa : (whole ++ 'e' :: mark).takeWhile (· ≠ 'e') = whole := by
    rw [List.takeWhile_append_of_pos fun c hc => hwhole.ne hc (by decide),
      List.takeWhile_cons_of_neg (by decide),
      List.append_nil]
  have hexponent : (whole ++ 'e' :: mark).dropWhile (· ≠ 'e') = 'e' :: mark := by
    rw [List.dropWhile_append_of_pos fun c hc => hwhole.ne hc (by decide),
      List.dropWhile_cons_of_neg (by decide)]
  have hpoint : ∀ c ∈ whole, decide (c ≠ '.') = true := fun c hc => hwhole.ne hc (by decide)
  simp only [denoted, hmantissa, hexponent, List.takeWhile_eq_self_iff.2 hpoint,
    List.dropWhile_eq_nil_iff.2 hpoint, List.drop_nil, List.append_nil, List.length_nil, Nat.cast_zero,
    sub_zero, List.drop_one, List.tail_cons]

/-- What follows the mark of an exponent. -/
theorem denotedExponent_mark (e : Int) :
    denotedExponent (if e < 0 then signed e else '+' :: signed e) = e := by
  unfold signed
  split
  · rw [denotedExponent, ofDigitChars_decimal]
    omega
  · rw [denotedExponent, ofDigitChars_decimal]
    omega

theorem digits_cons {c : Char} {cs : List Char} (h : Digits (c :: cs)) : Digits [c] ∧ Digits cs :=
  ⟨fun _ hd => h _ (List.mem_singleton.1 hd ▸ List.mem_cons_self),
    fun _ hd => h _ (List.mem_cons_of_mem _ hd)⟩

theorem denoted_padded {ds : List Char} (hds : Digits ds) (k : Nat) :
    denoted (ds ++ List.replicate k '0' ++ ['.', '0']) = Nat.ofDigitChars 10 ds 0 * (10 : ℚ) ^ k := by
  have hdigits : Nat.ofDigitChars 10 (ds ++ List.replicate k '0' ++ ['0']) 0 =
      10 * (Nat.ofDigitChars 10 ds 0 * 10 ^ k) + 0 := by
    rw [Nat.ofDigitChars_append, Nat.ofDigitChars_append, ofDigitChars_zeros]
    rfl
  have htext := denoted_positional (hds.append (digits_zeros k)) (digits_zeros 1)
  rw [List.replicate_one, hdigits, List.length_singleton, Nat.cast_one, zpow_neg_one] at htext
  rw [htext]
  push_cast
  ring

theorem denoted_split {ds : List Char} (hds : Digits ds) {p : Nat} (hp : p ≤ ds.length) :
    denoted (ds.take p ++ '.' :: ds.drop p) =
      Nat.ofDigitChars 10 ds 0 * (10 : ℚ) ^ ((p : Int) - ds.length) := by
  have hwhole : Digits (ds.take p) := fun c hc => hds c (List.mem_of_mem_take hc)
  have hfraction : Digits (ds.drop p) := fun c hc => hds c (List.mem_of_mem_drop hc)
  have hexponent : -((ds.drop p).length : Int) = (p : Int) - ds.length := by
    rw [List.length_drop]
    omega
  rw [denoted_positional hwhole hfraction, List.take_append_drop, hexponent]

theorem denoted_leading {ds : List Char} (hds : Digits ds) (k : Nat) :
    denoted ('0' :: '.' :: (List.replicate k '0' ++ ds)) =
      Nat.ofDigitChars 10 ds 0 * (10 : ℚ) ^ (-(k + ds.length : Int)) := by
  have htext := denoted_positional (digits_zeros 1) ((digits_zeros k).append hds)
  have hdigits : Nat.ofDigitChars 10 (['0'] ++ (List.replicate k '0' ++ ds)) 0 = Nat.ofDigitChars 10 ds 0 := by
    have hzero : Nat.ofDigitChars 10 ['0'] 0 = 0 := rfl
    rw [Nat.ofDigitChars_append, Nat.ofDigitChars_append, hzero, ofDigitChars_zeros, Nat.zero_mul]
  have hexponent : -((List.replicate k '0' ++ ds).length : Int) = -(k + ds.length : Int) := by
    rw [List.length_append, List.length_replicate, Nat.cast_add]
  rwa [List.replicate_one, hdigits, hexponent] at htext

theorem denoted_single {c : Char} (hc : Digits [c]) (e : Int) :
    denoted (c :: 'e' :: (if e < 0 then signed e else '+' :: signed e)) =
      Nat.ofDigitChars 10 [c] 0 * (10 : ℚ) ^ e := by
  have htext := denoted_whole hc (if e < 0 then signed e else '+' :: signed e)
  rwa [denotedExponent_mark] at htext

theorem denoted_scientific {c : Char} {cs : List Char} (h : Digits (c :: cs)) (e : Int) :
    denoted (c :: '.' :: (cs ++ 'e' :: (if e < 0 then signed e else '+' :: signed e))) =
      Nat.ofDigitChars 10 (c :: cs) 0 * (10 : ℚ) ^ (e - cs.length) := by
  obtain ⟨hfirst, hrest⟩ := digits_cons h
  have hmark : ('e' :: (if e < 0 then signed e else '+' :: signed e)).takeWhile (· ≠ 'e') = [] :=
    List.takeWhile_cons_of_neg (by decide)
  have htext := denoted_point hfirst hrest hmark
  rwa [List.drop_one, List.tail_cons, denotedExponent_mark] at htext

/-- The text of a decimal denotes it. -/
theorem denoted_decimalText (d : Decimal) : denoted (decimalText d) = d.value := by
  have hdigits := digits_decimal d.digits
  have hvalue := ofDigitChars_decimal d.digits
  have hnonempty := decimal_ne_nil d.digits
  unfold decimalText Decimal.value
  generalize decimal d.digits = ds at hdigits hvalue hnonempty
  dsimp only
  split
  · next h =>
    have hexponent : d.exponent = (d.exponent.toNat : Int) := by omega
    rw [denoted_padded hdigits, hvalue, ← zpow_natCast, ← hexponent]
  · next hlong =>
    split
    · next h =>
      have hexponent : ((ds.length + d.exponent : Int).toNat : Int) - ds.length = d.exponent := by omega
      rw [denoted_split hdigits (by omega), hvalue, hexponent]
    · split
      · next h =>
        have hexponent : -((-(ds.length + d.exponent : Int)).toNat + ds.length : Int) = d.exponent := by omega
        rw [denoted_leading hdigits, hvalue, hexponent]
      · cases ds with
        | nil => exact absurd rfl hnonempty
        | cons c cs =>
          have hexponent : (((c :: cs).length : Nat) : Int) + d.exponent - 1 - cs.length = d.exponent := by
            rw [List.length_cons]
            omega
          cases cs with
          | nil =>
            have htext := denoted_single hdigits (([c].length : Nat) + d.exponent - 1)
            rw [List.length_nil, Nat.cast_zero, sub_zero] at hexponent
            exact htext.trans (by rw [hvalue, hexponent])
          | cons c' cs =>
            have htext := denoted_scientific hdigits ((c :: c' :: cs).length + d.exponent - 1)
            rw [hvalue, hexponent] at htext
            exact htext

theorem readsBack_zero : readsBack 0 ⟨0, 0⟩ = true := by
  refine readsBack_of_center ?_
  have hcenter : center 0 = 0 := rfl
  unfold inUnits
  generalize 1076 = unit
  rw [hcenter, Nat.zero_mul, if_neg (by decide)]
  simp only [Nat.zero_mul]

/-- A text is a sign and a decimal that reads back. -/
theorem exists_decimal_of_text (x : Binary64) :
    ∃ d, readsBack x.magnitude d = true ∧
      x.text = if x.negative then '-' :: decimalText d else decimalText d := by
  unfold text
  by_cases hzero : x.magnitude = 0
  · refine ⟨⟨0, 0⟩, by rw [hzero]; exact readsBack_zero, ?_⟩
    rw [if_pos hzero]
    rfl
  · refine ⟨shortest x.magnitude, readsBack_shortest _, ?_⟩
    rw [if_neg hzero]

/-! ## Characters -/

/-- The characters of numbers. -/
def Numeric (c : Char) : Prop := c.isDigit = true ∨ c = '.' ∨ c = 'e' ∨ c = '+' ∨ c = '-'

theorem Digits.numeric {cs : List Char} (h : Digits cs) : ∀ c ∈ cs, Numeric c := fun c hc => .inl (h c hc)

theorem numeric_signed (n : Int) : ∀ c ∈ signed n, Numeric c := by
  intro c hc
  rcases isDigit_or_minus_of_mem_signed hc with h | rfl
  · exact .inl h
  · simp [Numeric]

theorem numeric_decimalText (d : Decimal) : ∀ c ∈ decimalText d, Numeric c := by
  have hdigits := (digits_decimal d.digits).numeric
  have hzeros : ∀ k, ∀ c ∈ List.replicate k '0', Numeric c := fun k => (digits_zeros k).numeric
  have hzero : Numeric '0' := .inl (by decide)
  have hpoint : Numeric '.' := .inr (.inl rfl)
  have hmark : ∀ e : Int, ∀ c ∈ 'e' :: (if e < 0 then signed e else '+' :: signed e), Numeric c := by
    intro e
    split
    · exact List.forall_mem_cons.2 ⟨by simp [Numeric], numeric_signed e⟩
    · exact List.forall_mem_cons.2
        ⟨by simp [Numeric], List.forall_mem_cons.2 ⟨by simp [Numeric], numeric_signed e⟩⟩
  unfold decimalText
  generalize decimal d.digits = ds at hdigits
  dsimp only
  split
  · simp only [List.forall_mem_append, List.forall_mem_cons]
    exact ⟨⟨hdigits, hzeros _⟩, hpoint, hzero, List.forall_mem_nil _⟩
  · split
    · simp only [List.forall_mem_append, List.forall_mem_cons]
      exact ⟨fun c hc => hdigits c (List.mem_of_mem_take hc), hpoint,
        fun c hc => hdigits c (List.mem_of_mem_drop hc)⟩
    · split
      · simp only [List.forall_mem_append, List.forall_mem_cons]
        exact ⟨hzero, hpoint, hzeros _, hdigits⟩
      · split
        · exact hmark _
        · exact List.forall_mem_cons.2 ⟨(List.forall_mem_cons.1 hdigits).1, hmark _⟩
        · next c cs _ =>
          obtain ⟨hc, hcs⟩ := List.forall_mem_cons.1 hdigits
          rw [List.cons_append, List.cons_append]
          exact List.forall_mem_cons.2
            ⟨hc, List.forall_mem_cons.2 ⟨hpoint, List.forall_mem_append.2 ⟨hcs, hmark _⟩⟩⟩

/-- A decimal starts with a digit. -/
theorem decimalText_eq_cons (d : Decimal) : ∃ c cs, decimalText d = c :: cs ∧ c.isDigit = true := by
  have hdigits := digits_decimal d.digits
  have hnonempty := decimal_ne_nil d.digits
  unfold decimalText
  generalize decimal d.digits = ds at hdigits hnonempty
  obtain ⟨c, cs, rfl⟩ := List.exists_cons_of_ne_nil hnonempty
  have hc : c.isDigit = true := hdigits c List.mem_cons_self
  dsimp only
  split
  · exact ⟨c, _, rfl, hc⟩
  · split
    · next h =>
      obtain ⟨p, hp⟩ : ∃ p, (((c :: cs).length : Nat) + d.exponent : Int).toNat = p + 1 :=
        ⟨(((c :: cs).length : Nat) + d.exponent : Int).toNat - 1, by omega⟩
      exact ⟨c, _, by rw [hp, List.take_succ_cons]; rfl, hc⟩
    · split
      · exact ⟨'0', _, rfl, by decide⟩
      · cases cs with
        | nil => exact ⟨c, _, rfl, hc⟩
        | cons c' cs => exact ⟨c, _, rfl, hc⟩

/-- A decimal shows that it is no integer. -/
theorem decimalText_marked (d : Decimal) : '.' ∈ decimalText d ∨ 'e' ∈ decimalText d := by
  unfold decimalText
  dsimp only
  split
  · simp
  · split
    · simp
    · split
      · simp
      · split <;> simp

/-! ## Numbers -/

theorem numeric_text (x : Binary64) : ∀ c ∈ x.text, Numeric c := by
  obtain ⟨d, -, htext⟩ := exists_decimal_of_text x
  rw [htext]
  split
  · exact List.forall_mem_cons.2 ⟨by simp [Numeric], numeric_decimalText d⟩
  · exact numeric_decimalText d

theorem text_marked (x : Binary64) : '.' ∈ x.text ∨ 'e' ∈ x.text := by
  obtain ⟨d, -, htext⟩ := exists_decimal_of_text x
  rw [htext]
  split
  · exact (decimalText_marked d).imp (List.mem_cons_of_mem _) (List.mem_cons_of_mem _)
  · exact decimalText_marked d

theorem decimalText_ne_minus (d : Decimal) (cs : List Char) : decimalText d ≠ '-' :: cs := by
  obtain ⟨c, rest, htext, hc⟩ := decimalText_eq_cons d
  intro h
  rw [htext] at h
  rw [(List.cons.inj h).1] at hc
  exact absurd hc (by decide)

/-- No float is written as an integer is. -/
theorem text_ne_signed (x : Binary64) (n : Int) : x.text ≠ signed n := by
  intro h
  rcases text_marked x with hmark | hmark
  · rcases isDigit_or_minus_of_mem_signed (h ▸ hmark) with hc | hc
    · exact absurd hc (by decide)
    · exact absurd hc (by decide)
  · rcases isDigit_or_minus_of_mem_signed (h ▸ hmark) with hc | hc
    · exact absurd hc (by decide)
    · exact absurd hc (by decide)

/-- The text determines the number. -/
theorem text_injective {x y : Binary64} (h : x.text = y.text) : x = y := by
  obtain ⟨d, hd, hx⟩ := exists_decimal_of_text x
  obtain ⟨e, he, hy⟩ := exists_decimal_of_text y
  have hboth : x.negative = y.negative ∧ decimalText d = decimalText e := by
    rw [hx, hy] at h
    cases hnx : x.negative <;> cases hny : y.negative <;>
      simp only [hnx, hny, if_true, if_false, Bool.false_eq_true] at h
    · exact ⟨rfl, h⟩
    · exact absurd h (decimalText_ne_minus _ _)
    · exact absurd h.symm (decimalText_ne_minus _ _)
    · exact ⟨rfl, (List.cons.inj h).2⟩
  have hvalue : d.value = e.value := by
    rw [← denoted_decimalText, hboth.2, denoted_decimalText]
  have hmagnitude := eq_of_readsBack hd he hvalue
  obtain ⟨nx, mx, hfx⟩ := x
  obtain ⟨ny, my, hfy⟩ := y
  obtain ⟨rfl, -⟩ := hboth
  cases hmagnitude
  rfl

end Binary64

namespace Number

theorem numeric_text : (n : Number) → ∀ c ∈ n.text, Binary64.Numeric c
  | .integer n _ => Binary64.numeric_signed n
  | .float x => x.numeric_text

theorem text_ne_nil : (n : Number) → n.text ≠ []
  | .integer n _ => signed_ne_nil n
  | .float x => fun h => by
    rcases x.text_marked with hmark | hmark
    · exact List.ne_nil_of_mem hmark h
    · exact List.ne_nil_of_mem hmark h

/-- The text determines the number and the class in which it is written. -/
theorem text_injective : {a b : Number} → a.text = b.text → a = b
  | .integer m _, .integer n _, h => by
    cases signed_injective h
    rfl
  | .integer m _, .float y, h => absurd h.symm (y.text_ne_signed m)
  | .float x, .integer n _, h => absurd h (x.text_ne_signed n)
  | .float x, .float y, h => congrArg float (Binary64.text_injective h)

end Number

end Tributary
