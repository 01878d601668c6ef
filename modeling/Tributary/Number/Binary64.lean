import Tributary.Number.Power

/-!
# Finite binary64 numbers

A finite IEEE binary64 number is a sign and a magnitude. The magnitude counts the representable
non-negative numbers from zero upwards, so it is also the bit pattern without its sign, and
magnitudes compare as the numbers do.

* `Binary64.rank`: an integer that orders the numbers by value and identifies the two zeros.
* `Binary64.roundRatio`: the magnitude nearest to a ratio of natural numbers, halves going to the
  even magnitude; `none` beyond the finite range.
* `Binary64.scale`: a digit string times a power of ten, read in two rounded steps.
* `Binary64.floor`: the largest integer that is not above the number.
-/

namespace Tributary

/-- The number of finite magnitudes: the bit pattern of infinity. -/
def binary64Limit : Nat := 2047 * twoTo 52

/-- A finite binary64 number. -/
structure Binary64 where
  negative : Bool
  magnitude : Nat
  finite : magnitude < binary64Limit
  deriving DecidableEq, Repr

namespace Binary64

/-! ## Magnitudes as ratios -/

/-- The integer significand of a magnitude. -/
def significand (magnitude : Nat) : Nat :=
  if magnitude < twoTo 52 then magnitude else twoTo 52 + magnitude % twoTo 52

/-- The exponent that goes with `significand`: the magnitude stands for
`significand * 2 ^ (scaleOf - 1074)`. -/
def scaleOf (magnitude : Nat) : Nat := magnitude / twoTo 52 - 1

/-- A magnitude as numerator and denominator. -/
def ratio (magnitude : Nat) : Nat × Nat :=
  (significand magnitude * twoTo (scaleOf magnitude), twoTo 1074)

/-- The quotient rounded to the nearest integer, a half to the even one. -/
def roundDiv (num den : Nat) : Nat :=
  let q := num / den
  let twice := 2 * (num % den)
  if twice < den then q
  else if den < twice then q + 1
  else if q % 2 = 0 then q
  else q + 1

/-- `num / den * 2 ^ (-e)` rounded to the nearest integer. -/
def roundAt (num den : Nat) (e : Int) : Nat :=
  if e < 0 then roundDiv (num * twoTo (-e).toNat) den else roundDiv num (den * twoTo e.toNat)

/-- The exponent `k` with `2 ^ k ≤ num / den < 2 ^ (k + 1)`, for positive `num` and `den`. -/
def binade (num den : Nat) : Int :=
  let k : Int := (num.log2 : Int) - (den.log2 : Int)
  if k < 0 then (if den ≤ num * twoTo (-k).toNat then k else k - 1)
  else if den * twoTo k.toNat ≤ num then k
  else k - 1

/-- The magnitude nearest to `num / den`, or `none` if that is infinite. -/
def roundRatio (num den : Nat) : Option Nat :=
  if num = 0 then some 0
  else
    let e := max (-1074) (binade num den - 52)
    let magnitude := (e + 1074).toNat * twoTo 52 + roundAt num den e
    if magnitude < binary64Limit then some magnitude else none

/-- The number with a sign and a magnitude, if that magnitude is finite. -/
def ofMagnitude? (negative : Bool) (magnitude : Nat) : Option Binary64 :=
  if h : magnitude < binary64Limit then some ⟨negative, magnitude, h⟩ else none

/-! ## Order and equality -/

/-- Positive zero. -/
def zero : Binary64 := ⟨false, 0, by decide⟩

instance : Inhabited Binary64 := ⟨zero⟩

/-- Numbers compare as their ranks do; the two zeros share one. -/
def rank (x : Binary64) : Int := if x.negative then -(x.magnitude : Int) else x.magnitude

/-- As `rank`, with negative zero just below positive zero. -/
def totalRank (x : Binary64) : Int :=
  if x.negative then -(x.magnitude : Int) - 1 else x.magnitude

theorem rank_eq_zero_iff (x : Binary64) : x.rank = 0 ↔ x.magnitude = 0 := by
  unfold rank
  split <;> omega

/-! ## From integers and decimals -/

/-- The number nearest to an integer of less than a thousand bits. -/
def ofInt (n : Int) : Binary64 :=
  ((roundRatio n.natAbs 1).bind (ofMagnitude? (n < 0))).getD zero

/-- The magnitude nearest to `10 ^ n`. -/
def powerOfTen (n : Nat) : Nat := (roundRatio (tenTo n) 1).getD 0

/-- The rounded product of two magnitudes. -/
def mulMagnitude (a b : Nat) : Option Nat :=
  let x := ratio a
  let y := ratio b
  roundRatio (x.1 * y.1) (x.2 * y.2)

/-- The rounded quotient of two magnitudes. -/
def divMagnitude (a b : Nat) : Option Nat :=
  let x := ratio a
  let y := ratio b
  roundRatio (x.1 * y.2) (x.2 * y.1)

/-- Divides a magnitude by `10 ^ n`, in steps of `10 ^ 308` where `n` is larger than that. -/
def scaleDown (magnitude n : Nat) : Nat :=
  if n ≤ 308 then (divMagnitude magnitude (powerOfTen n)).getD 0
  else if magnitude = 0 then 0
  else scaleDown ((divMagnitude magnitude (powerOfTen 308)).getD 0) (n - 308)
termination_by n

/-- The magnitude of `digits * 10 ^ exponent`: the digits are rounded to binary64 first and the
result is then multiplied or divided by a rounded power of ten. `none` beyond the finite range. -/
def scale (digits : Nat) (exponent : Int) : Option Nat :=
  match roundRatio digits 1 with
  | none => none
  | some magnitude =>
    if exponent < 0 then some (scaleDown magnitude (-exponent).toNat)
    else if magnitude = 0 then some 0
    else if exponent ≤ 308 then mulMagnitude magnitude (powerOfTen exponent.toNat)
    else none

/-! ## Integral parts -/

/-- Whether the number is an integer. -/
def isIntegral (x : Binary64) : Bool :=
  let r := ratio x.magnitude
  r.1 % r.2 == 0

/-- The largest integer that is not above the number. -/
def floor (x : Binary64) : Int :=
  let r := ratio x.magnitude
  if x.negative then -(((r.1 + (r.2 - 1)) / r.2 : Nat) : Int) else ((r.1 / r.2 : Nat) : Int)

end Binary64

end Tributary
