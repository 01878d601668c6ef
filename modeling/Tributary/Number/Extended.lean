import Tributary.Number.Shortest

/-!
# Binary64 numbers with infinities

A binary64 number that need not be finite: it may be infinite, or no number at all.

* `Extended.ofDecimal`: the number nearest to a decimal.
* `Extended.ofText?`: the number that a text spells.
* `Extended.text`: the fewest digits that read back, without an exponent.
* `Extended.count`: the nearest count of the unsigned 64-bit range.
-/

namespace Tributary

open Text

/-- A finite number, an infinity, or no number. -/
inductive Extended where
  | finite (x : Binary64)
  | infinite (negative : Bool)
  | undefined
  deriving DecidableEq, Repr

namespace Extended

/-! ## Reading -/

/-- The number with a sign and a magnitude, infinite where there is no magnitude. -/
def ofMagnitude (negative : Bool) (magnitude : Option Nat) : Extended :=
  match magnitude.bind (Binary64.ofMagnitude? negative) with
  | some x => .finite x
  | none => .infinite negative

/-- The number nearest to `digits * 10 ^ exponent`. A decimal of more than 310 digits in front of its
point is infinite, and one of more than 330 zeros behind it is zero. -/
def ofDecimal (negative : Bool) (digits : Nat) (exponent : Int) : Extended :=
  let point : Int := (decimal digits).length + exponent
  if digits = 0 ∨ point < -330 then ofMagnitude negative (some 0)
  else if 310 < point then .infinite negative
  else if exponent < 0 then
    ofMagnitude negative (Binary64.roundRatio digits (tenTo (-exponent).toNat))
  else ofMagnitude negative (Binary64.roundRatio (digits * tenTo exponent.toNat) 1)

/-- The number that digits append to another one. -/
def appendDigits (n : Nat) (ds : List Char) : Nat :=
  ds.foldl (fun n d => 10 * n + (d.toNat - '0'.toNat)) n

/-- The number that digits denote. -/
def digits? (ds : List Char) : Option Int :=
  if ds.isEmpty || !ds.all Char.isDigit then none else some (appendDigits 0 ds)

/-- An exponent behind its mark: an optional sign and digits. -/
def exponent? : List Char → Option Int
  | '-' :: ds => (digits? ds).map fun e => -e
  | '+' :: ds => digits? ds
  | ds => digits? ds

/-- A decimal without sign: digits with a point before, among or behind them, and an exponent. -/
def unsigned? (negative : Bool) (cs : List Char) : Option Extended :=
  let whole := cs.takeWhile Char.isDigit
  let (fraction, behind) :=
    match cs.dropWhile Char.isDigit with
    | '.' :: ds => (ds.takeWhile Char.isDigit, ds.dropWhile Char.isDigit)
    | ds => ([], ds)
  let digits := appendDigits 0 (whole ++ fraction)
  let number := fun e : Int => ofDecimal negative digits (e - fraction.length)
  if whole.isEmpty && fraction.isEmpty then none
  else
    match behind with
    | [] => some (number 0)
    | c :: ds => if c == 'e' || c == 'E' then (exponent? ds).map number else none

/-- The number that a text without sign spells, in digits or by a word in letters of either case. -/
def ofUnsigned? (negative : Bool) (cs : List Char) : Option Extended :=
  let word := String.ofList (cs.map Char.toLower)
  if word = "inf" ∨ word = "infinity" then some (.infinite negative)
  else if word = "nan" then some .undefined
  else unsigned? negative cs

/-- The number that a text spells. -/
def ofText? (s : String) : Option Extended :=
  match s.toList with
  | '-' :: cs => ofUnsigned? true cs
  | '+' :: cs => ofUnsigned? false cs
  | cs => ofUnsigned? false cs

/-! ## Writing -/

/-- The digits of a decimal without an exponent, and without a fraction where there is none. -/
def positional (d : Decimal) : List Char :=
  let ds := decimal d.digits
  let point : Int := ds.length + d.exponent
  if 0 ≤ d.exponent then ds ++ List.replicate d.exponent.toNat '0'
  else if 0 < point then ds.take point.toNat ++ '.' :: ds.drop point.toNat
  else '0' :: '.' :: (List.replicate (-point).toNat '0' ++ ds)

/-- The text of a number. -/
def text : Extended → String
  | finite x =>
    let body := if x.magnitude = 0 then ['0'] else positional (Binary64.shortest x.magnitude)
    String.ofList (if x.negative then '-' :: body else body)
  | infinite negative => if negative then "-inf" else "inf"
  | undefined => "NaN"

/-! ## Counts -/

/-- The nearest count, a half going upwards. What is negative or no number counts nothing, and what
is too large counts as much as possible. -/
def count : Extended → Nat
  | finite x =>
    let r := Binary64.ratio x.magnitude
    if x.negative then 0 else min ((2 * r.1 + r.2) / (2 * r.2)) 18446744073709551615
  | infinite negative => if negative then 0 else 18446744073709551615
  | undefined => 0

end Extended

end Tributary
