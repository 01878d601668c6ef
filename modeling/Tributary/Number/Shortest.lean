import Tributary.Number.Binary64
import Tributary.Text.Numeral

/-!
# Shortest decimal text of a binary64 number

A number is written with the fewest digits that read back to it.

* `readsBack`: whether `digits * 10 ^ exponent` is nearer to a magnitude than to its neighbours; the
  two ends of that interval belong to it exactly when the significand is even.
* `shortest`: the coarsest decimal grid with a point in the interval; of two such points the nearer
  one, and the even one if both are equally near.
* `Binary64.text`: positional from `1e-5` up to `1e16`, with an exponent outside.
-/

namespace Tributary

open Text

/-- A decimal number `digits * 10 ^ exponent`. -/
structure Decimal where
  digits : Nat
  exponent : Int
  deriving DecidableEq, Repr

namespace Binary64

/-! ## The interval of decimals that read back -/

/-- Four times the significand: the unit in which both midpoints are integers. -/
def center (magnitude : Nat) : Nat := 4 * significand magnitude

/-- The midpoint to the next magnitude, in the unit of `center`. -/
def upper (magnitude : Nat) : Nat := center magnitude + 2

/-- The midpoint to the previous magnitude, which is nearer where the exponent changes. -/
def lower (magnitude : Nat) : Nat :=
  if magnitude % twoTo 52 = 0 ∧ twoTo 53 ≤ magnitude then center magnitude - 1
  else center magnitude - 2

/-- A decimal in the unit of `center`, as numerator and denominator. -/
def inUnits (magnitude : Nat) (d : Decimal) : Nat × Nat :=
  if d.exponent < 0 then
    (d.digits * twoTo 1076, tenTo (-d.exponent).toNat * twoTo (scaleOf magnitude))
  else (d.digits * tenTo d.exponent.toNat * twoTo 1076, twoTo (scaleOf magnitude))

/-- Whether a decimal rounds to the magnitude. -/
def readsBack (magnitude : Nat) (d : Decimal) : Bool :=
  let r := inUnits magnitude d
  if significand magnitude % 2 = 0 then
    decide (lower magnitude * r.2 ≤ r.1) && decide (r.1 ≤ upper magnitude * r.2)
  else decide (lower magnitude * r.2 < r.1) && decide (r.1 < upper magnitude * r.2)

/-! ## The search -/

/-- The largest decimal on the grid of `10 ^ exponent` that is not above the magnitude. -/
def gridFloor (magnitude : Nat) (exponent : Int) : Nat :=
  let r := ratio magnitude
  if exponent < 0 then r.1 * tenTo (-exponent).toNat / r.2 else r.1 / (r.2 * tenTo exponent.toNat)

/-- Of two neighbours on a grid the one nearer to the magnitude, the even one on a tie. -/
def nearer (magnitude : Nat) (below : Nat) (exponent : Int) : Nat :=
  let r := inUnits magnitude ⟨2 * below + 1, exponent⟩
  let twice := 2 * center magnitude * r.2
  if twice < r.1 then below
  else if r.1 < twice then below + 1
  else if below % 2 = 0 then below
  else below + 1

/-- The point that a grid offers for a magnitude. -/
def onGrid? (magnitude : Nat) (exponent : Int) : Option Decimal :=
  let below := gridFloor magnitude exponent
  match readsBack magnitude ⟨below, exponent⟩, readsBack magnitude ⟨below + 1, exponent⟩ with
  | true, true => some ⟨nearer magnitude below exponent, exponent⟩
  | true, false => some ⟨below, exponent⟩
  | false, true => some ⟨below + 1, exponent⟩
  | false, false => none

/-- The decimal that equals a magnitude: a power of two in the denominator is a power of five in the
numerator over one of ten. -/
def exactDecimal (magnitude : Nat) : Decimal :=
  ⟨(ratio magnitude).1 * Nat.pow 5 1074, -1074⟩

/-- Tries `count` grids, each ten times finer than the one before, and then gives all digits. -/
def searchGrids (magnitude : Nat) : Nat → Int → Decimal
  | 0, _ => exactDecimal magnitude
  | count + 1, exponent =>
    match onGrid? magnitude exponent with
    | some d => d
    | none => searchGrids magnitude count (exponent - 1)

/-- A grid that is coarser than a magnitude of the given binade. -/
def coarseGrid (binade : Int) : Int := Int.fdiv ((binade + 1) * 30103) 100000 + 1

/-- The shortest decimal that reads back to a positive magnitude. Seventeen digits always do, so
twenty grids are enough. -/
def shortest (magnitude : Nat) : Decimal :=
  let r := ratio magnitude
  searchGrids magnitude 20 (coarseGrid (binade r.1 r.2))

/-! ## Text -/

/-- Text of a decimal whose digits end in no zero: with the exponent `e` of its first digit it is
positional for `-5 ≤ e < 16`, and otherwise one digit, a fraction and a signed exponent. -/
def decimalText (d : Decimal) : List Char :=
  let ds := decimal d.digits
  let point : Int := ds.length + d.exponent
  if 0 ≤ d.exponent ∧ point ≤ 16 then
    ds ++ List.replicate d.exponent.toNat '0' ++ ['.', '0']
  else if 0 < point ∧ point ≤ 16 then
    ds.take point.toNat ++ '.' :: ds.drop point.toNat
  else if -5 < point ∧ point ≤ 0 then
    '0' :: '.' :: (List.replicate (-point).toNat '0' ++ ds)
  else
    let mark := 'e' :: (if point - 1 < 0 then signed (point - 1) else '+' :: signed (point - 1))
    match ds with
    | [] => mark
    | [c] => c :: mark
    | c :: cs => c :: '.' :: cs ++ mark

/-- The text of a number. -/
def text (x : Binary64) : List Char :=
  let body := if x.magnitude = 0 then ['0', '.', '0'] else decimalText (shortest x.magnitude)
  if x.negative then '-' :: body else body

end Binary64

end Tributary
