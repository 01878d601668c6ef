import Tributary.Number.Shortest

/-!
# Numbers of documents

A number keeps the class in which it was written: an integer of the signed or the unsigned 64-bit
range, or a finite binary64 number.

* `Number.same`: equality of values across the classes, so `1` and `1.0` are the same number.
* `Number.order`: the order of values; two floats, or a float and an integer, compare as binary64
  numbers in the total order, where negative zero lies below zero.
* `Number.canonical`: an integral float inside the signed range becomes an integer.
-/

namespace Tributary

open Text

/-- An integer or a float. -/
inductive Number where
  | integer (n : Int) (bounded : -9223372036854775808 ≤ n ∧ n < 18446744073709551616)
  | float (x : Binary64)
  deriving DecidableEq, Repr

namespace Number

instance : Inhabited Number := ⟨.integer 0 (by decide)⟩

/-- The integer as a number, if one of the two 64-bit ranges holds it. -/
def ofInt? (n : Int) : Option Number :=
  if h : -9223372036854775808 ≤ n ∧ n < 18446744073709551616 then some (.integer n h) else none

/-- A natural number below `2 ^ 64`; larger ones become floats. -/
def ofNat (n : Nat) : Number := (ofInt? n).getD (.float (.ofInt n))

/-- The nearest binary64 number. -/
def toBinary64 : Number → Binary64
  | .integer n _ => .ofInt n
  | .float x => x

/-- Equality of values. -/
def same : Number → Number → Bool
  | .integer a _, .integer b _ => a == b
  | a, b => a.toBinary64.rank == b.toBinary64.rank

/-- Order of values. -/
def order : Number → Number → Ordering
  | .integer a _, .integer b _ => compare a b
  | a, b => compare a.toBinary64.totalRank b.toBinary64.totalRank

/-- The text of a number: the digits of an integer, or the shortest text of a float. -/
def text : Number → List Char
  | .integer n _ => signed n
  | .float x => x.text

/-- The integer that a float denotes, if it is integral and in the signed range. -/
def integral? (x : Binary64) : Option Number :=
  if x.isIntegral ∧ -9223372036854775808 ≤ x.floor ∧ x.floor < 9223372036854775808 then ofInt? x.floor else none

/-- The same value, written as an integer where the signed range allows it. -/
def canonical : Number → Number
  | .integer n h => .integer n h
  | .float x => (integral? x).getD (.float x)

end Number

end Tributary
