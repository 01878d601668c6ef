import Tributary.Clock.Timestamp
import Tributary.Json.Printer

/-!
# Order of compare-and-set columns

A table can name columns whose values tell which of two versions of a row is newer. This module
orders such values, tuples of them, and says when a proposed row conflicts with the stored one.

* `Value.order`: null, booleans, numbers, strings, arrays and documents in this order; numbers by
  value, strings as time where both read as time, arrays item by item, documents by their text.
* `casOrder`: the first column in which two rows differ decides.
* `conflicts`: a proposal conflicts unless it repeats part of the stored row or is newer.
-/

namespace Tributary

/-! ## Values -/

/-- Strings compare as clock readings if both are such, else as instants if both are such, and else
by their characters. -/
def stringOrder (a b : String) : Ordering :=
  match Hlc.ofDotted? a.toList, Hlc.ofDotted? b.toList with
  | some x, some y => x.order y
  | _, _ =>
    match Timestamp.parse? a, Timestamp.parse? b with
    | some x, some y => x.order y
    | _, _ => compare a b

namespace Value

/-- The place of a value's type in the order. -/
def rank : Value → Nat
  | .null => 0
  | .bool _ => 1
  | .number _ => 2
  | .string _ => 3
  | .array _ => 4
  | .document _ => 5

mutual

/-- The order of values. -/
def order : Value → Value → Ordering
  | .null, .null => .eq
  | .bool a, .bool b => compare a b
  | .number a, .number b => a.order b
  | .string a, .string b => stringOrder a b
  | .array a, .array b => itemOrder a b
  | .document a, .document b => compare (text (.document a)) (text (.document b))
  | a, b => compare a.rank b.rank

/-- Arrays compare item by item; of two that agree as far as the shorter goes, it comes first. -/
def itemOrder : List Value → List Value → Ordering
  | [], [] => .eq
  | [], _ :: _ => .lt
  | _ :: _, [] => .gt
  | a :: as, b :: bs => (order a b).then (itemOrder as bs)

end

end Value

/-- The order of values that may be missing; a missing value counts as null. -/
def valueOrder (a b : Option Value) : Ordering := (a.getD .null).order (b.getD .null)

/-! ## Rows -/

/-- Compares two rows by columns, in the order in which these are given. -/
def casOrder (columns : List String) (a b : Document) : Ordering :=
  match columns with
  | [] => .eq
  | column :: rest => (valueOrder (a.get? column) (b.get? column)).then (casOrder rest a b)

/-- Whether a proposed row neither repeats part of the stored row nor is newer. -/
def conflicts (columns : List String) (proposed target : Document) : Bool :=
  !proposed.subsetOf target && casOrder columns proposed target != .gt

end Tributary
