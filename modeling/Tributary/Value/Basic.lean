import Tributary.Number.Basic

/-!
# Values

A value is what one property of a document holds. Documents list their properties under ascending
names; `Document` is the type whose top level is known to be so, and `Value.Ordered` says it of
every level of a value.

* `Value.same`: equality in which numbers count by value.
* `Value.typeName`: the name of a value's type in messages.
-/

namespace Tributary

/-- Any value that JSON can express. -/
inductive Value where
  | null
  | bool (b : Bool)
  | number (n : Number)
  | string (s : String)
  | array (items : List Value)
  | document (fields : List (String × Value))
  deriving Repr, Inhabited

namespace Value

/-! ## Decidable equality -/

mutual

/-- Whether two values are identical, number classes included. -/
def decEq : (a b : Value) → Decidable (a = b)
  | .null, .null => isTrue rfl
  | .bool a, .bool b => decidable_of_iff (a = b) (by simp)
  | .number a, .number b => decidable_of_iff (a = b) (by simp)
  | .string a, .string b => decidable_of_iff (a = b) (by simp)
  | .array a, .array b =>
    match decEqItems a b with
    | isTrue h => isTrue (by rw [h])
    | isFalse h => isFalse (by simpa using h)
  | .document a, .document b =>
    match decEqFields a b with
    | isTrue h => isTrue (by rw [h])
    | isFalse h => isFalse (by simpa using h)
  | .null, .bool _ | .null, .number _ | .null, .string _ | .null, .array _ | .null, .document _
  | .bool _, .null | .bool _, .number _ | .bool _, .string _ | .bool _, .array _
  | .bool _, .document _ | .number _, .null | .number _, .bool _ | .number _, .string _
  | .number _, .array _ | .number _, .document _ | .string _, .null | .string _, .bool _
  | .string _, .number _ | .string _, .array _ | .string _, .document _ | .array _, .null
  | .array _, .bool _ | .array _, .number _ | .array _, .string _ | .array _, .document _
  | .document _, .null | .document _, .bool _ | .document _, .number _ | .document _, .string _
  | .document _, .array _ => isFalse (by simp)

/-- `decEq` on the items of two arrays. -/
def decEqItems : (a b : List Value) → Decidable (a = b)
  | [], [] => isTrue rfl
  | [], _ :: _ | _ :: _, [] => isFalse (by simp)
  | a :: as, b :: bs =>
    match decEq a b, decEqItems as bs with
    | isTrue h, isTrue hs => isTrue (by rw [h, hs])
    | isFalse h, _ => isFalse (by simp [h])
    | _, isFalse hs => isFalse (by simp [hs])

/-- `decEq` on the properties of two documents. -/
def decEqFields : (a b : List (String × Value)) → Decidable (a = b)
  | [], [] => isTrue rfl
  | [], _ :: _ | _ :: _, [] => isFalse (by simp)
  | (n, a) :: as, (m, b) :: bs =>
    match decEq a b, decEqFields as bs with
    | isTrue h, isTrue hs => decidable_of_iff (n = m) (by simp [h, hs])
    | isFalse h, _ => isFalse (by simp [h])
    | _, isFalse hs => isFalse (by simp [hs])

end

instance : DecidableEq Value := decEq

/-! ## Equality of values -/

mutual

/-- Whether two values are equal, numbers by what they denote. -/
def same : Value → Value → Bool
  | .null, .null => true
  | .bool a, .bool b => a == b
  | .number a, .number b => a.same b
  | .string a, .string b => a == b
  | .array a, .array b => sameItems a b
  | .document a, .document b => sameFields a b
  | _, _ => false

/-- `same` item by item. -/
def sameItems : List Value → List Value → Bool
  | [], [] => true
  | a :: as, b :: bs => same a b && sameItems as bs
  | _, _ => false

/-- `same` property by property, under the same names in the same order. -/
def sameFields : List (String × Value) → List (String × Value) → Bool
  | [], [] => true
  | (n, a) :: as, (m, b) :: bs => n == m && same a b && sameFields as bs
  | _, _ => false

end

/-! ## Views -/

/-- The name of a value's type in messages. -/
def typeName : Value → String
  | .null => "null"
  | .bool _ => "boolean"
  | .number _ => "number"
  | .string _ => "string"
  | .array _ => "array"
  | .document _ => "document"

/-- Whether the value is null. -/
def isNull : Value → Bool
  | .null => true
  | _ => false

/-- Whether the value is a document. -/
def isDocument : Value → Bool
  | .document _ => true
  | _ => false

/-- The text of a string value. -/
def asString? : Value → Option String
  | .string s => some s
  | _ => none

/-- A number as the nearest binary64 number. -/
def asBinary64? : Value → Option Binary64
  | .number n => some n.toBinary64
  | _ => none

/-! ## Ascending names -/

/-- Names ascend strictly, in the order of code points. -/
def Ascending (fields : List (String × Value)) : Prop :=
  fields.Pairwise fun a b => a.1 < b.1

instance (fields : List (String × Value)) : Decidable (Ascending fields) :=
  inferInstanceAs (Decidable (fields.Pairwise _))

mutual

/-- Every document inside the value lists its properties under ascending names. -/
def Ordered : Value → Prop
  | .array items => OrderedItems items
  | .document fields => Ascending fields ∧ OrderedFields fields
  | .null | .bool _ | .number _ | .string _ => True

/-- `Ordered` for all items of an array. -/
def OrderedItems : List Value → Prop
  | [] => True
  | v :: vs => Ordered v ∧ OrderedItems vs

/-- `Ordered` for all values of a list of properties. -/
def OrderedFields : List (String × Value) → Prop
  | [] => True
  | (_, v) :: rest => Ordered v ∧ OrderedFields rest

end

end Value

end Tributary
