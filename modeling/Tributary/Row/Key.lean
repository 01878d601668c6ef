import Tributary.Json.Printer
import Tributary.Table.Name

/-!
# Row keys

A row is known by the values of its primary key. Keys are the same when their canonical written
forms are: JSON in which an integral float is written as an integer.

* `RowKey.chars`: the canonical written form.
* `RowKey.same`: equality of keys.
* `RowId`: a key and the table that it belongs to.
-/

namespace Tributary

namespace Value

mutual

/-- The value with every number in canonical form. -/
def canonical : Value → Value
  | .number n => .number n.canonical
  | .array items => .array (canonicalItems items)
  | .document fields => .document (canonicalFields fields)
  | .null => .null
  | .bool b => .bool b
  | .string s => .string s

/-- `canonical` for all items of an array. -/
def canonicalItems : List Value → List Value
  | [] => []
  | v :: vs => canonical v :: canonicalItems vs

/-- `canonical` for all values of a list of properties. -/
def canonicalFields : List (String × Value) → List (String × Value)
  | [] => []
  | (n, v) :: rest => (n, canonical v) :: canonicalFields rest

end

end Value

/-- The values of a primary key. -/
structure RowKey where
  values : List Value
  deriving DecidableEq, Repr

namespace RowKey

/-- The canonical written form of a key. -/
def chars (key : RowKey) : List Char := (Value.array (Value.canonicalItems key.values)).chars

/-- The canonical written form as a string. -/
def text (key : RowKey) : String := String.ofList key.chars

/-- Keys are the same when their canonical written forms are. -/
def same (a b : RowKey) : Bool := a.chars == b.chars

/-- Whether the key has no values. -/
def isEmpty (key : RowKey) : Bool := key.values.isEmpty

end RowKey

/-- A row among all destination tables. -/
structure RowId where
  table : TableName
  key : RowKey
  deriving DecidableEq, Repr

namespace RowId

/-- Rows are the same when their tables and their keys are. -/
def same (a b : RowId) : Bool := a.table == b.table && a.key.same b.key

/-- The table name followed by the key. -/
def text (id : RowId) : String := id.table.text ++ id.key.text

end RowId

end Tributary
