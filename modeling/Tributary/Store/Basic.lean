import Tributary.Merge.Operation
import Tributary.Mutation.Basic
import Tributary.Row.Key
import Tributary.Table.Schema

/-!
# Target stores

A target store holds the destination tables and the dead-letter queues. Every write to a row gives it
a new version, and a write can demand the version that it is to replace.

* `ExpectedVersion.admits`: whether a demand is met; `ExpectedVersion.of` demands what was read.
* `DeadLetter`: a mutation that was parked, and why.
* `TargetStore`: what the engine asks of a store.
-/

namespace Tributary

/-! ## Rows and versions -/

/-- A row as it is stored. -/
structure StoredRow where
  data : Document
  version : Nat
  deriving DecidableEq, Repr

/-- The version that a write is to replace. -/
inductive ExpectedVersion where
  | any
  /-- The row must not exist. -/
  | absent
  /-- The row must exist in exactly this version. -/
  | exactly (version : Nat)
  deriving DecidableEq, Repr

namespace ExpectedVersion

/-- The demand that a row is still what was read. -/
def of : Option StoredRow → ExpectedVersion
  | none => absent
  | some row => exactly row.version

/-- Whether the current version meets a demand. -/
def admits : ExpectedVersion → Option Nat → Bool
  | any, _ => true
  | absent, none => true
  | exactly expected, some current => expected == current
  | _, _ => false

end ExpectedVersion

/-- What became of a write. -/
inductive WriteOutcome where
  | written
  /-- The row was not in the expected version. Nothing was written. -/
  | versionMismatch
  deriving DecidableEq, Repr

/-- What a write brings to a row. Columns that it leaves out keep their values. -/
structure RowWrite where
  data : Document
  /-- Expressions by column, ascending; `$0` stands for the value of the column. -/
  exprs : List (String × String)
  deriving DecidableEq, Repr

/-! ## Dead letters -/

/-- A mutation that was parked in a dead-letter queue. -/
structure DeadLetter where
  queue : String
  source : String
  /-- The destination, where it was known. -/
  table : Option TableName
  mutation : Mutation
  /-- The merge that the mutation was part of. -/
  operation : Option MergeOperation
  /-- What failed, unless a merge decided to park the mutation. -/
  error : Option String
  deriving DecidableEq, Repr

namespace DeadLetter

/-- A property that is left out where it is absent. -/
def optionalField (name : String) (value : Option Value) : List (String × Value) :=
  (value.map fun v => (name, v)).toList

/-- The properties of a dead letter. -/
def fields (letter : DeadLetter) : List (String × Value) :=
  let m := letter.mutation
  [("queue", .string letter.queue), ("source", .string letter.source),
   ("kind", .string m.kind.name), ("key", .array m.key), ("time", .string m.time.text),
   ("data", (m.data.map Document.toValue).getD .null), ("meta", m.origin.toValue)] ++
  optionalField "table" (letter.table.map fun table => .string table.text) ++
  optionalField "before" (m.before.map Document.toValue) ++
  optionalField "operation" (letter.operation.map MergeOperation.toValue) ++
  optionalField "error" (letter.error.map Value.string)

/-- A dead letter as a value. -/
def toValue (letter : DeadLetter) : Value := (Document.ofList letter.fields).toValue

end DeadLetter

/-! ## Stores -/

/-- An operation on a store: its result, and the store behind it. -/
abbrev StoreAction (σ α : Type) := σ → Result α × σ

/-- What the engine asks of a store. -/
class TargetStore (σ : Type) where
  /-- The shape of a table, if the table exists. -/
  tableSchema : TableName → StoreAction σ (Option Schema)
  /-- The current row, if it exists. -/
  readRow : RowId → StoreAction σ (Option StoredRow)
  /-- Writes a row if it is in the expected version. -/
  writeRow : RowId → RowWrite → ExpectedVersion → StoreAction σ WriteOutcome
  /-- Deletes a row. A row that does not exist is deleted already. -/
  deleteRow : RowId → StoreAction σ Unit
  /-- Adds a dead letter to its queue. -/
  park : DeadLetter → StoreAction σ Unit

end Tributary
