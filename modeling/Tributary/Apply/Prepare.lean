import Tributary.Apply.Session
import Tributary.Outcome
import Tributary.Routing.Route
import Tributary.Row.Deadline
import Tributary.Row.Mapping

/-!
# Preparation

A routed mutation is prepared before any row is touched: it is mapped into a row, the row's deadlines
are checked, and its key is found. A deletion needs nothing but a key.

* `Clock`: the time at which each mutation of a batch is prepared.
* `rowKey`: the values of the primary key columns, or the source key for a table without any.
* `prepare`: what a routed mutation will do, or why it is dropped.
-/

namespace Tributary

/-- The readings of the clock during a batch, by the numbers of the mutations that are prepared. -/
structure Clock where
  time : Nat → Instant

namespace Clock

/-- A clock that stands still. -/
def standing (now : Instant) : Clock := ⟨fun _ => now⟩

instance : Coe Instant Clock := ⟨standing⟩

instance : Inhabited Clock := ⟨standing default⟩

end Clock

/-- A routed mutation with the number of its outcome and its position in the batch. -/
structure Placed where
  number : Nat
  index : Nat
  routed : Routed
  deriving DecidableEq, Repr

/-- What a prepared mutation does to its row. -/
inductive RowAction where
  | upsert (row : MappedRow)
  | delete
  deriving DecidableEq, Repr

/-- A mutation that is ready for its row. -/
structure Prepared where
  placed : Placed
  key : RowKey
  action : RowAction
  deriving DecidableEq, Repr

/-- The mutation as it was routed. -/
def Prepared.mutation (p : Prepared) : Mutation := p.placed.routed.mutation

/-- The row of a prepared mutation. -/
def Prepared.row (p : Prepared) : RowId := ⟨p.placed.routed.table, p.key⟩

/-- What became of a mutation in preparation. -/
inductive Preparation where
  | ready (prepared : Prepared)
  | dropped (reason : DropReason)
  deriving DecidableEq, Repr

/-! ## Keys -/

/-- The value of a primary key column. -/
def keyColumn (schema : Schema) (row : Document) (column : String) : Result Value :=
  match row.get? column with
  | none | some .null => .error (.missingKeyColumn schema.name.text column)
  | some v => .ok v

/-- The key of a row. -/
def rowKey (schema : Schema) (row : Document) (m : Mutation) : Result RowKey :=
  match schema.primaryKey.mapM (keyColumn schema row) with
  | .error fault => .error fault
  | .ok (v :: vs) => .ok ⟨v :: vs⟩
  | .ok [] => if m.key.isEmpty then .error (.rowWithoutKey schema.name.text) else .ok ⟨m.key⟩

/-! ## Preparation -/

variable {σ : Type} [TargetStore σ]

/-- Prepares a mutation that carries a document. -/
def prepareUpsert (registry : Registry) (now : Instant) (placed : Placed) (data : Document) :
    Run σ Preparation := do
  let table := placed.routed.table
  let m := placed.routed.mutation
  let config := registry.table table
  let schema ← schemaOf table
  let mapped ←
    Run.fallible (mapRow config schema registry.options.functionTimeout data m.origin)
  match mapped with
  | none => return .dropped .discarded
  | some row =>
    match ← Deadline.check row.row now config.deadlines with
    | some _ => return .dropped .deadline
    | none =>
      let key ← rowKey schema row.row m
      return .ready ⟨placed, key, .upsert row⟩

/-- Prepares a routed mutation. -/
def prepare (registry : Registry) (clock : Clock) (placed : Placed) : Run σ Preparation :=
  match placed.routed.mutation.data with
  | some data => prepareUpsert registry (clock.time placed.number) placed data
  | none =>
    if placed.routed.mutation.key.isEmpty then
      throw (.deleteWithoutKey placed.routed.table.text)
    else return .ready ⟨placed, ⟨placed.routed.mutation.key⟩, .delete⟩

end Tributary
