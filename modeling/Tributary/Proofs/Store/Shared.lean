import Tributary.Proofs.Store.Versions

/-!
# Stores that others use as well

Between two operations of the engine others may write, delete and insert rows, so that a row that was read
may have changed before it is written. As long as nobody changes tables, no operation on the rows of a table
that exists is a fault.

* `SharedStore`: a store in memory with what others do before each operation of the engine.
* `SharedStore.OnRows.schemas_turned`: tables are not changed.
* `MemoryStore.writeRow_ok`, `MemoryStore.deleteRow_ok`.
-/

namespace Tributary

/-- A store in memory that others use at the same time: they have one turn before each operation. -/
structure SharedStore where
  inner : MemoryStore
  turns : List (List StoreOp)

namespace SharedStore

/-- The store within behind the next turn of the others. -/
def turned (s : SharedStore) : MemoryStore := StoreOp.runAll (s.turns.headD []) s.inner

/-- Runs an operation behind the next turn of the others. -/
def inTurn {α : Type} (action : StoreAction MemoryStore α) : StoreAction SharedStore α := fun s =>
  ((action s.turned).1, ⟨(action s.turned).2, s.turns.tail⟩)

instance : TargetStore SharedStore where
  tableSchema table := inTurn (TargetStore.tableSchema table)
  readRow id := inTurn (TargetStore.readRow id)
  writeRow id write expected := inTurn (TargetStore.writeRow id write expected)
  deleteRow id := inTurn (TargetStore.deleteRow id)
  park letter := inTurn (TargetStore.park letter)

end SharedStore

namespace StoreOp

/-- An operation on rows and letters only. -/
def KeepsTables (op : StoreOp) : Prop := ∀ schema, op ≠ .createTable schema

theorem schemas_run {op : StoreOp} (h : op.KeepsTables) (s : MemoryStore) :
    (op.run s).schemas = s.schemas := by
  cases op with
  | createTable schema => exact absurd rfl (h schema)
  | write id w expected => exact MemoryStore.schemas_writeRow ..
  | delete id => exact MemoryStore.schemas_deleteRow ..
  | insert id data => exact MemoryStore.schemas_insertRow ..
  | park letter => rfl
  | clear => rfl

theorem schemas_runAll {ops : List StoreOp} (h : ∀ op ∈ ops, op.KeepsTables) (s : MemoryStore) :
    (runAll ops s).schemas = s.schemas := by
  induction ops generalizing s with
  | nil => rfl
  | cons op ops ih =>
    rw [runAll_cons, ih fun other hother => h other (List.mem_cons_of_mem op hother)]
    exact schemas_run (h op List.mem_cons_self) s

end StoreOp

namespace MemoryStore

theorem hasTable_of_schemas {s t : MemoryStore} (h : t.schemas = s.schemas) (table : TableName) :
    t.hasTable table = s.hasTable table := by
  unfold hasTable
  rw [h]

/-- A write to a table that exists is not a fault, whether or not it finds the version that it expects. -/
theorem writeRow_ok {id : RowId} {s : MemoryStore} (h : s.hasTable id.table = true) (w : RowWrite)
    (expected : ExpectedVersion) : ∃ outcome, (writeRow id w expected s).1 = .ok outcome := by
  rcases writeRow_cases id w expected s with ⟨-, -, hw, -⟩ | ⟨-, -, hw⟩ | ⟨hmissing, -⟩
  · exact ⟨_, hw⟩
  · exact ⟨_, congrArg Prod.fst hw⟩
  · rw [h] at hmissing
    cases hmissing

theorem deleteRow_ok {id : RowId} {s : MemoryStore} (h : s.hasTable id.table = true) :
    (deleteRow id s).1 = .ok () := by
  unfold deleteRow
  rw [if_pos h]

end MemoryStore

namespace SharedStore

/-- What the others do is done to rows and letters only. -/
def OnRows (s : SharedStore) : Prop := ∀ turn ∈ s.turns, ∀ op ∈ turn, op.KeepsTables

theorem OnRows.schemas_turned {s : SharedStore} (h : s.OnRows) : s.turned.schemas = s.inner.schemas := by
  refine StoreOp.schemas_runAll ?_ s.inner
  cases hturns : s.turns with
  | nil => exact fun _ hop => absurd hop List.not_mem_nil
  | cons turn rest => exact h turn (hturns ▸ List.mem_cons_self)

theorem OnRows.inTurn {s : SharedStore} (h : s.OnRows) {α : Type} (action : StoreAction MemoryStore α) :
    (inTurn action s).2.OnRows := fun turn hturn => h turn (List.mem_of_mem_tail hturn)

end SharedStore

end Tributary
