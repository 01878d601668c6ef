import Tributary.Apply.Session
import Tributary.Fault.Remedy

/-!
# Reports and failures

How the engine reports what became of a mutation, and what it does with one that failed.

* `report`: an outcome, which is counted.
* `handleFailure`: the mutation is parked in the default queue with the text of its fault, dropped as
  invalid, or stops the batch, as the kind of the fault demands.
-/

namespace Tributary

variable {σ : Type} [TargetStore σ]

/-- An outcome, counted under its table. -/
def report (index : Nat) (table : Option TableName) (key : Option RowKey)
    (disposition : Disposition) : Run σ Outcome := do
  Run.logged (Logged.count (.ofDisposition table disposition))
  return ⟨index, table, key, disposition⟩

/-- Parks a mutation. -/
def park (letter : DeadLetter) : Run σ Unit := Run.store (TargetStore.park letter)

/-- Disposes of a mutation that failed. -/
def handleFailure (options : Options) (source : String) (table : Option TableName) (m : Mutation)
    (operation : Option MergeOperation) (fault : Fault) : Run σ Disposition := do
  match fault.action with
  | .stop => throw fault
  | .drop => return .dropped .invalid
  | .park =>
    park ⟨options.defaultDlq, source, table, m, operation, some fault.text⟩
    return .parked options.defaultDlq

end Tributary
