import Tributary.Apply.Failure
import Tributary.Apply.Prepare
import Tributary.Merge.Resolve

/-!
# Upserts

On a table with compare-and-set columns a row is read, merged with what was read, and written back
under the demand that it did not change in between. If it did, all of this is done again, a limited
number of times. On other tables rows are written whatever is stored.

The row before the change is mapped only when a merge needs it, and then once.

* `decideWrite`: what to write after reading, or what became of the mutation without a write.
* `upsertWithin`: up to a number of attempts.
-/

namespace Tributary

/-- What is known about the row before the change: nothing as long as no merge has needed it, else
the row that mapping made of it, if it was not discarded. -/
abbrev MappedBefore := Option (Option Document)

/-- What follows from reading the stored row. -/
inductive Decision where
  | write (data : Document) (expected : ExpectedVersion)
  | settled (disposition : Disposition)
  deriving DecidableEq, Repr

/-- Whether a merge needs the row before the change. -/
def needsBefore (config : TableConfig) (proposed : Document) (target : Option Document) : Bool :=
  config.merge.isSome && target.any fun target => conflicts config.cas proposed target

variable {σ : Type} [TargetStore σ]

/-- The row that mapping makes of the row before the change. -/
def mapBefore (registry : Registry) (p : Prepared) (before : Document) :
    Run σ (Option Document) := do
  let table := p.row.table
  let schema ← schemaOf table
  let mapped ← Run.fallible
    (mapRow (registry.table table) schema registry.options.functionTimeout before
      p.mutation.origin)
  return mapped.map MappedRow.row

/-- Maps the row before the change if it is needed and not mapped yet. -/
def refreshBefore (registry : Registry) (p : Prepared) (proposed : Document)
    (target : Option Document) (known : MappedBefore) : Run σ MappedBefore := do
  match known, p.mutation.before with
  | none, some before =>
    if needsBefore (registry.table p.row.table) proposed target then
      let mapped ← mapBefore registry p before
      return some mapped
    else return none
  | _, _ => return known

/-- Turns the resolution of a proposal into a decision. -/
def decideResolution (registry : Registry) (source : String) (p : Prepared)
    (current : Option StoredRow) : Resolution → Run σ Decision
  | .apply data => return .write data (.of current)
  | .park queue operation => do
    park ⟨queue, source, some p.row.table, p.mutation, some operation, none⟩
    return .settled (.parked queue)
  | .drop reason _ => return .settled (.dropped reason)
  | .failed fault operation => do
    let disposition ← handleFailure registry.options source (some p.row.table) p.mutation
      (some operation) fault
    return .settled disposition

/-- Reads the stored row of a table with compare-and-set columns and decides. -/
def decideCas (registry : Registry) (source : String) (p : Prepared) (proposed : Document)
    (known : MappedBefore) : Run σ (Decision × MappedBefore) := do
  let config := registry.table p.row.table
  let current ← Run.store (TargetStore.readRow p.row)
  let target := current.map StoredRow.data
  let before ← refreshBefore registry p proposed target known
  let resolution ← Run.logged
    (resolve config registry.options.functionTimeout
      ⟨p.row.table, proposed, before.join, p.mutation.origin⟩ target)
  let decision ← decideResolution registry source p current resolution
  return (decision, before)

/-- What to write. -/
def decideWrite (registry : Registry) (source : String) (p : Prepared) (proposed : Document)
    (known : MappedBefore) : Run σ (Decision × MappedBefore) :=
  if (registry.table p.row.table).isCas then decideCas registry source p proposed known
  else return (.write proposed .any, known)

/-- Applies an upsert in at most so many attempts out of a total. -/
def upsertWithin (registry : Registry) (source : String) (p : Prepared) (row : MappedRow)
    (total : Nat) : (attempts : Nat) → MappedBefore → Run σ Disposition
  | 0, _ => throw (.keepsChanging p.row.table.text p.row.key.text total)
  | attempts + 1, known => do
    match ← decideWrite registry source p row.row known with
    | (.settled disposition, _) => return disposition
    | (.write data expected, known) =>
      match ← Run.store (TargetStore.writeRow p.row ⟨data, row.exprs⟩ expected) with
      | .written => return .applied
      | .versionMismatch => upsertWithin registry source p row total attempts known

/-- Applies an upsert, in as many attempts as the options leave. -/
def applyUpsert (registry : Registry) (source : String) (p : Prepared) (row : MappedRow) :
    Run σ Disposition :=
  upsertWithin registry source p row registry.options.attempts registry.options.attempts none

/-- Applies a prepared mutation. -/
def applyPrepared (registry : Registry) (source : String) (p : Prepared) : Run σ Disposition :=
  match p.action with
  | .upsert row => applyUpsert registry source p row
  | .delete => do
    Run.store (TargetStore.deleteRow p.row)
    return .deleted

end Tributary
