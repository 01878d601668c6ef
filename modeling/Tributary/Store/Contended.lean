import Tributary.Store.Memory

/-!
# Contended stores

A store with another writer that gets in between the engine's read of a row and its write: the first
writes that expect an exact version find that the row has changed.

* `ContendedStore.interfere`: what the other writer does before such a write.
-/

namespace Tributary

/-- A store in memory with another writer. -/
structure ContendedStore where
  inner : MemoryStore
  /-- How many times the other writer will still interfere. -/
  races : Nat
  /-- What it writes over a row. -/
  interference : Document
  deriving Repr

namespace ContendedStore

/-- Runs an operation on the store within. -/
def within {α : Type} (action : StoreAction MemoryStore α) : StoreAction ContendedStore α := fun s =>
  let result := action s.inner
  (result.1, { s with inner := result.2 })

/-- Lets the other writer go first if a write expects an exact version of a row that exists. -/
def interfere (id : RowId) (expected : ExpectedVersion) : StoreAction ContendedStore Unit := fun s =>
  match expected, s.inner.row? id, s.races with
  | .exactly _, some current, races + 1 =>
    let result := MemoryStore.insertRow id (current.overlay s.interference) s.inner
    (result.1.map fun _ => (), { s with inner := result.2, races := races })
  | _, _, _ => (.ok (), s)

/-- Writes a row, perhaps behind the other writer. -/
def writeRow (id : RowId) (write : RowWrite) (expected : ExpectedVersion) :
    StoreAction ContendedStore WriteOutcome := fun s =>
  match interfere id expected s with
  | (.ok (), s) => within (MemoryStore.writeRow id write expected) s
  | (.error fault, s) => (.error fault, s)

instance : TargetStore ContendedStore where
  tableSchema table := within (TargetStore.tableSchema table)
  readRow id := within (TargetStore.readRow id)
  writeRow := writeRow
  deleteRow id := within (MemoryStore.deleteRow id)
  park letter := within (MemoryStore.park letter)

end ContendedStore

end Tributary
