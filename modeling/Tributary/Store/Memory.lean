import Tributary.Keyed
import Tributary.Store.Basic

/-!
# Stores in memory

A store that holds everything in finite maps. Rows are addressed by the canonical form of their keys.
Expressions are kept beside the row to which they were written and are not evaluated.

* `MemoryStore.stored?`, `MemoryStore.rowExprs`: the views of one row. What an operation does to them
  is stated by `stored?_putRow`, `stored?_putExprs`, `rowExprs_putExprs` and the like.
* `MemoryStore.rows`: the rows of a table, ascending by key.
* `MemoryStore.writeRow`: a write uses up a version number whether or not it succeeds.
-/

namespace Tributary

/-- The place of a row. Equal keys have one place. -/
structure RowAddress where
  table : TableName
  key : List Char
  deriving DecidableEq, Repr

/-- The place of a row that is known by its key. -/
def RowId.address (id : RowId) : RowAddress := ⟨id.table, id.key.chars⟩

/-- A store in memory. -/
structure MemoryStore where
  schemas : Keyed TableName Schema
  stored : Keyed RowAddress StoredRow
  exprs : Keyed RowAddress (List (String × String))
  letters : List DeadLetter
  /-- The last version number that was used. -/
  lastVersion : Nat
  deriving Repr

namespace MemoryStore

/-- A store without tables. -/
def empty : MemoryStore := ⟨.empty, .empty, .empty, [], 0⟩

instance : Inhabited MemoryStore := ⟨empty⟩

/-! ## Views -/

/-- A row with its version. -/
def stored? (s : MemoryStore) (id : RowId) : Option StoredRow := s.stored.get? id.address

/-- A row. -/
def row? (s : MemoryStore) (id : RowId) : Option Document := (s.stored? id).map StoredRow.data

/-- The expressions of the last write to a row. -/
def rowExprs (s : MemoryStore) (id : RowId) : List (String × String) :=
  (s.exprs.get? id.address).getD []

/-- The rows of a table, ascending by key. -/
def rows (s : MemoryStore) (table : TableName) : List Document :=
  let entries := s.stored.entries.filter fun e => e.1.table = table
  let sorted := entries.mergeSort fun a b => (List.compareLex compare a.1.key b.1.key).isLE
  sorted.map fun e => e.2.data

/-- The dead letters of one queue. -/
def queue (s : MemoryStore) (name : String) : List DeadLetter :=
  s.letters.filter fun letter => letter.queue == name

/-- Whether a table exists. -/
def hasTable (s : MemoryStore) (table : TableName) : Bool := s.schemas.contains table

/-! ## Operations -/

/-- Creates a table, or replaces its shape and keeps its rows. -/
def createTable (s : MemoryStore) (schema : Schema) : MemoryStore :=
  { s with schemas := s.schemas.put schema.name schema }

/-- Uses up a version number. -/
def advance (s : MemoryStore) : MemoryStore := { s with lastVersion := s.lastVersion + 1 }

/-- Sets the row at a place, in the last version. -/
def putRow (s : MemoryStore) (id : RowId) (data : Document) : MemoryStore :=
  { s with stored := s.stored.put id.address ⟨data, s.lastVersion⟩ }

/-- Records the expressions of a write. -/
def putExprs (s : MemoryStore) (id : RowId) (exprs : List (String × String)) : MemoryStore :=
  if exprs.isEmpty then { s with exprs := s.exprs.drop id.address }
  else { s with exprs := s.exprs.put id.address exprs }

theorem stored?_putRow (s : MemoryStore) (id other : RowId) (data : Document) :
    (s.putRow id data).stored? other =
      if other.address = id.address then some ⟨data, s.lastVersion⟩ else s.stored? other :=
  Keyed.get?_put ..

theorem stored?_putExprs (s : MemoryStore) (id other : RowId) (exprs : List (String × String)) :
    (s.putExprs id exprs).stored? other = s.stored? other := by
  unfold putExprs
  split <;> rfl

theorem rowExprs_putExprs (s : MemoryStore) (id other : RowId) (exprs : List (String × String)) :
    (s.putExprs id exprs).rowExprs other =
      if other.address = id.address then exprs else s.rowExprs other := by
  unfold putExprs rowExprs
  split
  · rename_i h
    rw [Keyed.get?_drop]
    by_cases ho : other.address = id.address
    · simp [ho, List.isEmpty_iff.1 h]
    · simp [ho]
  · rw [Keyed.get?_put]
    by_cases ho : other.address = id.address <;> simp [ho]

/-- Stores a row whatever was there before, and answers with its version. -/
def insertRow (id : RowId) (data : Document) : StoreAction MemoryStore Nat := fun s =>
  let s := s.advance
  if s.hasTable id.table then (.ok s.lastVersion, s.putRow id data)
  else (.error (.tableNotInStore id.table.text), s)

/-- Writes a row over the one that is there, if it is in the expected version. -/
def writeRow (id : RowId) (write : RowWrite) (expected : ExpectedVersion) :
    StoreAction MemoryStore WriteOutcome := fun s =>
  let s := s.advance
  if s.hasTable id.table then
    let current := s.stored? id
    if expected.admits (current.map StoredRow.version) then
      let base := (current.map StoredRow.data).getD .empty
      (.ok .written, (s.putRow id (base.overlay write.data)).putExprs id write.exprs)
    else (.ok .versionMismatch, s)
  else (.error (.tableNotInStore id.table.text), s)

/-- Deletes a row and its expressions. -/
def deleteRow (id : RowId) : StoreAction MemoryStore Unit := fun s =>
  if s.hasTable id.table then
    (.ok (), { s with stored := s.stored.drop id.address, exprs := s.exprs.drop id.address })
  else (.error (.tableNotInStore id.table.text), s)

/-- Adds a dead letter behind all others. -/
def park (letter : DeadLetter) : StoreAction MemoryStore Unit := fun s =>
  (.ok (), { s with letters := s.letters ++ [letter] })

/-- Removes all rows, expressions and dead letters. Tables stay, and versions go on. -/
def clear (s : MemoryStore) : MemoryStore :=
  { s with stored := .empty, exprs := .empty, letters := [] }

@[simp] theorem stored?_clear (s : MemoryStore) (id : RowId) : s.clear.stored? id = none := rfl

@[simp] theorem rowExprs_clear (s : MemoryStore) (id : RowId) : s.clear.rowExprs id = [] := rfl

instance : TargetStore MemoryStore where
  tableSchema table s := (.ok (s.schemas.get? table), s)
  readRow id s := (.ok (s.stored? id), s)
  writeRow := writeRow
  deleteRow := deleteRow
  park := park

end MemoryStore

end Tributary
