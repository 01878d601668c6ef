import Tributary.Row.Key

/-!
# Row locks

Work on rows is serialized by locks. Each row belongs to one of a fixed number of shards, and who
holds a shard holds all of its rows.

* `RowLocks.shardOf`: equal rows have one shard.
* `RowLocks.tryLock`, `RowLocks.release`: taking and giving back the shard of a row.
-/

namespace Tributary

/-- Locks for rows. There is at least one shard. -/
structure RowLocks where
  shards : Nat
  positive : 0 < shards
  /-- The shards that are held. -/
  held : List Nat

namespace RowLocks

/-- Free locks. -/
def ofShards (shards : Nat) : RowLocks := ⟨max shards 1, by omega, []⟩

/-- A number for a text. -/
def digest (cs : List Char) : Nat := cs.foldl (fun n c => (n * 31 + c.toNat) % 4294967296) 0

/-- The shard of a row, found by its table and the canonical form of its key. -/
def shardOf (locks : RowLocks) (row : RowId) : Nat :=
  digest (row.table.chars ++ row.key.chars) % locks.shards

/-- Whether a row can be locked now. -/
def isFree (locks : RowLocks) (row : RowId) : Bool := !locks.held.contains (locks.shardOf row)

/-- Locks a row if that is possible without waiting. -/
def tryLock (locks : RowLocks) (row : RowId) : Option RowLocks :=
  if locks.isFree row then some { locks with held := locks.shardOf row :: locks.held } else none

/-- Gives back the lock of a row. -/
def release (locks : RowLocks) (row : RowId) : RowLocks :=
  { locks with held := locks.held.erase (locks.shardOf row) }

end RowLocks

end Tributary
