import Tributary.Row.Key

/-!
# Outcomes

What became of each change of a batch.

* `Disposition`: applied, deleted, parked in a dead-letter queue, or dropped for a reason.
* `Outcome`: the disposition of a change, with its place in the batch, its table and its row where
  these are known.
-/

namespace Tributary

/-- Why a change was discarded without a dead letter. -/
inductive DropReason where
  /-- A user function returned null. -/
  | discarded
  /-- A deadline had passed. -/
  | deadline
  /-- The stored row is not older and no merge is configured. -/
  | stale
  /-- The merge chose to drop it. -/
  | mergeDropped
  /-- It cannot be represented. -/
  | invalid
  deriving DecidableEq, Repr

namespace DropReason

/-- All reasons. -/
def all : List DropReason := [discarded, deadline, stale, mergeDropped, invalid]

/-- The name of a reason. -/
def name : DropReason → String
  | discarded => "discarded"
  | deadline => "deadline"
  | stale => "stale"
  | mergeDropped => "merge_dropped"
  | invalid => "invalid"

end DropReason

/-- What happened to a change. -/
inductive Disposition where
  | applied
  | deleted
  | parked (queue : String)
  | dropped (reason : DropReason)
  deriving DecidableEq, Repr

/-- The outcome of one change. -/
structure Outcome where
  /-- The position of the source mutation in its batch. -/
  index : Nat
  table : Option TableName
  key : Option RowKey
  disposition : Disposition
  deriving DecidableEq, Repr

namespace Outcome

/-- Whether the row was written. -/
def isApplied (o : Outcome) : Bool := o.disposition == .applied

/-- Whether the change was discarded. -/
def isDropped (o : Outcome) : Bool :=
  match o.disposition with
  | .dropped _ => true
  | _ => false

/-- The dead-letter queue that the change went to. -/
def queue? (o : Outcome) : Option String :=
  match o.disposition with
  | .parked queue => some queue
  | _ => none

end Outcome

end Tributary
