import Tributary.Merge.Operation

/-!
# User functions

User functions are total: each call takes some time and then ends with a value, a fault or a panic.

* `Reply`: what a call comes to.
* `RowFunction`, `MergeFunction`: the functions that a script can give.
* `Call`: a call that was made, with what it was given.
-/

namespace Tributary

/-- How a call of a user function ends. -/
inductive Ending where
  | value (v : Value)
  | fault (fault : Fault)
  /-- What the runtime reports of a panic: its message, and the number of the task that the call ran in, which is
  another one for every call. Here a function has one report for the same arguments, so nothing is to be read from
  equal reports: what compares runs does so up to an arbitrary relation of reports. -/
  | panic (report : String)
  deriving Repr

/-- A call of a user function: the milliseconds it takes, and how it ends. -/
structure Reply where
  millis : Nat
  ending : Ending
  deriving Repr

/-- A function of a document and of the origin of its change: a dispatch or a map function. -/
abbrev RowFunction := Document → Document → Reply

/-- A function that resolves conflicts. -/
abbrev MergeFunction := MergeOperation → Reply

/-- The kinds of user functions. -/
inductive FunctionKind where
  | dispatch
  | map
  | merge
  deriving DecidableEq, Repr

/-- The name of a kind. -/
def FunctionKind.name : FunctionKind → String
  | dispatch => "dispatch"
  | map => "map"
  | merge => "merge"

/-- A call that was made. -/
inductive Call where
  | dispatch (document origin : Document)
  | map (document origin : Document)
  | merge (operation : MergeOperation)
  deriving DecidableEq, Repr

end Tributary
