import Tributary.Fault.Basic

/-!
# Treatment of failed changes

The kind of a fault decides what happens to the change that met it.

* `FaultKind.action`: a change is parked for replay, dropped, or it stops its batch.
* `FaultKind.solution?`: the advice to an operator, where there is one.
-/

namespace Tributary

/-- What to do with a change whose processing failed. -/
inductive FailureAction where
  /-- Keep it in the default dead-letter queue. -/
  | park
  /-- Discard it. -/
  | drop
  /-- Stop the batch. -/
  | stop
  deriving DecidableEq, Repr

/-- The name of an action in reports. -/
def FailureAction.name : FailureAction → String
  | park => "Dlq"
  | drop => "Drop"
  | stop => "Fatal"

namespace FaultKind

/-- User functions and contended rows may do better on replay, malformed data never will, and all
else affects every change alike. -/
def action : FaultKind → FailureAction
  | userFunctionFailed | userFunctionTimeout | userFunctionPanic | malformedMergeResult
  | staleWrite => .park
  | invalidDocument | invalidData | missingPrimaryKey | recursionLimitExceeded
  | deserializationError => .drop
  | configError | invalidDuration | invalidIdentifier | duplicateRegistration | unknownColumn
  | missingTableSchema | missingDeleteTarget | storeError | serializationError | invalidState
  | unknown => .stop

/-- Advice to an operator. -/
def solution? : FaultKind → Option String
  | userFunctionFailed | userFunctionTimeout | userFunctionPanic | malformedMergeResult =>
    some "Fix the user function and replay the dead-letter queue."
  | staleWrite =>
    some "Another writer keeps modifying the row. Replay the dead-letter queue once it settles."
  | configError | invalidDuration | invalidIdentifier | duplicateRegistration | unknownColumn
  | missingTableSchema | missingDeleteTarget =>
    some "Update the user script so that it matches the destination schema."
  | storeError => some "Verify the target store is reachable and retry the batch."
  | _ => none

end FaultKind

/-- What to do with a change that met a fault. -/
def Fault.action (fault : Fault) : FailureAction := fault.kind.action

/-- Advice to an operator about a fault. -/
def Fault.solution? (fault : Fault) : Option String := fault.kind.solution?

end Tributary
