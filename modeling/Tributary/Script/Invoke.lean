import Tributary.Clock.Span
import Tributary.Script.Trace

/-!
# Calls of user functions

A call is allowed a limited time, is recorded before it is made, and turns every failure into a fault
of its own, which is counted.

* `callFault?`: the failure of a call.
* `invoke`: one call of a user function.
-/

namespace Tributary

/-- The failure of a call that ends in the given way, `none` if it ends with a value. -/
def callFault? (kind : FunctionKind) (timeout : Span) (reply : Reply) : Option Fault :=
  if timeout.toNanos < reply.millis * 1000000 then
    some (.functionTimedOut kind.name timeout.text)
  else
    match reply.ending with
    | .value _ => none
    | .fault fault => some (.functionFailed kind.name fault)
    | .panic report => some (.functionPanicked report)

/-- The value of a call, null if it has none. -/
def callValue (reply : Reply) : Value :=
  match reply.ending with
  | .value v => v
  | _ => .null

/-- Calls a user function that may take the given time. -/
def invoke (timeout : Span) (kind : FunctionKind) (call : Call) (reply : Reply) :
    Logged.Fallible Value := do
  Logged.call call
  match callFault? kind timeout reply with
  | none => return callValue reply
  | some fault =>
    Logged.count ⟨.functionFailures, [("function", kind.name)]⟩
    throw fault

end Tributary
