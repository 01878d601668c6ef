import Tributary.Clock.Timestamp
import Tributary.Value.Document

/-!
# Deadlines

A table can give columns a largest age. A row in which such a column holds an older timestamp has
expired.

* `Deadline.check`: the first expired column in the order of names, if any. A column that is missing
  or null, and a timestamp in the future, never expire; a value that is no timestamp is a fault.
-/

namespace Tributary

/-- A deadline that a row has failed to meet. -/
structure ExpiredDeadline where
  column : String
  maxAge : Span
  age : Span
  deriving DecidableEq, Repr

namespace Deadline

/-- The age of the timestamp that a column holds, if it has one. -/
def age? (row : Document) (now : Instant) (column : String) : Result (Option Span) :=
  match row.get? column with
  | none => .ok none
  | some value =>
    match Timestamp.ofValue value with
    | .error fault => .error (.deadlineUnreadable column fault)
    | .ok none => .ok none
    | .ok (some t) => .ok (now.since? t)

/-- Checks a row against deadlines, given in the order of their columns' names. -/
def check (row : Document) (now : Instant) : List (String × Span) → Result (Option ExpiredDeadline)
  | [] => .ok none
  | (column, maxAge) :: rest =>
    match age? row now column with
    | .error fault => .error fault
    | .ok none => check row now rest
    | .ok (some age) =>
      if maxAge.toNanos < age.toNanos then .ok (some ⟨column, maxAge, age⟩) else check row now rest

end Deadline

end Tributary
