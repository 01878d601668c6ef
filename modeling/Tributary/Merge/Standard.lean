import Tributary.Script.Invoke

/-!
# The standard merge

A proposed value wins when the stored row still holds the value that the change started from. Where
the row before the change is unknown, every proposed value that differs from the stored one is a
conflict. Properties that the proposed row does not carry keep their stored value.

* `standardMerge`: the merged row and the properties that could not be merged.
* `preferTarget`: a merge function that keeps the stored value of these.
* `runStandard`: the decision, left to a fallback where something could not be merged.
-/

namespace Tributary

/-- The dead-letter queue for what the standard merge leaves unresolved. -/
def unmergedQueue : String := "unmerged"

/-- How the properties of a conflicting row were merged. -/
structure Classification where
  /-- The stored row with every mergeable proposed value written over it. -/
  merged : Document
  /-- The properties that could not be merged, ascending. -/
  unmerged : List String
  deriving DecidableEq, Repr

/-- Equality of values that may be missing. -/
def sameOptional : Option Value → Option Value → Bool
  | none, none => true
  | some a, some b => a.same b
  | _, _ => false

/-- Whether the stored row still holds the value of the row before the change. -/
def isMergeable (op : MergeOperation) (name : String) : Bool :=
  match op.before with
  | some before => sameOptional (op.target.get? name) (before.get? name)
  | none => false

/-- Merges one proposed property. -/
def mergeProperty (op : MergeOperation) (c : Classification) (field : String × Value) :
    Classification :=
  if sameOptional (op.target.get? field.1) (some field.2) then c
  else if isMergeable op field.1 then { c with merged := c.merged.insert field.1 field.2 }
  else { c with unmerged := c.unmerged ++ [field.1] }

/-- Merges the proposed properties in the order of their names. -/
def standardMerge (op : MergeOperation) : Classification :=
  op.proposed.fields.foldl (mergeProperty op) ⟨op.target, []⟩

/-- Keeps the stored row but for the proposed properties that could be merged. -/
def preferredRow (op : MergeOperation) : Document :=
  op.target.overlay (op.proposed.filter fun name _ => !op.unmerged.contains name)

/-- A merge function that applies `preferredRow`. -/
def preferTarget : MergeFunction := fun op =>
  ⟨0, .value (Document.ofList [("apply", (preferredRow op).toValue)]).toValue⟩

/-- The decision of a user's merge function. -/
def runMerge (timeout : Span) (merge : MergeFunction) (op : MergeOperation) :
    Logged.Fallible MergeResult := do
  let v ← invoke timeout .merge (.merge op) (merge op)
  MergeResult.ofValue v

/-- The decision of the standard merge. The fallback is told what could not be merged. -/
def runStandard (timeout : Span) (fallback : Option MergeFunction) (op : MergeOperation) :
    Logged.Fallible MergeResult :=
  let c := standardMerge op
  if c.unmerged.isEmpty then return .apply c.merged
  else
    match fallback with
    | none => return .park unmergedQueue
    | some merge => runMerge timeout merge { op with unmerged := c.unmerged }

end Tributary
