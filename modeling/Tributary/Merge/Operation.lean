import Tributary.Fault.Catalogue
import Tributary.Json.Printer
import Tributary.Text.Blank

/-!
# Merge operations and results

When a proposed row conflicts with the stored one, a merge function is given a `MergeOperation` and
answers with a `MergeResult`.

* `MergeOperation.toValue`: an operation as a document, without what is absent from it.
* `MergeResult.ofValue`: the result that a value stands for; it must be a document with exactly one
  of `apply`, `dlq` and `drop`, null counting as absent.
-/

namespace Tributary

/-- What a merge function is given. -/
structure MergeOperation where
  /-- The row before the change. Only a three-way merge has one. -/
  before : Option Document
  /-- The origin of the change. -/
  origin : Document
  /-- The row that could not be applied. -/
  proposed : Document
  /-- The row that is stored. -/
  target : Document
  /-- The columns that the standard merge could not resolve, where it calls its fallback. -/
  unmerged : List String
  deriving DecidableEq, Repr

namespace MergeOperation

/-- Whether the row before the change is known. -/
def isThreeWay (op : MergeOperation) : Bool := op.before.isSome

/-- The operation as properties. -/
def toDocument (op : MergeOperation) : Document :=
  .ofList <|
    (match op.before with
      | some before => [("before", before.toValue)]
      | none => []) ++
    [("meta", op.origin.toValue), ("proposed", op.proposed.toValue),
     ("target", op.target.toValue)] ++
    (if op.unmerged.isEmpty then [] else [("unmerged", .array (op.unmerged.map Value.string))])

/-- The operation as a value. -/
def toValue (op : MergeOperation) : Value := op.toDocument.toValue

end MergeOperation

/-- The decision of a merge. -/
inductive MergeResult where
  /-- Write the document. -/
  | apply (document : Document)
  /-- Park the change in a dead-letter queue. -/
  | park (queue : String)
  /-- Discard the change. -/
  | drop
  deriving DecidableEq, Repr

namespace MergeResult

/-- The properties that a result may have. -/
def propertyNames : List String := ["apply", "dlq", "drop"]

/-- A property that is present and not null. -/
def property? (d : Document) (name : String) : Option Value :=
  (d.get? name).filter fun v => !v.isNull

/-- The result that the three properties stand for. -/
def ofProperties : Option Value → Option Value → Option Value → Result MergeResult
  | some value, none, none =>
    match Document.ofValue? value with
    | some d => .ok (.apply d)
    | none =>
      .error (.mergeApplyNotDocument (((Fault.notDocument value.typeName).detail?).getD ""))
  | none, some (.string queue), none =>
    if (Text.trimChars queue.toList).isEmpty then
      .error (.mergeQueueInvalid (Value.string queue).text)
    else .ok (.park queue)
  | none, some value, none => .error (.mergeQueueInvalid value.text)
  | none, none, some (.bool true) => .ok .drop
  | none, none, some value => .error (.mergeDropInvalid value.text)
  | none, none, none => .error .mergeResultEmpty
  | _, _, _ => .error .mergeResultAmbiguous

/-- The result that a value stands for. -/
def ofValue (v : Value) : Result MergeResult :=
  match Document.ofValue? v with
  | none => .error (.mergeResultNotObject v.text)
  | some d =>
    match d.names.find? fun name => !propertyNames.contains name with
    | some name => .error (.mergeResultUnknown name)
    | none => ofProperties (property? d "apply") (property? d "dlq") (property? d "drop")

end MergeResult

end Tributary
