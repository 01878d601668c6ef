import Tributary.Clock.Hlc
import Tributary.Table.Name
import Tributary.Value.Document

/-!
# Mutations

A mutation is one change of one source row: the row after the change, perhaps the row before it,
the key of the source row, the time of the change, and its origin, which user functions see as
metadata. A mutation without a row after the change is a deletion.

* `Mutation.kind`: upsert or delete.
* `Mutation.toValue`: the mutation as a document.
* `sourceMeta`: the metadata of a change that was read from a source.
-/

namespace Tributary

/-- The kind of a change. -/
inductive MutationKind where
  | upsert
  | delete
  deriving DecidableEq, Repr

/-- The name of a kind. -/
def MutationKind.name : MutationKind → String
  | upsert => "upsert"
  | delete => "delete"

/-- A change of a source row. -/
structure Mutation where
  before : Option Document
  data : Option Document
  key : List Value
  time : Hlc
  origin : Document
  deriving DecidableEq, Repr

namespace Mutation

/-- A change without data is a deletion. -/
def kind (m : Mutation) : MutationKind := if m.data.isSome then .upsert else .delete

/-- The properties of a mutation, without those that are absent. -/
def fields (m : Mutation) : List (String × Value) :=
  (match m.before with
    | some before => [("before", before.toValue)]
    | none => []) ++
  [("data", (m.data.map Document.toValue).getD .null),
   ("key", .array m.key),
   ("meta", m.origin.toValue),
   ("time", .string m.time.text)]

/-- The mutation as a value. -/
def toValue (m : Mutation) : Value := (Document.ofList m.fields).toValue

end Mutation

/-- The metadata of a change read from a source: its kind, its table and the time of the change. -/
def sourceMeta (source : String) (table : TableName) (updated : Hlc) : Document :=
  .ofList [("source", .string source), ("table", .string table.text),
    ("updated", .string updated.text)]

end Tributary
