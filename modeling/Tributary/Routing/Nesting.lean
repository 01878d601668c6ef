import Tributary.Mutation.Basic

/-!
# Nested documents

The row of a mutation may hold further documents: as the value of a property, or as the items of a
non-empty array of documents. They can be detached into mutations of their own.

* `Mutation.flat`: the mutation without its nested documents.
* `Mutation.nested`: a mutation for each nested document. Its key is that of the parent, extended
  with the name of the property and, inside an array, with the index.
-/

namespace Tributary

/-- Whether a value consists of nested documents. -/
def Value.isNested : Value → Bool
  | .document _ => true
  | .array items => !items.isEmpty && items.all isDocument
  | _ => false

namespace Mutation

/-- The mutation without its nested documents. -/
def flat (m : Mutation) : Mutation :=
  { m with data := m.data.map fun data => data.filter fun _ v => !v.isNested }

/-- A mutation for a nested document. A mutation of this kind has no row before the change. -/
def child (m : Mutation) (place : List Value) (data : Document) : Mutation :=
  ⟨none, some data, m.key ++ place, m.time, m.origin⟩

/-- The parts of a nested value, each with the place at which it stands. -/
def parts (name : String) : Value → List (List Value × Value)
  | .array items => items.zipIdx.map fun e => ([.string name, .number (.ofNat e.2)], e.1)
  | v => [([.string name], v)]

/-- The mutations for the documents that are nested under one name. -/
def nestedUnder (m : Mutation) (field : String × Value) : List Mutation :=
  if field.2.isNested then
    (parts field.1 field.2).filterMap fun part => (Document.ofValue? part.2).map (m.child part.1)
  else []

/-- The mutations for all nested documents, in the order of names and then of indexes. -/
def nested (m : Mutation) : List Mutation :=
  match m.data with
  | none => []
  | some data => data.fields.flatMap m.nestedUnder

end Mutation

end Tributary
