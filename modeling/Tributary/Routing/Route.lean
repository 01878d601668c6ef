import Tributary.Routing.Nesting
import Tributary.Script.Registry

/-!
# Routing

Routing finds the destination tables of a mutation. A source has one target table, or a dispatch
function that names tables and the documents for each. A recursing source first detaches nested
documents, level by level, and every document is routed on its own.

* `dispatched`: the mutations that a dispatch function asks for.
* `routeLevels`: the mutations of one level and of the levels below it, as far as a limit allows.
* `route`: the destinations of a mutation; a deletion has exactly one and is never dispatched.
-/

namespace Tributary

/-- A mutation bound for a table. -/
structure Routed where
  table : TableName
  mutation : Mutation
  deriving DecidableEq, Repr

/-! ## Deletions -/

/-- The table to which a source's deletions go: its target, the table that it names for them, or the
table of its own name. -/
def SourceConfig.deleteTarget (source : SourceConfig) : Result TableName :=
  match source.destination with
  | .target table | .dispatch _ (some table) => .ok table
  | .dispatch _ none =>
    match TableName.parse source.name with
    | .ok table => .ok table
    | .error _ => .error (.noDeleteTarget source.name)

/-! ## Dispatch -/

/-- A mutation that carries a dispatched document. -/
def Mutation.carrying (m : Mutation) (data : Document) : Mutation :=
  { m with before := none, data := some data }

/-- A mutation for one item of an array of documents. -/
def dispatchedItem (m : Mutation) (table : TableName) (item : Value) : Result Routed :=
  match Document.ofValue? item with
  | some data => .ok ⟨table, m.carrying data⟩
  | none => .error (.notDocument item.typeName)

/-- The mutations for what stands under the name of one table. -/
def dispatchedTable (m : Mutation) (field : String × Value) : Result (List Routed) :=
  match TableName.parse field.1 with
  | .error cause => .error (.dispatchTableName field.1 cause)
  | .ok table =>
    match field.2 with
    | .null => .ok []
    | .array items => items.mapM (dispatchedItem m table)
    | v => .error (.dispatchNotArray table.text v.typeName)

/-- The mutations that the value of a dispatch function asks for. -/
def dispatched (m : Mutation) : Value → Result (List Routed)
  | .null => .ok []
  | .document fields => (fields.mapM (dispatchedTable m)).map List.flatten
  | v => .error (.dispatchNotObject v.typeName)

/-! ## Routes -/

/-- Routes a mutation without a look at nested documents. -/
def routeOne (source : SourceConfig) (timeout : Span) (m : Mutation) :
    Logged.Fallible (List Routed) :=
  match source.destination, m.data with
  | .target table, _ => return [⟨table, m⟩]
  | .dispatch _ _, none => return []
  | .dispatch function _, some data => do
    let v ← invoke timeout .dispatch (.dispatch data m.origin) (function data m.origin)
    dispatched m v

/-- Routes the mutations of one level and collects the next level. Nested documents are a fault where
there may be no further level. -/
def routeLevel (source : SourceConfig) (timeout : Span) (limit : Nat) (last : Bool) :
    List Mutation → Logged.Fallible (List Routed × List Mutation)
  | [] => return ([], [])
  | m :: rest => do
    if last && !m.nested.isEmpty then throw (.nestsTooDeep source.name limit)
    let here ← routeOne source timeout m.flat
    let others ← routeLevel source timeout limit last rest
    return (here ++ others.1, m.nested ++ others.2)

/-- Routes a level and up to `depth` levels below it. -/
def routeLevels (source : SourceConfig) (timeout : Span) (limit : Nat) :
    (depth : Nat) → List Mutation → Logged.Fallible (List Routed)
  | _, [] => return []
  | 0, ms => do
    let level ← routeLevel source timeout limit true ms
    return level.1
  | depth + 1, ms => do
    let level ← routeLevel source timeout limit false ms
    let below ← routeLevels source timeout limit depth level.2
    return level.1 ++ below

/-- The destinations of a mutation. -/
def route (source : SourceConfig) (timeout : Span) (limit : Nat) (m : Mutation) :
    Logged.Fallible (List Routed) :=
  match m.kind with
  | .delete => do
    let table ← source.deleteTarget
    return [⟨table, m⟩]
  | .upsert =>
    if source.recurse then routeLevels source timeout limit limit [m]
    else routeOne source timeout m

end Tributary
