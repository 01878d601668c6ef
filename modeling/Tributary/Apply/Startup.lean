import Tributary.Apply.Session

/-!
# Startup

Before anything is processed, the configuration is checked against the store: options must be valid,
configured tables and the targets of sources must exist, and so must every column that a table's
configuration names.

* `tableFaults`, `sourceFaults`: what is wrong with one table or one source.
* `start`: a session, or all faults at once.
-/

namespace Tributary

variable {σ : Type} [TargetStore σ]

/-- The faults of the configuration of a table. -/
def tableFaults (table : TableName) (config : TableConfig) : Run σ (List Fault) := do
  match ← (schemaOf table).attempt with
  | .error fault => return [fault]
  | .ok schema =>
    let missing := config.referenced.filter fun column => !schema.hasColumn column
    return missing.map fun column => .unknownReference table.text column

/-- The table that a source's configuration names, for all documents or for deletions. -/
def SourceConfig.namedTable? (source : SourceConfig) : Option TableName :=
  match source.destination with
  | .target table => some table
  | .dispatch _ deletesTo => deletesTo

/-- The faults of the configuration of a source. -/
def sourceFaults (source : SourceConfig) : Run σ (List Fault) := do
  match source.namedTable? with
  | none => return []
  | some table =>
    match ← (schemaOf table).attempt with
    | .error fault => return [fault]
    | .ok _ => return []

/-- The faults of a whole configuration. -/
def startupFaults (registry : Registry) : Run σ (List Fault) := do
  let tables ← registry.tables.entries.mapM fun e => tableFaults e.1 e.2
  let sources ← registry.sources.entries.mapM fun e => sourceFaults e.2
  return tables.flatten ++ sources.flatten

/-- A session on a store that fits the configuration. The locks of rows, of which there are as many as the options
say, are not part of it, and neither is the memory that they would take. -/
def start (registry : Registry) (store : σ) : Result (Session σ) :=
  match registry.options.validate with
  | .error flaw => .error flaw.toFault
  | .ok () =>
    match (startupFaults registry).exec (.ofStore store) with
    | (.error fault, _) => .error fault
    | (.ok [], s) => .ok s
    | (.ok faults, _) => .error (.gather faults)

end Tributary
