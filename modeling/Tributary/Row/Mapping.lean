import Tributary.Script.Registry

/-!
# Mapping

A document becomes a row of a table in four steps: the map function of the table sees it first, then
ignored columns are removed, then properties that match no column move into the extras column, and
at last expressions are attached to the columns that are left.

* `mapDocument`: the document that the map function makes of it, if it does not discard it.
* `collectExtras`: the row in which every property matches a column, or may stand without one.
* `mapRow`: all four steps.
-/

namespace Tributary

/-- A row with the expressions that the store applies to its columns. -/
structure MappedRow where
  row : Document
  /-- Expressions by column, ascending. -/
  exprs : List (String × String)
  deriving DecidableEq, Repr

/-- The document that the map function of a table makes of a document. -/
def mapDocument (config : TableConfig) (timeout : Span) (doc origin : Document) :
    Logged.Fallible (Option Document) :=
  match config.map with
  | none => return some doc
  | some function => do
    let v ← invoke timeout .map (.map doc origin) (function doc origin)
    match v, Document.ofValue? v with
    | .null, _ => return none
    | _, some doc => return some doc
    | v, none => throw (.notDocument v.typeName)

/-! ## Extras -/

/-- The properties of a document, parted by whether they match a column. -/
structure Parted where
  known : Document
  extras : Document

/-- Takes one property into account. What the extras column holds already are extras as well. -/
def Parted.add (schema : Schema) (column : String) (p : Parted) (field : String × Value) :
    Result Parted :=
  if field.1 = column then
    match field.2 with
    | .document fields => .ok { p with extras := p.extras.insertAll fields }
    | .null => .ok p
    | v => .error (.extrasNotDocument schema.name.text column v.typeName)
  else if schema.hasColumn field.1 then
    .ok { p with known := p.known.insert field.1 field.2 }
  else .ok { p with extras := p.extras.insert field.1 field.2 }

/-- Parts the properties of a document, in the order of their names. -/
def partExtras (schema : Schema) (column : String) (row : Document) : Result Parted :=
  row.fields.foldlM (Parted.add schema column) ⟨.empty, .empty⟩

/-- The row in which properties that match no column stand in the extras column. Without such a
column they may only stand in an open table. -/
def collectExtras (config : TableConfig) (schema : Schema) (row : Document) : Result Document :=
  let unknown := row.names.filter fun name => !schema.hasColumn name
  if unknown.isEmpty then .ok row
  else
    match config.extras with
    | some column =>
      (partExtras schema column row).map fun p => p.known.insert column p.extras.toValue
    | none =>
      if schema.isOpen then .ok row
      else .error (.unknownColumns (unknown.map fun name => s!"{schema.name.text}.{name}"))

/-! ## Rows -/

/-- Removes the columns that a table ignores. -/
def removeIgnored (config : TableConfig) (row : Document) : Document :=
  row.filter fun name _ => !config.ignore.contains name

/-- The expressions for the columns of a row. -/
def rowExprs (config : TableConfig) (row : Document) : List (String × String) :=
  config.exprs.filter fun e => row.contains e.1

/-- The row of a document behind the map function. -/
def cleanRow (config : TableConfig) (schema : Schema) (doc : Document) : Result MappedRow :=
  (collectExtras config schema (removeIgnored config doc)).map fun row =>
    ⟨row, rowExprs config row⟩

/-- The row of a document, if the map function does not discard it. -/
def mapRow (config : TableConfig) (schema : Schema) (timeout : Span) (doc origin : Document) :
    Logged.Fallible (Option MappedRow) := do
  match ← mapDocument config timeout doc origin with
  | none => return none
  | some doc =>
    let mapped ← cleanRow config schema doc
    return some mapped

end Tributary
