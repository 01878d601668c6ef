import Tributary.Keyed
import Tributary.Merge.Standard
import Tributary.Settings.Options
import Tributary.Table.Schema

/-!
# Registered configuration

What a user script has configured: the routing of sources, the behaviour of tables, and options. A
source without configuration passes its documents to the table of its own name; a table without
configuration takes rows as they arrive.

* `Registry.source`, `Registry.table`: the configuration that holds for a name.
* `TableConfig.referenced`: the columns that must exist.
-/

namespace Tributary

/-- Where the documents of a source go. -/
inductive Destination where
  /-- A function names the tables; deletes go to a table of their own. -/
  | dispatch (function : RowFunction) (deletesTo : Option TableName)
  /-- All documents go to one table. -/
  | target (table : TableName)

/-- The routing of a source. -/
structure SourceConfig where
  name : String
  destination : Destination
  /-- Whether nested documents are detached and routed on their own. -/
  recurse : Bool

/-- How a table resolves conflicts. -/
inductive MergeStrategy where
  | custom (merge : MergeFunction)
  | standard (fallback : Option MergeFunction)

/-- The behaviour of a table. -/
structure TableConfig where
  /-- The compare-and-set columns in the order of comparison. -/
  cas : List String
  /-- The largest ages of columns, ascending by column. -/
  deadlines : List (String × Span)
  /-- Expressions that the store applies to columns, ascending by column. -/
  exprs : List (String × String)
  /-- The column that collects properties which match no column. -/
  extras : Option String
  /-- The columns that are removed, ascending. -/
  ignore : List String
  map : Option RowFunction
  merge : Option MergeStrategy

namespace TableConfig

/-- The behaviour of a table without configuration. -/
def plain : TableConfig := ⟨[], [], [], none, [], none, none⟩

/-- Whether the table resolves conflicts by columns. -/
def isCas (config : TableConfig) : Bool := !config.cas.isEmpty

/-- Every column that the configuration names. -/
def referenced (config : TableConfig) : List String :=
  config.cas ++ config.deadlines.map Prod.fst ++ config.exprs.map Prod.fst ++ config.extras.toList

end TableConfig

/-- The configuration of a script. -/
structure Registry where
  options : Options
  sources : Keyed String SourceConfig
  tables : Keyed TableName TableConfig

namespace Registry

/-- The routing of a source. -/
def source (r : Registry) (name : String) : Result SourceConfig :=
  match r.sources.get? name with
  | some config => .ok config
  | none => (TableName.parse name).map fun table => ⟨name, .target table, false⟩

/-- The behaviour of a table. -/
def table (r : Registry) (name : TableName) : TableConfig := (r.tables.get? name).getD .plain

end Registry

end Tributary
