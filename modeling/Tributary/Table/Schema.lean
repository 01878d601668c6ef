import Tributary.Table.Name

/-!
# Table schemas

The shape of a destination table: its columns in table order, which of them form the primary key,
and whether rows may have properties that match no column.
-/

namespace Tributary

/-- A column of a table. -/
structure Column where
  name : String
  isKey : Bool
  deriving DecidableEq, Repr

/-- The shape of a table. An open table accepts properties that match no column. -/
structure Schema where
  name : TableName
  columns : List Column
  isOpen : Bool
  deriving DecidableEq, Repr

namespace Schema

/-- Whether the table has a column of that name. -/
def hasColumn (schema : Schema) (name : String) : Bool :=
  schema.columns.any fun column => column.name == name

/-- The columns of the primary key in table order. -/
def primaryKey (schema : Schema) : List String :=
  (schema.columns.filter Column.isKey).map Column.name

end Schema

end Tributary
