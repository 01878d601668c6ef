import Tributary.Fault.Basic

/-!
# The wording of faults

Every fault that the library reports, named for its cause. All texts of faults stand here.
-/

namespace Tributary.Fault

/-! ## Names and clocks -/

def invalidTableName (raw reason : String) : Fault :=
  detailed .invalidIdentifier "Invalid table name" s!"`{raw}`: {reason}"

def segmentCount (count : Nat) : Fault :=
  detailed .invalidIdentifier "Table name has an invalid number of segments" s!"{count} segments"

def emptySegment : Fault := plain .invalidIdentifier "Table name has an empty segment"

def invalidHlc (raw : String) : Fault :=
  detailed .invalidData "Invalid HLC timestamp" s!"`{raw}` is not of the form <nanos>.<logical>"

def timestampRange (number : String) : Fault :=
  detailed .invalidData "Timestamp is out of range"
    s!"{number} cannot be represented as epoch seconds"

def invalidTimestamp (raw : String) : Fault :=
  detailed .invalidData "Invalid timestamp"
    s!"`{raw}` is not RFC 3339, `YYYY-MM-DD HH:MM:SS`, HLC, or epoch seconds"

def notTimestamp (typeName : String) : Fault :=
  detailed .invalidData "Value cannot be coerced to a timestamp" s!"found {typeName}"

def deadlineUnreadable (column : String) (cause : Fault) : Fault :=
  let reason := cause.detail?.getD ""
  (detailed .invalidData "Deadline column does not hold a timestamp"
    s!"column `{column}`: {reason}").withSource cause.text

/-! ## Documents and changefeeds -/

def notDocument (typeName : String) : Fault :=
  detailed .invalidDocument "Value is not a document" s!"expected an object, found {typeName}"

/-- What the reader of the text found wrong with it is left out. -/
def unreadableJson : Fault := plain .deserializationError "JSON deserialization failed"

def missingUpdated : Fault :=
  detailed .invalidData "Changefeed line has no timestamp"
    "CREATE CHANGEFEED must specify the 'WITH updated' option"

def keyNotArray (typeName : String) : Fault :=
  detailed .invalidData "Changefeed key is not an array" s!"found {typeName}"

def lineTooLong (line bytes limit : Nat) : Fault :=
  detailed .invalidData "Changefeed line exceeds the buffer size"
    s!"line {line} has {bytes} bytes, the limit is {limit}"

/-! ## User functions -/

def functionFailed (function : String) (cause : Fault) : Fault :=
  (detailed .userFunctionFailed "User function failed"
    s!"{function} function returned an error: {cause.text}").withSource cause.text

/-- The detail is what the runtime reports of the panic. -/
def functionPanicked (report : String) : Fault :=
  detailed .userFunctionPanic "User function panicked" report

def functionTimedOut (function limit : String) : Fault :=
  detailed .userFunctionTimeout "User function timed out"
    s!"{function} function did not return within {limit}"

/-! ## Merging -/

def mergeResultNotObject (json : String) : Fault :=
  detailed .malformedMergeResult "Merge result is not an object" s!"found {json}"

def mergeResultUnknown (name : String) : Fault :=
  detailed .malformedMergeResult "Merge result has an unknown property" name

def mergeApplyNotDocument (detail : String) : Fault :=
  detailed .malformedMergeResult "Merge result `apply` is not a document" detail

def mergeQueueInvalid (json : String) : Fault :=
  detailed .malformedMergeResult "Merge result `dlq` must be a non-empty queue name" json

def mergeDropInvalid (json : String) : Fault :=
  detailed .malformedMergeResult "Merge result `drop` must be true" json

def mergeResultEmpty : Fault :=
  plain .malformedMergeResult "Merge result sets none of apply, dlq, or drop"

def mergeResultAmbiguous : Fault :=
  plain .malformedMergeResult "Merge result sets more than one of apply, dlq, or drop"

def mergeExploded : Fault := plain .invalidState "merge exploded"

/-! ## Registration -/

def emptySourceName : Fault := plain .configError "Source name must not be empty"

def sourceConfigured (name : String) : Fault :=
  detailed .duplicateRegistration "Source is already configured" name

def deletesToWithoutDispatch (name : String) : Fault :=
  detailed .configError "deletesTo requires a dispatch function" name

def dispatchAndTarget (name : String) : Fault :=
  detailed .configError "Source must set either dispatch or target, not both" name

def noDestination (name : String) : Fault :=
  detailed .configError "Source must set either dispatch or target" name

def tableConfigured (table : String) : Fault :=
  detailed .duplicateRegistration "Table is already configured" table

def emptyCasColumn (table : String) : Fault :=
  detailed .configError "CAS column name must not be empty" table

def repeatedCasColumn (table column : String) : Fault :=
  detailed .configError "CAS column is listed more than once" s!"{table}.{column}"

def invalidDeadline (table column raw reason : String) : Fault :=
  (detailed .invalidDuration "Invalid deadline duration"
    s!"{table}.{column}: `{raw}`: {reason}").withSource reason

def mergeWithoutCas (table : String) : Fault :=
  detailed .configError "A merge function requires CAS columns" table

def emptyExtras (table : String) : Fault :=
  detailed .configError "Extras column name must not be empty" table

def invalidOption (reason : String) : Fault :=
  (detailed .configError "Invalid runtime option" reason).withSource reason

/-! ## Routing and mapping -/

def nestsTooDeep (source : String) (limit : Nat) : Fault :=
  detailed .recursionLimitExceeded "Nested documents exceed the recursion limit"
    s!"source `{source}` nests deeper than {limit} levels"

def dispatchNotObject (typeName : String) : Fault :=
  detailed .invalidDocument "Dispatch must return an object or null" s!"found {typeName}"

def dispatchTableName (name : String) (cause : Fault) : Fault :=
  (detailed .invalidDocument "Dispatch returned an invalid table name" s!"`{name}`").withSource
    cause.text

def dispatchNotArray (table typeName : String) : Fault :=
  detailed .invalidDocument "Dispatch must map tables to arrays of documents"
    s!"{table}: found {typeName}"

def noDeleteTarget (source : String) : Fault :=
  detailed .missingDeleteTarget "Source has no table to apply deletes to"
    s!"source `{source}` sets no deletesTo and is not a table name"

def extrasNotDocument (table column typeName : String) : Fault :=
  detailed .invalidDocument "Extras column does not hold a document"
    s!"{table}.{column}: found {typeName}"

def unknownColumns (columns : List String) : Fault :=
  detailed .unknownColumn "Document has properties matching no column" (", ".intercalate columns)

/-! ## Applying -/

def unknownReference (table column : String) : Fault :=
  detailed .unknownColumn "Table configuration references an unknown column" s!"{table}.{column}"

def deleteWithoutKey (table : String) : Fault :=
  detailed .missingPrimaryKey "Delete carries no primary key" table

def keepsChanging (table key : String) (attempts : Nat) : Fault :=
  detailed .staleWrite "Target row kept changing between read and write"
    s!"{table} {key} after {attempts} attempts"

def noDestinationTable (table : String) : Fault :=
  detailed .missingTableSchema "Destination table does not exist" table

def missingKeyColumn (table column : String) : Fault :=
  detailed .missingPrimaryKey "Row is missing a primary key column" s!"{table}.{column}"

def rowWithoutKey (table : String) : Fault :=
  detailed .missingPrimaryKey "Row has no primary key" table

def tableNotInStore (table : String) : Fault :=
  detailed .storeError "Table does not exist in the target store" table

end Tributary.Fault
