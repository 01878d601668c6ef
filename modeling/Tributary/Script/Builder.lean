import Tributary.Script.Registry

/-!
# Registration

A script configures sources, tables and options one call at a time, before any change is processed.
A call that fails leaves what was configured before it as it was.

* `Registry.configureSource`, `Registry.configureTable`: register a source or a table once.
* `Registry.setOptions`: sets options; those that fail are reported together and the others stay.
* `Registry.perform`: any of these calls, with its result.
-/

namespace Tributary

open Text

/-- What a script says about a source: a dispatch function or a target. -/
structure SourceProps where
  dispatch : Option RowFunction
  deletesTo : Option String
  target : Option String
  recurse : Bool

/-- What a script says about a table. Maps are given ascending by column. -/
structure TableProps where
  cas : List String
  deadlines : List (String × String)
  exprs : List (String × String)
  extras : Option String
  ignore : List (String × Bool)
  map : Option RowFunction
  merge : Option MergeStrategy

/-! ## Sources -/

/-- The destination that a script asks for. -/
def SourceProps.destination (props : SourceProps) (name : String) : Result Destination :=
  match props.dispatch, props.target with
  | some function, none =>
    match props.deletesTo with
    | none => .ok (.dispatch function none)
    | some raw => (TableName.parse raw).map fun table => .dispatch function (some table)
  | none, some raw =>
    if props.deletesTo.isSome then .error (.deletesToWithoutDispatch name)
    else (TableName.parse raw).map .target
  | some _, some _ => .error (.dispatchAndTarget name)
  | none, none => .error (.noDestination name)

/-! ## Tables -/

/-- Splits compare-and-set columns into those that are named for the first time and the faults of
the others. -/
def checkCas (table : String) : List String → List String → List String × List Fault
  | seen, [] => (seen, [])
  | seen, column :: rest =>
    if column = "" then
      ((checkCas table seen rest).1, .emptyCasColumn table :: (checkCas table seen rest).2)
    else if column ∈ seen then
      ((checkCas table seen rest).1,
        .repeatedCasColumn table column :: (checkCas table seen rest).2)
    else checkCas table (seen ++ [column]) rest

/-- Splits deadlines into those that can be read and the faults of the others. -/
def checkDeadlines (table : String) : List (String × String) → List (String × Span) × List Fault
  | [] => ([], [])
  | (column, raw) :: rest =>
    let others := checkDeadlines table rest
    match Span.parseChars (trimChars raw.toList) with
    | .ok span => ((column, span) :: others.1, others.2)
    | .error flaw => (others.1, .invalidDeadline table column raw flaw.message :: others.2)

/-- The faults of a merge without compare-and-set columns and of an extras column without name. -/
def checkMerge (table : String) (props : TableProps) (cas : List String) : List Fault :=
  (if props.merge.isSome && cas.isEmpty then [.mergeWithoutCas table] else []) ++
  (if props.extras = some "" then [.emptyExtras table] else [])

/-- The behaviour that a script asks for, or all faults in it. -/
def TableProps.config (props : TableProps) (table : String) : Result TableConfig :=
  let cas := checkCas table [] props.cas
  let deadlines := checkDeadlines table props.deadlines
  let faults := cas.2 ++ deadlines.2 ++ checkMerge table props cas.1
  if faults.isEmpty then
    .ok ⟨cas.1, deadlines.1, props.exprs, props.extras,
      (props.ignore.filter Prod.snd).map Prod.fst, props.map, props.merge⟩
  else .error (.gather faults)

/-! ## Registration -/

namespace Registry

/-- Nothing configured but options. -/
def ofOptions (options : Options) : Registry := ⟨options, .empty, .empty⟩

/-- Registers a source. -/
def configureSource (r : Registry) (name : String) (props : SourceProps) : Result Registry :=
  if name = "" then .error .emptySourceName
  else if r.sources.contains name then .error (.sourceConfigured name)
  else
    (props.destination name).map fun destination =>
      { r with sources := r.sources.put name ⟨name, destination, props.recurse⟩ }

/-- Registers a table. -/
def configureTable (r : Registry) (raw : String) (props : TableProps) : Result Registry :=
  match TableName.parse raw with
  | .error fault => .error fault
  | .ok name =>
    if r.tables.contains name then .error (.tableConfigured name.text)
    else (props.config name.text).map fun config => { r with tables := r.tables.put name config }

/-- Sets options one after another, and lists the faults of those that fail. -/
def applyOptions (o : Options) : List (String × String) → Options × List Fault
  | [] => (o, [])
  | (key, value) :: rest =>
    match o.set key value with
    | .ok o => applyOptions o rest
    | .error flaw => ((applyOptions o rest).1, flaw.toFault :: (applyOptions o rest).2)

/-- Sets options. Those that can be set are set even if others fail. -/
def setOptions (r : Registry) (settings : List (String × String)) : Registry × Result Unit :=
  let applied := applyOptions r.options settings
  ({ r with options := applied.1 },
    if applied.2.isEmpty then .ok () else .error (.gather applied.2))

end Registry

/-! ## Scripts -/

/-- One call of a script. -/
inductive ScriptCall where
  | source (name : String) (props : SourceProps)
  | table (name : String) (props : TableProps)
  | options (settings : List (String × String))

namespace Registry

/-- Keeps the registry that a call makes, or the old one if the call failed. -/
def advance (r : Registry) : Result Registry → Registry × Result Unit
  | .ok updated => (updated, .ok ())
  | .error fault => (r, .error fault)

/-- Performs a call of a script. -/
def perform (r : Registry) : ScriptCall → Registry × Result Unit
  | .source name props => r.advance (r.configureSource name props)
  | .table name props => r.advance (r.configureTable name props)
  | .options settings => r.setOptions settings

/-- The registry behind a whole script. -/
def performAll (r : Registry) (script : List ScriptCall) : Registry :=
  script.foldl (fun r call => (r.perform call).1) r

end Registry

end Tributary
