/-!
# Faults

What can go wrong, and how it is reported. A fault has a kind, a fixed description, and possibly a
detail and the text of the fault that caused it. Several faults can be gathered into one.

* `FaultKind`: the classification on which the treatment of a failed change rests.
* `Fault.gather`: many faults as one; a single fault stays as it is.
* `Fault.text`: the one rendering of a fault.
* `Fault.alike`: faults are alike when their kinds are.
-/

namespace Tributary

/-- The classification of faults. -/
inductive FaultKind where
  | configError
  | invalidDuration
  | invalidIdentifier
  | duplicateRegistration
  | unknownColumn
  | missingTableSchema
  | missingDeleteTarget
  | invalidDocument
  | userFunctionFailed
  | userFunctionTimeout
  | userFunctionPanic
  | malformedMergeResult
  | invalidData
  | missingPrimaryKey
  | recursionLimitExceeded
  | staleWrite
  | storeError
  | serializationError
  | deserializationError
  | invalidState
  | unknown
  deriving DecidableEq, Repr

namespace FaultKind

/-- All kinds. -/
def all : List FaultKind :=
  [configError, invalidDuration, invalidIdentifier, duplicateRegistration, unknownColumn,
   missingTableSchema, missingDeleteTarget, invalidDocument, userFunctionFailed,
   userFunctionTimeout, userFunctionPanic, malformedMergeResult, invalidData, missingPrimaryKey,
   recursionLimitExceeded, staleWrite, storeError, serializationError, deserializationError,
   invalidState, unknown]

/-- The name of a kind in reports. -/
def name : FaultKind → String
  | configError => "ConfigError"
  | invalidDuration => "InvalidDuration"
  | invalidIdentifier => "InvalidIdentifier"
  | duplicateRegistration => "DuplicateRegistration"
  | unknownColumn => "UnknownColumn"
  | missingTableSchema => "MissingTableSchema"
  | missingDeleteTarget => "MissingDeleteTarget"
  | invalidDocument => "InvalidDocument"
  | userFunctionFailed => "UserFunctionFailed"
  | userFunctionTimeout => "UserFunctionTimeout"
  | userFunctionPanic => "UserFunctionPanic"
  | malformedMergeResult => "MalformedMergeResult"
  | invalidData => "InvalidData"
  | missingPrimaryKey => "MissingPrimaryKey"
  | recursionLimitExceeded => "RecursionLimitExceeded"
  | staleWrite => "StaleWrite"
  | storeError => "StoreError"
  | serializationError => "SerializationError"
  | deserializationError => "DeserializationError"
  | invalidState => "InvalidState"
  | unknown => "Unknown"

/-- The kind with a given name. -/
def ofName? (s : String) : Option FaultKind := all.find? fun kind => kind.name == s

end FaultKind

/-- One fault, or several gathered into one. -/
inductive Fault where
  | single (kind : FaultKind) (description : String) (detail : Option String)
      (source : Option String)
  | many (faults : List Fault)
  deriving Repr, Inhabited

namespace Fault

/-! ## Construction -/

/-- A fault without detail. -/
def plain (kind : FaultKind) (description : String) : Fault := .single kind description none none

/-- A fault with a detail. -/
def detailed (kind : FaultKind) (description detail : String) : Fault :=
  .single kind description (some detail) none

/-- Several faults as one. -/
def gather : List Fault → Fault
  | [fault] => fault
  | faults => .many faults

/-! ## Views -/

mutual

/-- The kind of a fault, or of the first one gathered in it. -/
def kind : Fault → FaultKind
  | .single kind _ _ _ => kind
  | .many faults => firstKind faults

/-- The kind of the first of several faults. -/
def firstKind : List Fault → FaultKind
  | [] => .unknown
  | fault :: _ => kind fault

end

mutual

/-- Every kind inside a fault, in order. -/
def kinds : Fault → List FaultKind
  | .single kind _ _ _ => [kind]
  | .many faults => allKinds faults

/-- Every kind inside several faults. -/
def allKinds : List Fault → List FaultKind
  | [] => []
  | fault :: faults => kinds fault ++ allKinds faults

end

mutual

/-- The description of a fault, or of the first one gathered in it. -/
def description : Fault → String
  | .single _ description _ _ => description
  | .many faults => firstDescription faults

/-- The description of the first of several faults. -/
def firstDescription : List Fault → String
  | [] => "multiple errors"
  | fault :: _ => description fault

end

mutual

/-- The detail of a fault, or the first detail gathered in it. -/
def detail? : Fault → Option String
  | .single _ _ detail _ => detail
  | .many faults => firstDetail? faults

/-- The first detail among several faults. -/
def firstDetail? : List Fault → Option String
  | [] => none
  | fault :: faults => (detail? fault).or (firstDetail? faults)

end

/-- The faults that are gathered, or the fault itself. -/
def parts : Fault → List Fault
  | .many faults => faults
  | fault => [fault]

/-- Whether the fault is not a gathering. -/
def isSingle : Fault → Bool
  | .single .. => true
  | .many _ => false

mutual

/-- The rendering of a fault: its kind in brackets, its description and its detail; gathered faults
are counted and listed line by line. -/
def text : Fault → String
  | .single kind description detail _ =>
    match detail with
    | none => s!"[{kind.name}] {description}"
    | some detail => s!"[{kind.name}] {description}: {detail}"
  | .many faults =>
    let plural := if faults.length = 1 then "" else "s"
    s!"[Many] {faults.length} error{plural} aggregated" ++ listing 1 faults

/-- A numbered line for each of several faults. -/
def listing : Nat → List Fault → String
  | _, [] => ""
  | n, fault :: faults => s!"\n  {n}. {text fault}" ++ listing (n + 1) faults

end

/-- What is reported about a single fault behind its kind. -/
def message : Fault → String
  | .single _ description none _ => description
  | .single _ description (some detail) _ => s!"{description}: {detail}"
  | .many faults => s!"[Many] {faults.length} errors aggregated"

/-- The text of the fault that caused this one. -/
def source? : Fault → Option String
  | .single _ _ _ source => source
  | .many [] => none
  | .many (fault :: _) => some fault.text

/-- Records the cause of a single fault. -/
def withSource (source : String) : Fault → Fault
  | .single kind description detail _ => .single kind description detail (some source)
  | .many faults => .many faults

mutual

/-- Whether two faults have the same kinds in the same arrangement. -/
def alike : Fault → Fault → Bool
  | .single k _ _ _, .single l _ _ _ => k == l
  | .many xs, .many ys => allAlike xs ys
  | _, _ => false

/-- `alike` one by one. -/
def allAlike : List Fault → List Fault → Bool
  | [], [] => true
  | x :: xs, y :: ys => alike x y && allAlike xs ys
  | _, _ => false

end

end Fault

/-- The result of a step that may fail. -/
abbrev Result (α : Type) := Except Fault α

end Tributary
