import Tributary.Clock.Span
import Tributary.Fault.Catalogue
import Tributary.Json.Record

/-!
# Runtime options

The options of the engine, their flags, and the checks on them.

* `Options.validate`: the first constraint that options break, if any.
* `Options.set`: changes the option of one flag; the options that come out must be valid as a whole.
* `Options.attempts`: the attempts at a write, one more than the retries; the sum is one of 32 bits.
* `Options.ofJson?`: options from a JSON record, missing fields taking their defaults.
-/

namespace Tributary

open Text

/-- The runtime options. -/
structure Options where
  /-- The dead-letter queue of changes whose processing failed. -/
  defaultDlq : String
  /-- The largest time that one call of a user function may take. -/
  functionTimeout : Span
  /-- The largest nesting that a recursing source is followed into. -/
  maxDepth : Nat
  /-- The number of row groups that are applied at the same time. -/
  parallelism : Nat
  /-- The number of shards that rows are locked by. -/
  lockShards : Nat
  /-- How often a row that changed between read and write is tried again. -/
  staleRetries : UInt32
  /-- The largest length of a changefeed line in bytes. -/
  lineLimit : Nat
  deriving DecidableEq, Repr

/-- Why an option cannot be set. -/
inductive OptionFlaw where
  | unknownOption (name : String)
  | invalidValue (key value reason : String)
  | invalidField (field constraint : String)
  deriving DecidableEq, Repr

namespace OptionFlaw

/-- The wording of a flaw. -/
def message : OptionFlaw → String
  | unknownOption name => s!"unknown option `{name}`"
  | invalidValue key value reason => s!"invalid value `{value}` for option `{key}`: {reason}"
  | invalidField field constraint => s!"invalid value for `{field}`: {constraint}"

/-- The name of a flaw in reports. -/
def name : OptionFlaw → String
  | unknownOption _ => "UnknownOption"
  | invalidValue .. => "InvalidOptionValue"
  | invalidField .. => "InvalidFieldValue"

/-- A flaw as a fault of the configuration. -/
def toFault (flaw : OptionFlaw) : Fault := .invalidOption flaw.message

end OptionFlaw

/-- The flags by which options are set. -/
inductive Flag where
  | defaultDlq
  | functionTimeout
  | maxDepth
  | parallelism
  | lockShards
  | staleRetries
  | lineLimit
  deriving DecidableEq, Repr

namespace Flag

/-- All flags. -/
def all : List Flag :=
  [defaultDlq, functionTimeout, maxDepth, parallelism, lockShards, staleRetries, lineLimit]

/-- The name of a flag. -/
def name : Flag → String
  | defaultDlq => "defaultDlq"
  | functionTimeout => "userFunctionTimeout"
  | maxDepth => "maxRecursionDepth"
  | parallelism => "applyParallelism"
  | lockShards => "rowLockShards"
  | staleRetries => "staleWriteRetries"
  | lineLimit => "ndjsonBufferSize"

/-- The name of the option in files and reports. -/
def field : Flag → String
  | defaultDlq => "default_dlq"
  | functionTimeout => "user_function_timeout"
  | maxDepth => "max_recursion_depth"
  | parallelism => "apply_parallelism"
  | lockShards => "row_lock_shards"
  | staleRetries => "stale_write_retries"
  | lineLimit => "ndjson_buffer_size"

/-- The flag of a name. -/
def ofName? (s : String) : Option Flag := all.find? fun flag => flag.name == s

/-- The largest value of an option that counts something. -/
def largest : Flag → Nat
  | staleRetries => 4294967295
  | _ => 18446744073709551615

end Flag

namespace Options

/-- The options that hold where nothing is set. -/
def default : Options := ⟨"dlq", .ofSecs 5, 32, 16, 256, 3, 65536⟩

instance : Inhabited Options := ⟨default⟩

/-! ## Attempts -/

/-- How often a write is attempted in all. The sum wraps around, as it does in a build that does not check for
overflow: the largest number of retries, which every check on options accepts, leaves no attempt at all. A build that
does check stops with a panic in place of the first attempt. -/
def attempts (o : Options) : Nat := (o.staleRetries + 1).toNat

theorem attempts_eq (o : Options) : o.attempts = (o.staleRetries.toNat + 1) % 4294967296 := by
  rw [attempts, UInt32.toNat_add]
  rfl

/-- Short of the largest number of retries there is one attempt more. -/
theorem attempts_of_lt {o : Options} (h : o.staleRetries.toNat < 4294967295) :
    o.attempts = o.staleRetries.toNat + 1 := by
  rw [attempts_eq]
  omega

theorem attempts_eq_zero_iff {o : Options} : o.attempts = 0 ↔ o.staleRetries = 4294967295 := by
  have hlt := o.staleRetries.toNat_lt
  rw [attempts_eq, ← UInt32.toNat_inj]
  show _ ↔ o.staleRetries.toNat = 4294967295
  omega

/-! ## Constraints -/

/-- Whether the option of a flag satisfies its constraint. -/
def satisfies (o : Options) : Flag → Bool
  | .defaultDlq => o.defaultDlq != ""
  | .functionTimeout => o.functionTimeout.toNanos != 0
  | .maxDepth => o.maxDepth != 0
  | .parallelism => o.parallelism != 0
  | .lockShards => o.lockShards != 0
  | .staleRetries => true
  | .lineLimit => o.lineLimit != 0

/-- The wording of the constraint of a flag. -/
def constraint : Flag → String
  | .defaultDlq => "must not be empty"
  | _ => "must be greater than 0"

/-- The first broken constraint, if any. -/
def validate (o : Options) : Except OptionFlaw Unit :=
  match Flag.all.find? fun flag => !o.satisfies flag with
  | some flag => .error (.invalidField flag.field (constraint flag))
  | none => .ok ()

/-- Whether all constraints are satisfied. -/
def isValid (o : Options) : Bool := Flag.all.all o.satisfies

/-! ## Setting options -/

/-- A count as the text of a flag gives it. -/
def readCount (flag : Flag) (value : String) : Except OptionFlaw Nat :=
  match readNat flag.largest (trimChars value.toList) with
  | .ok n => .ok n
  | .error flaw => .error (.invalidValue flag.name value flaw.message)

/-- A span as the text of a flag gives it. -/
def readSpan (flag : Flag) (value : String) : Except OptionFlaw Span :=
  match Span.parseChars (trimChars value.toList) with
  | .ok s => .ok s
  | .error flaw => .error (.invalidValue flag.name value flaw.message)

/-- Replaces the option of a flag by what a text gives, without a look at the constraints. -/
def replace (o : Options) (flag : Flag) (value : String) : Except OptionFlaw Options :=
  match flag with
  | .defaultDlq => .ok { o with defaultDlq := trim value }
  | .functionTimeout => (readSpan flag value).map fun s => { o with functionTimeout := s }
  | .maxDepth => (readCount flag value).map fun n => { o with maxDepth := n }
  | .parallelism => (readCount flag value).map fun n => { o with parallelism := n }
  | .lockShards => (readCount flag value).map fun n => { o with lockShards := n }
  | .staleRetries => (readCount flag value).map fun n => { o with staleRetries := .ofNat n }
  | .lineLimit => (readCount flag value).map fun n => { o with lineLimit := n }

/-- Sets the option of a flag. -/
def setFlag (o : Options) (flag : Flag) (value : String) : Except OptionFlaw Options :=
  match o.replace flag value with
  | .error flaw => .error flaw
  | .ok updated =>
    match updated.validate with
    | .error flaw => .error flaw
    | .ok () => .ok updated

/-- Sets the option of the flag with a given name. -/
def set (o : Options) (key value : String) : Except OptionFlaw Options :=
  match Flag.ofName? key with
  | none => .error (.unknownOption key)
  | some flag => o.setFlag flag value

/-! ## Records -/

/-- The options as properties. -/
def toValue (o : Options) : Value :=
  (Document.ofList
    [("default_dlq", .string o.defaultDlq),
     ("user_function_timeout", .string o.functionTimeout.text),
     ("max_recursion_depth", .number (.ofNat o.maxDepth)),
     ("apply_parallelism", .number (.ofNat o.parallelism)),
     ("row_lock_shards", .number (.ofNat o.lockShards)),
     ("stale_write_retries", .number (.ofNat o.staleRetries.toNat)),
     ("ndjson_buffer_size", .number (.ofNat o.lineLimit))]).toValue

/-- A field that must be a string. -/
def textField? (fallback : String) : Option Json.Raw → Option String
  | none => some fallback
  | some (.string bytes) => Json.Raw.string? bytes
  | some _ => none

/-- A field that must be the text of a span. -/
def spanField? (fallback : Span) : Option Json.Raw → Option Span
  | none => some fallback
  | some (.string bytes) => (Json.Raw.string? bytes).bind fun s => (Span.parse s).toOption
  | some _ => none

/-- A field that must be an integer literal from zero to the largest value of its flag. -/
def countField? (fallback : Nat) (flag : Flag) : Option Json.Raw → Option Nat
  | none => some fallback
  | some (.number literal) =>
    match literal.integer? with
    | some (.integer n _) => if 0 ≤ n ∧ n ≤ flag.largest then some n.toNat else none
    | _ => none
  | some _ => none

/-- The options that a JSON text holds. -/
def ofJson? (text : String) : Option Options := do
  let raw ← Json.Raw.read? text.toUTF8.toList
  match ← Json.Raw.record? (Flag.all.map Flag.field) raw with
  | [queue, timeout, depth, parallelism, shards, retries, limit] =>
    return ⟨← textField? default.defaultDlq queue,
      ← spanField? default.functionTimeout timeout,
      ← countField? default.maxDepth .maxDepth depth,
      ← countField? default.parallelism .parallelism parallelism,
      ← countField? default.lockShards .lockShards shards,
      .ofNat (← countField? default.staleRetries.toNat .staleRetries retries),
      ← countField? default.lineLimit .lineLimit limit⟩
  | _ => none

end Options

end Tributary
