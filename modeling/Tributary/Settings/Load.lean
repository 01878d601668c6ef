import Tributary.Settings.ConfigFile
import Tributary.Settings.Environment
import Tributary.Settings.Options
import Tributary.Settings.Path

/-!
# Layered configuration

Options come from a base file, from a file for the runtime environment, and from environment
variables; later layers win.

* `Load.findFile`: the first file of a stem among the known extensions.
* `Load.ofVariables`: the settings that variables make: `APP_NAME` sets `name`, and two underscores
  stand for the point in front of a nested name.
* `Load.options`: the options of all layers, for a given runtime environment.
* `Load.fromVariables`: as `options`, the variables choosing the runtime environment.
-/

namespace Tributary.Load

open Text

/-- Why configuration cannot be loaded. -/
inductive Flaw where
  | missingDirectory (directory : String)
  | fileMissing (stem directory attempted : String)
  | fileUnreadable (file : String)
  | unreadable
  | environment (reason : String)
  deriving DecidableEq, Repr

namespace Flaw

/-- The name of a flaw in reports. -/
def name : Flaw → String
  | missingDirectory _ => "MissingConfigurationDirectory"
  | fileMissing .. => "ConfigurationFileMissing"
  | fileUnreadable _ => "ConfigurationFileLoad"
  | unreadable => "Deserialization"
  | environment _ => "Environment"

/-- The wording of a flaw; an unreadable file is only named. -/
def message? : Flaw → Option String
  | missingDirectory directory => some s!"configuration directory `{directory}` does not exist"
  | fileMissing stem directory attempted =>
    some s!"could not locate `{stem}` configuration in `{directory}`; attempted: {attempted}"
  | fileUnreadable file => some file
  | unreadable => none
  | environment reason => some s!"failed to determine runtime environment: {reason}"

end Flaw

/-- Files by name. -/
abbrev Files := List (String × String)

/-- The directory of configuration files below a base path. -/
def directory (base : String) : String := base ++ "/configuration"

/-- The names that are looked for under a stem. -/
def candidates (stem : String) : List (String × ConfigFile.Format) :=
  ConfigFile.extensions.map fun e => (s!"{stem}.{e.1}", e.2)

/-- The first file of a stem. -/
def findFile (base : String) (files : Files) (stem : String) :
    Except Flaw (String × ConfigFile.Format × String) :=
  let found := (candidates stem).findSome? fun c => (files.lookup c.1).map fun s => (c.1, c.2, s)
  match found with
  | some file => .ok file
  | none =>
    let folder := directory base
    let paths := (candidates stem).map fun c =>
      let file := c.1
      s!"`{folder}/{file}`"
    .error (.fileMissing stem folder (", ".intercalate paths))

/-- The settings of a file. -/
def readFile (file : String × ConfigFile.Format × String) :
    Except Flaw (List (String × Setting)) :=
  match ConfigFile.parse? file.2.1 file.2.2 with
  | some settings => .ok settings
  | none => .error (.fileUnreadable file.1)

/-! ## Variables -/

/-- What the names of variables with settings start with, in lower case. -/
def variablePrefix : List Char := "app_".toList

/-- The variable that names the runtime environment. -/
def environmentVariable : String := "APP_ENVIRONMENT"

/-- Makes a point of every two underscores. -/
def dotted : List Char → List Char
  | '_' :: '_' :: cs => '.' :: dotted cs
  | c :: cs => c :: dotted cs
  | [] => []

/-- The setting that a variable makes, under its key. -/
def setting? (var : String × String) : Option (String × Setting) :=
  let name := (lowercase var.1).toList
  if variablePrefix.isPrefixOf name then
    some (String.ofList (dotted (name.drop variablePrefix.length)), .text var.2)
  else none

/-- The settings that variables make. -/
def ofVariables (vars : List (String × String)) : List (String × Setting) :=
  vars.filterMap setting?

/-! ## Layers -/

/-- A setting as a text, or a default where there is none. -/
def textOr (settings : Setting) (field fallback : String) : Except Flaw String :=
  match settings.get? field with
  | none => .ok fallback
  | some v =>
    match v.asText? with
    | some s => .ok s
    | none => .error .unreadable

/-- A setting as a span, or a default where there is none. -/
def spanOr (settings : Setting) (field : String) (fallback : Span) : Except Flaw Span :=
  match settings.get? field with
  | none => .ok fallback
  | some v =>
    match (v.asText?).map Span.parse with
    | some (.ok s) => .ok s
    | _ => .error .unreadable

/-- The setting of a flag as a count, or a default where there is none. -/
def countOr (settings : Setting) (flag : Flag) (fallback : Nat) : Except Flaw Nat :=
  match settings.get? flag.field with
  | none => .ok fallback
  | some v =>
    match v.asCount? flag.largest with
    | some n => .ok n
    | none => .error .unreadable

/-- The options that settings give; they are not validated. -/
def toOptions (settings : Setting) : Except Flaw Options := do
  let d := Options.default
  return {
    defaultDlq := ← textOr settings Flag.defaultDlq.field d.defaultDlq
    functionTimeout := ← spanOr settings Flag.functionTimeout.field d.functionTimeout
    maxDepth := ← countOr settings .maxDepth d.maxDepth
    parallelism := ← countOr settings .parallelism d.parallelism
    lockShards := ← countOr settings .lockShards d.lockShards
    staleRetries := .ofNat (← countOr settings .staleRetries d.staleRetries.toNat)
    lineLimit := ← countOr settings .lineLimit d.lineLimit }

/-- The options of all layers. Both files are looked for before either is read. -/
def options (base : String) (files : Option Files) (environment : Environment)
    (vars : List (String × String)) : Except Flaw Options := do
  match files with
  | none => throw (.missingDirectory (directory base))
  | some files =>
    let baseFile ← findFile base files "base"
    let overFile ← findFile base files environment.name
    let baseSettings ← readFile baseFile
    let overSettings ← readFile overFile
    toOptions (.ofEntries (baseSettings ++ overSettings ++ ofVariables vars))

/-- As `options`, in the runtime environment that a variable names, else in development. -/
def fromVariables (base : String) (files : Option Files) (vars : List (String × String)) :
    Except Flaw Options :=
  match vars.lookup environmentVariable with
  | none => options base files .dev vars
  | some name =>
    match Environment.parse name with
    | .ok environment => options base files environment vars
    | .error reason => .error (.environment reason)

end Tributary.Load
