import Tributary.Number.Extended
import Tributary.Text.Lowercase
import Tributary.Value.Basic
import Tributary.Yaml.Node

/-!
# Settings

A setting is what configuration has under one name. It is read leniently: a number or a truth value
stands for its text, and a text for the number that it spells.

* `Setting.ofValue`, `Setting.ofNode?`: the settings that JSON and YAML write down.
* `Setting.asText?`, `Setting.asCount?`: lenient readings.
-/

namespace Tributary

open Text

/-- Nothing, a scalar, a list, or a table of named settings. -/
inductive Setting where
  | nothing
  | bool (b : Bool)
  | integer (n : Int)
  | float (x : Extended)
  | text (s : String)
  | list (items : List Setting)
  | table (entries : List (String × Setting))
  deriving Repr, Inhabited

namespace Setting

/-- The setting under a name in a table; other settings have none. -/
def get? (s : Setting) (name : String) : Option Setting :=
  match s with
  | table entries => entries.lookup name
  | _ => none

/-! ## Formats -/

/-- A number of JSON as a setting; an integer beyond the signed range becomes a float. -/
def ofNumber : Number → Setting
  | .integer n _ => if n < 9223372036854775808 then .integer n else .float (.finite (.ofInt n))
  | .float x => .float (.finite x)

mutual

/-- A JSON value as a setting. -/
def ofValue : Value → Setting
  | .null => .nothing
  | .bool b => .bool b
  | .number n => ofNumber n
  | .string s => .text s
  | .array items => .list (ofValues items)
  | .document fields => .table (ofFields fields)

/-- The items of an array as settings. -/
def ofValues : List Value → List Setting
  | [] => []
  | v :: vs => ofValue v :: ofValues vs

/-- The properties of a document as settings. -/
def ofFields : List (String × Value) → List (String × Setting)
  | [] => []
  | (name, v) :: rest => (name, ofValue v) :: ofFields rest

end

/-- The name that a node spells; what has no text is no name. -/
def nameOf? : Yaml.Node → Option String
  | .text s => some s
  | .integer n => some (signedText n)
  | .real spelling => some spelling
  | .bool b => some (if b then "true" else "false")
  | _ => none

mutual

/-- A YAML node as a setting, or `none` if it has a real number in a spelling that only YAML knows or
a key that is no name. -/
def ofNode? : Yaml.Node → Option Setting
  | .null => some .nothing
  | .bool b => some (.bool b)
  | .integer n => some (.integer n)
  | .real spelling => (Extended.ofText? spelling).map Setting.float
  | .text s => some (.text s)
  | .sequence items => (ofNodes? items).map Setting.list
  | .mapping entries => (ofEntries? entries).map Setting.table

/-- The items of a sequence as settings. -/
def ofNodes? : List Yaml.Node → Option (List Setting)
  | [] => some []
  | n :: ns =>
    match ofNode? n, ofNodes? ns with
    | some s, some rest => some (s :: rest)
    | _, _ => none

/-- The entries of a mapping as settings. -/
def ofEntries? : List (Yaml.Node × Yaml.Node) → Option (List (String × Setting))
  | [] => some []
  | (key, n) :: rest =>
    match nameOf? key, ofNode? n, ofEntries? rest with
    | some name, some s, some rest => some ((name, s) :: rest)
    | _, _, _ => none

end

/-! ## Lenient readings -/

/-- A setting as a text. -/
def asText? : Setting → Option String
  | text s => some s
  | integer n => some (signedText n)
  | float x => some x.text
  | bool b => some (if b then "true" else "false")
  | _ => none

/-- The number that a text spells; words for truth values count as one and zero. -/
def countOfText? (s : String) : Option Nat :=
  let word := lowercase s
  if ["true", "on", "yes"].contains word then some 1
  else if ["false", "off", "no"].contains word then some 0
  else (readNat 18446744073709551615 s.toList).toOption

/-- A setting as a count that goes up to `largest`. -/
def asCount? (largest : Nat) (s : Setting) : Option Nat :=
  let count : Option Nat :=
    match s with
    | integer n => if 0 ≤ n then some n.toNat else none
    | float x => some x.count
    | text s => countOfText? s
    | bool b => some (if b then 1 else 0)
    | _ => none
  count.filter fun n => n ≤ largest

/-- A count that has been read is not above the largest one. -/
theorem le_of_asCount? {largest n : Nat} {s : Setting} (h : s.asCount? largest = some n) :
    n ≤ largest := by
  simpa using (Option.filter_eq_some_iff.1 h).2

end Setting

end Tributary
