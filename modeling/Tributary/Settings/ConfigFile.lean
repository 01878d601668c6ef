import Tributary.Json.Reader
import Tributary.Settings.Setting
import Tributary.Yaml.Stream

/-!
# Configuration files

A configuration file is a table of settings, written in YAML or in JSON.

* `ConfigFile.parse?`: the settings of a file, the format of which its extension tells.
-/

namespace Tributary.ConfigFile

/-- The formats of configuration files. -/
inductive Format where
  | yaml
  | json
  deriving DecidableEq, Repr

/-- The extensions of configuration files in the order in which they are looked for. -/
def extensions : List (String × Format) := [("yaml", .yaml), ("yml", .yaml), ("json", .json)]

/-- The entries of a setting that is a table. -/
def entries? : Setting → Option (List (String × Setting))
  | .table es => some es
  | _ => none

/-- The content of a file without the mark of its encoding. -/
def unmarked (content : String) : String :=
  match content.toList with
  | '\ufeff' :: cs => String.ofList cs
  | _ => content

/-- The settings of a file. A YAML file holds at most one document, and one without any is empty. -/
def parse? (format : Format) (content : String) : Option (List (String × Setting)) :=
  match format with
  | .json => (Json.parseText? (unmarked content)).bind fun v => entries? (.ofValue v)
  | .yaml =>
    match Yaml.documents? (unmarked content) with
    | some [] => some []
    | some [root] => (Setting.ofNode? root).bind entries?
    | _ => none

end Tributary.ConfigFile
