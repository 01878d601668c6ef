import Tributary.Json.Reader

/-!
# Records in JSON

A record is a JSON value with a fixed list of named fields. It is written as an object, in any
order, or as an array with the fields in the order of the list.

* `Raw.record?`: the trees of the fields that are present, in the order of the list. Members of an
  object under other names are skipped; a field that is given twice, or an array that is too long,
  makes the whole unreadable.
-/

namespace Tributary.Json.Raw

/-- The tree of a field among named members, `none` inside if it is missing. -/
def field? (name : String) (members : List (String × Raw)) : Option (Option Raw) :=
  match members.filter fun member => member.1 == name with
  | [] => some none
  | [member] => some (some member.2)
  | _ => none

/-- Members with their names decoded. -/
def named? : List (List UInt8 × Raw) → Option (List (String × Raw))
  | [] => some []
  | (name, member) :: members =>
    match string? name, named? members with
    | some n, some rest => some ((n, member) :: rest)
    | _, _ => none

/-- The trees of the fields of a record. -/
def record? (names : List String) : Raw → Option (List (Option Raw))
  | .object members => (named? members).bind fun members => names.mapM fun name => field? name members
  | .array items =>
    if names.length < items.length then none
    else some (items.map some ++ List.replicate (names.length - items.length) none)
  | _ => none

end Tributary.Json.Raw
