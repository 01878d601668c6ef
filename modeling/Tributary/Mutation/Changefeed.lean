import Tributary.Json.Record
import Tributary.Mutation.Basic

/-!
# Changefeeds

A changefeed is text with one change on each line, given as a JSON record with the fields `after`,
`before`, `key` and `updated`. A line whose `after` is missing or null describes a deletion.

* `Changefeed.parseLine`: the mutation of a line.
* `Changefeed.lines`: the lines of a body; a line ends with a line feed, perhaps behind a carriage
  return.
* `Changefeed.parse`: the mutations of a body, blank lines skipped, with the metadata of the feed.
-/

namespace Tributary.Changefeed

open Text

/-- The kind of source that the metadata of these changes names. -/
def sourceName : String := "cdc"

/-- The fields of a line, in the order in which an array lists them. -/
def fieldNames : List String := ["after", "before", "key", "updated"]

/-- The fields of a line. The first three keep null apart from nothing only until they are used. -/
structure Line where
  after : Value
  before : Value
  key : Value
  updated : Option String
  deriving Repr

/-- A field that may hold any value; missing is null. The line itself is open around it. -/
def anyField? : Option Json.Raw → Option Value
  | none => some .null
  | some raw => raw.value? (Json.maxNesting - 1)

/-- A field that holds a string or null. -/
def stringField? : Option Json.Raw → Option (Option String)
  | none | some .null => some none
  | some (.string bytes) => (Json.Raw.string? bytes).map some
  | some _ => none

/-- The fields of a line given as bytes. -/
def readLine? (bytes : List UInt8) : Option Line :=
  match (Json.Raw.read? bytes).bind (Json.Raw.record? fieldNames) with
  | some [after, before, key, updated] =>
    match anyField? after, anyField? before, anyField? key, stringField? updated with
    | some after, some before, some key, some updated => some ⟨after, before, key, updated⟩
    | _, _, _, _ => none
  | _ => none

/-- A document, or nothing for null. -/
def optionalDocument : Value → Result (Option Document)
  | .null => .ok none
  | v =>
    match Document.ofValue? v with
    | some d => .ok (some d)
    | none => .error (.notDocument v.typeName)

/-- The values of a key; null has none. -/
def keyValues : Value → Result (List Value)
  | .null => .ok []
  | .array items => .ok items
  | v => .error (.keyNotArray v.typeName)

/-- The mutation that the fields of a line describe. The time is looked at first, then the key, the
row after the change, and the row before it. -/
def Line.toMutation (line : Line) : Result Mutation := do
  let updated ←
    match line.updated with
    | none | some "" => throw .missingUpdated
    | some updated => pure updated
  let time ← Hlc.parse updated
  let key ← keyValues line.key
  let data ← optionalDocument line.after
  let before ← optionalDocument line.before
  return ⟨before, data, key, time, .empty⟩

/-- The mutation of a line given as bytes. -/
def parseLine (bytes : List UInt8) : Result Mutation :=
  match readLine? bytes with
  | none => .error .unreadableJson
  | some line => line.toMutation

/-! ## Bodies -/

/-- Splits a text behind every line feed, which is taken away. No line follows the last one. -/
def splitLines : List Char → List (List Char × Bool)
  | [] => []
  | c :: cs =>
    if c = '\n' then ([], true) :: splitLines cs
    else
      match splitLines cs with
      | [] => [([c], false)]
      | (line, ended) :: rest => (c :: line, ended) :: rest

/-- Takes a carriage return away from the end of a line that a line feed ended. -/
def dropReturn (line : List Char × Bool) : List Char :=
  if line.2 && line.1.getLast? == some '\r' then line.1.dropLast else line.1

/-- The lines of a body. -/
def lines (body : List Char) : List (List Char) := (splitLines body).map dropReturn

/-- The number of bytes of a text. -/
def byteCount : List Char → Nat
  | [] => 0
  | c :: cs => c.utf8Size + byteCount cs

/-- The mutations of numbered lines. The first line that is too long or unreadable decides. -/
def parseLines (table : TableName) (limit : Nat) : Nat → List (List Char) → Result (List Mutation)
  | _, [] => .ok []
  | number, line :: rest =>
    if line.all isBlank then parseLines table limit (number + 1) rest
    else if limit < byteCount line then .error (.lineTooLong number (byteCount line) limit)
    else
      match parseLine (String.ofList line).toUTF8.toList with
      | .error fault => .error fault
      | .ok m =>
        (parseLines table limit (number + 1) rest).map
          ({ m with origin := sourceMeta sourceName table m.time } :: ·)

/-- The mutations of a body. -/
def parse (body : String) (table : TableName) (limit : Nat) : Result (List Mutation) :=
  parseLines table limit 1 (lines body.toList)

end Tributary.Changefeed
