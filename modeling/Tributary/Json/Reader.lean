import Tributary.Json.Literal
import Tributary.Value.Document

/-!
# Reading JSON

JSON text is read in two steps. The grammar comes first and gives a `Raw` tree: number literals and
the bytes of strings as they stand. Meaning comes second, and only for the parts that are used, so
that a skipped part is held to the grammar alone.

* `Raw.read?`: the tree of a whole byte sequence.
* `Raw.string?`: the characters of a string; the bytes must be UTF-8 and surrogates must pair up.
* `Raw.value?`: the value of a tree; it may open at most `room` brackets inside one another.
* `parse?`: both steps, with room for `maxNesting` brackets.
-/

namespace Tributary.Json

/-- Brackets that may be open at the same time. -/
def maxNesting : Nat := 127

/-- A JSON text whose grammar has been checked. -/
inductive Raw where
  | null
  | bool (b : Bool)
  | number (literal : Literal)
  | string (bytes : List UInt8)
  | array (items : List Raw)
  | object (members : List (List UInt8 × Raw))
  deriving Inhabited

/-! ## Grammar -/

namespace Raw

/-- Space, tab, line feed and carriage return. -/
def isSpace (b : UInt8) : Bool := b == 0x20 || b == 0x09 || b == 0x0A || b == 0x0D

/-- Skips white space. -/
def skipSpace (bs : List UInt8) : List UInt8 := bs.dropWhile isSpace

/-- The value of a hexadecimal digit. -/
def hex? (b : UInt8) : Option Nat :=
  if 0x30 ≤ b ∧ b ≤ 0x39 then some (b.toNat - 0x30)
  else if 0x41 ≤ b ∧ b ≤ 0x46 then some (b.toNat - 0x41 + 10)
  else if 0x61 ≤ b ∧ b ≤ 0x66 then some (b.toNat - 0x61 + 10)
  else none

/-- Whether a byte may follow a backslash alone. -/
def isShortEscape (b : UInt8) : Bool :=
  b == 0x22 || b == 0x5C || b == 0x2F || b == 0x62 || b == 0x66 || b == 0x6E || b == 0x72 || b == 0x74

/-- The bytes of a string up to its closing quote, escapes kept as they stand, and the rest. -/
def readString? : List UInt8 → Option (List UInt8 × List UInt8)
  | [] => none
  | 0x22 :: rest => some ([], rest)
  | 0x5C :: 0x75 :: a :: b :: c :: d :: rest =>
    if (hex? a).isSome && (hex? b).isSome && (hex? c).isSome && (hex? d).isSome then
      (readString? rest).map fun r => (0x5C :: 0x75 :: a :: b :: c :: d :: r.1, r.2)
    else none
  | 0x5C :: b :: rest =>
    if isShortEscape b then (readString? rest).map fun r => (0x5C :: b :: r.1, r.2) else none
  | b :: rest =>
    if b < 0x20 || b == 0x5C then none else (readString? rest).map fun r => (b :: r.1, r.2)

/-- Removes a word from the start of a byte sequence. -/
def dropWord? : List UInt8 → List UInt8 → Option (List UInt8)
  | [], bs => some bs
  | w :: ws, b :: bs => if w == b then dropWord? ws bs else none
  | _ :: _, [] => none

mutual

/-- The tree at the start of a byte sequence, and the rest. Every call takes a byte away, so the
length of the sequence is fuel enough. -/
def readTree? : Nat → List UInt8 → Option (Raw × List UInt8)
  | 0, _ => none
  | fuel + 1, bs =>
    match skipSpace bs with
    | 0x6E :: rest => (dropWord? [0x75, 0x6C, 0x6C] rest).map (Raw.null, ·)
    | 0x74 :: rest => (dropWord? [0x72, 0x75, 0x65] rest).map (Raw.bool true, ·)
    | 0x66 :: rest => (dropWord? [0x61, 0x6C, 0x73, 0x65] rest).map (Raw.bool false, ·)
    | 0x22 :: rest => (readString? rest).map fun r => (Raw.string r.1, r.2)
    | 0x5B :: rest =>
      match skipSpace rest with
      | 0x5D :: rest => some (Raw.array [], rest)
      | rest => (readItems? fuel rest).map fun r => (Raw.array r.1, r.2)
    | 0x7B :: rest =>
      match skipSpace rest with
      | 0x7D :: rest => some (Raw.object [], rest)
      | rest => (readMembers? fuel rest).map fun r => (Raw.object r.1, r.2)
    | rest => (Literal.read? rest).map fun r => (Raw.number r.1, r.2)

/-- The items of an array that is not empty, up to its closing bracket. -/
def readItems? : Nat → List UInt8 → Option (List Raw × List UInt8)
  | 0, _ => none
  | fuel + 1, bs =>
    match readTree? fuel bs with
    | none => none
    | some (item, rest) =>
      match skipSpace rest with
      | 0x5D :: rest => some ([item], rest)
      | 0x2C :: rest => (readItems? fuel rest).map fun r => (item :: r.1, r.2)
      | _ => none

/-- The members of an object that is not empty, up to its closing brace. -/
def readMembers? : Nat → List UInt8 → Option (List (List UInt8 × Raw) × List UInt8)
  | 0, _ => none
  | fuel + 1, bs =>
    match skipSpace bs with
    | 0x22 :: rest =>
      match readString? rest with
      | none => none
      | some (name, rest) =>
        match skipSpace rest with
        | 0x3A :: rest =>
          match readTree? fuel rest with
          | none => none
          | some (member, rest) =>
            match skipSpace rest with
            | 0x7D :: rest => some ([(name, member)], rest)
            | 0x2C :: rest => (readMembers? fuel rest).map fun r => ((name, member) :: r.1, r.2)
            | _ => none
        | _ => none
    | _ => none

end

/-- The tree of a whole byte sequence. -/
def read? (bs : List UInt8) : Option Raw :=
  match readTree? (2 * bs.length + 2) bs with
  | some (tree, rest) => if (skipSpace rest).isEmpty then some tree else none
  | none => none

/-! ## Meaning -/

/-- The number that four hexadecimal digits denote. -/
def hexWord (a b c d : UInt8) : Nat :=
  (hex? a).getD 0 * 4096 + (hex? b).getD 0 * 256 + (hex? c).getD 0 * 16 + (hex? d).getD 0

/-- The byte that a short escape stands for. -/
def shortEscape (b : UInt8) : UInt8 :=
  if b = 0x62 then 0x08
  else if b = 0x66 then 0x0C
  else if b = 0x6E then 0x0A
  else if b = 0x72 then 0x0D
  else if b = 0x74 then 0x09
  else b

/-- The UTF-8 bytes of a code point that is no surrogate. -/
def codePointBytes (n : Nat) : List UInt8 := (String.singleton (Char.ofNat n)).toUTF8.toList

/-- Replaces escapes by what they stand for. A surrogate must be the first of a pair. -/
def unescape? : List UInt8 → Option (List UInt8)
  | [] => some []
  | 0x5C :: 0x75 :: a :: b :: c :: d :: rest =>
    let n := hexWord a b c d
    if n < 0xD800 ∨ 0xE000 ≤ n then (unescape? rest).map (codePointBytes n ++ ·)
    else if 0xDC00 ≤ n then none
    else
      match rest with
      | 0x5C :: 0x75 :: e :: f :: g :: h :: rest =>
        let m := hexWord e f g h
        if 0xDC00 ≤ m ∧ m < 0xE000 then
          (unescape? rest).map
            (codePointBytes (0x10000 + (n - 0xD800) * 0x400 + (m - 0xDC00)) ++ ·)
        else none
      | _ => none
  | 0x5C :: b :: rest => (unescape? rest).map (shortEscape b :: ·)
  | b :: rest => (unescape? rest).map (b :: ·)

/-- The characters that the bytes of a string stand for. -/
def string? (bytes : List UInt8) : Option String :=
  (unescape? bytes).bind fun bs => String.fromUTF8? ⟨bs.toArray⟩

mutual

/-- The value of a tree that may open `room` brackets inside one another. -/
def value? : Nat → Raw → Option Value
  | _, .null => some .null
  | _, .bool b => some (.bool b)
  | _, .number l => l.number?.map Value.number
  | _, .string bytes => (string? bytes).map Value.string
  | room + 1, .array items => (values? room items).map Value.array
  | room + 1, .object members =>
    (members? room members).map fun fields => .document (Document.ofList fields).fields
  | 0, .array _ | 0, .object _ => none

/-- The values of the items of an array. -/
def values? : Nat → List Raw → Option (List Value)
  | _, [] => some []
  | room, item :: items =>
    match value? room item, values? room items with
    | some v, some vs => some (v :: vs)
    | _, _ => none

/-- The values of the members of an object, repeated names included. -/
def members? : Nat → List (List UInt8 × Raw) → Option (List (String × Value))
  | _, [] => some []
  | room, (name, member) :: members =>
    match string? name, value? room member, members? room members with
    | some n, some v, some fields => some ((n, v) :: fields)
    | _, _, _ => none

end

end Raw

/-! ## Both steps -/

/-- The value of a JSON text given as bytes. -/
def parse? (bytes : List UInt8) : Option Value :=
  (Raw.read? bytes).bind (Raw.value? maxNesting)

/-- The value of a JSON text. -/
def parseText? (s : String) : Option Value := parse? s.toUTF8.toList

end Tributary.Json
