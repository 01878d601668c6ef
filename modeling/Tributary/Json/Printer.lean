import Tributary.Value.Document

/-!
# Compact JSON text

The one written form of a value: no white space, properties in the order in which the document
lists them, and an escape only where JSON demands one.

* `escape`: one character inside a string.
* `Value.chars`, `Value.text`: the written form of a value.
* `Document.text`: the written form of a document.
-/

namespace Tributary

namespace Json

/-- A hexadecimal digit. -/
def hexDigit (n : Nat) : Char := Nat.digitChar n

/-- A character inside a string: quotes, backslashes and the controls below `U+0020` are escaped. -/
def escape (c : Char) : List Char :=
  if c = '\"' then ['\\', '\"']
  else if c = '\\' then ['\\', '\\']
  else if c = '\n' then ['\\', 'n']
  else if c = '\r' then ['\\', 'r']
  else if c = '\t' then ['\\', 't']
  else if c = '\x08' then ['\\', 'b']
  else if c = '\x0c' then ['\\', 'f']
  else if c.toNat < 0x20 then
    ['\\', 'u', '0', '0', hexDigit (c.toNat / 16), hexDigit (c.toNat % 16)]
  else [c]

/-- A string between its quotes. -/
def quoted (s : String) : List Char := '\"' :: (s.toList.flatMap escape ++ ['\"'])

end Json

namespace Value

mutual

/-- The written form of a value. -/
def chars : Value → List Char
  | .null => ['n', 'u', 'l', 'l']
  | .bool true => ['t', 'r', 'u', 'e']
  | .bool false => ['f', 'a', 'l', 's', 'e']
  | .number n => n.text
  | .string s => Json.quoted s
  | .array items => '[' :: itemChars items
  | .document fields => '\x7b' :: fieldChars fields

/-- The items of an array and its closing bracket. -/
def itemChars : List Value → List Char
  | [] => [']']
  | [v] => chars v ++ [']']
  | v :: vs => chars v ++ ',' :: itemChars vs

/-- The properties of a document and its closing brace. -/
def fieldChars : List (String × Value) → List Char
  | [] => ['\x7d']
  | [(n, v)] => Json.quoted n ++ ':' :: (chars v ++ ['\x7d'])
  | (n, v) :: rest => Json.quoted n ++ ':' :: (chars v ++ ',' :: fieldChars rest)

end

/-- The written form of a value as a string. -/
def text (v : Value) : String := String.ofList v.chars

end Value

/-- The written form of a document as a string. -/
def Document.text (d : Document) : String := d.toValue.text

end Tributary
