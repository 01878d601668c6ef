import Tributary.Text.Unprintable

/-!
# Quoted text

Text between double quotes in which nothing is invisible.

* `quoteChar`: a character inside the quotes; quotes and backslashes are escaped, and a character
  that cannot be seen is shown by its code point.
* `quote`: a whole text.
-/

namespace Tributary.Text

/-- A character inside quotes. -/
def quoteChar (c : Char) : List Char :=
  if c = '\"' then ['\\', '\"']
  else if c = '\\' then ['\\', '\\']
  else if c = '\n' then ['\\', 'n']
  else if c = '\r' then ['\\', 'r']
  else if c = '\t' then ['\\', 't']
  else if c.toNat = 0 then ['\\', '0']
  else if isUnprintable c then
    ['\\', 'u', '\x7b'] ++ Nat.toDigits 16 c.toNat ++ ['\x7d']
  else [c]

/-- A text between quotes. -/
def quote (s : String) : String :=
  String.ofList ('\"' :: (s.toList.flatMap quoteChar ++ ['\"']))

end Tributary.Text
