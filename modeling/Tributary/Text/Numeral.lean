import Tributary.Number.Power

/-!
# Integers in decimal

How integers are written and read.

* `decimal`, `signed`: the digits of a natural number, and of an integer behind its sign.
* `padded`: an integer filled up with zeros between its sign and its digits.
* `readNat`, `readInt`: a whole text as an integer of a bounded range. One sign may lead
  (for natural numbers only a plus), and the first character that is no digit or makes the number
  leave its range decides the `NumeralFlaw`.
-/

namespace Tributary.Text

/-! ## Writing -/

/-- The decimal digits of a natural number. -/
def decimal (n : Nat) : List Char := Nat.toDigits 10 n

/-- An integer with a minus in front when it is negative. -/
def signed (n : Int) : List Char :=
  if n < 0 then '-' :: decimal n.natAbs else decimal n.natAbs

/-- An integer of at least `width` characters, zeros standing between the sign and the digits. -/
def padded (width : Nat) (n : Int) : List Char :=
  let digits := decimal n.natAbs
  if n < 0 then '-' :: (List.replicate (width - 1 - digits.length) '0' ++ digits)
  else List.replicate (width - digits.length) '0' ++ digits

/-- `decimal` as a string. -/
def decimalText (n : Nat) : String := String.ofList (decimal n)

/-- `signed` as a string. -/
def signedText (n : Int) : String := String.ofList (signed n)

/-! ## Reading -/

/-- Why a text is not an integer of the wanted range. -/
inductive NumeralFlaw where
  | empty
  | invalidDigit
  | tooLarge
  | tooSmall
  deriving DecidableEq, Repr

/-- The wording of a flaw. -/
def NumeralFlaw.message : NumeralFlaw → String
  | .empty => "cannot parse integer from empty string"
  | .invalidDigit => "invalid digit found in string"
  | .tooLarge => "number too large to fit in target type"
  | .tooSmall => "number too small to fit in target type"

/-- The value of an ASCII digit. -/
def digit? (c : Char) : Option Nat :=
  if c.isDigit then some (c.toNat - '0'.toNat) else none

/-- Appends the digits of a text to the number `n`, which may not pass `limit`. -/
def readDigits (limit : Nat) (excess : NumeralFlaw) (n : Nat) : List Char → Except NumeralFlaw Nat
  | [] => .ok n
  | c :: cs =>
    match digit? c with
    | none => .error .invalidDigit
    | some d => if limit < n * 10 + d then .error excess else readDigits limit excess (n * 10 + d) cs

/-- At least one digit is needed after a sign. -/
def readUnsigned (limit : Nat) (excess : NumeralFlaw) : List Char → Except NumeralFlaw Nat
  | [] => .error .invalidDigit
  | cs => readDigits limit excess 0 cs

/-- A natural number of at most `limit`, behind an optional plus. -/
def readNat (limit : Nat) : List Char → Except NumeralFlaw Nat
  | [] => .error .empty
  | '+' :: cs => readUnsigned limit .tooLarge cs
  | cs => readUnsigned limit .tooLarge cs

/-- An integer of the `bits`-bit two's complement range, behind an optional sign. -/
def readInt (bits : Nat) : List Char → Except NumeralFlaw Int
  | [] => .error .empty
  | '-' :: cs => (readUnsigned (twoTo (bits - 1)) .tooSmall cs).map fun n => -(n : Int)
  | '+' :: cs => (readUnsigned (twoTo (bits - 1) - 1) .tooLarge cs).map Int.ofNat
  | cs => (readUnsigned (twoTo (bits - 1) - 1) .tooLarge cs).map Int.ofNat

end Tributary.Text
