import Tributary.Number.Basic

/-!
# Number literals

A JSON number literal and the number it stands for.

* `Literal.read?`: the longest literal at the start of a byte sequence.
* `Literal.number?`: an integer where the literal has neither fraction nor exponent and fits its
  range, and otherwise a float. Only as many leading digits count as fit 64 bits. A literal beyond
  the finite range stands for no number.
-/

namespace Tributary.Json

/-- The parts of a number literal, as digit values. -/
structure Literal where
  negative : Bool
  whole : List Nat
  fraction : Option (List Nat)
  /-- Whether the exponent is negative, and its digits. -/
  exponent : Option (Bool × List Nat)
  deriving Repr

namespace Literal

/-! ## Grammar -/

/-- The value of a byte that is a decimal digit. -/
def digit? (b : UInt8) : Option Nat :=
  if 0x30 ≤ b ∧ b ≤ 0x39 then some (b.toNat - 0x30) else none

/-- The digits at the start of a byte sequence, and the rest. -/
def readDigits : List UInt8 → List Nat × List UInt8
  | [] => ([], [])
  | b :: bs =>
    match digit? b with
    | none => ([], b :: bs)
    | some d => ((d :: (readDigits bs).1), (readDigits bs).2)

/-- One zero, or digits that start with another one. -/
def readWhole? (bs : List UInt8) : Option (List Nat × List UInt8) :=
  match readDigits bs with
  | ([], _) => none
  | (0 :: _ :: _, _) => none
  | (ds, rest) => some (ds, rest)

/-- A point and at least one digit, where there is a point. -/
def readFraction? : List UInt8 → Option (Option (List Nat) × List UInt8)
  | 0x2E :: bs =>
    match readDigits bs with
    | ([], _) => none
    | (ds, rest) => some (some ds, rest)
  | bs => some (none, bs)

/-- An optional sign and at least one digit. -/
def readPower? (bs : List UInt8) : Option ((Bool × List Nat) × List UInt8) :=
  let (negative, bs) :=
    match bs with
    | 0x2B :: rest => (false, rest)
    | 0x2D :: rest => (true, rest)
    | _ => (false, bs)
  match readDigits bs with
  | ([], _) => none
  | (ds, rest) => some ((negative, ds), rest)

/-- The mark of an exponent and its power, where there is a mark. -/
def readExponent? : List UInt8 → Option (Option (Bool × List Nat) × List UInt8)
  | 0x65 :: bs | 0x45 :: bs => (readPower? bs).map fun r => (some r.1, r.2)
  | bs => some (none, bs)

/-- The literal at the start of a byte sequence, and the rest. -/
def read? (bs : List UInt8) : Option (Literal × List UInt8) :=
  let (negative, bs) :=
    match bs with
    | 0x2D :: rest => (true, rest)
    | _ => (false, bs)
  (readWhole? bs).bind fun (whole, bs) =>
  (readFraction? bs).bind fun (fraction, bs) =>
  (readExponent? bs).map fun (exponent, bs) =>
  (⟨negative, whole, fraction, exponent⟩, bs)

/-! ## Value -/

/-- Appends digits to a number as long as it stays below `2 ^ 64`; also counts them. -/
def absorb (n : Nat) : List Nat → Nat × Nat
  | [] => (n, 0)
  | d :: ds =>
    if n * 10 + d < 18446744073709551616 then ((absorb (n * 10 + d) ds).1, (absorb (n * 10 + d) ds).2 + 1)
    else (n, 0)

/-- The number that digits denote. -/
def natOf (ds : List Nat) : Nat := ds.foldl (fun n d => n * 10 + d) 0

/-- The leading digits that count, and the power of ten that goes with them. -/
def parts (l : Literal) : Nat × Int :=
  let whole := absorb 0 l.whole
  let all := absorb whole.1 (l.fraction.getD [])
  let power : Int :=
    match l.exponent with
    | none => 0
    | some (negative, ds) => if negative then -(natOf ds : Int) else natOf ds
  (all.1, (l.whole.length : Int) - whole.2 - all.2 + power)

/-- The float that a literal stands for. -/
def float? (l : Literal) : Option Number :=
  let p := l.parts
  ((Binary64.scale p.1 p.2).bind (Binary64.ofMagnitude? l.negative)).map Number.float

/-- The integer that a literal stands for, unless it needs a float: negative zero does. -/
def integer? (l : Literal) : Option Number :=
  match l.fraction, l.exponent with
  | none, none =>
    if l.negative then
      if natOf l.whole = 0 ∨ 9223372036854775808 < natOf l.whole then none
      else Number.ofInt? (-(natOf l.whole : Int))
    else Number.ofInt? (natOf l.whole)
  | _, _ => none

/-- The number that a literal stands for, if it is finite. -/
def number? (l : Literal) : Option Number :=
  match l.integer? with
  | some n => some n
  | none => l.float?

end Literal

end Tributary.Json
