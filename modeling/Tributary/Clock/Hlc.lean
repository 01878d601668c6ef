import Tributary.Clock.Instant
import Tributary.Fault.Catalogue

/-!
# Hybrid logical clocks

A reading of a hybrid logical clock is a wall time in nanoseconds and a logical counter. Its text is
`<nanos>.<logical>`, the counter being filled up to ten characters.

* `Hlc.order`: wall time first, then the counter.
* `Hlc.text`, `Hlc.ofChars?`: writing and reading; in reading the counter may be left out.
-/

namespace Tributary

open Text

/-- A clock reading: a signed 64-bit wall time and a signed 32-bit counter. -/
structure Hlc where
  nanos : Int
  logical : Int
  nanosBounded : -9223372036854775808 ≤ nanos ∧ nanos < 9223372036854775808
  logicalBounded : -2147483648 ≤ logical ∧ logical < 2147483648
  deriving DecidableEq, Repr

namespace Hlc

instance : Inhabited Hlc := ⟨⟨0, 0, by decide, by decide⟩⟩

/-- The reading with given parts, if they are in range. -/
def ofParts? (nanos logical : Int) : Option Hlc :=
  if h : (-9223372036854775808 ≤ nanos ∧ nanos < 9223372036854775808) ∧ (-2147483648 ≤ logical ∧ logical < 2147483648) then
    some ⟨nanos, logical, h.1, h.2⟩
  else none

/-- Wall times compare first. -/
def order (a b : Hlc) : Ordering := (compare a.nanos b.nanos).then (compare a.logical b.logical)

/-- The wall time. -/
def instant (h : Hlc) : Instant := .ofNanos h.nanos

/-- The written form. -/
def chars (h : Hlc) : List Char := signed h.nanos ++ '.' :: padded 10 h.logical

/-- The written form as a string. -/
def text (h : Hlc) : String := String.ofList h.chars

/-- The reading with given texts for its parts. -/
def ofTexts? (nanos logical : List Char) : Option Hlc :=
  match readInt 64 nanos, readInt 32 logical with
  | .ok n, .ok l => ofParts? n l
  | _, _ => none

/-- The reading that a text spells. -/
def ofChars? (cs : List Char) : Option Hlc :=
  match cs.dropWhile (· != '.') with
  | [] => ofTexts? cs ['0']
  | _ :: logical => ofTexts? (cs.takeWhile (· != '.')) logical

/-- As `ofChars?`, but a counter is required, so a plain integer is no reading. -/
def ofDotted? (cs : List Char) : Option Hlc := if '.' ∈ cs then ofChars? cs else none

/-- The reading that a string spells. -/
def parse (raw : String) : Result Hlc :=
  match ofChars? raw.toList with
  | some h => .ok h
  | none => .error (.invalidHlc raw)

end Hlc

end Tributary
