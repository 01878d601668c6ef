import Tributary.Clock.Hlc
import Tributary.Value.Basic

/-!
# Timestamps in text and numbers

A timestamp can be spelled in four ways, tried in this order on the text without outer blanks.

* `rfc3339?`: a date and a time with an offset from UTC.
* `plain?`: a date and a time in UTC; blanks may stand before every number.
* an `Hlc`, whose counter is not looked at.
* a whole number of seconds since the epoch.

`Timestamp.parse?` tries them all, and `Timestamp.ofValue` also takes numbers, as seconds with a
fraction.
-/

namespace Tributary.Timestamp

open Text

/-! ## Parts of a date -/

/-- A reader of the start of a text. -/
abbrev Reader (α : Type) := List Char → Option (α × List Char)

/-- The number that digit characters denote. -/
def natOf (ds : List Char) : Nat := ds.foldl (fun n c => n * 10 + (c.toNat - '0'.toNat)) 0

/-- Exactly `count` digits. -/
def fixedDigits (count : Nat) : Reader Nat := fun cs =>
  let ds := cs.take count
  if ds.length = count ∧ ds.all Char.isDigit then some (natOf ds, cs.drop count) else none

/-- At least one digit and at most `most`. -/
def someDigits (most : Nat) : Reader Nat := fun cs =>
  let ds := (cs.take most).takeWhile Char.isDigit
  if ds.isEmpty then none else some (natOf ds, cs.drop ds.length)

/-- One character of a set. -/
def oneOf (allowed : List Char) : Reader Char
  | c :: cs => if c ∈ allowed then some (c, cs) else none
  | [] => none

/-- A point and digits, of which nine count, as nanoseconds; zero where there is no point. -/
def nanoseconds : Reader Nat
  | '.' :: cs =>
    let ds := cs.takeWhile Char.isDigit
    if ds.isEmpty then none
    else
      let counted := ds.take 9
      some (natOf counted * tenTo (9 - counted.length), cs.drop ds.length)
  | cs => some (0, cs)

/-- The instant of a date and a time of day in UTC. The second sixty is a leap second: it is the
second fifty-nine with a thousand million more nanoseconds. -/
def instant? (year : Int) (month day hour minute second nanos : Nat) : Option Instant :=
  if isDate year month day ∧ hour ≤ 23 ∧ minute ≤ 59 ∧ second ≤ 60 then
    let inDay := hour * 3600 + minute * 60 + min second 59
    some ⟨daysFromEpoch year month day * 86400 + inDay,
      nanos + (if second = 60 then 1000000000 else 0)⟩
  else none

/-! ## With an offset -/

/-- The offset from UTC in seconds: `Z`, or a sign, hours and minutes. -/
def offset? (cs : List Char) : Option (Int × List Char) := do
  let (mark, cs) ← oneOf ['Z', 'z', '+', '-', '\u2212'] cs
  if mark = 'Z' ∨ mark = 'z' then return (0, cs)
  let (hours, cs) ← fixedDigits 2 cs
  let (_, cs) ← oneOf [':'] cs
  let (minutes, cs) ← fixedDigits 2 cs
  if 59 < minutes ∨ 23 < hours then none
  let total : Int := hours * 3600 + minutes * 60
  return (if mark = '+' then total else -total, cs)

/-- A date and a time with an offset: `YYYY-MM-DD`, a `T` or one space, `HH:MM:SS`, perhaps a
fraction, and the offset. -/
def rfc3339? (cs : List Char) : Option Instant := do
  let (year, cs) ← fixedDigits 4 cs
  let (_, cs) ← oneOf ['-'] cs
  let (month, cs) ← fixedDigits 2 cs
  let (_, cs) ← oneOf ['-'] cs
  let (day, cs) ← fixedDigits 2 cs
  let (_, cs) ← oneOf ['T', 't', ' '] cs
  let (hour, cs) ← fixedDigits 2 cs
  let (_, cs) ← oneOf [':'] cs
  let (minute, cs) ← fixedDigits 2 cs
  let (_, cs) ← oneOf [':'] cs
  let (second, cs) ← fixedDigits 2 cs
  let (nanos, cs) ← nanoseconds cs
  let (offset, cs) ← offset? cs
  let wall ← instant? year month day hour minute second nanos
  if cs.isEmpty then return ⟨wall.secs - offset, wall.nanos⟩ else none

/-! ## In UTC -/

/-- A reader behind optional blanks. -/
def afterBlanks {α : Type} (reader : Reader α) : Reader α := fun cs =>
  reader (cs.dropWhile isBlank)

/-- A year: any number of digits behind a sign, or at most four digits. -/
def year : Reader Int
  | '+' :: cs => (someDigits cs.length cs).map fun r => ((r.1 : Int), r.2)
  | '-' :: cs => (someDigits cs.length cs).map fun r => (-(r.1 : Int), r.2)
  | cs => (someDigits 4 cs).map fun r => ((r.1 : Int), r.2)

/-- The first representable year. -/
def minYear : Int := -262143

/-- The last representable year. -/
def maxYear : Int := 262142

/-- A date and a time in UTC: `Y-M-D H:M:S`, perhaps with a fraction. -/
def plain? (cs : List Char) : Option Instant := do
  let (year, cs) ← afterBlanks year cs
  let (_, cs) ← oneOf ['-'] cs
  let (month, cs) ← afterBlanks (someDigits 2) cs
  let (_, cs) ← oneOf ['-'] cs
  let (day, cs) ← afterBlanks (someDigits 2) cs
  let (hour, cs) ← afterBlanks (someDigits 2) cs
  let (_, cs) ← oneOf [':'] cs
  let (minute, cs) ← afterBlanks (someDigits 2) cs
  let (_, cs) ← oneOf [':'] cs
  let (second, cs) ← afterBlanks (someDigits 2) cs
  let (nanos, cs) ← nanoseconds cs
  if cs.isEmpty ∧ minYear ≤ year ∧ year ≤ maxYear then
    instant? year month day hour minute second nanos
  else none

/-! ## All spellings -/

/-- Whole seconds since the epoch. -/
def seconds? (cs : List Char) : Option Instant :=
  match readInt 64 cs with
  | .ok secs => Instant.ofSecs? secs 0
  | .error _ => none

/-- The instant that a text spells. -/
def parseChars? (cs : List Char) : Option Instant :=
  let cs := trimChars cs
  (rfc3339? cs).or <| (plain? cs).or <| ((Hlc.ofDotted? cs).map Hlc.instant).or (seconds? cs)

/-- The instant that a string spells. -/
def parse? (raw : String) : Option Instant := parseChars? raw.toList

/-! ## Values -/

/-- The fraction of a second above the floor of a number, in nanoseconds. The difference and the
product are rounded to binary64, and the result to the nearest integer, a half upwards. -/
def fractionNanos (x : Binary64) : Nat :=
  let r := Binary64.ratio x.magnitude
  let above := if x.negative then -(r.1 : Int) else r.1
  let num := (above - x.floor * r.2).toNat
  let fraction := Binary64.ratio ((Binary64.roundRatio num r.2).getD 0)
  let scaled := Binary64.ratio
    ((Binary64.roundRatio (fraction.1 * 1000000000) fraction.2).getD 0)
  min ((2 * scaled.1 + scaled.2) / (2 * scaled.2)) 999999999

/-- The instant of a number of seconds since the epoch. -/
def ofNumber (n : Number) : Result Instant :=
  let x := n.toBinary64
  match Instant.ofSecs? x.floor (fractionNanos x) with
  | some t => .ok t
  | none => .error (.timestampRange (String.ofList n.text))

/-- The instant of a value; null has none. -/
def ofValue : Value → Result (Option Instant)
  | .null => .ok none
  | .number n => (ofNumber n).map some
  | .string raw =>
    match parse? raw with
    | some t => .ok (some t)
    | none => .error (.invalidTimestamp raw)
  | v => .error (.notTimestamp v.typeName)

end Tributary.Timestamp
