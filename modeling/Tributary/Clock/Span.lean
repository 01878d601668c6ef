import Tributary.Text.Blank
import Tributary.Text.Numeral

/-!
# Spans of time

A span is a length of time in seconds and nanoseconds. Its text is a sequence of numbers with
units, such as `2h 30m` or `1.5s`.

* `Span.parse`: the span of a text. A number may have a fraction; offsets in messages count bytes.
* `Span.text`: years, months and days as words, smaller units as letters.
* `Span.ofNanos`, `Span.toNanos`: spans as whole numbers of nanoseconds.
-/

namespace Tributary

open Text

/-- A length of time. -/
structure Span where
  secs : Nat
  nanos : Nat
  normal : nanos < 1000000000
  deriving DecidableEq, Repr

namespace Span

/-- The number of nanoseconds. -/
def toNanos (s : Span) : Nat := s.secs * 1000000000 + s.nanos

/-- The span of a number of nanoseconds. -/
def ofNanos (n : Nat) : Span :=
  ⟨n / 1000000000, n % 1000000000, Nat.mod_lt _ (by decide)⟩

/-- The empty span. -/
def zero : Span := ⟨0, 0, by decide⟩

instance : Inhabited Span := ⟨zero⟩

/-- The span of a number of milliseconds. -/
def ofMillis (n : Nat) : Span := ofNanos (n * 1000000)

/-- The span of a number of seconds. -/
def ofSecs (n : Nat) : Span := ⟨n, 0, by decide⟩

theorem toNanos_ofNanos (n : Nat) : (ofNanos n).toNanos = n := by
  simp only [toNanos, ofNanos]
  omega

/-! ## Units -/

/-- The units of time. -/
inductive Unit where
  | nanosecond | microsecond | millisecond | second | minute | hour | day | week | month | year
  deriving DecidableEq, Repr

namespace Unit

/-- The spellings of a unit. -/
def spellings : Unit → List String
  | nanosecond => ["nanos", "nsec", "ns"]
  | microsecond => ["usec", "us", "µs"]
  | millisecond => ["millis", "msec", "ms"]
  | second => ["seconds", "second", "secs", "sec", "s"]
  | minute => ["minutes", "minute", "min", "mins", "m"]
  | hour => ["hours", "hour", "hr", "hrs", "h"]
  | day => ["days", "day", "d"]
  | week => ["weeks", "week", "wk", "wks", "w"]
  | month => ["months", "month", "M"]
  | year => ["years", "year", "yr", "yrs", "y"]

/-- All units. -/
def all : List Unit :=
  [nanosecond, microsecond, millisecond, second, minute, hour, day, week, month, year]

/-- The unit that a word spells. -/
def ofText? (s : String) : Option Unit := all.find? fun unit => unit.spellings.contains s

/-- The length of a unit: in nanoseconds where it is shorter than a second, else in seconds. -/
def length : Unit → Nat
  | nanosecond => 1
  | microsecond => 1000
  | millisecond => 1000000
  | second => 1
  | minute => 60
  | hour => 3600
  | day => 86400
  | week => 604800
  | month => 2630016
  | year => 31557600

/-- Whether a whole number of the unit is counted in nanoseconds. -/
def isShort : Unit → Bool
  | nanosecond | microsecond | millisecond => true
  | _ => false

/-- The nanoseconds of a unit whose fractions are counted in nanoseconds: up to the minute, but
for the nanosecond itself, which has none. -/
def fine? : Unit → Option Nat
  | microsecond => some 1000
  | millisecond => some 1000000
  | second => some 1000000000
  | minute => some 60000000000
  | _ => none

end Unit

/-! ## Reading -/

/-- Why a text is no span. -/
inductive Flaw where
  | empty
  | numberExpected (offset : Nat)
  | invalidCharacter (offset : Nat)
  | overflow
  | unitNeeded (number : Nat)
  | unknownUnit (word : String)
  deriving DecidableEq, Repr

/-- The wording of a flaw. -/
def Flaw.message : Flaw → String
  | empty => "value was empty"
  | numberExpected offset => s!"expected number at {offset}"
  | invalidCharacter offset => s!"invalid character at {offset}"
  | overflow =>
    "number is too large or cannot be represented without a lack of precision (values below 1ns are not supported)"
  | unitNeeded number => s!"time unit needed, for example {number}sec or {number}ms"
  | unknownUnit word =>
    s!"unknown time unit \"{word}\", supported units: ns, us/µs, ms, sec, min, hours, days, weeks, months, years (and few variations)"

/-- Numbers stay below this bound. -/
def wordLimit : Nat := 18446744073709551616

/-- Whether a character belongs to a unit. -/
def isUnitChar (c : Char) : Bool := c.isAlpha || c == 'µ'

/-- A fraction: its digits as a number, over a power of ten. -/
structure Fraction where
  numerator : Nat
  denominator : Nat
  deriving Repr

/-- A number and its fraction, with the text from its unit on and the offset of that text. -/
structure Quantity where
  whole : Nat
  fraction : Option Fraction
  offset : Nat
  rest : List Char
  deriving Repr

/-- The fraction behind a point. The offset in messages is `mark`: that of the point until something
follows it, then that of the next character. -/
def readFraction (f : Fraction) (mark offset : Nat) : List Char →
    Except Flaw (Fraction × Nat × List Char)
  | [] => if f.denominator = 1 then .error (.invalidCharacter mark) else .ok (f, offset, [])
  | c :: cs =>
    match digit? c with
    | some d =>
      if wordLimit ≤ f.denominator * 10 then .error .overflow
      else
        readFraction ⟨f.numerator * 10 + d, f.denominator * 10⟩ (offset + c.utf8Size)
          (offset + c.utf8Size) cs
    | none =>
      if isBlank c then readFraction f (offset + c.utf8Size) (offset + c.utf8Size) cs
      else if isUnitChar c then
        if f.denominator = 1 then .error (.invalidCharacter mark) else .ok (f, offset, c :: cs)
      else .error (.invalidCharacter mark)

/-- The number that starts with the digits read so far. Blanks may stand inside it. -/
def readQuantity (n offset : Nat) : List Char → Except Flaw Quantity
  | [] => .ok ⟨n, none, offset, []⟩
  | c :: cs =>
    match digit? c with
    | some d =>
      if wordLimit ≤ n * 10 + d then .error .overflow
      else readQuantity (n * 10 + d) (offset + c.utf8Size) cs
    | none =>
      if isBlank c then readQuantity n (offset + c.utf8Size) cs
      else if isUnitChar c then .ok ⟨n, none, offset, c :: cs⟩
      else if c = '.' then
        (readFraction ⟨0, 1⟩ offset (offset + 1) cs).map fun r => ⟨n, some r.1, r.2.1, r.2.2⟩
      else .error (.invalidCharacter offset)

/-- The unit at the start of a text: its characters, and the text and offset from the next digit on.
A blank ends a unit and is taken with it. -/
def readUnit (offset : Nat) : List Char → Except Flaw (List Char × Nat × List Char)
  | [] => .ok ([], offset, [])
  | c :: cs =>
    if c.isDigit then .ok ([], offset, c :: cs)
    else if isBlank c then .ok ([], offset + c.utf8Size, cs)
    else if isUnitChar c then
      (readUnit (offset + c.utf8Size) cs).map fun r => (c :: r.1, r.2)
    else .error (.invalidCharacter offset)

/-- Adds seconds and nanoseconds to a span, both of which must stay words. -/
def add (s : Span) (secs nanos : Nat) : Except Flaw Span :=
  let total := s.nanos + nanos
  let sum := s.secs + secs + total / 1000000000
  if wordLimit ≤ total ∨ wordLimit ≤ sum then .error .overflow
  else .ok ⟨sum, total % 1000000000, Nat.mod_lt _ (by decide)⟩

/-- A number times the length of a unit, which must stay a word. -/
def times (n length : Nat) : Except Flaw Nat :=
  if wordLimit ≤ n * length then .error .overflow else .ok (n * length)

/-- A fraction of a length, which must be a whole number. -/
def part (f : Fraction) (length : Nat) : Except Flaw Nat :=
  match times f.numerator length with
  | .error flaw => .error flaw
  | .ok n => if n % f.denominator = 0 then .ok (n / f.denominator) else .error .overflow

/-- Adds a number of units to a span. -/
def addWhole (s : Span) (n : Nat) (unit : Unit) : Except Flaw Span :=
  match times n unit.length with
  | .error flaw => .error flaw
  | .ok amount => if unit.isShort then s.add 0 amount else s.add amount 0

/-- Adds a fraction of a unit to a span. -/
def addFraction (s : Span) (f : Fraction) (unit : Unit) : Except Flaw Span :=
  match unit.fine? with
  | some length =>
    match part f length with
    | .error flaw => .error flaw
    | .ok nanos => s.add 0 nanos
  | none =>
    if unit = .nanosecond then .error .overflow
    else
      match part f unit.length with
      | .error flaw => .error flaw
      | .ok secs => s.add secs 0

/-- Adds a quantity with the unit that a word spells. -/
def addQuantity (s : Span) (q : Quantity) (word : List Char) : Except Flaw Span :=
  if word.isEmpty then .error (.unitNeeded q.whole)
  else
    match Unit.ofText? (String.ofList word) with
    | none => .error (.unknownUnit (String.ofList word))
    | some unit =>
      match s.addWhole q.whole unit, q.fraction with
      | .error flaw, _ => .error flaw
      | .ok s, none => .ok s
      | .ok s, some f => s.addFraction f unit

/-- The first digit from an offset on, behind blanks; `none` at the end of the text. -/
def firstDigit (start offset : Nat) : List Char → Except Flaw (Option (Nat × Nat × List Char))
  | [] => .ok none
  | c :: cs =>
    match digit? c with
    | some d => .ok (some (d, offset + c.utf8Size, cs))
    | none =>
      if isBlank c then firstDigit start (offset + c.utf8Size) cs
      else .error (.numberExpected start)

/-- Adds the quantities of a text to a span. Each one takes a character away, so the length of the
text is fuel enough. -/
def sumQuantities : Nat → Span → Nat → Nat → List Char → Except Flaw Span
  | 0, s, _, _, _ => .ok s
  | fuel + 1, s, n, offset, cs =>
    match readQuantity n offset cs with
    | .error flaw => .error flaw
    | .ok q =>
      match readUnit q.offset q.rest with
      | .error flaw => .error flaw
      | .ok (word, offset, rest) =>
        match s.addQuantity q word with
        | .error flaw => .error flaw
        | .ok s =>
          match firstDigit offset offset rest with
          | .error flaw => .error flaw
          | .ok none => .ok s
          | .ok (some (d, offset, rest)) => sumQuantities fuel s d offset rest

/-- The span of a text. A lone zero needs no unit. -/
def parseChars (cs : List Char) : Except Flaw Span :=
  if cs = ['0'] then .ok zero
  else
    match firstDigit 0 0 cs with
    | .error flaw => .error flaw
    | .ok none => .error .empty
    | .ok (some (d, offset, rest)) => sumQuantities (cs.length + 1) zero d offset rest

/-- `parseChars` on strings. -/
def parse (s : String) : Except Flaw Span := parseChars s.toList

/-! ## Writing -/

/-- A count of a unit that is written as a word, if there is any. -/
def worded (count : Nat) (word : String) : List String :=
  if count = 0 then [] else if count = 1 then [s!"1{word}"] else [s!"{count}{word}s"]

/-- A count of a unit that is written as a letter, if there is any. -/
def lettered (count : Nat) (letters : String) : List String :=
  if count = 0 then [] else [s!"{count}{letters}"]

/-- The text of a span. -/
def text (s : Span) : String :=
  if s.secs = 0 ∧ s.nanos = 0 then "0s"
  else
    let inYear := s.secs % 31557600
    let inMonth := inYear % 2630016
    let inDay := inMonth % 86400
    " ".intercalate <|
      worded (s.secs / 31557600) "year" ++ worded (inYear / 2630016) "month" ++
      worded (inMonth / 86400) "day" ++ lettered (inDay / 3600) "h" ++
      lettered (inDay % 3600 / 60) "m" ++ lettered (inDay % 60) "s" ++
      lettered (s.nanos / 1000000) "ms" ++ lettered (s.nanos / 1000 % 1000) "us" ++
      lettered (s.nanos % 1000) "ns"

end Span

end Tributary
