import Tributary.Yaml.Cursor

/-!
# Block scalars

A block scalar is the lines below a bar or an angle that are indented far enough. Behind a bar the
lines stand as they are; behind an angle they are folded into paragraphs.

* `block?`: the block scalar at a cursor.
-/

namespace Tributary.Yaml

/-- What becomes of the line breaks at the end of a block scalar. -/
inductive Chomping where
  | strip
  | clip
  | keep
  deriving DecidableEq, Repr

/-! ## Headers -/

/-- The sign of a chomping, if one stands here. -/
def chomping? : List Char → Option Chomping
  | '+' :: _ => some .keep
  | '-' :: _ => some .strip
  | _ => none

/-- A digit that states an indentation; zero states none. -/
def increment? (c : Cursor) : Option (Nat × Cursor) :=
  match c.rest with
  | [] => some (0, c)
  | x :: _ =>
    if x == '0' then none
    else if x.isDigit then some (x.toNat - '0'.toNat, c.step)
    else some (0, c)

/-- The chomping and the indentation that a header states, in either order. -/
def blockHeader? (c : Cursor) : Option (Chomping × Nat × Cursor) :=
  match chomping? c.rest with
  | some chomping => (increment? c.step).map fun r => (chomping, r.1, r.2)
  | none =>
    (increment? c).map fun r =>
      match chomping? r.2.rest with
      | some chomping => (chomping, r.1, r.2.step)
      | none => (.clip, r.1, r.2)

/-! ## Lines -/

/-- Past up to so many columns of spaces. -/
def indentTo (indent : Nat) (c : Cursor) : Cursor :=
  c.skip (min (c.rest.takeWhile (· == ' ')).length (indent - c.column))

/-- Past empty lines and the indentation behind them; counts the lines. -/
def emptyLines (indent : Nat) : Nat → Nat → Cursor → Nat × Cursor
  | 0, count, c => (count, c)
  | fuel + 1, count, c =>
    let c := indentTo indent c
    match c.rest with
    | [] => (count, c)
    | x :: _ => if isBreak x then emptyLines indent fuel (count + 1) c.newline else (count, c)

/-- Past empty lines and all spaces behind them; counts the lines and gives the widest column. -/
def leadingLines : Nat → Nat → Nat → Cursor → Nat × Nat × Cursor
  | 0, count, widest, c => (count, widest, c)
  | fuel + 1, count, widest, c =>
    let c := c.skipWhile (· == ' ')
    let widest := max widest c.column
    match c.rest with
    | [] => (count, widest, c)
    | x :: _ =>
      if isBreak x then leadingLines fuel (count + 1) widest c.newline else (count, widest, c)

/-- The text of a block scalar under way. -/
structure Lines where
  text : List Char
  /-- Whether the last line has ended in a break. -/
  ended : Bool
  /-- The number of empty lines behind it. -/
  empty : Nat
  /-- Whether it starts with a blank. -/
  spaced : Bool
  deriving Repr

/-- The break and the empty lines between a line and the next one. Folding makes a space of the
break, or drops it in front of empty lines, where neither line starts with a blank. -/
def joint (literal : Bool) (lines : Lines) (spaced : Bool) : List Char :=
  let empty := List.replicate lines.empty '\n'
  if !literal && lines.ended && !lines.spaced && !spaced then
    if lines.empty == 0 then [' '] else empty
  else if lines.ended then '\n' :: empty
  else empty

/-- The lines from here on. -/
def blockLines (literal : Bool) (indent : Nat) : Nat → Lines → Cursor → Lines × Cursor
  | 0, lines, c => (lines, c)
  | fuel + 1, lines, c =>
    if c.column != indent || c.rest.isEmpty || (indent == 0 && c.atMarks '.') then (lines, c)
    else
      let spaced := isSpace (c.rest.headD 'x')
      let line := c.rest.takeWhile fun x => !isBreak x
      let text := lines.text ++ joint literal lines spaced ++ line
      let c := c.skip line.length
      if c.rest.isEmpty then (⟨text, false, 0, spaced⟩, c)
      else
        let next := emptyLines indent (c.rest.length + 1) 0 c.newline
        blockLines literal indent fuel ⟨text, true, next.1, spaced⟩ next.2

/-- The text of the lines, the last line breaks chomped. A last line without a break gets one. -/
def chomp (chomping : Chomping) (indent : Nat) (lines : Lines) (c : Cursor) : List Char :=
  let last := if lines.ended then ['\n'] else []
  let missing := if c.rest.isEmpty && max indent 1 ≤ c.column then ['\n'] else []
  match chomping with
  | .strip => lines.text
  | .clip => lines.text ++ last ++ missing
  | .keep => lines.text ++ last ++ missing ++ List.replicate lines.empty '\n'

/-- The block scalar whose mark stands here, inside a block of a given indentation. -/
def block? (literal : Bool) (parent : Int) (c : Cursor) : Option (List Char × Cursor) := do
  let (chomping, increment, header) ← blockHeader? c.step
  let (_, header) ← header.toLineEnd? true
  if !endsLine header.rest then none
  else
    let below := if header.rest.isEmpty then header else header.newline
    if below.rest.head? == some '\t' then none
    else
      let stated : Nat := if 0 ≤ parent then parent.toNat + increment else increment
      let fuel := below.rest.length + 1
      let (count, indent, first) :=
        if increment == 0 then
          let leading := leadingLines fuel 0 0 below
          let least : Nat := max (parent + 1).toNat (if 0 < parent then 1 else 0)
          (leading.1, max leading.2.1 least, leading.2.2)
        else
          let leading := emptyLines stated fuel 0 below
          (leading.1, stated, leading.2)
      if first.rest.isEmpty then
        let text : List Char :=
          if first.line == c.line then []
          else
            match chomping with
            | .strip => []
            | .clip => ['\n']
            | .keep => List.replicate (max 1 count) '\n'
        return (text, first)
      else if first.column < indent && parent < first.column then none
      else
        let (lines, next) := blockLines literal indent fuel ⟨[], false, count, false⟩ first
        return (chomp chomping indent lines next, next)

end Tributary.Yaml
