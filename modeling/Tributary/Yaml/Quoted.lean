import Tributary.Yaml.Cursor

/-!
# Quoted scalars

A scalar between quotes may span lines. Between single quotes a quote is written twice; between
double quotes a backslash starts an escape.

* `escape?`: the character that an escape stands for.
* `quoted?`: the text from an opening to its closing quote.
-/

namespace Tributary.Yaml

/-! ## Escapes -/

/-- The value of a hexadecimal digit. -/
def hexDigit? (c : Char) : Option Nat :=
  if c.isDigit then some (c.toNat - '0'.toNat)
  else if 'a' ≤ c ∧ c ≤ 'f' then some (c.toNat - 'a'.toNat + 10)
  else if 'A' ≤ c ∧ c ≤ 'F' then some (c.toNat - 'A'.toNat + 10)
  else none

/-- The number that hexadecimal digits append to another one. -/
def hexNumber? (n : Nat) : List Char → Option Nat
  | [] => some n
  | c :: cs => (hexDigit? c).bind fun d => hexNumber? (16 * n + d) cs

/-- The character whose code point the first `count` characters of a text spell. -/
def codePoint? (count : Nat) (cs : List Char) : Option Char :=
  if cs.length < count then none
  else
    (hexNumber? 0 (cs.take count)).bind fun n =>
      if n.isValidChar then some (Char.ofNat n) else none

/-- The character that an escape stands for, and how many characters behind the backslash it has. -/
def escape? : List Char → Option (Char × Nat)
  | [] => none
  | c :: cs =>
    match c with
    | '0' => some ('\x00', 1)
    | 'a' => some ('\x07', 1)
    | 'b' => some ('\x08', 1)
    | 't' | '\t' => some ('\t', 1)
    | 'n' => some ('\n', 1)
    | 'v' => some ('\x0b', 1)
    | 'f' => some ('\x0c', 1)
    | 'r' => some ('\r', 1)
    | 'e' => some ('\x1b', 1)
    | ' ' => some (' ', 1)
    | '\"' => some ('\"', 1)
    | '/' => some ('/', 1)
    | '\\' => some ('\\', 1)
    | 'N' => some ('\u0085', 1)
    | '_' => some ('\u00a0', 1)
    | 'L' => some ('\u2028', 1)
    | 'P' => some ('\u2029', 1)
    | 'x' => (codePoint? 2 cs).map fun x => (x, 3)
    | 'u' => (codePoint? 4 cs).map fun x => (x, 5)
    | 'U' => (codePoint? 8 cs).map fun x => (x, 9)
    | _ => none

/-! ## Bodies -/

/-- The gap that starts here. Behind an escaped line break no blank counts and each further line
break does; in front of the indentation of a new line no tab may stand. -/
def quotedGap? (indent : Int) : Nat → Bool → List Char → Nat → Cursor → Option (List Char × Cursor)
  | 0, _, _, _, _ => none
  | fuel + 1, escaped, blanks, breaks, c =>
    match c.rest with
    | [] => none
    | x :: _ =>
      if isBreak x then quotedGap? indent fuel escaped blanks (breaks + 1) c.newline
      else if isSpace x then
        if escaped || breaks != 0 then
          if x == '\t' && c.column < indent then none
          else quotedGap? indent fuel escaped blanks breaks c.step
        else quotedGap? indent fuel escaped (blanks ++ [x]) breaks c.step
      else some (if escaped then List.replicate breaks '\n' else foldGap blanks breaks, c)

/-- The gap that starts here, in front of more text of the scalar on a line that is indented. -/
def innerGap? (indent : Int) (escaped : Bool) (c : Cursor) : Option (List Char × Cursor) :=
  match quotedGap? indent (c.rest.length + 1) escaped [] 0 c with
  | none => none
  | some (gap, next) =>
    if next.atBoundary || next.column < indent then none else some (gap, next)

/-- The text up to the closing quote, behind what has been read of it. -/
def quotedBody? (mark : Char) (indent : Int) : Nat → List Char → Cursor → Option (List Char × Cursor)
  | 0, _, _ => none
  | fuel + 1, text, c =>
    match c.rest with
    | [] => none
    | x :: xs =>
      if x == mark then
        if mark == '\'' && xs.head? == some '\'' then
          quotedBody? mark indent fuel (text ++ [x]) (c.skip 2)
        else some (text, c.step)
      else if mark == '\"' && x == '\\' then
        if !xs.isEmpty && endsLine xs then
          let next := c.step.newline
          if next.rest.head? == some mark then quotedBody? mark indent fuel text next
          else
            match innerGap? indent true next with
            | none => none
            | some (gap, next) => quotedBody? mark indent fuel (text ++ gap) next
        else
          match escape? xs with
          | none => none
          | some (y, count) => quotedBody? mark indent fuel (text ++ [y]) (c.skip (count + 1))
      else if isSpace x || isBreak x then
        match innerGap? indent false c with
        | none => none
        | some (gap, next) => quotedBody? mark indent fuel (text ++ gap) next
      else quotedBody? mark indent fuel (text ++ [x]) c.step

/-- Whether what stands behind a closing quote may stand there. A colon may if the scalar can be a
key: it has to be on one line, unless it stands in brackets. -/
def mayFollowQuote (flow : Bool) (line : Nat) (c : Cursor) : Bool :=
  match c.rest with
  | ':' :: _ => flow || line == c.line
  | ',' :: _ | ']' :: _ | '\x7d' :: _ => flow
  | rest => endsLine rest

/-- The scalar whose opening quote stands here; every line of it is indented at least so far. -/
def quoted? (mark : Char) (indent : Int) (flow : Bool) (c : Cursor) : Option (List Char × Cursor) :=
  match quotedBody? mark indent (c.rest.length + 1) [] c.step with
  | none => none
  | some (text, closed) =>
    match closed.toLineEnd? true with
    | none => none
    | some (_, next) => if mayFollowQuote flow c.line next then some (text, next) else none

end Tributary.Yaml
