/-!
# Places in YAML text

A cursor is the part of a text that is still to be read, with its place in the whole.

* `Cursor.step`, `Cursor.newline`: past one character, and past one line break.
* `Cursor.rest_step`, `rest_skip`, `rest_skipWhile`: what is left behind them.
* `Cursor.toLineEnd?`: past blanks and the comment that they may set apart.
* `Cursor.atBoundary`: whether a line that starts or ends a document begins here.
-/

namespace Tributary.Yaml

/-! ## Classes of characters -/

/-- Space and tab. -/
def isSpace (c : Char) : Bool := c == ' ' || c == '\t'

/-- Line feed and carriage return. -/
def isBreak (c : Char) : Bool := c == '\n' || c == '\r'

/-- The marks of collections in brackets. -/
def isFlowMark (c : Char) : Bool :=
  c == ',' || c == '[' || c == ']' || c == '\x7b' || c == '\x7d'

/-- Characters of words: letters, digits, underscore and hyphen. -/
def isWord (c : Char) : Bool := c.isAlphanum || c == '_' || c == '-'

/-- Whether the line ends in front of a text. -/
def endsLine : List Char → Bool
  | [] => true
  | c :: _ => isBreak c

/-- Whether a blank, a line break or the end comes first in a text. -/
def endsWord : List Char → Bool
  | [] => true
  | c :: _ => isSpace c || isBreak c

/-- Whether the mark of a collection in brackets comes first in a text. -/
def startsFlow : List Char → Bool
  | [] => false
  | c :: _ => isFlowMark c

/-! ## Cursors -/

/-- A place in a text. -/
structure Cursor where
  rest : List Char
  line : Nat
  column : Nat
  /-- The number of characters in front. -/
  offset : Nat
  /-- Whether there are only blanks in front on the line. -/
  fresh : Bool
  deriving Repr

namespace Cursor

/-- The start of a text. -/
def start (text : List Char) : Cursor := ⟨text, 0, 0, 0, true⟩

/-- Past one character that is no line break. -/
def step (c : Cursor) : Cursor :=
  match c.rest with
  | [] => c
  | x :: xs => ⟨xs, c.line, c.column + 1, c.offset + 1, c.fresh && isSpace x⟩

/-- Past some characters, none of them a line break. -/
def skip (c : Cursor) : Nat → Cursor
  | 0 => c
  | n + 1 => c.step.skip n

/-- Past one line break, which may be two characters long. -/
def newline (c : Cursor) : Cursor :=
  match c.rest with
  | '\r' :: '\n' :: xs => ⟨xs, c.line + 1, 0, c.offset + 2, true⟩
  | _ :: xs => ⟨xs, c.line + 1, 0, c.offset + 1, true⟩
  | [] => c

/-- Past the characters of a class, none of them a line break. -/
def skipWhile (c : Cursor) (p : Char → Bool) : Cursor := c.skip (c.rest.takeWhile p).length

/-- Past one character, what follows it is left. -/
@[simp] theorem rest_step (c : Cursor) : c.step.rest = c.rest.tail := by
  unfold step
  split <;> simp_all

/-- Past some characters, what follows them is left. -/
@[simp] theorem rest_skip (c : Cursor) (n : Nat) : (c.skip n).rest = c.rest.drop n := by
  induction n generalizing c with
  | zero => rfl
  | succ n ih => rw [skip, ih, rest_step, List.drop_tail]

/-- Past the characters of a class, the text from the first other character on is left. -/
@[simp] theorem rest_skipWhile (c : Cursor) (p : Char → Bool) :
    (c.skipWhile p).rest = c.rest.dropWhile p := by
  have h : c.rest.takeWhile p ++ c.rest.dropWhile p = c.rest := List.takeWhile_append_dropWhile
  calc (c.skipWhile p).rest
    _ = c.rest.drop (c.rest.takeWhile p).length := rest_skip c _
    _ = (c.rest.takeWhile p ++ c.rest.dropWhile p).drop (c.rest.takeWhile p).length := by rw [h]
    _ = c.rest.dropWhile p := List.drop_left

/-- To the end of the line. -/
def skipLine (c : Cursor) : Cursor := c.skipWhile fun x => !isBreak x

/-- Past blanks, tabs among them only where they are admitted, and past a comment behind them; a
comment with no blank in front is refused. Also gives the blanks. -/
def toLineEnd? (tabs : Bool) (c : Cursor) : Option (List Char × Cursor) :=
  let blanks := c.rest.takeWhile fun x => x == ' ' || (tabs && x == '\t')
  let next := c.skip blanks.length
  match next.rest with
  | '#' :: _ => if blanks.isEmpty then none else some (blanks, next.skipLine)
  | _ => some (blanks, next)

/-- Whether three marks of a kind stand here as a word of their own. -/
def atMarks (mark : Char) (c : Cursor) : Bool :=
  match c.rest with
  | x :: y :: z :: rest => x == mark && y == mark && z == mark && endsWord rest
  | _ => false

/-- Whether the line starts with the mark of a document's start or end. -/
def atBoundary (c : Cursor) : Bool := c.column == 0 && (c.atMarks '-' || c.atMarks '.')

end Cursor

/-! ## Gaps -/

/-- What a gap inside a scalar stands for: its blanks where the line does not end, else one space for
the first line break, or one line feed for every further one. -/
def foldGap (blanks : List Char) (breaks : Nat) : List Char :=
  match breaks with
  | 0 => blanks
  | 1 => [' ']
  | n + 2 => List.replicate (n + 1) '\n'

end Tributary.Yaml
