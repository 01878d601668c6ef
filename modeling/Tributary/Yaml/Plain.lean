import Tributary.Yaml.Cursor

/-!
# Plain scalars

A scalar without quotes ends in front of a colon or a comment that blanks set apart, and inside
brackets also in front of their marks. It goes on over lines that are indented far enough.

* `plainWord`: the word at the start of a text, with no blank and no line break in it.
* `plain?`: the plain scalar at a cursor.
-/

namespace Tributary.Yaml

/-- Whether a character, given what follows, may stand in a plain scalar. -/
def isPlain (flow : Bool) (c : Char) (next : List Char) : Bool :=
  if c == ':' then !(endsWord next || (flow && startsFlow next))
  else !(flow && isFlowMark c)

/-- The word at the start of a text. -/
def plainWord (flow : Bool) : List Char → List Char
  | [] => []
  | c :: cs =>
    if isSpace c || isBreak c || !isPlain flow c cs then [] else c :: plainWord flow cs

/-- The gap that starts here. A tab in front of the indentation of a new line may only stand on an
empty one. -/
def plainGap? (indent : Int) : Nat → List Char → Nat → Cursor → Option (List Char × Cursor)
  | 0, _, _, _ => none
  | fuel + 1, blanks, breaks, c =>
    match c.rest with
    | [] => some (foldGap blanks breaks, c)
    | x :: _ =>
      if isBreak x then plainGap? indent fuel blanks (breaks + 1) c.newline
      else if isSpace x then
        if breaks == 0 then plainGap? indent fuel (blanks ++ [x]) breaks c.step
        else if x == '\t' && c.column < indent then
          match c.toLineEnd? true with
          | some (_, next) =>
            if endsLine next.rest then plainGap? indent fuel blanks breaks next else none
          | none => none
        else plainGap? indent fuel blanks breaks c.step
      else some (foldGap blanks breaks, c)

/-- The words from here on, behind what has been read of the scalar and the gap after it. -/
def plainWords? (flow : Bool) (indent : Int) :
    Nat → List Char → List Char → Cursor → Option (List Char × Cursor)
  | 0, _, _, _ => none
  | fuel + 1, text, gap, c =>
    let word := plainWord flow c.rest
    if c.atBoundary || c.rest.head? == some '#' then some (text, c)
    else if flow && c.rest.head? == some '-' && startsFlow c.rest.tail then none
    else if word.isEmpty then some (text, c)
    else
      let text := text ++ gap ++ word
      let c := c.skip word.length
      if c.rest.isEmpty || !endsWord c.rest then some (text, c)
      else
        match plainGap? indent (c.rest.length + 1) [] 0 c with
        | none => none
        | some (gap, next) =>
          if !flow && next.column < indent then some (text, next)
          else plainWords? flow indent fuel text gap next

/-- The plain scalar here, whose further lines are indented at least so far, and the cursor behind
the blanks after it. -/
def plain? (flow : Bool) (indent : Int) (c : Cursor) : Option (List Char × Cursor) :=
  if flow && c.column < indent then none
  else
    match plainWords? flow indent (c.rest.length + 1) [] [] c with
    | some (text, next) => if text.isEmpty then none else some (text, next)
    | none => none

end Tributary.Yaml
