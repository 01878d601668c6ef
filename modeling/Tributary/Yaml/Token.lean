import Tributary.Yaml.Cursor

/-!
# Tokens of YAML

The marks and scalars that a YAML text consists of. Indentation shows as tokens too: a block starts
where lines are indented further and ends where they no longer are.

* `anchor?`, `tag?`: the name of an anchor or alias, and the tag of a node.
* `directive?`: a line that precedes a document.
-/

namespace Tributary.Yaml

/-- A mark or a scalar. -/
inductive Token where
  | directive (handle : Option (String × String))
  | documentStart
  | documentEnd
  | streamEnd
  | blockSequence
  | blockMapping
  | blockEnd
  | item
  | key
  | value
  | sequenceStart
  | sequenceEnd
  | mappingStart
  | mappingEnd
  | comma
  | alias (name : String)
  | anchor (name : String)
  | tag (handle suffix : String)
  | scalar (plain : Bool) (text : String)
  deriving DecidableEq, Repr

/-! ## Names -/

/-- The name behind the mark of an anchor or alias. -/
def anchor? (c : Cursor) : Option (String × Cursor) :=
  let name := c.step.rest.takeWhile fun x =>
    !(isSpace x || isBreak x || isFlowMark x || x == '\ufeff')
  if name.isEmpty then none else some (String.ofList name, c.step.skip name.length)

/-- Characters of a tag apart from its escapes. -/
def isTagMark (c : Char) : Bool := isWord c || ";/?:@&=+$.~*\'()%!,[]#".contains c

/-- The byte that a percent sign and two hexadecimal digits spell. -/
def isEscaped : List Char → Bool
  | '%' :: x :: y :: _ =>
    let isHex := fun c : Char => c.isDigit || ('a' ≤ c && c ≤ 'f') || ('A' ≤ c && c ≤ 'F')
    isHex x && isHex y
  | _ => false

/-- Whether every percent sign starts an escape. -/
def wellEscaped : List Char → Bool
  | [] => true
  | c :: cs => (c != '%' || isEscaped (c :: cs)) && wellEscaped cs

/-- A handle of tags: a word between exclamation marks, of which the second one may be absent. -/
def handle? (c : Cursor) : Option (List Char × Cursor) :=
  match c.rest with
  | '!' :: rest =>
    let word := rest.takeWhile isWord
    let next := c.skip (word.length + 1)
    match next.rest with
    | '!' :: _ => some ('!' :: word ++ ['!'], next.step)
    | _ => some ('!' :: word, next)
  | _ => none

/-- Whether a handle is closed by a second exclamation mark. -/
def isClosed (handle : List Char) : Bool := handle.length ≥ 2 && handle.getLast? == some '!'

/-- The tag whose mark stands here, as the token of a node. -/
def tag? (flow : Bool) (c : Cursor) : Option (Token × Cursor) := do
  let (token, next) ←
    match c.step.rest with
    | '<' :: rest =>
      let name := rest.takeWhile isTagMark
      let next := c.skip (name.length + 2)
      if next.rest.head? == some '>' && wellEscaped name then
        some (Token.tag "" (String.ofList name), next.step)
      else none
    | _ =>
      match handle? c with
      | none => none
      | some (handle, next) =>
        let suffix := next.rest.takeWhile fun x =>
          isTagMark x && x != '!' && !isFlowMark x
        let next := next.skip suffix.length
        if !wellEscaped suffix then none
        else if isClosed handle then
          if suffix.isEmpty then none
          else some (Token.tag (String.ofList handle) (String.ofList suffix), next)
        else
          match handle.tail ++ suffix with
          | [] => some (Token.tag "" "!", next)
          | name => some (Token.tag "!" (String.ofList name), next)
  if endsWord next.rest || (flow && startsFlow next.rest) then some (token, next) else none

/-! ## Directives -/

/-- Whether a text is a version: two numbers of at most nine digits with a point between. -/
def isVersion (cs : List Char) : Bool :=
  let major := cs.takeWhile Char.isDigit
  match cs.dropWhile Char.isDigit with
  | '.' :: minor =>
    let number := fun ds : List Char => !ds.isEmpty && ds.length ≤ 9 && ds.all Char.isDigit
    number major && number minor
  | _ => false

/-- The directive whose mark stands at the start of a line, and the cursor behind the line. -/
def directive? (c : Cursor) : Option (Token × Cursor) := do
  let name := c.step.rest.takeWhile isWord
  let named := c.skip (name.length + 1)
  if name.isEmpty || !endsWord named.rest then none
  let (token, next) ←
    if name = "YAML".toList then
      let start := named.skipWhile isSpace
      let version := start.rest.takeWhile fun x => !(isSpace x || isBreak x)
      if isVersion version then some (Token.directive none, start.skip version.length) else none
    else if name = "TAG".toList then
      match handle? (named.skipWhile isSpace) with
      | none => none
      | some (handle, next) =>
        let start := next.skipWhile isSpace
        let uri := start.rest.takeWhile isTagMark
        let next := start.skip uri.length
        if (handle == ['!'] || isClosed handle) && !uri.isEmpty && endsWord next.rest then
          some (Token.directive (some (String.ofList handle, String.ofList uri)), next)
        else none
    else some (Token.directive none, named.skipLine)
  let (_, next) ← next.toLineEnd? true
  if endsLine next.rest then
    some (token, if next.rest.isEmpty then next else next.newline)
  else none

end Tributary.Yaml
