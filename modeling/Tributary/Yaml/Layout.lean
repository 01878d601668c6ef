import Tributary.Yaml.Block
import Tributary.Yaml.Plain
import Tributary.Yaml.Quoted
import Tributary.Yaml.Token

/-!
# Layout of YAML text

Which tokens a text consists of depends on its layout. A key of a mapping is only known for one when
its colon comes: until then the place where it starts is kept as a candidate, and the tokens that
announce the key are put in there afterwards. Columns open and close blocks.

* `Layout.save`, `Layout.drop?`, `Layout.expire?`: what becomes of the candidate for a key.
* `Layout.indentTo`, `Layout.dedentTo`: how columns open and close blocks.
* `Layout.next?`: one more token, with what it brings along.
* `Token.ofText?`: the tokens of a text.
-/

namespace Tributary.Yaml

/-- A place where a key may have started. -/
structure Candidate where
  /-- The number of tokens in front of it. -/
  token : Nat
  line : Nat
  column : Nat
  offset : Nat
  /-- Whether nothing but a key may stand there. -/
  required : Bool
  deriving Repr

/-- How far a text has been cut into tokens. -/
structure Layout where
  cursor : Cursor
  tokens : List Token
  /-- Whether a key may start here. -/
  keyAllowed : Bool
  candidate : Option Candidate
  /-- The candidates around the brackets that are open, the innermost first. -/
  around : List (Option Candidate)
  /-- The column of the innermost block. -/
  indent : Int
  /-- The columns around it, the innermost first, and whether a block ends where each comes back. -/
  outer : List (Int × Bool)
  /-- The offset of a colon that needs no blank behind it. -/
  adjacent : Option Nat
  /-- Whether a mapping in brackets has been started. -/
  mapping : Bool
  /-- The sequences in brackets, the innermost first, and whether each is inside an entry that is a
  mapping without brackets. -/
  pairs : List Bool
  ended : Bool
  deriving Repr

namespace Layout

/-- The start of a text. -/
def start (text : List Char) : Layout :=
  ⟨.start text, [], true, none, [], -1, [], none, false, [], false⟩

/-- Whether brackets are open. -/
def flow (s : Layout) : Bool := !s.around.isEmpty

/-- Adds a token. -/
def push (s : Layout) (t : Token) : Layout := { s with tokens := s.tokens ++ [t] }

/-- Puts a token in front of the token with a given number. -/
def insert (s : Layout) (n : Nat) (t : Token) : Layout :=
  { s with tokens := s.tokens.take n ++ t :: s.tokens.drop n }

/-- Puts the cursor elsewhere. -/
def moveTo (s : Layout) (c : Cursor) : Layout := { s with cursor := c }

/-- Allows or forbids a key to start here. -/
def allow (s : Layout) (allowed : Bool) : Layout := { s with keyAllowed := allowed }

/-! ## Candidates for keys -/

/-- Makes this place the candidate, if a key may start here. -/
def save (s : Layout) : Layout :=
  if s.keyAllowed then
    let required :=
      !s.flow && s.indent == s.cursor.column && ((s.outer.head?.map Prod.snd).getD false)
    let c := s.cursor
    { s with candidate := some ⟨s.tokens.length, c.line, c.column, c.offset, required⟩ }
  else s

/-- Gives up the candidate. -/
def drop? (s : Layout) : Option Layout :=
  if (s.candidate.map Candidate.required).getD false then none
  else some { s with candidate := none }

/-- Gives up a candidate outside brackets that is on another line or too far away. -/
def expire? (s : Layout) : Option Layout :=
  match s.candidate with
  | none => some s
  | some k =>
    if !s.flow && (k.line < s.cursor.line || k.offset + 1024 < s.cursor.offset) then s.drop?
    else some s

/-! ## Columns -/

/-- Lets the columns that open no block come back. -/
def closeLoose (s : Layout) : Layout :=
  match s.outer with
  | (indent, false) :: outer => { s with indent := indent, outer := outer }
  | _ => s

/-- Opens a block at a column that is further in, its token in front of the token with number `n`. -/
def indentTo (s : Layout) (column : Nat) (n : Nat) (t : Token) : Layout :=
  if s.flow then s
  else
    let s := if s.indent ≤ column then s.closeLoose else s
    if s.indent < column then
      { s.insert n t with indent := column, outer := (s.indent, true) :: s.outer }
    else s

/-- Demands one more column inside a block, without opening another one. -/
def indentLoose (s : Layout) : Layout :=
  match s.outer with
  | (_, true) :: _ =>
    if s.flow then s else { s with indent := s.indent + 1, outer := (s.indent, false) :: s.outer }
  | _ => s

/-- The tokens, the column and the columns around it when all blocks further in than `column` end. -/
def dedent (column : Int) :
    List Token → Int → List (Int × Bool) → List Token × Int × List (Int × Bool)
  | tokens, indent, [] => (tokens, indent, [])
  | tokens, indent, (outer, block) :: rest =>
    if column < indent then
      dedent column (if block then tokens ++ [.blockEnd] else tokens) outer rest
    else (tokens, indent, (outer, block) :: rest)

/-- Ends all blocks further in than a column. -/
def dedentTo (s : Layout) (column : Int) : Layout :=
  if s.flow then s
  else
    let (tokens, indent, outer) := dedent column s.tokens s.indent s.outer
    { s with tokens := tokens, indent := indent, outer := outer }

/-! ## Between tokens -/

/-- Past blanks, comments and line breaks. A line break outside brackets allows a key. In front of
the indentation of a block a tab may only stand on an empty line. -/
def settle? : Nat → Layout → Option Layout
  | 0, _ => none
  | fuel + 1, s =>
    match s.cursor.rest with
    | [] => some s
    | x :: _ =>
      if isBreak x then settle? fuel ((s.moveTo s.cursor.newline).allow (s.keyAllowed || !s.flow))
      else if x == '#' then settle? fuel (s.moveTo s.cursor.skipLine)
      else if x == '\t' && !s.outer.isEmpty && s.cursor.fresh && s.cursor.column < s.indent then
        match s.cursor.toLineEnd? true with
        | some (_, c) => if endsLine c.rest then settle? fuel (s.moveTo c) else none
        | none => none
      else if isSpace x then settle? fuel (s.moveTo s.cursor.step)
      else some s

/-- Past all that stands between two tokens. -/
def toToken? (s : Layout) : Option Layout := s.settle? (s.cursor.rest.length + 1)

/-- Past blanks and a comment on the line. -/
def toLineEnd? (s : Layout) : Option Layout :=
  (s.cursor.toLineEnd? true).map fun r => s.moveTo r.2

/-! ## Brackets -/

/-- Ends the mapping that an entry of a sequence in brackets is. -/
def endPair (s : Layout) : Layout :=
  match s.pairs with
  | true :: rest => { s.push .mappingEnd with mapping := false, pairs := false :: rest }
  | _ => s

/-- An opening bracket. -/
def openBracket? (s : Layout) (t : Token) : Option Layout :=
  let s := s.save.indentLoose
  if 255 ≤ s.around.length then none
  else
    let s := { s with candidate := none, around := s.candidate :: s.around, keyAllowed := true }
    let s :=
      if t = .mappingStart then { s with mapping := true } else { s with pairs := false :: s.pairs }
    (s.moveTo s.cursor.step).toLineEnd?.map fun s => s.push t

/-- A closing bracket. -/
def closeBracket? (s : Layout) (t : Token) : Option Layout := do
  let s ← s.drop?
  let s :=
    match s.around with
    | k :: around => { s with candidate := k, around := around }
    | [] => s
  let s := s.allow false
  let s := if t = .sequenceEnd then { s.endPair with pairs := s.pairs.tail } else s
  let s ← (s.moveTo s.cursor.step).toLineEnd?
  let s := if s.flow then { s with adjacent := some s.cursor.offset } else s
  return s.push t

/-- A comma. -/
def comma? (s : Layout) : Option Layout := do
  let s ← s.drop?
  let s := (s.allow true).endPair
  let s ← (s.moveTo s.cursor.step).toLineEnd?
  return s.push .comma

/-! ## Entries of blocks -/

/-- The hyphen of an item of a sequence. -/
def item? (s : Layout) : Option Layout := do
  if s.flow || !s.keyAllowed then none
  let column := s.cursor.column
  let s := (s.moveTo s.cursor.step).indentTo column s.tokens.length .blockSequence
  let (blanks, c) ← s.cursor.toLineEnd? true
  if blanks.contains '\t' && c.rest.head? == some '-' && endsWord c.rest.tail then none
  let s := s.moveTo c
  let s := if !c.rest.isEmpty && (endsLine c.rest || startsFlow c.rest) then s.indentLoose else s
  let s ← s.drop?
  return (s.allow true).push .item

/-- Past the blank, the comments and the line breaks that have to follow a question mark. -/
def settleKey? : Nat → Bool → Layout → Option Layout
  | 0, _, _ => none
  | fuel + 1, apart, s =>
    match s.cursor.rest with
    | [] => if apart then some s else none
    | x :: _ =>
      if x == ' ' then settleKey? fuel true (s.moveTo s.cursor.step)
      else if isBreak x then
        settleKey? fuel true ((s.moveTo s.cursor.newline).allow (s.keyAllowed || !s.flow))
      else if x == '#' then settleKey? fuel apart (s.moveTo s.cursor.skipLine)
      else if apart && x != '\t' then some s
      else none

/-- The question mark of a key. -/
def key? (s : Layout) : Option Layout := do
  if !s.flow && !s.keyAllowed then none
  let s :=
    if s.flow then { s with mapping := true }
    else s.indentTo s.cursor.column s.tokens.length .blockMapping
  let s ← s.drop?
  let s := (s.allow (!s.flow)).moveTo s.cursor.step
  let s ← settleKey? (s.cursor.rest.length + 1) false s
  return s.push .key

/-- Past the tabs behind a colon; a word must not follow them without a space. -/
def afterColon? (c : Cursor) : Option Cursor :=
  if c.rest.head? == some '\t' then
    match c.toLineEnd? true with
    | none => none
    | some (blanks, next) =>
      if !blanks.contains ' ' && isWord (next.rest.headD ' ') then none else some next
  else some c

/-- The colon of a value. The candidate turns out to be a key. -/
def value? (s : Layout) : Option Layout := do
  let line := s.cursor.line
  let column := s.cursor.column
  let pair := !s.pairs.isEmpty && !s.mapping
  let s := if pair then { s with pairs := true :: s.pairs.tail } else s
  let s := s.moveTo (← afterColon? s.cursor.step)
  match s.candidate with
  | some k =>
    if pair && k.line < line then none
    let s := s.insert k.token .key
    let s := if pair then s.insert k.token .mappingStart else s
    let s := (s.indentTo k.column k.token .blockMapping).indentLoose
    return ({ s with candidate := none, keyAllowed := false }).push .value
  | none =>
    let s := if pair then s.push .mappingStart else s
    if !s.flow && !s.keyAllowed then none
    let s := (s.indentTo column s.tokens.length .blockMapping).indentLoose
    return (s.allow (!s.flow)).push .value

/-! ## Nodes -/

/-- The name of an anchor or alias. -/
def named? (s : Layout) (t : String → Token) : Option Layout :=
  let s := s.save.allow false
  (anchor? s.cursor).map fun r => (s.moveTo r.2).push (t r.1)

/-- A tag. -/
def tagged? (s : Layout) : Option Layout :=
  let s := s.save.allow false
  (tag? s.flow s.cursor).map fun r => (s.moveTo r.2).push r.1

/-- A block scalar. -/
def block? (s : Layout) (literal : Bool) : Option Layout :=
  let s := (s.save.allow true).closeLoose
  (Yaml.block? literal s.indent s.cursor).map fun r =>
    (s.moveTo r.2).push (.scalar false (String.ofList r.1))

/-- A scalar between quotes. A colon right behind it, or behind the blanks after it, may be that of a
value. -/
def quoted? (s : Layout) (mark : Char) : Option Layout := do
  let s := s.save.allow false
  let (text, c) ← Yaml.quoted? mark s.indent s.flow s.cursor
  let s ← (s.moveTo c).toToken?
  return { s with adjacent := some s.cursor.offset }.push (.scalar false (String.ofList text))

/-- A plain scalar. One that ends its line allows a key. -/
def plain? (s : Layout) : Option Layout :=
  let s := (s.save.allow false).closeLoose
  (Yaml.plain? s.flow (s.indent + 1) s.cursor).map fun r =>
    ((s.moveTo r.2).allow r.2.fresh).push (.scalar true (String.ofList r.1))

/-! ## Documents -/

/-- The end of the text. -/
def finish? (s : Layout) : Option Layout :=
  if (s.candidate :: s.around).any fun k => (k.map Candidate.required).getD false then none
  else
    let s := s.dedentTo (-1)
    some { s.push .streamEnd with candidate := none, keyAllowed := false, ended := true }

/-- A line of a directive. -/
def directive? (s : Layout) : Option Layout := do
  let s ← (s.dedentTo (-1)).drop?
  let (token, c) ← Yaml.directive? s.cursor
  return ((s.allow false).moveTo c).push token

/-- The marks of the start or the end of a document; nothing but a comment may follow the latter. -/
def boundary? (s : Layout) (t : Token) : Option Layout := do
  let s ← (s.dedentTo (-1)).drop?
  let s := ((s.allow false).moveTo (s.cursor.skip 3)).push t
  if t = .documentEnd then
    let s ← s.toLineEnd?
    if endsLine s.cursor.rest then some s else none
  else some s

/-! ## Texts -/

/-- The token that starts with a given character. -/
def token? (s : Layout) (x : Char) (next : List Char) : Option Layout :=
  let word := endsWord next
  if x == '[' then s.openBracket? .sequenceStart
  else if x == '\x7b' then s.openBracket? .mappingStart
  else if x == ']' then s.closeBracket? .sequenceEnd
  else if x == '\x7d' then s.closeBracket? .mappingEnd
  else if x == ',' then s.comma?
  else if x == '-' && word then s.item?
  else if x == '?' && word then s.key?
  else if x == ':' && (word || (s.flow && (startsFlow next || s.adjacent == some s.cursor.offset)))
  then s.value?
  else if x == '*' then s.named? .alias
  else if x == '&' then s.named? .anchor
  else if x == '!' then s.tagged?
  else if (x == '|' || x == '>') && !s.flow then s.block? (x == '|')
  else if x == '\'' || x == '\"' then s.quoted? x
  else if x == '%' || x == '@' || x == '\x60' then none
  else s.plain?

/-- One more token. -/
def next? (s : Layout) : Option Layout := do
  let s ← (← s.toToken?).expire?
  let s := s.dedentTo s.cursor.column
  match s.cursor.rest with
  | [] => s.finish?
  | x :: rest =>
    if s.cursor.column == 0 && x == '%' then s.directive?
    else if s.cursor.column == 0 && s.cursor.atMarks '-' then s.boundary? .documentStart
    else if s.cursor.column == 0 && s.cursor.atMarks '.' then s.boundary? .documentEnd
    else if s.cursor.column < s.indent then none
    else s.token? x rest

/-- All tokens. Each but the last takes a character away, so the length of the text is fuel enough. -/
def run? : Nat → Layout → Option (List Token)
  | 0, _ => none
  | fuel + 1, s =>
    if s.ended then some s.tokens
    else
      match s.next? with
      | some s => run? fuel s
      | none => none

end Layout

/-- The tokens of a text, which a null character ends. -/
def Token.ofText? (text : String) : Option (List Token) :=
  let cs := text.toList.takeWhile fun c => c.toNat != 0
  (Layout.start cs).run? (cs.length + 2)

end Tributary.Yaml
