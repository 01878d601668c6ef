import Tributary.Yaml.Layout
import Tributary.Yaml.Node

/-!
# Documents of a YAML text

A text holds any number of documents.

* `Stream.node?`: the node that starts with the next token.
* `Stream.documents?`: the documents of a list of tokens.
* `documents?`: the documents of a text.
-/

namespace Tributary.Yaml

/-- The tokens that are still to be read and the names that they may refer to. -/
structure Stream where
  tokens : List Token
  /-- The nodes with an anchor. -/
  anchors : List (String × Node)
  /-- What the handles of tags stand for. -/
  handles : List (String × String)
  deriving Repr

namespace Stream

/-- A reading of tokens. -/
abbrev Reading := StateT Stream Option

/-- The next token; behind the last one the text ends. -/
def peek : Reading Token := fun s => some (s.tokens.headD .streamEnd, s)

/-- Past the next token. -/
def next : Reading Unit := fun s => some ((), { s with tokens := s.tokens.tail })

/-- Past the next token, which has to be a given one. -/
def expect (t : Token) : Reading Unit := do
  if (← peek) = t then next else failure

/-! ## Properties of nodes -/

/-- The tag that a handle and a suffix stand for; a handle of its own has to be declared. -/
def resolve? (s : Stream) (handle suffix : String) : Option (String × String) :=
  match s.handles.lookup handle with
  | some uri => some (uri, suffix)
  | none =>
    if handle = "!!" then some ("tag:yaml.org,2002:", suffix)
    else if isClosed handle.toList then none
    else some (handle, suffix)

/-- The tag in front of a node, if there is one. -/
def tag? : Reading (Option (String × String)) := do
  match ← peek with
  | .tag handle suffix =>
    next
    match (← get).resolve? handle suffix with
    | some tag => return some tag
    | none => failure
  | _ => return none

/-- The anchor in front of a node, if there is one. -/
def anchor? : Reading (Option String) := do
  match ← peek with
  | .anchor name =>
    next
    modify fun s => { s with anchors := (name, .null) :: s.anchors }
    return some name
  | _ => return none

/-- Gives a node the name of its anchor. -/
def bind (name : Option String) (n : Node) : Reading Node := do
  match name with
  | some name => modify fun s => { s with anchors := (name, n) :: s.anchors }
  | none => pure ()
  return n

/-- What a scalar with a tag stands for. -/
def scalar (plain : Bool) (text : String) : Option (String × String) → Node
  | none => if plain then .ofPlain text else .text text
  | some (handle, suffix) =>
    if plain && handle == "tag:yaml.org,2002:" then .ofTagged suffix text else .text text

/-- Whether a mapping has a key twice. -/
def hasTwins : List (Node × Node) → Bool
  | [] => false
  | (k, _) :: rest => rest.any (fun e => e.1 == k) || hasTwins rest

/-- The mapping of some entries, no key of which may come twice. -/
def mapping? (entries : List (Node × Node)) : Reading Node :=
  if hasTwins entries then failure else pure (.mapping entries)

/-- A node of which there are only properties. -/
def empty? (name : Option String) (tag : Option (String × String)) : Reading Node :=
  if name.isNone && tag.isNone then failure else bind name (scalar true "" tag)

/-! ## Nodes -/

mutual

/-- The node that starts with the next token. A block may start only where `block` says so, and items
of a sequence may stand without further indentation only where `flat` says so. At most four calls
follow one another before a token is taken away, so four times their number is fuel enough. -/
def node? : Nat → Bool → Bool → Reading Node
  | 0, _, _ => failure
  | fuel + 1, block, flat => do
    match ← peek with
    | .alias name =>
      next
      match (← get).anchors.lookup name with
      | some n => return n
      | none => failure
    | _ =>
      let early ← tag?
      let name ← anchor?
      let tag ← if early.isNone && name.isSome then tag? else pure early
      match ← peek with
      | .item => if flat then bind name (.sequence (← flatItems? fuel)) else empty? name tag
      | .scalar plain text => next; bind name (scalar plain text tag)
      | .sequenceStart => next; bind name (.sequence (← items? fuel true))
      | .mappingStart => next; bind name (← mapping? (← pairs? fuel true))
      | .blockSequence =>
        if block then next; bind name (.sequence (← blockItems? fuel)) else empty? name tag
      | .blockMapping =>
        if block then next; bind name (← mapping? (← blockPairs? fuel)) else empty? name tag
      | _ => empty? name tag

/-- A node, or nothing in front of one of the tokens that end it. -/
def nodeUnless? (ends : List Token) : Nat → Bool → Bool → Reading Node
  | 0, _, _ => failure
  | fuel + 1, block, flat => do
    if ends.contains (← peek) then return .null else node? fuel block flat

/-- The items of a sequence that is not indented further than its key. -/
def flatItems? : Nat → Reading (List Node)
  | 0 => failure
  | fuel + 1 => do
    match ← peek with
    | .item =>
      next
      let item ← nodeUnless? [.item, .key, .value, .blockEnd] fuel true false
      return item :: (← flatItems? fuel)
    | _ => return []

/-- The items of a block. -/
def blockItems? : Nat → Reading (List Node)
  | 0 => failure
  | fuel + 1 => do
    match ← peek with
    | .item =>
      next
      let item ← nodeUnless? [.item, .blockEnd] fuel true false
      return item :: (← blockItems? fuel)
    | _ => expect .blockEnd; return []

/-- The value behind a key of a block. -/
def blockValue? : Nat → Reading Node
  | 0 => failure
  | fuel + 1 => do
    match ← peek with
    | .value => next; nodeUnless? [.key, .value, .blockEnd] fuel true true
    | _ => return .null

/-- The entries of a block. -/
def blockPairs? : Nat → Reading (List (Node × Node))
  | 0 => failure
  | fuel + 1 => do
    match ← peek with
    | .key =>
      next
      let key ← nodeUnless? [.key, .value, .blockEnd] fuel true true
      let value ← blockValue? fuel
      return (key, value) :: (← blockPairs? fuel)
    | .value =>
      let value ← blockValue? fuel
      return (.null, value) :: (← blockPairs? fuel)
    | _ => expect .blockEnd; return []

/-- The value behind a key in brackets. -/
def pairValue? (closing : Token) : Nat → Reading Node
  | 0 => failure
  | fuel + 1 => do
    match ← peek with
    | .value => next; nodeUnless? [.comma, closing] fuel false false
    | _ => return .null

/-- The entries of a mapping in brackets, behind a comma unless they are the first. -/
def pairs? : Nat → Bool → Reading (List (Node × Node))
  | 0, _ => failure
  | fuel + 1, first => do
    if (← peek) = .mappingEnd then next; return []
    if !first then expect .comma
    match ← peek with
    | .mappingEnd => next; return []
    | .key =>
      next
      let key ← nodeUnless? [.value, .comma, .mappingEnd] fuel false false
      let value ← pairValue? .mappingEnd fuel
      return (key, value) :: (← pairs? fuel false)
    | .value =>
      let value ← pairValue? .mappingEnd fuel
      return (.null, value) :: (← pairs? fuel false)
    | _ =>
      let key ← node? fuel false false
      return (key, .null) :: (← pairs? fuel false)

/-- The items of a sequence in brackets, behind a comma unless they are the first. An item with a key
is a mapping of one entry. -/
def items? : Nat → Bool → Reading (List Node)
  | 0, _ => failure
  | fuel + 1, first => do
    if (← peek) = .sequenceEnd then next; return []
    if !first then expect .comma
    match ← peek with
    | .sequenceEnd => next; return []
    | .key =>
      next
      let key ← nodeUnless? [.value, .comma, .sequenceEnd] fuel false false
      let value ← pairValue? .sequenceEnd fuel
      return .mapping [(key, value)] :: (← items? fuel false)
    | _ =>
      let item ← node? fuel false false
      return item :: (← items? fuel false)

end

/-! ## Documents -/

/-- Past the tokens that end documents. -/
def skipEnds : Reading Unit := modify fun s =>
  { s with tokens := s.tokens.dropWhile fun t => t = .documentEnd }

/-- Past the directives of a document, which declare the handles of its tags. -/
def directives? : Nat → Reading Unit
  | 0 => failure
  | fuel + 1 => do
    match ← peek with
    | .directive handle =>
      next
      modify fun s => { s with handles := handle.toList ++ s.handles }
      directives? fuel
    | _ => pure ()

/-- Whether a document starts or ends here, or the text does. -/
def isBoundary : Token → Bool
  | .directive _ | .documentStart | .documentEnd | .streamEnd => true
  | _ => false

/-- The documents from here on. Only the first one, and one behind the mark of an end, may start
without a mark of its own, and only there directives may stand. -/
def documents? : Nat → Bool → Reading (List Node)
  | 0, _ => failure
  | fuel + 1, bare => do
    skipEnds
    let t ← peek
    if t = .streamEnd then return []
    let root ←
      if bare && !isBoundary t then node? fuel true false
      else do
        directives? fuel
        expect .documentStart
        if isBoundary (← peek) then pure Node.null else node? fuel true false
    modify fun s => { s with handles := [] }
    let t ← peek
    match t with
    | .directive _ => failure
    | _ => return root :: (← documents? fuel (t = .documentEnd))

end Stream

/-- The documents of a text. -/
def documents? (text : String) : Option (List Node) :=
  (Token.ofText? text).bind fun tokens =>
    ((Stream.documents? (4 * tokens.length + 4) true).run ⟨tokens, [], []⟩).map Prod.fst

end Tributary.Yaml
