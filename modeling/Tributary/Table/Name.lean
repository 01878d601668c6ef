import Tributary.Fault.Catalogue
import Tributary.Text.Blank

/-!
# Table names

A table name has one to three segments: a table, perhaps in a schema, perhaps in a database. In text
the segments are joined by dots. A bare identifier stands by itself; any other segment stands in
double quotes, and a quote inside it is written twice.

* `TableName.chars`: the written form of a name.
* `TableName.readSegments`: the segments of a text, or what is wrong with it.
* `TableName.parse`: a name from a text, blanks at its ends apart.
* `TableName.ofSegments`: a name from its segments.
-/

namespace Tributary

open Text

/-- The largest number of segments: database, schema and table. -/
def maxSegments : Nat := 3

/-- A list of one to three segments, none of them empty. -/
structure TableName where
  segments : List String
  nonempty : segments ≠ []
  bounded : segments.length ≤ maxSegments
  filled : "" ∉ segments
  deriving DecidableEq, Repr

namespace TableName

/-- The last segment: the table itself. -/
def table (t : TableName) : String := t.segments.getLast t.nonempty

/-- Names compare segment by segment. -/
def order (a b : TableName) : Ordering := List.compareLex compare a.segments b.segments

/-- A name from segments without quotes. -/
def ofSegments (segments : List String) : Result TableName :=
  if hn : segments ≠ [] ∧ segments.length ≤ maxSegments then
    if hf : "" ∈ segments then .error .emptySegment
    else .ok ⟨segments, hn.1, hn.2, hf⟩
  else .error (.segmentCount segments.length)

/-! ## Writing -/

/-- Whether a character may start a bare identifier. -/
def isInitial (c : Char) : Bool := c.isAlpha || c == '_'

/-- Whether a character may follow in a bare identifier. -/
def isFollowing (c : Char) : Bool := c.isAlphanum || c == '_' || c == '$'

/-- Whether a segment needs no quotes. -/
def isBare : List Char → Bool
  | [] => false
  | c :: cs => isInitial c && cs.all isFollowing

/-- Writes each quote twice. -/
def double : List Char → List Char
  | [] => []
  | c :: cs => if c = '\"' then '\"' :: '\"' :: double cs else c :: double cs

/-- One segment, quoted where needed. -/
def segmentChars (cs : List Char) : List Char :=
  if isBare cs then cs else '\"' :: (double cs ++ ['\"'])

/-- Segments joined by dots. -/
def joinSegments : List (List Char) → List Char
  | [] => []
  | [s] => segmentChars s
  | s :: rest => segmentChars s ++ '.' :: joinSegments rest

/-- The written form of a name. -/
def chars (t : TableName) : List Char := joinSegments (t.segments.map String.toList)

/-- The written form of a name as a string. -/
def text (t : TableName) : String := String.ofList t.chars

/-! ## Reading -/

/-- Why a text is no table name. -/
inductive Flaw where
  | unterminated
  | emptyQuoted
  | notIdentifier
  | afterQuoted
  | tooMany
  deriving DecidableEq, Repr

/-- The wording of a flaw. -/
def Flaw.message : Flaw → String
  | unterminated => "unterminated quoted segment"
  | emptyQuoted => "empty quoted segment"
  | notIdentifier => "segment is not a valid identifier"
  | afterQuoted => "unexpected character after quoted segment"
  | tooMany => "too many segments"

/-- The text up to a quote that stands alone, with double quotes made single, and the rest. -/
def readQuoted : List Char → Option (List Char × List Char)
  | [] => none
  | '\"' :: '\"' :: rest => (readQuoted rest).map fun r => ('\"' :: r.1, r.2)
  | c :: rest => if c = '\"' then some ([], rest) else (readQuoted rest).map fun r => (c :: r.1, r.2)

/-- One segment, and the rest. -/
def readSegment : List Char → Except Flaw (List Char × List Char)
  | '\"' :: rest =>
    match readQuoted rest with
    | none => .error .unterminated
    | some ([], _) => .error .emptyQuoted
    | some (segment, rest) => .ok (segment, rest)
  | cs =>
    let segment := cs.takeWhile (· != '.')
    if isBare segment then .ok (segment, cs.dropWhile (· != '.')) else .error .notIdentifier

theorem length_readQuoted {cs segment rest : List Char} (h : readQuoted cs = some (segment, rest)) :
    rest.length < cs.length := by
  fun_induction readQuoted cs generalizing segment with
  | case1 => simp at h
  | case2 r ih =>
    obtain ⟨⟨s, t⟩, hr, he⟩ := Option.map_eq_some_iff.1 h
    cases he
    have : t.length < r.length := ih hr
    simp only [List.length_cons]
    omega
  | case3 r => cases h; simp
  | case4 c r _ hc ih =>
    obtain ⟨⟨s, t⟩, hr, he⟩ := Option.map_eq_some_iff.1 h
    cases he
    have : t.length < r.length := ih hr
    simp only [List.length_cons]
    omega

theorem length_readSegment {cs segment rest : List Char} (h : readSegment cs = .ok (segment, rest)) :
    rest.length ≤ cs.length := by
  unfold readSegment at h
  split at h
  · split at h
    · cases h
    · cases h
    · rename_i hq
      cases h
      have := length_readQuoted hq
      simp only [List.length_cons]
      omega
  · simp only at h
    split at h
    · cases h
      exact (List.dropWhile_suffix _).length_le
    · cases h

/-- The segments of a text. -/
def readSegments (cs : List Char) : Except Flaw (List (List Char)) :=
  match h : readSegment cs with
  | .error flaw => .error flaw
  | .ok (segment, []) => .ok [segment]
  | .ok (segment, '.' :: rest) =>
    have := length_readSegment h
    (readSegments rest).map (segment :: ·)
  | .ok (_, _ :: _) => .error .afterQuoted
termination_by cs.length
decreasing_by simp only [List.length_cons] at this; omega

/-- The name that a text without outer blanks spells. -/
def ofChars (cs : List Char) : Except Flaw TableName :=
  match readSegments cs with
  | .error flaw => .error flaw
  | .ok segments =>
    match ofSegments (segments.map String.ofList) with
    | .ok name => .ok name
    | .error _ => .error .tooMany

/-- The name that a text spells. -/
def parse (raw : String) : Result TableName :=
  match ofChars (trimChars raw.toList) with
  | .ok name => .ok name
  | .error flaw => .error (.invalidTableName raw flaw.message)

end TableName

end Tributary
