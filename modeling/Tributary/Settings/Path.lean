import Tributary.Settings.Setting

/-!
# Paths to settings

The key of a setting may lead into tables and lists: `a.b` is the setting `b` in the table `a`, and
`a[0]` the first item of the list `a`. Names count in lower case.

* `Path.ofKey`: the path that a key spells, or the key itself as a name.
* `Setting.putEntry`: what it does to a table is stated by `lookup_putEntry`.
* `Setting.cover`: what a setting becomes when another one is laid over it; tables are merged.
* `Setting.assign`: a table in which the setting at the end of a path has been covered; what it does
  at a name is stated by `get?_assign_name`.
* `Setting.ofEntries`: the table of keyed settings; later ones win (`ofEntries_concat`).
-/

namespace Tributary

open Text

/-- A name in a table or a place in a list; places below zero count from the end. -/
inductive Path.Step where
  | name (s : String)
  | place (n : Int)
  deriving DecidableEq, Repr

/-- The steps that lead to a setting. -/
abbrev Path := List Path.Step

namespace Path

/-! ## Keys -/

/-- Characters of the names in a path. -/
def isNameMark (c : Char) : Bool := c.isAlphanum || c == '_' || c == '-' || c == ' '

/-- Space and tab. -/
def isPadding (c : Char) : Bool := c == ' ' || c == '\t'

/-- The name at the start of a text, and the rest. -/
def name? (cs : List Char) : Option (Step × List Char) :=
  let name := cs.takeWhile isNameMark
  if name.isEmpty then none else some (.name (String.ofList name), cs.drop name.length)

/-- The place in front of a closing bracket, and the rest behind it. -/
def place? (cs : List Char) : Option (Step × List Char) :=
  let (sign, digits) :=
    match cs.dropWhile isPadding with
    | '-' :: rest => (['-'], rest)
    | rest => ([], rest)
  let number := digits.takeWhile Char.isDigit
  match (digits.drop number.length).dropWhile isPadding with
  | ']' :: rest =>
    if number.isEmpty then none
    else
      match readInt 64 (sign ++ number) with
      | .ok n => some (.place n, rest)
      | .error _ => none
  | _ => none

/-- The steps that a text spells behind the first name. Each takes a character away, so the length of
the text is fuel enough. -/
def steps? : Nat → List Char → Option Path
  | _, [] => some []
  | 0, _ => none
  | fuel + 1, c :: cs =>
    let first :=
      if c == '.' then name? cs else if c == '[' then place? cs else none
    match first with
    | none => none
    | some (step, rest) => (steps? fuel rest).map (step :: ·)

/-- The steps of a path. -/
def parse? (cs : List Char) : Option Path :=
  match name? cs with
  | none => none
  | some (step, rest) => (steps? rest.length rest).map (step :: ·)

/-- The path of a key. A key that spells none is a name as a whole. -/
def ofKey (key : String) : Path :=
  let name := lowercase key
  (parse? name.toList).getD [.name name]

end Path

namespace Setting

/-! ## Tables and lists -/

/-- The entries of a table; other settings have none. -/
def entries : Setting → List (String × Setting)
  | table es => es
  | _ => []

/-- The items of a list; other settings have none. -/
def items : Setting → List Setting
  | list ss => ss
  | _ => []

/-- Puts a setting under a name. -/
def putEntry (name : String) (s : Setting) : List (String × Setting) → List (String × Setting)
  | [] => [(name, s)]
  | e :: es => if e.1 = name then (name, s) :: es else e :: putEntry name s es

/-- The entry that has been put in is found under its name, and the others under theirs. -/
theorem lookup_putEntry (name : String) (s : Setting) (es : List (String × Setting))
    (other : String) :
    (putEntry name s es).lookup other = if other = name then some s else es.lookup other := by
  induction es with
  | nil =>
    by_cases h : other = name
    · simp [putEntry, h]
    · have hb : (other == name) = false := by simpa using h
      simp [putEntry, List.lookup_cons, hb, h]
  | cons e es ih =>
    unfold putEntry
    by_cases he : e.1 = name
    · rw [if_pos he, List.lookup_cons, List.lookup_cons, he]
      by_cases h : other = name
      · simp [h]
      · have hb : (other == name) = false := by simpa using h
        simp [hb, h]
    · rw [if_neg he, List.lookup_cons, List.lookup_cons, ih]
      by_cases h : other = name
      · subst h
        have hb : (other == e.1) = false := by simpa using fun heq => he heq.symm
        simp [hb]
      · simp [h]

/-- The index of a place in a list of a given length. -/
def indexOf (length : Nat) (n : Int) : Nat := if 0 ≤ n then n.toNat else length - n.natAbs

/-- Puts a setting at an index; places that are skipped hold nothing. -/
def putItem (n : Nat) (s : Setting) (ss : List Setting) : List Setting :=
  ss.take n ++ List.replicate (n - ss.length) .nothing ++ s :: ss.drop (n + 1)

/-! ## Covering -/

mutual

/-- A setting laid over another one. Its tables cover entry by entry, and one without entries leaves
what is there; all else takes the place of what it covers. -/
def cover (under : Option Setting) : Setting → Setting
  | .table es => coverEntries (under.getD (.table [])) es
  | .nothing => .nothing
  | .bool b => .bool b
  | .integer n => .integer n
  | .float x => .float x
  | .text s => .text s
  | .list ss => .list ss

/-- The entries of a table laid over a setting. -/
def coverEntries (under : Setting) : List (String × Setting) → Setting
  | [] => under
  | (key, s) :: rest =>
    let name := lowercase key
    coverEntries (.table (putEntry name (cover (under.get? name) s) under.entries)) rest

end

/-- What becomes of a setting when another one is laid over what its path leads to. Steps make a
table or a list of what is none. -/
def assign (under : Option Setting) (s : Setting) : Path → Setting
  | [] => cover under s
  | .name name :: steps =>
    let table := under.getD .nothing
    .table (putEntry name (assign (table.get? name) s steps) table.entries)
  | .place n :: steps =>
    let ss := (under.getD .nothing).items
    let i := indexOf ss.length n
    let item := if steps.isEmpty then s else assign (some (ss.getD i .nothing)) s steps
    .list (putItem i item ss)

/-- A path of one name changes the setting under that name and leaves the others alone. -/
theorem get?_assign_name (es : List (String × Setting)) (s : Setting) (name other : String) :
    (assign (some (.table es)) s [.name name]).get? other =
      if other = name then some (cover (es.lookup name) s) else es.lookup other := by
  simp [assign, get?, entries, lookup_putEntry]

/-- The table that keyed settings make, each laid over those before it. -/
def ofEntries (es : List (String × Setting)) : Setting :=
  es.foldl (fun table e => assign (some table) e.2 (Path.ofKey e.1)) (.table [])

/-- The last setting is laid over what those before it make. -/
theorem ofEntries_concat (es : List (String × Setting)) (e : String × Setting) :
    ofEntries (es ++ [e]) = assign (some (ofEntries es)) e.2 (Path.ofKey e.1) := by
  simp [ofEntries]

end Setting

end Tributary
