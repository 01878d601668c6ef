import Tributary.Merge.Standard
import Tributary.Text.Quoted

/-!
# Recipes

A recipe is a user function that is given as data. It may take time, fail, panic, or choose by a
value; what it answers is a template filled with the variables of the call.

* `Template.fill`: a string such as `$doc.name` stands for the value of a variable or for a property
  in it, and an object with the one key `$merge` for the overlay of several documents.
* `Recipe.run`: the reply to a call.
* `Recipe.rowFunction`, `Recipe.mergeFunction`: recipes as user functions.
-/

namespace Tributary

/-! ## Variables -/

/-- The variables of a call, of which the first under a name counts. -/
abbrev Scope := List (String × Value)

/-- What a recipe can refer to. A merge always has a row before the change and unmerged columns,
null and empty where there are none. -/
def Call.scope : Call → Scope
  | .dispatch document origin | .map document origin =>
    [("doc", document.toValue), ("meta", origin.toValue)]
  | .merge op =>
    op.toDocument.fields ++ [("before", .null), ("unmerged", .array [])]

/-! ## Templates -/

namespace Template

/-- Splits a text at every dot. -/
def splitDots : List Char → List (List Char)
  | [] => [[]]
  | c :: cs =>
    if c = '.' then [] :: splitDots cs
    else
      match splitDots cs with
      | [] => [[c]]
      | part :: rest => (c :: part) :: rest

/-- The property that a path leads to, null if there is none. -/
def follow (v : Value) : List String → Value
  | [] => v
  | name :: rest =>
    match v with
    | .document fields => follow ((fields.lookup name).getD .null) rest
    | _ => .null

/-- The value that a reference stands for, `none` if it does not begin with a variable. -/
def reference? (scope : Scope) (path : List Char) : Option Value :=
  match (splitDots path).map String.ofList with
  | [] => none
  | name :: rest => (scope.lookup name).map fun v => follow v rest

/-- What a string of a template stands for. -/
def fillString (scope : Scope) (s : String) : Value :=
  match s.toList with
  | '$' :: path => (reference? scope path).getD (.string s)
  | _ => .string s

/-- The overlay of those values that are documents, from left to right. -/
def overlayAll (parts : List Value) : Value :=
  (Document.ofList (parts.flatMap fun
    | .document fields => fields
    | _ => [])).toValue

mutual

/-- Fills a template. -/
def fill (scope : Scope) : Value → Value
  | .string s => fillString scope s
  | .array items => .array (fillItems scope items)
  | .document [("$merge", .array parts)] => overlayAll (fillItems scope parts)
  | .document fields => .document (fillFields scope fields)
  | .null => .null
  | .bool b => .bool b
  | .number n => .number n

/-- Fills the items of an array. -/
def fillItems (scope : Scope) : List Value → List Value
  | [] => []
  | v :: vs => fill scope v :: fillItems scope vs

/-- Fills the properties of a document and keeps their names. -/
def fillFields (scope : Scope) : List (String × Value) → List (String × Value)
  | [] => []
  | (name, v) :: rest => (name, fill scope v) :: fillFields scope rest

end

end Template

/-! ## Recipes -/

/-- A user function that is given as data. -/
inductive Recipe where
  /-- Answers with a filled template. -/
  | value (template : Value)
  | fault (cause : Fault)
  /-- Panics with a message. The report leaves out the number of the task. -/
  | panic (message : String)
  /-- Takes some time and goes on. -/
  | sleep (millis : Nat) (next : Recipe)
  /-- Fills a template and goes on with the case that its text selects. -/
  | choose (on : Value) (cases : List (String × Recipe)) (otherwise : Recipe)
  /-- Resolves a conflict in favour of the stored row, and answers any other call with null. -/
  | preferTarget

namespace Recipe

/-- The recipe that answers with null. -/
def nothing : Recipe := .value .null

instance : Inhabited Recipe := ⟨nothing⟩

/-- The recipe of a merge that fails. -/
def explode : Recipe := .fault .mergeExploded

/-- The text by which a value selects a case. -/
def caseText : Value → String
  | .string s => s
  | v => v.text

/-- Lets a reply take longer. -/
def delay (millis : Nat) (reply : Reply) : Reply := { reply with millis := millis + reply.millis }

mutual

/-- The reply to a call. -/
def run (call : Call) : Recipe → Reply
  | .value template => ⟨0, .value (Template.fill call.scope template)⟩
  | .fault cause => ⟨0, .fault cause⟩
  | .panic message => ⟨0, .panic s!"task panicked with message {Text.quote message}"⟩
  | .sleep millis next => delay millis (run call next)
  | .choose on cases otherwise =>
    match runCase call (caseText (Template.fill call.scope on)) cases with
    | some reply => reply
    | none => run call otherwise
  | .preferTarget =>
    match call with
    | .merge op => Tributary.preferTarget op
    | _ => ⟨0, .value .null⟩

/-- The reply of the first case under a text. -/
def runCase (call : Call) (text : String) : List (String × Recipe) → Option Reply
  | [] => none
  | (name, recipe) :: rest => if name = text then some (run call recipe) else runCase call text rest

end

/-- A recipe as a dispatch function. -/
def dispatchFunction (recipe : Recipe) : RowFunction := fun document origin =>
  recipe.run (.dispatch document origin)

/-- A recipe as a map function. -/
def mapFunction (recipe : Recipe) : RowFunction := fun document origin =>
  recipe.run (.map document origin)

/-- A recipe as a merge function. -/
def mergeFunction (recipe : Recipe) : MergeFunction := fun op => recipe.run (.merge op)

end Recipe

end Tributary
