import Tributary.Number.Extended
import Tributary.Yaml.Quoted

/-!
# Nodes of YAML documents

A document is a tree of sequences and mappings over scalars.

* `Node.ofPlain`: what a scalar without quotes stands for.
* `Node.ofTagged`: what a scalar stands for that a tag gives a kind to.
-/

namespace Tributary.Yaml

/-- A scalar, a sequence or a mapping. A real number keeps its spelling. -/
inductive Node where
  | null
  | bool (b : Bool)
  | integer (n : Int)
  | real (spelling : String)
  | text (s : String)
  | sequence (items : List Node)
  | mapping (entries : List (Node × Node))
  deriving BEq, Repr, Inhabited

namespace Node

/-! ## Numbers -/

/-- The number that digits of a base of at most sixteen append to another one. -/
def digits? (base n : Nat) : List Char → Option Nat
  | [] => some n
  | c :: cs =>
    match hexDigit? c with
    | some d => if d < base then digits? base (base * n + d) cs else none
    | none => none

/-- An integer of a base behind an optional sign, in the signed 64-bit range. -/
def inBase? (base : Nat) (cs : List Char) : Option Int :=
  let number? : List Char → Option Nat := fun ds => if ds.isEmpty then none else digits? base 0 ds
  let n? : Option Int :=
    match cs with
    | '-' :: ds => (number? ds).map fun n => -(n : Int)
    | '+' :: ds => (number? ds).map Int.ofNat
    | ds => (number? ds).map Int.ofNat
  n?.filter fun n => -9223372036854775808 ≤ n ∧ n < 9223372036854775808

/-- An integer: hexadecimal behind `0x`, octal behind `0o`, else decimal, perhaps behind a plus. -/
def integer? (cs : List Char) : Option Int :=
  let marked :=
    match cs with
    | '0' :: 'x' :: ds => inBase? 16 ds
    | '0' :: 'o' :: ds => inBase? 8 ds
    | '+' :: ds => inBase? 10 ds
    | _ => none
  match marked with
  | some n => some n
  | none => inBase? 10 cs

/-- The word for no number and those for infinity, with a point in front. -/
def isPointWord (s : String) : Bool :=
  [".nan", ".NAN", ".inf", ".Inf", ".INF", "+.inf", "+.Inf", "+.INF", "-.inf", "-.Inf",
    "-.INF"].contains s

/-- Whether a text spells a real number. -/
def isReal (s : String) : Bool := isPointWord s || (Extended.ofText? s).isSome

/-! ## Scalars -/

/-- What a scalar without quotes stands for. -/
def ofPlain (s : String) : Node :=
  match integer? s.toList with
  | some n => .integer n
  | none =>
    if s = "" ∨ s = "~" ∨ s = "null" then .null
    else if s = "true" then .bool true
    else if s = "false" then .bool false
    else if isReal s then .real s
    else .text s

/-- What a scalar stands for whose tag names one of the kinds of the core schema; a text that is none
of that kind stands for nothing. -/
def ofTagged (kind : String) (s : String) : Node :=
  match kind with
  | "bool" => if s = "true" then .bool true else if s = "false" then .bool false else .null
  | "int" => ((inBase? 10 s.toList).map Node.integer).getD .null
  | "float" => if isReal s then .real s else .null
  | "null" => .null
  | _ => .text s

end Node

end Tributary.Yaml
