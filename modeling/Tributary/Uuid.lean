import Tributary.Number.Power

/-!
# Random identifiers

A random identifier is a number of 128 bits. Six of them say that it is random, so 122 are free. It
is written as 32 hexadecimal digits in five groups.

* `Uuid.ofBits`: the identifier that a number makes.
* `Uuid.random`: an identifier from a random generator.
-/

namespace Tributary

/-- A random identifier, given by its 32 hexadecimal digits. -/
structure Uuid where
  digits : List Nat
  deriving DecidableEq, Repr

namespace Uuid

/-- The place of the digit that says how the identifier was made. -/
def versionPlace : Nat := 12

/-- The place of the digit whose first two bits say how the identifier is laid out. -/
def variantPlace : Nat := 16

/-- The identifier that the low 128 bits of a number make. -/
def ofBits (bits : Nat) : Uuid :=
  let digits := (List.range 32).map fun place => bits / twoTo (4 * (31 - place)) % 16
  ⟨(digits.set versionPlace 4).modify variantPlace fun digit => 8 + digit % 4⟩

/-- Cuts a list into pieces of the given lengths. -/
def cut {α : Type} : List Nat → List α → List (List α)
  | [], _ => []
  | n :: ns, xs => xs.take n :: cut ns (xs.drop n)

/-- The written form of an identifier. -/
def text (id : Uuid) : String :=
  let groups := cut [8, 4, 4, 4, 12] (id.digits.map Nat.digitChar)
  "-".intercalate (groups.map String.ofList)

/-- An identifier from a random generator, and the generator behind it. -/
def random {g : Type} [RandomGen g] (gen : g) : Uuid × g :=
  let drawn := randNat gen 0 (twoTo 128 - 1)
  (ofBits drawn.1, drawn.2)

end Uuid

end Tributary
