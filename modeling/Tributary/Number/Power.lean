/-!
# Powers of two and ten

The scales of binary and decimal numbers.
-/

namespace Tributary

/-- Two to the power `n`. -/
abbrev twoTo (n : Nat) : Nat := Nat.pow 2 n

/-- Ten to the power `n`. -/
abbrev tenTo (n : Nat) : Nat := Nat.pow 10 n

end Tributary
