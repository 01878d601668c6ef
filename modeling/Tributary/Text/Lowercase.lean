import Tributary.Text.CaseTable

/-!
# Lower case

Text in lower case letters, as the full case mapping of Unicode gives it.

* `lowercase`: every letter becomes its lower case. A capital sigma at the end of a word becomes a
  final sigma: a cased letter stands before it and none behind it, characters that do not part
  words being passed over.
-/

namespace Tributary.Text

/-- The lower case of a character apart from its neighbours. -/
def lowerChar (c : Char) : List Char :=
  if c.toNat = 0x130 then ['i', '\u0307']
  else
    let n := c.toNat
    match lowerRuns.find? fun run =>
        decide (run.1 ≤ n ∧ n ≤ run.2.1 ∧ (n - run.1) % run.2.2.1 = 0) with
    | some run => [Char.ofNat ((n : Int) + run.2.2.2).toNat]
    | none => [c]

/-- Whether the first character that parts words or has a case is a cased letter. -/
def startsCased (cs : List Char) : Bool :=
  match cs.dropWhile isCaseIgnorable with
  | c :: _ => isCased c
  | [] => false

/-- The lower case of a text, given the characters before it from the last to the first. -/
def lowercaseAfter (before : List Char) : List Char → List Char
  | [] => []
  | c :: cs =>
    let lower :=
      if c = 'Σ' then (if startsCased before && !startsCased cs then ['ς'] else ['σ'])
      else lowerChar c
    lower ++ lowercaseAfter (c :: before) cs

/-- The lower case of a text. -/
def lowercase (s : String) : String := String.ofList (lowercaseAfter [] s.toList)

end Tributary.Text
