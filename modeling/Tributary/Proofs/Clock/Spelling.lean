import Tributary.Merge.Order
import Tributary.Mutation.Basic
import Tributary.Proofs.Text.Numeral

/-!
# Texts of clock readings

The text of a clock reading is read back as this reading, whatever the signs of its two parts are. So the text can stand
for the reading in a compare-and-set column, where strings that are clock readings compare as such.

* `ofChars?_chars`, `ofDotted?_chars`: the first point parts the text into its two numbers.
* `stringOrder_text`: the order of the texts is that of the readings.
* `get?_sourceMeta_updated`: the origin of a change holds the text of its time.
* `clock_texts_order_as_readings`: all this for any two readings, up to the order of rows.
-/

namespace Tributary

open Text

namespace Hlc

/-! ## Reading -/

theorem ofParts?_parts (h : Hlc) : ofParts? h.nanos h.logical = some h :=
  dif_pos ⟨h.nanosBounded, h.logicalBounded⟩

theorem ofTexts?_signed_padded (h : Hlc) (width : Nat) :
    ofTexts? (signed h.nanos) (padded width h.logical) = some h := by
  have hnanos : readInt 64 (signed h.nanos) = .ok h.nanos :=
    readInt_signed h.nanosBounded.1 h.nanosBounded.2
  have hlogical : readInt 32 (padded width h.logical) = .ok h.logical :=
    readInt_padded width h.logicalBounded.1 h.logicalBounded.2
  unfold ofTexts?
  rw [hnanos, hlogical]
  exact h.ofParts?_parts

/-- There is no point in the wall time, so that the first one ends it. -/
theorem bne_point_of_mem_signed {n : Int} {c : Char} (h : c ∈ signed n) : (c != '.') = true := by
  rcases isDigit_or_minus_of_mem_signed h with hdigit | rfl
  · rw [bne_iff_ne]
    rintro rfl
    exact absurd hdigit (by decide)
  · rfl

theorem ofChars?_chars (h : Hlc) : ofChars? h.chars = some h := by
  have hnanos : ∀ c ∈ signed h.nanos, (c != '.') = true := fun _ => bne_point_of_mem_signed
  have htake : h.chars.takeWhile (· != '.') = signed h.nanos := by
    rw [chars, List.takeWhile_append_of_pos hnanos]
    simp
  have hdrop : h.chars.dropWhile (· != '.') = '.' :: padded 10 h.logical := by
    rw [chars, List.dropWhile_append_of_pos hnanos]
    simp
  unfold ofChars?
  rw [hdrop, htake]
  exact h.ofTexts?_signed_padded 10

theorem ofDotted?_chars (h : Hlc) : ofDotted? h.chars = some h := by
  have hpoint : '.' ∈ h.chars := List.mem_append_right _ List.mem_cons_self
  rw [ofDotted?, if_pos hpoint, ofChars?_chars]

theorem toList_text (h : Hlc) : h.text.toList = h.chars := String.toList_ofList

theorem parse_text (h : Hlc) : parse h.text = .ok h := by
  rw [parse, toList_text, ofChars?_chars]

end Hlc

/-! ## Order -/

theorem stringOrder_text (h g : Hlc) : stringOrder h.text g.text = h.order g := by
  rw [stringOrder, Hlc.toList_text, Hlc.toList_text, Hlc.ofDotted?_chars, Hlc.ofDotted?_chars]

theorem get?_sourceMeta_updated (source : String) (table : TableName) (h : Hlc) :
    (sourceMeta source table h).get? "updated" = some (.string h.text) :=
  Document.get?_insert_self _ _ _

/-- The text of a clock reading is read back as this reading, also where a plain integer is none, and two texts compare
as values just as the readings do. Rows whose first compare-and-set column holds the time texts of two origins compare
as these times; where the times are the same, the columns behind it decide. -/
theorem clock_texts_order_as_readings (h g : Hlc) :
    Hlc.parse h.text = .ok h ∧ Hlc.ofDotted? h.text.toList = some h ∧
      valueOrder (some (.string h.text)) (some (.string g.text)) = h.order g ∧
      ∀ (source source' : String) (table table' : TableName) (column : String) (rest : List String) (p t : Document),
        ∃ x y, (sourceMeta source table h).get? "updated" = some x ∧
          (sourceMeta source' table' g).get? "updated" = some y ∧
          casOrder (column :: rest) (p.insert column x) (t.insert column y) =
            (h.order g).then (casOrder rest (p.insert column x) (t.insert column y)) := by
  have horder : valueOrder (some (.string h.text)) (some (.string g.text)) = h.order g := stringOrder_text h g
  refine ⟨h.parse_text, ?_, horder, fun source source' table table' column rest p t => ?_⟩
  · rw [Hlc.toList_text, Hlc.ofDotted?_chars]
  · refine ⟨_, _, get?_sourceMeta_updated source table h, get?_sourceMeta_updated source' table' g, ?_⟩
    rw [casOrder, Document.get?_insert_self, Document.get?_insert_self, horder]

/-- The counter is filled up behind its sign, and the least one needs no filling. -/
example : (⟨-1, -7, by decide, by decide⟩ : Hlc).text = "-1.-000000007" ∧
    (⟨0, -2147483648, by decide, by decide⟩ : Hlc).text = "0.-2147483648" := by decide +kernel

end Tributary
