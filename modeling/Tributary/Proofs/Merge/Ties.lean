import Tributary.Proofs.Json.Unambiguous
import Tributary.Proofs.Merge.ValueOrder
import Tributary.Proofs.Number.Rounding
import Tributary.Proofs.Value.Equality

/-!
# When equal values tie

A proposal that repeats a part of the stored row is a replay, and what counts for that is whether values are
equal. Whether a proposal is newer is left to the order of values, which tells more of them apart: negative
zero lies below zero, and documents compare by their texts, in which `1` and `1.0` differ.

* `Number.order_eq_iff_of_same`: equal numbers tie unless one of them only is negative zero.
* `Value.ties`: what values that count as equal need to tie, at any depth.
* `equal_values_tie_iff`: equal values tie exactly then, and rows with equal columns do exactly if these do.
-/

namespace Tributary

/-! ## Numbers -/

namespace Binary64

/-- Whether the number is zero with a sign. -/
def isNegativeZero (x : Binary64) : Bool := x.negative && x.magnitude == 0

/-- Rounding takes no positive integer to zero: the exponent alone keeps it above. -/
theorem roundRatio_one_ne_zero {k : Nat} (hk : k ≠ 0) : roundRatio k 1 ≠ some 0 := by
  intro h
  have hexponent : 0 < (max (-1074) (binade k 1 - 52) + 1074).toNat := by
    rw [binade_one hk]
    omega
  have hpos := Nat.mul_pos hexponent (Nat.two_pow_pos 52)
  simp only [roundRatio, if_neg hk] at h
  split at h
  · have hzero := Option.some.inj h
    exact absurd (Nat.eq_zero_of_add_eq_zero_right hzero) hpos.ne'
  · cases h

/-- An integer is not read as negative zero. -/
theorem isNegativeZero_ofInt (n : Int) : (ofInt n).isNegativeZero = false := by
  unfold ofInt
  cases hround : roundRatio n.natAbs 1 with
  | none => rfl
  | some magnitude =>
    by_cases hfinite : magnitude < binary64Limit
    · rw [Option.bind_some, ofMagnitude?, dif_pos hfinite, Option.getD_some, isNegativeZero]
      by_cases hneg : n < 0
      · have hne : magnitude ≠ 0 := by
          rintro rfl
          exact roundRatio_one_ne_zero (by omega) hround
        simp [hne]
      · simp [hneg]
    · rw [Option.bind_some, ofMagnitude?, dif_neg hfinite]
      rfl

/-- Of numbers of one rank, the total order only tells negative zero from zero. -/
theorem totalRank_eq_iff_of_rank_eq {x y : Binary64} (h : x.rank = y.rank) :
    x.totalRank = y.totalRank ↔ x.isNegativeZero = y.isNegativeZero := by
  obtain ⟨nx, mx, hx⟩ := x
  obtain ⟨ny, my, hy⟩ := y
  unfold rank at h
  unfold totalRank isNegativeZero
  cases nx <;> cases ny <;> simp at h ⊢ <;> omega

end Binary64

namespace Number

/-- Whether the number is the float `-0.0`. -/
def isNegativeZero : Number → Bool
  | .integer _ _ => false
  | .float x => x.isNegativeZero

theorem isNegativeZero_toBinary64 (n : Number) : n.toBinary64.isNegativeZero = n.isNegativeZero := by
  cases n with
  | integer n _ => exact Binary64.isNegativeZero_ofInt n
  | float x => rfl

/-- Numbers that count as equal compare as equal, unless one of them only is negative zero. -/
theorem order_eq_iff_of_same {a b : Number} (h : a.same b = true) :
    a.order b = .eq ↔ a.isNegativeZero = b.isNegativeZero := by
  have hfloats (hrank : a.toBinary64.rank = b.toBinary64.rank) :
      compare a.toBinary64.totalRank b.toBinary64.totalRank = .eq ↔ a.isNegativeZero = b.isNegativeZero := by
    rw [Std.LawfulEqOrd.compare_eq_iff_eq, Binary64.totalRank_eq_iff_of_rank_eq hrank,
      isNegativeZero_toBinary64, isNegativeZero_toBinary64]
  cases a with
  | integer m hm =>
    cases b with
    | integer n hn =>
      obtain rfl : m = n := beq_iff_eq.1 h
      exact iff_of_true Std.compare_self rfl
    | float y => exact hfloats (beq_iff_eq.1 h)
  | float x =>
    cases b with
    | integer n hn => exact hfloats (beq_iff_eq.1 h)
    | float y => exact hfloats (beq_iff_eq.1 h)

end Number

/-! ## Values -/

namespace Value

mutual

/-- Wherever numbers stand at one place of two values, both of them are negative zero or none is, and wherever
documents do, they are identical, number classes included. -/
def ties : Value → Value → Bool
  | .number m, .number n => m.isNegativeZero == n.isNegativeZero
  | .array vs, .array ws => tiesItems vs ws
  | .document fs, .document gs => decide (fs = gs)
  | _, _ => true

/-- `ties` item by item. -/
def tiesItems : List Value → List Value → Bool
  | v :: vs, w :: ws => ties v w && tiesItems vs ws
  | _, _ => true

end

theorem order_document_eq_iff (fs gs : List (String × Value)) :
    order (.document fs) (.document gs) = .eq ↔ fs = gs := by
  rw [order, Std.LawfulEqOrd.compare_eq_iff_eq, text, text]
  constructor
  · intro h
    have hchars : chars (.document fs) = chars (.document gs) := by
      simpa using congrArg String.toList h
    exact Value.document.inj (chars_injective hchars)
  · intro h
    rw [h]

mutual

/-- Values that count as equal compare as equal exactly if they tie. Texts, booleans and null do. -/
theorem order_eq_iff_of_same : (v w : Value) → v.same w = true → (v.order w = .eq ↔ v.ties w = true)
  | .null, w, h => by cases w <;> simp [same, order, ties] at h ⊢
  | .bool a, w, h => by
    cases w <;> simp [same, order, ties] at h ⊢
    exact h
  | .number m, w, h => by
    cases w with
    | number n =>
      rw [order, ties, beq_iff_eq]
      exact Number.order_eq_iff_of_same h
    | _ => simp [same] at h
  | .string s, w, h => by
    cases w <;> simp [same, order, ties] at h ⊢
    rw [h]
    exact stringOrder_self _
  | .array vs, w, h => by
    cases w with
    | array ws =>
      rw [order, ties]
      exact itemOrder_eq_iff_of_same vs ws h
    | _ => simp [same] at h
  | .document fs, w, h => by
    cases w with
    | document gs =>
      rw [order_document_eq_iff, ties, decide_eq_true_iff]
    | _ => simp [same] at h

theorem itemOrder_eq_iff_of_same : (vs ws : List Value) → sameItems vs ws = true →
    (itemOrder vs ws = .eq ↔ tiesItems vs ws = true)
  | [], [], _ => by simp [itemOrder, tiesItems]
  | [], _ :: _, h => by simp [sameItems] at h
  | _ :: _, [], h => by simp [sameItems] at h
  | v :: vs, w :: ws, h => by
    simp only [sameItems, Bool.and_eq_true] at h
    rw [itemOrder, tiesItems, Ordering.then_eq_eq, Bool.and_eq_true]
    exact and_congr (order_eq_iff_of_same v w h.1) (itemOrder_eq_iff_of_same vs ws h.2)

end

end Value

/-! ## Rows -/

/-- Both rows have each of the columns, with equal values. -/
def SameColumns (columns : List String) (a b : Document) : Prop :=
  ∀ column ∈ columns, ∃ v w, a.get? column = some v ∧ b.get? column = some w ∧ v.same w = true

/-- The values of each column tie. -/
def TyingColumns (columns : List String) (a b : Document) : Prop :=
  ∀ column ∈ columns, ∀ v w, a.get? column = some v → b.get? column = some w → v.ties w = true

theorem casOrder_eq_eq_iff {columns : List String} {a b : Document} :
    casOrder columns a b = .eq ↔ ∀ column ∈ columns, valueOrder (a.get? column) (b.get? column) = .eq := by
  induction columns with
  | nil => simp [casOrder]
  | cons column rest ih => rw [casOrder, Ordering.then_eq_eq, ih, List.forall_mem_cons]

theorem casOrder_eq_iff_of_same {columns : List String} {a b : Document} (h : SameColumns columns a b) :
    casOrder columns a b = .eq ↔ TyingColumns columns a b := by
  rw [casOrder_eq_eq_iff]
  refine forall₂_congr fun column hcolumn => ?_
  obtain ⟨v, w, hv, hw, hsame⟩ := h column hcolumn
  rw [hv, hw]
  refine (Value.order_eq_iff_of_same v w hsame).trans ?_
  constructor
  · rintro hties _ _ ⟨⟩ ⟨⟩
    exact hties
  · exact fun hties => hties v w rfl rfl

/-- Rows tie if neither is newer than the other. -/
theorem casOrder_eq_iff_neither_newer {columns : List String} {a b : Document} :
    casOrder columns a b = .eq ↔ casOrder columns a b ≠ .gt ∧ casOrder columns b a ≠ .gt := by
  rw [casOrder_swap columns b a]
  cases casOrder columns a b <;> decide

/-! ## The whole statement -/

/-- Values that count as equal compare as equal exactly if they tie. Rows whose columns are all there and equal
compare as equal exactly if the values of each column tie, and exactly then neither supersedes the other. -/
theorem equal_values_tie_iff {v w : Value} (hvalues : v.same w = true) {columns : List String}
    {proposed target : Document} (hrows : SameColumns columns proposed target) :
    (v.order w = .eq ↔ v.ties w = true) ∧
      (casOrder columns proposed target = .eq ↔ TyingColumns columns proposed target) ∧
      (casOrder columns proposed target ≠ .gt ∧ casOrder columns target proposed ≠ .gt ↔
        TyingColumns columns proposed target) := by
  have hties := casOrder_eq_iff_of_same hrows
  exact ⟨Value.order_eq_iff_of_same v w hvalues, hties, casOrder_eq_iff_neither_newer.symm.trans hties⟩

namespace Example

/-- A row with a version. -/
def versioned (version : Value) : Document := .ofList [("version", version)]

end Example

/-- The versions `[1, 2.0]` and `[1.0, 2]` are equal and tie, and so do rows that have them. -/
theorem nested_numbers_tie :
    let a := Value.array [.number (.integer 1 (by decide)), .number (.float (.ofInt 2))]
    let b := Value.array [.number (.float (.ofInt 1)), .number (.integer 2 (by decide))]
    a.same b = true ∧ a.order b = .eq ∧
      casOrder ["version"] (Example.versioned a) (Example.versioned b) = .eq := by
  intro a b
  have hsame : a.same b = true := by decide +kernel
  have hties : a.ties b = true := by decide +kernel
  have hversion (v : Value) : (Example.versioned v).get? "version" = some v := rfl
  have hrows : SameColumns ["version"] (Example.versioned a) (Example.versioned b) := by
    intro column hcolumn
    rw [List.mem_singleton.1 hcolumn]
    exact ⟨a, b, hversion a, hversion b, hsame⟩
  have htying : TyingColumns ["version"] (Example.versioned a) (Example.versioned b) := by
    intro column hcolumn v w hv hw
    rw [List.mem_singleton.1 hcolumn, hversion] at hv hw
    cases hv
    cases hw
    exact hties
  obtain ⟨hvalue, hrow, -⟩ := equal_values_tie_iff hsame hrows
  exact ⟨hsame, hvalue.2 hties, hrow.2 htying⟩

/-- Zero and negative zero are equal and yet zero is newer, in a row as well. So are the documents `{"a": 1}` and
`{"a": 1.0}`, of which the first is newer. -/
theorem equal_values_that_supersede :
    let zero := Value.number (.float .zero)
    let negativeZero := Value.number (.float ⟨true, 0, by decide⟩)
    let whole := Value.document [("a", .number (.integer 1 (by decide)))]
    let floating := Value.document [("a", .number (.float (.ofInt 1)))]
    (zero.same negativeZero = true ∧
      casOrder ["version"] (Example.versioned zero) (Example.versioned negativeZero) = .gt) ∧
      (whole.same floating = true ∧
        casOrder ["version"] (Example.versioned whole) (Example.versioned floating) = .gt) ∧
      ¬ ∀ v w : Value, v.same w = true → v.order w = .eq := by
  intro zero negativeZero whole floating
  have hsame : zero.same negativeZero = true := by decide +kernel
  refine ⟨⟨hsame, by decide +kernel⟩, ⟨by decide +kernel, by decide +kernel⟩, fun h => ?_⟩
  have hequal : Ordering.gt = .eq := (by decide +kernel : zero.order negativeZero = .gt).symm.trans (h _ _ hsame)
  cases hequal

end Tributary
