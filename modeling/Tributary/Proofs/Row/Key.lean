import Tributary.Proofs.Json.Unambiguous
import Tributary.Row.Key

/-!
# Keys determine their values

Keys are the same exactly when their values have one canonical form, column by column.

* `Value.same_of_canonical`: values with one canonical form are equal.
* `RowKey.same_iff_canonical`: two keys are the same when their columns are.
* `RowKey.pairwise_same`: distinct rows never share a key.
-/

namespace Tributary

namespace Value

/-! ## Canonical forms -/

mutual

/-- Values with one canonical form are equal. -/
theorem same_of_canonical : (v w : Value) → canonical v = canonical w → v.same w = true
  | .null, w, h => by
    cases w <;> simp [canonical, same] at h ⊢
  | .bool a, w, h => by
    cases w <;> simp [canonical, same] at h ⊢
    exact h
  | .number m, w, h => by
    cases w <;> simp [canonical, same] at h ⊢
    exact Number.same_of_canonical h
  | .string a, w, h => by
    cases w <;> simp [canonical, same] at h ⊢
    exact h
  | .array vs, w, h => by
    cases w <;> simp [canonical, same] at h ⊢
    exact sameItems_of_canonical vs _ h
  | .document fs, w, h => by
    cases w <;> simp [canonical, same] at h ⊢
    exact sameFields_of_canonical fs _ h

theorem sameItems_of_canonical : (vs ws : List Value) → canonicalItems vs = canonicalItems ws →
    sameItems vs ws = true
  | [], [], _ => rfl
  | [], _ :: _, h => by simp [canonicalItems] at h
  | _ :: _, [], h => by simp [canonicalItems] at h
  | v :: vs, w :: ws, h => by
    simp only [canonicalItems, List.cons.injEq] at h
    simp only [sameItems, Bool.and_eq_true]
    exact ⟨same_of_canonical v w h.1, sameItems_of_canonical vs ws h.2⟩

theorem sameFields_of_canonical : (fs gs : List (String × Value)) →
    canonicalFields fs = canonicalFields gs → sameFields fs gs = true
  | [], [], _ => rfl
  | [], (_, _) :: _, h => by simp [canonicalFields] at h
  | (_, _) :: _, [], h => by simp [canonicalFields] at h
  | (m, v) :: fs, (n, w) :: gs, h => by
    simp only [canonicalFields, List.cons.injEq, Prod.mk.injEq] at h
    simp only [sameFields, Bool.and_eq_true, beq_iff_eq]
    exact ⟨⟨h.1.1, same_of_canonical v w h.1.2⟩, sameFields_of_canonical fs gs h.2⟩

end

theorem canonicalItems_eq_map (vs : List Value) : canonicalItems vs = vs.map canonical := by
  induction vs with
  | nil => rfl
  | cons v vs ih => rw [canonicalItems, ih, List.map_cons]

theorem forall₂_of_sameItems : {vs ws : List Value} → sameItems vs ws = true →
    List.Forall₂ (fun v w => v.same w = true) vs ws
  | [], [], _ => .nil
  | v :: vs, w :: ws, h => by
    simp only [sameItems, Bool.and_eq_true] at h
    exact .cons h.1 (forall₂_of_sameItems h.2)

end Value

namespace RowKey

/-! ## Keys -/

/-- Keys are the same when each column has one canonical form in both. -/
theorem same_iff_canonical {a b : RowKey} :
    a.same b = true ↔ a.values.map Value.canonical = b.values.map Value.canonical := by
  rw [same, beq_iff_eq, chars, chars, Value.canonicalItems_eq_map, Value.canonicalItems_eq_map]
  constructor
  · intro h
    exact Value.array.inj (Value.chars_injective h)
  · intro h
    rw [h]

/-- Two rows with one key have the same number of key columns, and equal values in each of them. -/
theorem pairwise_same (a b : List Value) (h : (RowKey.mk a).same ⟨b⟩ = true) :
    a.length = b.length ∧ List.Forall₂ (fun v w => v.same w = true) a b := by
  have hcanonical := same_iff_canonical.1 h
  have hsame : Value.sameItems a b = true := by
    refine Value.sameItems_of_canonical a b ?_
    rw [Value.canonicalItems_eq_map, Value.canonicalItems_eq_map]
    exact hcanonical
  exact ⟨by simpa using congrArg List.length hcanonical, Value.forall₂_of_sameItems hsame⟩

/-- The key `[1, "\",\"", [2.5]]`, its first column written as an integer and as a float. -/
theorem pairwise_same_across_classes :
    let one : List Value := [.number (.integer 1 (by decide)), .string "\",\"",
      .array [.number (.float ⟨false, 4612811918334230528, by decide⟩)]]
    let other : List Value := [.number (.float ⟨false, 4607182418800017408, by decide⟩), .string "\",\"",
      .array [.number (.float ⟨false, 4612811918334230528, by decide⟩)]]
    (RowKey.mk one).same ⟨other⟩ = true ∧ one ≠ other ∧ one.length = other.length ∧
      List.Forall₂ (fun v w => v.same w = true) one other := by
  intro one other
  have hsame : (RowKey.mk one).same ⟨other⟩ = true := by decide +kernel
  exact ⟨hsame, by decide +kernel, pairwise_same one other hsame⟩

end RowKey

end Tributary
