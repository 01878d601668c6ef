import Tributary.Merge.Order
import Tributary.Proofs.Value.Integral

/-!
# Laws of the order of values

What holds of the order of compare-and-set columns for all values, and what holds of the values that
such columns usually have.

* `Value.order_self`: a value is equal to itself.
* `Value.order_swap`: comparing the other way round turns the answer round.
* `Value.order_null_ne_gt`: null, and with it a missing column, is newer than nothing.
* `Value.Plain`: null, booleans, integers, strings and arrays of these. Plain values are integral, so that
  those that count as the same are identical and equal in the order as well.
* `casOrder_overlay_of_gt`, `casOrder_overlay_of_subsetOf`: a row that a proposal is laid over does not
  become older, whether the proposal is newer or repeats a part of it.
* `two_rows_never_supersede_each_other`: of two rows at most one is newer, and one column decides which.
-/

namespace Tributary

/-! ## All values -/

theorem Hlc.order_self (h : Hlc) : h.order h = .eq := by simp [Hlc.order, Std.compare_self]

theorem Instant.order_self (t : Instant) : t.order t = .eq := by
  simp [Instant.order, Std.compare_self]

theorem Number.order_self (n : Number) : n.order n = .eq := by
  cases n <;> simp [Number.order, Std.compare_self]

theorem stringOrder_self (s : String) : stringOrder s s = .eq := by
  unfold stringOrder
  split
  · rename_i x y hx hy
    cases hx.symm.trans hy
    exact x.order_self
  · split
    · rename_i x y hx hy
      cases hx.symm.trans hy
      exact x.order_self
    · exact Std.compare_self

theorem Hlc.order_swap (a b : Hlc) : a.order b = (b.order a).swap := by
  rw [Hlc.order, Hlc.order, Ordering.swap_then, ← Std.OrientedOrd.eq_swap,
    ← Std.OrientedOrd.eq_swap]

theorem Instant.order_swap (a b : Instant) : a.order b = (b.order a).swap := by
  rw [Instant.order, Instant.order, Ordering.swap_then, ← Std.OrientedOrd.eq_swap,
    ← Std.OrientedOrd.eq_swap]

theorem Number.order_swap (a b : Number) : a.order b = (b.order a).swap := by
  cases a <;> cases b <;> exact Std.OrientedOrd.eq_swap

theorem stringOrder_swap (a b : String) : stringOrder a b = (stringOrder b a).swap := by
  unfold stringOrder
  cases Hlc.ofDotted? a.toList <;> cases Hlc.ofDotted? b.toList <;>
    cases Timestamp.parse? a <;> cases Timestamp.parse? b <;>
    first
    | exact Hlc.order_swap _ _
    | exact Instant.order_swap _ _
    | exact Std.OrientedOrd.eq_swap

namespace Value

mutual

/-- A value is equal to itself. -/
theorem order_self : (v : Value) → v.order v = .eq
  | .null => rfl
  | .bool _ => Std.compare_self
  | .number n => n.order_self
  | .string s => stringOrder_self s
  | .array items => itemOrder_self items
  | .document _ => Std.compare_self

theorem itemOrder_self : (vs : List Value) → itemOrder vs vs = .eq
  | [] => rfl
  | v :: vs => by rw [itemOrder, order_self v, itemOrder_self vs]; rfl

end

mutual

/-- Comparing the other way round turns the answer round. -/
theorem order_swap : (a b : Value) → a.order b = (b.order a).swap
  | .null, b => by cases b <;> simp only [order, rank] <;> decide
  | .bool a, b => by cases b <;> simp only [order, rank] <;> exact Std.OrientedOrd.eq_swap
  | .number a, b => by
    cases b <;> simp only [order, rank] <;>
      first
      | exact a.order_swap _
      | exact Std.OrientedOrd.eq_swap
  | .string a, b => by
    cases b <;> simp only [order, rank] <;>
      first
      | exact stringOrder_swap a _
      | exact Std.OrientedOrd.eq_swap
  | .array as, b => by
    cases b <;> simp only [order, rank] <;>
      first
      | exact itemOrder_swap as _
      | exact Std.OrientedOrd.eq_swap
  | .document a, b => by cases b <;> simp only [order, rank] <;> exact Std.OrientedOrd.eq_swap

theorem itemOrder_swap : (as bs : List Value) → itemOrder as bs = (itemOrder bs as).swap
  | [], [] => rfl
  | [], _ :: _ => rfl
  | _ :: _, [] => rfl
  | a :: as, b :: bs => by
    rw [itemOrder, itemOrder, order_swap a b, itemOrder_swap as bs, Ordering.swap_then]

end

/-- Null is newer than nothing. -/
theorem order_null_ne_gt (v : Value) : Value.null.order v ≠ .gt := by
  cases v <;> simp only [order, rank] <;> decide

/-! ## Plain values -/

mutual

/-- Null, a boolean, an integer, a string, or an array of such values. -/
def Plain : Value → Prop
  | .null | .bool _ | .number (.integer _ _) | .string _ => True
  | .array items => PlainItems items
  | .number (.float _) | .document _ => False

/-- `Plain` for all items of an array. -/
def PlainItems : List Value → Prop
  | [] => True
  | v :: vs => Plain v ∧ PlainItems vs

end

mutual

theorem Plain.integral : {v : Value} → v.Plain → v.Integral
  | .null, _ | .bool _, _ | .string _, _ | .number (.integer _ _), _ => trivial
  | .array _, h => PlainItems.integral h

theorem PlainItems.integral : {vs : List Value} → PlainItems vs → IntegralItems vs
  | [], _ => trivial
  | _ :: _, h => ⟨h.1.integral, PlainItems.integral h.2⟩

end

end Value

theorem valueOrder_self (v : Option Value) : valueOrder v v = .eq := Value.order_self _

theorem valueOrder_none_ne_gt (v : Option Value) : valueOrder none v ≠ .gt :=
  Value.order_null_ne_gt _

/-! ## Rows -/

theorem casOrder_self (columns : List String) (d : Document) : casOrder columns d d = .eq := by
  induction columns with
  | nil => rfl
  | cons column rest ih => rw [casOrder, valueOrder_self, ih]; rfl

theorem casOrder_swap (columns : List String) (a b : Document) :
    casOrder columns a b = (casOrder columns b a).swap := by
  induction columns with
  | nil => rfl
  | cons column rest ih =>
    have hhead : valueOrder (a.get? column) (b.get? column) =
        (valueOrder (b.get? column) (a.get? column)).swap := Value.order_swap _ _
    rw [casOrder, casOrder, hhead, ih, Ordering.swap_then]

/-- A proposal is not newer than a row that it was laid over: where it has a column they agree. -/
theorem casOrder_overlay_right_ne_gt (columns : List String) (p d : Document) :
    casOrder columns p (d.overlay p) ≠ .gt := by
  induction columns with
  | nil => simp [casOrder]
  | cons column rest ih =>
    rw [casOrder, Document.get?_overlay]
    cases hp : p.get? column with
    | some v =>
      rw [Option.some_or, valueOrder_self]
      exact ih
    | none =>
      have hhead := valueOrder_none_ne_gt (d.get? column)
      rw [Option.none_or]
      cases ho : valueOrder none (d.get? column) with
      | lt => simp
      | eq => exact ih
      | gt => exact absurd ho hhead

/-- A newer proposal stays newer when it is laid over the row: the column that decides is one that the
proposal has, since a missing one is not newer than anything. -/
theorem casOrder_overlay_of_gt {columns : List String} {p d : Document}
    (h : casOrder columns p d = .gt) : casOrder columns (d.overlay p) d = .gt := by
  induction columns with
  | nil => cases h
  | cons column rest ih =>
    simp only [casOrder, Document.get?_overlay] at h ⊢
    cases hp : p.get? column with
    | none =>
      rw [hp] at h
      have hne := valueOrder_none_ne_gt (d.get? column)
      cases hhead : valueOrder none (d.get? column) with
      | lt => simp [hhead] at h
      | gt => exact absurd hhead hne
      | eq =>
        rw [hhead] at h
        rw [Option.none_or, valueOrder_self]
        exact ih h
    | some v =>
      rw [hp] at h
      rw [Option.some_or]
      cases hhead : valueOrder (some v) (d.get? column) with
      | lt => simp [hhead] at h
      | gt => rfl
      | eq =>
        rw [hhead] at h
        exact ih h

/-- The values that a row has in some columns are plain. -/
def PlainColumns (columns : List String) (d : Document) : Prop :=
  ∀ column ∈ columns, ∀ v, d.get? column = some v → v.Plain

/-- A proposal that repeats a part of the row leaves its plain columns as they are. -/
theorem get?_overlay_of_subsetOf {columns : List String} {p d : Document}
    (hp : PlainColumns columns p) (hd : PlainColumns columns d) (h : p.subsetOf d = true)
    {column : String} (hcolumn : column ∈ columns) :
    (d.overlay p).get? column = d.get? column := by
  rw [Document.get?_overlay]
  cases hv : p.get? column with
  | none => rfl
  | some v =>
    obtain ⟨w, hw, hsame⟩ := Document.same_of_subsetOf h hv
    have heq := Value.eq_of_same v w (hp column hcolumn v hv).integral
      (hd column hcolumn w hw).integral hsame
    rw [hw, heq]
    rfl

theorem casOrder_congr_left {columns : List String} {a b c : Document}
    (h : ∀ column ∈ columns, a.get? column = b.get? column) :
    casOrder columns a c = casOrder columns b c := by
  induction columns with
  | nil => rfl
  | cons column rest ih =>
    rw [casOrder, casOrder, h column List.mem_cons_self,
      ih fun other hother => h other (List.mem_cons_of_mem _ hother)]

theorem casOrder_overlay_of_subsetOf {columns : List String} {p d : Document}
    (hp : PlainColumns columns p) (hd : PlainColumns columns d) (h : p.subsetOf d = true) :
    casOrder columns (d.overlay p) d = .eq := by
  rw [casOrder_congr_left fun column hcolumn => get?_overlay_of_subsetOf hp hd h hcolumn]
  exact casOrder_self columns d

/-- A proposal that does not conflict with a row does not make it older. -/
theorem casOrder_overlay_ne_lt {columns : List String} {p d : Document}
    (hp : PlainColumns columns p) (hd : PlainColumns columns d)
    (h : conflicts columns p d = false) : casOrder columns (d.overlay p) d ≠ .lt := by
  by_cases hsubset : p.subsetOf d = true
  · rw [casOrder_overlay_of_subsetOf hp hd hsubset]
    decide
  · have hgt : casOrder columns p d = .gt := by simpa [conflicts, hsubset] using h
    rw [casOrder_overlay_of_gt hgt]
    decide

/-! ## Two rows -/

/-- The order of rows is the first order of two values that are not equal, column by column. -/
theorem casOrder_eq_find (columns : List String) (a b : Document) :
    casOrder columns a b =
      ((columns.map fun column => valueOrder (a.get? column) (b.get? column)).find? (· != .eq)).getD .eq := by
  induction columns with
  | nil => rfl
  | cons column rest ih =>
    rw [casOrder, ih, List.map_cons, List.find?_cons]
    cases valueOrder (a.get? column) (b.get? column) <;> rfl

/-- If neither of two rows repeats a part of the other, at least one of them conflicts with the other. -/
theorem conflicts_or_subsetOf (columns : List String) (a b : Document) :
    conflicts columns a b = true ∨ conflicts columns b a = true ∨ a.subsetOf b = true ∨ b.subsetOf a = true := by
  cases hab : a.subsetOf b with
  | true => exact .inr (.inr (.inl rfl))
  | false =>
    cases hba : b.subsetOf a with
    | true => exact .inr (.inr (.inr rfl))
    | false =>
      simp only [conflicts, hab, hba, Bool.not_false, Bool.true_and]
      rw [casOrder_swap columns b a]
      cases casOrder columns a b with
      | lt => exact .inl rfl
      | eq => exact .inl rfl
      | gt => exact .inr (.inl rfl)

/-- Values compare one way round as they do the other, whether or not they are missing, and each is equal to itself. So
do rows in any columns, the first of which that differs decides: two rows are never each newer than the other, and
unless one repeats a part of the other they cannot both be written over each other. -/
theorem two_rows_never_supersede_each_other :
    (∀ a b : Option Value, valueOrder a b = (valueOrder b a).swap ∧ valueOrder a a = .eq) ∧
      ∀ (columns : List String) (p t : Document),
        casOrder columns p t =
          ((columns.map fun column => valueOrder (p.get? column) (t.get? column)).find? (· != .eq)).getD .eq ∧
        casOrder columns p t = (casOrder columns t p).swap ∧
        ¬(casOrder columns p t = .gt ∧ casOrder columns t p = .gt) ∧
        (conflicts columns p t = true ∨ conflicts columns t p = true ∨ p.subsetOf t = true ∨ t.subsetOf p = true) := by
  constructor
  · intro a b
    exact ⟨Value.order_swap _ _, valueOrder_self a⟩
  · intro columns p t
    have hswap := casOrder_swap columns p t
    refine ⟨casOrder_eq_find columns p t, hswap, ?_, conflicts_or_subsetOf columns p t⟩
    rintro ⟨hnewer, holder⟩
    rw [hnewer, holder] at hswap
    cases hswap

end Tributary
