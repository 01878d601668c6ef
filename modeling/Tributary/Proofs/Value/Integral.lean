import Tributary.Value.Document

/-!
# Integral documents

Numbers count by value, so that `1` and `1.0` are the same number and yet different values. Among values
in which every number is an integer this cannot happen: those that count as the same are identical.

* `Value.Integral`: every number in the value is an integer, at any depth.
* `Value.eq_of_same`: integral values that count as the same are identical.
* `Document.overlay_eq_of_subsetOf`: so laying a document over one that repeats it changes nothing.
* `Document.Integral.overlay`, `Document.Integral.insert`, `Document.Integral.filter`: operations on
  documents keep integral documents integral.
-/

namespace Tributary

namespace Value

mutual

/-- Every number in the value is an integer. -/
def Integral : Value → Prop
  | .null | .bool _ | .string _ | .number (.integer _ _) => True
  | .number (.float _) => False
  | .array items => IntegralItems items
  | .document fields => IntegralFields fields

/-- `Integral` for all items of an array. -/
def IntegralItems : List Value → Prop
  | [] => True
  | v :: vs => Integral v ∧ IntegralItems vs

/-- `Integral` for all values of a list of properties. -/
def IntegralFields : List (String × Value) → Prop
  | [] => True
  | (_, v) :: rest => Integral v ∧ IntegralFields rest

end

theorem integralItems_iff {items : List Value} :
    IntegralItems items ↔ ∀ v ∈ items, v.Integral := by
  induction items with
  | nil => simp [IntegralItems]
  | cons v vs ih => simp [IntegralItems, ih]

theorem integralFields_iff {fields : List (String × Value)} :
    IntegralFields fields ↔ ∀ f ∈ fields, f.2.Integral := by
  induction fields with
  | nil => simp [IntegralFields]
  | cons f rest ih =>
    obtain ⟨name, v⟩ := f
    simp [IntegralFields, ih]

mutual

/-- Integral values that count as the same are identical. -/
theorem eq_of_same : (a b : Value) → a.Integral → b.Integral → a.same b = true → a = b
  | .null, b, _, _, h => by cases b <;> simp [same] at h ⊢
  | .bool a, b, _, _, h => by
    cases b <;> simp [same] at h ⊢
    exact h
  | .number (.integer n hn), b, _, hb, h => by
    cases b with
    | number m =>
      cases m with
      | integer m hm => simpa [same, Number.same] using h
      | float x => exact hb.elim
    | _ => simp [same] at h
  | .string s, b, _, _, h => by
    cases b <;> simp [same] at h ⊢
    exact h
  | .array as, b, ha, hb, h => by
    cases b with
    | array bs => rw [eq_of_sameItems as bs ha hb h]
    | _ => simp [same] at h
  | .document as, b, ha, hb, h => by
    cases b with
    | document bs => rw [eq_of_sameFields as bs ha hb h]
    | _ => simp [same] at h

theorem eq_of_sameItems : (as bs : List Value) → IntegralItems as → IntegralItems bs →
    sameItems as bs = true → as = bs
  | [], [], _, _, _ => rfl
  | [], _ :: _, _, _, h => by simp [sameItems] at h
  | _ :: _, [], _, _, h => by simp [sameItems] at h
  | a :: as, b :: bs, ha, hb, h => by
    simp only [sameItems, Bool.and_eq_true] at h
    rw [eq_of_same a b ha.1 hb.1 h.1, eq_of_sameItems as bs ha.2 hb.2 h.2]

theorem eq_of_sameFields : (as bs : List (String × Value)) → IntegralFields as →
    IntegralFields bs → sameFields as bs = true → as = bs
  | [], [], _, _, _ => rfl
  | [], _ :: _, _, _, h => by simp [sameFields] at h
  | _ :: _, [], _, _, h => by simp [sameFields] at h
  | (n, a) :: as, (m, b) :: bs, ha, hb, h => by
    simp only [sameFields, Bool.and_eq_true, beq_iff_eq] at h
    rw [h.1.1, eq_of_same a b ha.1 hb.1 h.1.2, eq_of_sameFields as bs ha.2 hb.2 h.2]

end

end Value

namespace Document

/-- Every number in the document is an integer. -/
def Integral (d : Document) : Prop := d.toValue.Integral

theorem integral_iff {d : Document} : d.Integral ↔ ∀ name v, d.get? name = some v → v.Integral := by
  refine Value.integralFields_iff.trans ⟨fun h name v hv => ?_, fun h f hf => ?_⟩
  · exact h (name, v) ((d.mem_fields_iff name v).2 hv)
  · exact h f.1 f.2 ((d.mem_fields_iff f.1 f.2).1 hf)

theorem same_of_subsetOf {p d : Document} (h : p.subsetOf d = true) {name : String} {v : Value}
    (hv : p.get? name = some v) : ∃ w, d.get? name = some w ∧ v.same w = true := by
  have hmem := (p.mem_fields_iff name v).2 hv
  have hany := List.all_eq_true.1 h (name, v) hmem
  simpa [Option.any_eq_true] using hany

/-- A document that repeats a part of another one is lost in it. -/
theorem overlay_eq_of_subsetOf {p d : Document} (hp : p.Integral) (hd : d.Integral)
    (h : p.subsetOf d = true) : d.overlay p = d := by
  refine ext_get? fun name => ?_
  rw [get?_overlay]
  cases hv : p.get? name with
  | none => rfl
  | some v =>
    obtain ⟨w, hw, hsame⟩ := same_of_subsetOf h hv
    have heq := Value.eq_of_same v w (integral_iff.1 hp name v hv) (integral_iff.1 hd name w hw) hsame
    rw [hw, heq]
    rfl

/-! ## Operations -/

theorem integral_empty : empty.Integral := trivial

theorem Integral.overlay {a b : Document} (ha : a.Integral) (hb : b.Integral) :
    (a.overlay b).Integral := by
  refine integral_iff.2 fun name v hv => ?_
  rw [get?_overlay] at hv
  rcases Option.or_eq_some_iff.1 hv with hv | ⟨-, hv⟩
  · exact integral_iff.1 hb name v hv
  · exact integral_iff.1 ha name v hv

theorem Integral.insert {d : Document} (hd : d.Integral) {value : Value} (hvalue : value.Integral)
    (name : String) : (d.insert name value).Integral := by
  refine integral_iff.2 fun key v hv => ?_
  rw [get?_insert] at hv
  split at hv
  · cases hv
    exact hvalue
  · exact integral_iff.1 hd key v hv

theorem Integral.insertAll {d : Document} (hd : d.Integral) {fields : List (String × Value)}
    (hfields : ∀ f ∈ fields, f.2.Integral) : (d.insertAll fields).Integral := by
  induction fields generalizing d with
  | nil => exact hd
  | cons f rest ih =>
    have hfirst := hd.insert (hfields f List.mem_cons_self) f.1
    exact ih hfirst fun g hg => hfields g (List.mem_cons_of_mem f hg)

theorem Integral.filter {d : Document} (hd : d.Integral) (keep : String → Value → Bool) :
    (d.filter keep).Integral := by
  refine integral_iff.2 fun name v hv => ?_
  rw [get?_filter] at hv
  obtain ⟨hin, -⟩ := Option.filter_eq_some_iff.1 hv
  exact integral_iff.1 hd name v hin

theorem integral_of_ofValue? {v : Value} (hv : v.Integral) {d : Document}
    (h : ofValue? v = some d) : d.Integral := by
  cases v with
  | document fields =>
    cases h
    exact integral_empty.insertAll (Value.integralFields_iff.1 hv)
  | _ => cases h

end Document

end Tributary
