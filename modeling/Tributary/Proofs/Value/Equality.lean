import Tributary.Merge.Standard

/-!
# Equality of values and documents

Values count as equal if they differ at most in the class in which they write their numbers. This is
reflexive and symmetric on all values. It is not transitive, since an integer and a float are compared as
floats: two different integers can both be equal to one float.

* `Value.same_self`, `Value.same_comm`, and the same for values that may be missing.
* `Document.same_iff`: documents are equal if they are property by property.
* `Document.subsetOf_iff`: the same for a part of a document. `Document.overlay_same_of_subset` says that such a part
  changes nothing when it is laid over the document.
-/

namespace Tributary

theorem Number.same_self (n : Number) : n.same n = true := by
  cases n <;> simp [Number.same]

theorem Number.same_comm (a b : Number) : a.same b = b.same a := by
  cases a <;> cases b <;> exact Bool.beq_comm

namespace Value

mutual

theorem same_self : (v : Value) → v.same v = true
  | .null => rfl
  | .bool b => by simp [same]
  | .number n => n.same_self
  | .string s => by simp [same]
  | .array items => sameItems_self items
  | .document fields => sameFields_self fields

theorem sameItems_self : (vs : List Value) → sameItems vs vs = true
  | [] => rfl
  | v :: vs => by rw [sameItems, same_self v, sameItems_self vs, Bool.true_and]

theorem sameFields_self : (fields : List (String × Value)) → sameFields fields fields = true
  | [] => rfl
  | (n, v) :: rest => by simp [sameFields, same_self v, sameFields_self rest]

end

mutual

theorem same_comm : (a b : Value) → a.same b = b.same a
  | .null, b => by cases b <;> rfl
  | .bool a, b => by cases b <;> first | rfl | exact Bool.beq_comm
  | .number a, b => by cases b <;> first | rfl | exact a.same_comm _
  | .string a, b => by cases b <;> first | rfl | exact Bool.beq_comm
  | .array as, b => by cases b <;> first | rfl | exact sameItems_comm as _
  | .document as, b => by cases b <;> first | rfl | exact sameFields_comm as _

theorem sameItems_comm : (as bs : List Value) → sameItems as bs = sameItems bs as
  | [], [] => rfl
  | [], _ :: _ => rfl
  | _ :: _, [] => rfl
  | a :: as, b :: bs => by rw [sameItems, sameItems, same_comm a b, sameItems_comm as bs]

theorem sameFields_comm : (as bs : List (String × Value)) → sameFields as bs = sameFields bs as
  | [], [] => rfl
  | [], (_, _) :: _ => rfl
  | (_, _) :: _, [] => rfl
  | (n, a) :: as, (m, b) :: bs => by
    rw [sameFields, sameFields, same_comm a b, sameFields_comm as bs, Bool.beq_comm (a := n)]

end

end Value

/-! ## Values that may be missing -/

theorem sameOptional_self (v : Option Value) : sameOptional v v = true := by
  cases v with
  | none => rfl
  | some v => exact v.same_self

theorem sameOptional_comm (a b : Option Value) : sameOptional a b = sameOptional b a := by
  cases a <;> cases b <;> first | rfl | exact Value.same_comm _ _

/-- What is equal to a value is a value. -/
theorem sameOptional_some_iff {a : Option Value} {v : Value} :
    sameOptional a (some v) = true ↔ ∃ w, a = some w ∧ w.same v = true := by
  cases a with
  | none => simp [sameOptional]
  | some w => simp [sameOptional]

/-! ## Documents -/

namespace Document

theorem sameOptional_lookup {fs gs : List (String × Value)} (h : Value.sameFields fs gs = true) (name : String) :
    sameOptional (fs.lookup name) (gs.lookup name) = true := by
  induction fs generalizing gs with
  | nil =>
    cases gs with
    | nil => rfl
    | cons g gs => simp [Value.sameFields] at h
  | cons f fs ih =>
    cases gs with
    | nil => simp [Value.sameFields] at h
    | cons g gs =>
      obtain ⟨n, v⟩ := f
      obtain ⟨m, w⟩ := g
      simp only [Value.sameFields, Bool.and_eq_true, beq_iff_eq] at h
      obtain ⟨⟨rfl, hvalue⟩, hrest⟩ := h
      rw [lookup_field, lookup_field]
      by_cases hname : name = n
      · rw [if_pos hname, if_pos hname]
        exact hvalue
      · rw [if_neg hname, if_neg hname]
        exact ih hrest

/-- The first of several ascending names is not found behind it. -/
theorem lookup_tail_head {f : String × Value} {fs : List (String × Value)} (h : Value.Ascending (f :: fs)) :
    fs.lookup f.1 = none := lookup_eq_none_of_lt (List.pairwise_cons.1 h).1

/-- If the first name of a list is another one than that of an ascending list that has a value for it, it stands
behind the first one there. -/
theorem head_lt_of_sameOptional {f g : String × Value} {fs gs : List (String × Value)}
    (hg : Value.Ascending (g :: gs))
    (h : sameOptional ((f :: fs).lookup f.1) ((g :: gs).lookup f.1) = true) (hne : f.1 ≠ g.1) : g.1 < f.1 := by
  obtain ⟨m, w⟩ := g
  rw [lookup_field, lookup_field, if_pos rfl, if_neg hne] at h
  cases hv : gs.lookup f.1 with
  | none =>
    rw [hv] at h
    exact absurd h Bool.false_ne_true
  | some v => exact (List.pairwise_cons.1 hg).1 (f.1, v) (mem_of_lookup hv)

theorem sameFields_of_lookup {fs gs : List (String × Value)} (hf : Value.Ascending fs) (hg : Value.Ascending gs)
    (h : ∀ name, sameOptional (fs.lookup name) (gs.lookup name) = true) : Value.sameFields fs gs = true := by
  induction fs generalizing gs with
  | nil =>
    cases gs with
    | nil => rfl
    | cons g gs =>
      have hfirst := h g.1
      rw [lookup_of_mem hg List.mem_cons_self] at hfirst
      exact absurd hfirst Bool.false_ne_true
  | cons f fs ih =>
    have hfirst := h f.1
    rw [lookup_of_mem hf List.mem_cons_self] at hfirst
    cases gs with
    | nil => exact absurd hfirst Bool.false_ne_true
    | cons g gs =>
      -- were the first names different, each would stand behind the other
      have hname : f.1 = g.1 := Decidable.byContradiction fun hne => by
        have hgf := head_lt_of_sameOptional hg (h f.1) hne
        have hfg := head_lt_of_sameOptional hf ((sameOptional_comm _ _).trans (h g.1)) fun heq => hne heq.symm
        exact String.lt_irrefl _ (String.lt_trans hfg hgf)
      obtain ⟨n, v⟩ := f
      obtain ⟨m, w⟩ := g
      obtain rfl : n = m := hname
      have hvalue : v.same w = true := by
        rwa [lookup_of_mem hg List.mem_cons_self] at hfirst
      have hrest : Value.sameFields fs gs = true := by
        refine ih (List.pairwise_cons.1 hf).2 (List.pairwise_cons.1 hg).2 fun name => ?_
        by_cases hname : name = n
        · rw [hname, lookup_tail_head hf, lookup_tail_head hg]
          rfl
        · have hboth := h name
          rwa [lookup_field, lookup_field, if_neg hname, if_neg hname] at hboth
      simp [Value.sameFields, hvalue, hrest]

/-- Documents are equal if they are property by property. -/
theorem same_iff {a b : Document} :
    a.same b = true ↔ ∀ name, sameOptional (a.get? name) (b.get? name) = true :=
  ⟨sameOptional_lookup, sameFields_of_lookup a.ascending b.ascending⟩

/-- A document is part of another one if the other has an equal value for each of its properties. -/
theorem subsetOf_iff {p d : Document} :
    p.subsetOf d = true ↔ ∀ name v, p.get? name = some v → sameOptional (d.get? name) (some v) = true := by
  unfold subsetOf
  rw [List.all_eq_true]
  constructor
  · intro h name v hv
    have hany := h (name, v) ((p.mem_fields_iff name v).2 hv)
    obtain ⟨w, hw, hsame⟩ := Option.any_eq_true _ _ |>.1 hany
    exact sameOptional_some_iff.2 ⟨w, hw, (w.same_comm v).trans hsame⟩
  · intro h f hf
    obtain ⟨w, hw, hsame⟩ := sameOptional_some_iff.1 (h f.1 f.2 ((p.mem_fields_iff f.1 f.2).1 hf))
    rw [hw, Option.any_some, Value.same_comm]
    exact hsame

/-- What is part of a document can be laid over it without a difference, but for the class of numbers. -/
theorem overlay_same_of_subset {p d : Document} (h : p.subsetOf d = true) : (d.overlay p).same d = true := by
  rw [same_iff]
  intro name
  rw [get?_overlay]
  cases hvalue : p.get? name with
  | none =>
    rw [Option.none_or]
    exact sameOptional_self _
  | some value =>
    rw [Option.some_or, sameOptional_comm]
    exact subsetOf_iff.1 h name value hvalue

end Document

end Tributary
