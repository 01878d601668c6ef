import Tributary.Value.Basic

/-!
# Documents

A document is a set of named values: a row, a before image, the metadata of a change. Its
properties are kept under ascending names, so two documents with the same values are the same.

* `Document.get?`: the view of a document; `ext_get?` says that it determines the document.
* `Document.insert`, `erase`, `filter`, `overlay`, `ofList`: what each does to that view is stated by
  `get?_insert`, `get?_erase`, `get?_filter`, `get?_overlay`.
* `Document.overlay_assoc`, `Document.overlay_eq_of_names`: laws of overlays.
* `Document.subsetOf`: whether every property has an equal value in another document.
-/

namespace Tributary

/-- A list of properties under strictly ascending names. -/
structure Document where
  fields : List (String × Value)
  ascending : Value.Ascending fields
  deriving DecidableEq, Repr

namespace Document

/-! ## Order of names -/

theorem name_lt_of_not {a b : String} (hne : ¬ a = b) (hlt : ¬ a < b) : b < a :=
  Decidable.byContradiction fun h => hne (String.le_antisymm (String.not_lt.1 h) (String.not_lt.1 hlt))

theorem name_ne_of_lt {a b : String} (h : a < b) : a ≠ b := fun e =>
  String.lt_irrefl b (e ▸ h)

/-! ## Construction -/

/-- The document without properties. -/
def empty : Document := ⟨[], List.Pairwise.nil⟩

instance : Inhabited Document := ⟨empty⟩

/-- Sets the value of a name in a list of ascending names. -/
def insertField (name : String) (value : Value) : List (String × Value) → List (String × Value)
  | [] => [(name, value)]
  | (n, v) :: rest =>
    if name = n then (name, value) :: rest
    else if name < n then (name, value) :: (n, v) :: rest
    else (n, v) :: insertField name value rest

theorem mem_insertField {name : String} {value : Value} {fields : List (String × Value)}
    {f : String × Value} (h : f ∈ insertField name value fields) :
    f = (name, value) ∨ f ∈ fields := by
  induction fields with
  | nil => simpa [insertField] using h
  | cons head rest ih =>
    obtain ⟨n, v⟩ := head
    unfold insertField at h
    split at h
    · rcases List.mem_cons.1 h with h | h
      · exact .inl h
      · exact .inr (List.mem_cons_of_mem _ h)
    · split at h
      · rcases List.mem_cons.1 h with h | h
        · exact .inl h
        · exact .inr h
      · rcases List.mem_cons.1 h with h | h
        · exact .inr (h ▸ List.mem_cons_self)
        · exact (ih h).imp id (List.mem_cons_of_mem _)

theorem ascending_insertField {fields : List (String × Value)} (h : Value.Ascending fields)
    (name : String) (value : Value) : Value.Ascending (insertField name value fields) := by
  induction fields with
  | nil => exact List.pairwise_singleton _ _
  | cons head rest ih =>
    obtain ⟨n, v⟩ := head
    obtain ⟨hhead, hrest⟩ := List.pairwise_cons.1 h
    unfold insertField
    split
    · rename_i he
      subst he
      exact List.pairwise_cons.2 ⟨hhead, hrest⟩
    · rename_i hne
      split
      · rename_i hlt
        refine List.pairwise_cons.2 ⟨fun f hf => ?_, h⟩
        rcases List.mem_cons.1 hf with hf | hf
        · exact hf ▸ hlt
        · exact String.lt_trans hlt (hhead f hf)
      · rename_i hlt
        refine List.pairwise_cons.2 ⟨fun f hf => ?_, ih hrest⟩
        rcases mem_insertField hf with hf | hf
        · exact hf ▸ name_lt_of_not hne hlt
        · exact hhead f hf

/-- Sets the value of a property. -/
def insert (d : Document) (name : String) (value : Value) : Document :=
  ⟨insertField name value d.fields, ascending_insertField d.ascending name value⟩

/-- Sets properties one after another, so that the last value of a name stays. -/
def insertAll (d : Document) (fields : List (String × Value)) : Document :=
  fields.foldl (fun d f => d.insert f.1 f.2) d

/-- The document of a list of properties, in which the last value of a name counts. -/
def ofList (fields : List (String × Value)) : Document := empty.insertAll fields

/-- Keeps the properties that pass a test. -/
def filter (keep : String → Value → Bool) (d : Document) : Document :=
  ⟨d.fields.filter fun f => keep f.1 f.2, d.ascending.sublist List.filter_sublist⟩

/-- Removes a property. -/
def erase (d : Document) (name : String) : Document := d.filter fun n _ => n != name

/-- Lays the properties of `other` over those of `d`. -/
def overlay (d other : Document) : Document := d.insertAll other.fields

/-! ## Views -/

/-- The value of a property. -/
def get? (d : Document) (name : String) : Option Value := d.fields.lookup name

/-- Whether the document has a property. -/
def contains (d : Document) (name : String) : Bool := (d.get? name).isSome

/-- The names of the properties, ascending. -/
def names (d : Document) : List String := d.fields.map Prod.fst

/-- The number of properties. -/
def size (d : Document) : Nat := d.fields.length

/-- Whether there are no properties. -/
def isEmpty (d : Document) : Bool := d.fields.isEmpty

/-- The document as a value. -/
def toValue (d : Document) : Value := .document d.fields

/-- The document that a value is, if it is one. -/
def ofValue? : Value → Option Document
  | .document fields => some (ofList fields)
  | _ => none

/-- Equality of documents, numbers by what they denote. -/
def same (a b : Document) : Bool := Value.sameFields a.fields b.fields

/-- Whether every property has an equal value in `other`. -/
def subsetOf (d other : Document) : Bool :=
  d.fields.all fun f => (other.get? f.1).any f.2.same

/-! ## Laws of the view -/

theorem lookup_field (key n : String) (v : Value) (rest : List (String × Value)) :
    List.lookup key ((n, v) :: rest) = if key = n then some v else rest.lookup key := by
  rw [List.lookup_cons]
  by_cases h : key = n
  · simp [h]
  · have hb : (key == n) = false := by simpa using h
    simp [h, hb]

theorem lookup_eq_none_of_lt {fields : List (String × Value)} {name : String}
    (h : ∀ f ∈ fields, name < f.1) : fields.lookup name = none := by
  induction fields with
  | nil => rfl
  | cons head rest ih =>
    rw [lookup_field, if_neg (name_ne_of_lt (h head List.mem_cons_self))]
    exact ih fun f hf => h f (List.mem_cons_of_mem _ hf)

theorem lookup_insertField (name key : String) (value : Value) (fields : List (String × Value)) :
    (insertField name value fields).lookup key
      = if key = name then some value else fields.lookup key := by
  induction fields with
  | nil => simp [insertField, lookup_field]
  | cons head rest ih =>
    obtain ⟨n, v⟩ := head
    unfold insertField
    by_cases hn : name = n
    · subst hn
      by_cases h : key = name <;> simp [lookup_field, h]
    · by_cases hlt : name < n
      · simp [hn, hlt, lookup_field]
      · rw [if_neg hn, if_neg hlt, lookup_field, lookup_field, ih]
        by_cases h : key = n
        · have : ¬ n = name := fun e => hn e.symm
          simp [h, this]
        · simp [h]

@[simp] theorem get?_empty (key : String) : empty.get? key = none := rfl

theorem get?_insert (d : Document) (name : String) (value : Value) (key : String) :
    (d.insert name value).get? key = if key = name then some value else d.get? key :=
  lookup_insertField name key value d.fields

@[simp] theorem get?_insert_self (d : Document) (name : String) (value : Value) :
    (d.insert name value).get? name = some value := by rw [get?_insert, if_pos rfl]

theorem get?_insert_of_ne (d : Document) {name key : String} (value : Value) (h : key ≠ name) :
    (d.insert name value).get? key = d.get? key := by rw [get?_insert, if_neg h]

/-- A list whose names ascend answers for its own entries. -/
theorem lookup_of_mem {fields : List (String × Value)} (h : Value.Ascending fields)
    {f : String × Value} (hf : f ∈ fields) : fields.lookup f.1 = some f.2 := by
  induction fields with
  | nil => cases hf
  | cons head rest ih =>
    obtain ⟨hhead, hrest⟩ := List.pairwise_cons.1 h
    rcases List.mem_cons.1 hf with rfl | hf
    · rw [lookup_field, if_pos rfl]
    · rw [lookup_field, if_neg (name_ne_of_lt (hhead f hf)).symm]
      exact ih hrest hf

theorem mem_of_lookup {fields : List (String × Value)} {name : String} {value : Value}
    (h : fields.lookup name = some value) : (name, value) ∈ fields := by
  induction fields with
  | nil => simp at h
  | cons head rest ih =>
    rw [lookup_field] at h
    split at h
    · rename_i he
      cases h
      subst he
      exact List.mem_cons_self
    · exact List.mem_cons_of_mem _ (ih h)

/-- A property is one of the listed fields exactly if the view shows it. -/
theorem mem_fields_iff (d : Document) (name : String) (value : Value) :
    (name, value) ∈ d.fields ↔ d.get? name = some value :=
  ⟨fun h => lookup_of_mem d.ascending h, mem_of_lookup⟩

theorem get?_filter (keep : String → Value → Bool) (d : Document) (key : String) :
    (d.filter keep).get? key = (d.get? key).filter (keep key) := by
  cases h : d.get? key with
  | none =>
    cases h' : (d.filter keep).get? key with
    | none => rfl
    | some value =>
      have hmem := (mem_fields_iff _ _ _).2 h'
      have := (mem_fields_iff d _ _).1 (List.mem_filter.1 hmem).1
      rw [h] at this
      cases this
  | some value =>
    have hmem := (mem_fields_iff _ _ _).2 h
    by_cases hk : keep key value = true
    · have : (key, value) ∈ (d.filter keep).fields := List.mem_filter.2 ⟨hmem, hk⟩
      rw [(mem_fields_iff _ _ _).1 this, Option.filter_some, if_pos hk]
    · cases h' : (d.filter keep).get? key with
      | none => rw [Option.filter_some, if_neg hk]
      | some w =>
        have hmem' := (mem_fields_iff _ _ _).2 h'
        obtain ⟨hin, hw⟩ := List.mem_filter.1 hmem'
        have := (mem_fields_iff d _ _).1 hin
        rw [h] at this
        cases this
        exact absurd hw hk

theorem get?_erase (d : Document) (name key : String) :
    (d.erase name).get? key = if key = name then none else d.get? key := by
  unfold erase
  rw [get?_filter]
  by_cases h : key = name <;> cases d.get? key <;> simp [h, Option.filter_some]

theorem get?_insertAll_of_ascending {fields : List (String × Value)}
    (h : Value.Ascending fields) (d : Document) (key : String) :
    (d.insertAll fields).get? key = (fields.lookup key).or (d.get? key) := by
  induction fields generalizing d with
  | nil => simp [insertAll]
  | cons head rest ih =>
    obtain ⟨hhead, hrest⟩ := List.pairwise_cons.1 h
    have hstep : d.insertAll (head :: rest) = (d.insert head.1 head.2).insertAll rest := rfl
    rw [hstep, ih hrest, get?_insert, lookup_field]
    by_cases hk : key = head.1
    · subst hk
      rw [lookup_eq_none_of_lt hhead]
      simp
    · simp [hk]

/-- After an overlay, a name has the overlaid value if there is one. -/
theorem get?_overlay (d other : Document) (key : String) :
    (d.overlay other).get? key = (other.get? key).or (d.get? key) :=
  get?_insertAll_of_ascending other.ascending d key

theorem mem_iff_of_lookup_eq {xs ys : List (String × Value)} (hx : Value.Ascending xs)
    (hy : Value.Ascending ys) (h : ∀ key, xs.lookup key = ys.lookup key) (f : String × Value) :
    f ∈ xs ↔ f ∈ ys :=
  ⟨fun hf => mem_of_lookup (h f.1 ▸ lookup_of_mem hx hf),
    fun hf => mem_of_lookup (h f.1 ▸ lookup_of_mem hy hf)⟩

theorem eq_of_ascending_of_mem_iff {xs ys : List (String × Value)} (hx : Value.Ascending xs)
    (hy : Value.Ascending ys) (h : ∀ f, f ∈ xs ↔ f ∈ ys) : xs = ys := by
  induction xs generalizing ys with
  | nil =>
    cases ys with
    | nil => rfl
    | cons y ys => exact absurd ((h y).2 List.mem_cons_self) (by simp)
  | cons x xs ih =>
    cases ys with
    | nil => exact absurd ((h x).1 List.mem_cons_self) (by simp)
    | cons y ys =>
      obtain ⟨hx1, hx2⟩ := List.pairwise_cons.1 hx
      obtain ⟨hy1, hy2⟩ := List.pairwise_cons.1 hy
      have hxy : x = y := by
        rcases List.mem_cons.1 ((h x).1 List.mem_cons_self) with e | hin
        · exact e
        · rcases List.mem_cons.1 ((h y).2 List.mem_cons_self) with e | hin'
          · exact e.symm
          · exact absurd (String.lt_trans (hy1 x hin) (hx1 y hin')) (String.lt_irrefl _)
      subst hxy
      refine congrArg (x :: ·) (ih hx2 hy2 fun f => ⟨fun hf => ?_, fun hf => ?_⟩)
      · rcases List.mem_cons.1 ((h f).1 (List.mem_cons_of_mem _ hf)) with e | hin
        · exact absurd (e ▸ hx1 f hf) (String.lt_irrefl _)
        · exact hin
      · rcases List.mem_cons.1 ((h f).2 (List.mem_cons_of_mem _ hf)) with e | hin
        · exact absurd (e ▸ hy1 f hf) (String.lt_irrefl _)
        · exact hin

/-- The view determines the document. -/
theorem ext_get? {a b : Document} (h : ∀ key, a.get? key = b.get? key) : a = b := by
  obtain ⟨xs, hx⟩ := a
  obtain ⟨ys, hy⟩ := b
  have := eq_of_ascending_of_mem_iff hx hy (mem_iff_of_lookup_eq hx hy h)
  subst this
  rfl

/-- Rebuilding a document from its own properties gives it back. -/
theorem ofList_fields (d : Document) : ofList d.fields = d :=
  ext_get? fun key => by
    unfold ofList
    rw [get?_insertAll_of_ascending d.ascending, get?_empty, Option.or_none]
    rfl

theorem ofValue?_toValue (d : Document) : ofValue? d.toValue = some d := by
  simp only [ofValue?, toValue, ofList_fields]

/-! ## Laws of overlays -/

@[simp] theorem empty_overlay (d : Document) : empty.overlay d = d := ofList_fields d

theorem overlay_assoc (a b c : Document) : (a.overlay b).overlay c = a.overlay (b.overlay c) :=
  ext_get? fun key => by simp only [get?_overlay, Option.or_assoc]

@[simp] theorem overlay_self (d : Document) : d.overlay d = d :=
  ext_get? fun key => by simp only [get?_overlay, Option.or_self]

theorem contains_iff_mem_names (d : Document) (name : String) :
    d.contains name = true ↔ name ∈ d.names := by
  rw [contains, Option.isSome_iff_exists, names, List.mem_map]
  constructor
  · rintro ⟨v, hv⟩
    exact ⟨(name, v), (d.mem_fields_iff name v).2 hv, rfl⟩
  · rintro ⟨f, hf, rfl⟩
    exact ⟨f.2, (d.mem_fields_iff f.1 f.2).1 hf⟩

/-- Nothing is left of a document under one with the same names. -/
theorem overlay_eq_of_names {d other : Document} (h : d.names = other.names) :
    d.overlay other = other := by
  refine ext_get? fun key => ?_
  rw [get?_overlay]
  cases hother : other.get? key with
  | some v => rfl
  | none =>
    have hmissing : ¬ other.contains key = true := by simp [contains, hother]
    rw [contains_iff_mem_names, ← h, ← contains_iff_mem_names, contains, Option.isSome_iff_ne_none] at hmissing
    simpa using hmissing

end Document

end Tributary
