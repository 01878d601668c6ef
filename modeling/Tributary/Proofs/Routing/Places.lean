import Mathlib.Data.List.Sigma
import Mathlib.Data.Set.List
import Tributary.Proofs.Routing.Levels
import Tributary.Proofs.Row.Key

/-!
# Places of nested documents

A place names the way to a nested document: names of properties, and an index after a name whose property is an
array. The documents inside a document all stand at different places.

* `Value.Regular`: what holds of every value in memory: ascending names, and arrays with indexes.
* `Stands`: a document stands at a place of another.
* `stands_of_mem_pieces`: the places found level by level are places where the documents stand.
* `places_distinct`: no two of them are the same, also across levels.
-/

namespace Tributary

open Document (toValue)

/-! ## Values in memory -/

namespace Value

mutual

/-- The indexes of every array inside the value are integers of 64 bits. -/
def Indexed : Value → Prop
  | .array items => items.length ≤ 18446744073709551616 ∧ IndexedItems items
  | .document fields => IndexedFields fields
  | .null | .bool _ | .number _ | .string _ => True

/-- `Indexed` for all items of an array. -/
def IndexedItems : List Value → Prop
  | [] => True
  | v :: vs => Indexed v ∧ IndexedItems vs

/-- `Indexed` for all values of a list of properties. -/
def IndexedFields : List (String × Value) → Prop
  | [] => True
  | (_, v) :: rest => Indexed v ∧ IndexedFields rest

end

/-- Names ascend in every document inside the value, and the indexes of every array are integers of 64 bits. -/
structure Regular (v : Value) : Prop where
  ordered : v.Ordered
  indexed : v.Indexed

theorem Regular.item {items : List Value} (h : (Value.array items).Regular) {v : Value} (hv : v ∈ items) :
    v.Regular := by
  obtain ⟨hordered, -, hindexed⟩ := h
  induction items with
  | nil => cases hv
  | cons first rest ih =>
    rcases List.mem_cons.1 hv with rfl | hv
    · exact ⟨hordered.1, hindexed.1⟩
    · exact ih hv hordered.2 hindexed.2

theorem Regular.property {d : Document} (h : d.toValue.Regular) {f : String × Value} (hf : f ∈ d.fields) :
    f.2.Regular := by
  obtain ⟨⟨-, hordered⟩, hindexed⟩ := h
  change IndexedFields d.fields at hindexed
  generalize d.fields = fields at hordered hindexed hf
  induction fields with
  | nil => cases hf
  | cons first rest ih =>
    rcases List.mem_cons.1 hf with rfl | hf
    · exact ⟨hordered.1, hindexed.1⟩
    · exact ih hordered.2 hindexed.2 hf

theorem Regular.exists_document {v : Value} (h : v.Regular) (hv : v.isDocument = true) :
    ∃ d : Document, v = d.toValue := by
  cases v with
  | document fields => exact ⟨⟨fields, h.ordered.1⟩, rfl⟩
  | _ => cases hv

/-- A nested value is a document, or a list of documents that is not empty. -/
theorem Regular.nested_cases {v : Value} (h : v.Regular) (hnested : v.isNested = true) :
    (∃ c : Document, v = c.toValue) ∨
      ∃ cs : List Document, cs ≠ [] ∧ cs.length ≤ 18446744073709551616 ∧ v = .array (cs.map toValue) := by
  cases v with
  | document fields => exact .inl (h.exists_document rfl)
  | array items =>
    right
    simp only [isNested, Bool.and_eq_true, Bool.not_eq_true', List.isEmpty_eq_false_iff,
      List.all_eq_true] at hnested
    have hdocuments : ∀ v ∈ items, ∃ d : Document, toValue d = v := by
      intro v hv
      obtain ⟨d, hd⟩ := (h.item hv).exists_document (hnested.2 v hv)
      exact ⟨d, hd.symm⟩
    obtain ⟨cs, rfl⟩ : items ∈ Set.range (List.map toValue) := Set.range_list_map toValue ▸ hdocuments
    exact ⟨cs, fun hnil => hnested.1 (by rw [hnil, List.map_nil]), by simpa using h.indexed.1, rfl⟩
  | _ => cases hnested

@[simp] theorem nestedDocuments_toValue (c : Document) : c.toValue.nestedDocuments = [([], c)] := by
  show (Document.ofValue? c.toValue).toList.map _ = _
  rw [Document.ofValue?_toValue]
  rfl

theorem nestedDocuments_array {cs : List Document} (hcs : cs ≠ []) :
    (Value.array (cs.map toValue)).nestedDocuments = cs.zipIdx.map fun e => ([.number (.ofNat e.2)], e.1) := by
  have hnested : (Value.array (cs.map toValue)).isNested = true := by
    simp [isNested, hcs, isDocument, toValue]
  rw [nestedDocuments, if_pos hnested]
  show (cs.map toValue).zipIdx.filterMap _ = _
  rw [List.zipIdx_map, List.filterMap_map, ← List.filterMap_eq_map]
  refine List.filterMap_congr fun e _ => ?_
  show (Document.ofValue? (toValue e.1)).map _ = _
  rw [Document.ofValue?_toValue]
  rfl

theorem nestedDocuments_of_not_nested {v : Value} (h : ¬ v.isNested = true) : v.nestedDocuments = [] := if_neg h

end Value

theorem Number.ofNat_of_lt {i : Nat} (hi : i < 18446744073709551616) :
    ∃ h, Number.ofNat i = .integer i h := by
  have hbounded : -9223372036854775808 ≤ (i : Int) ∧ (i : Int) < 18446744073709551616 := by omega
  exact ⟨hbounded, by rw [ofNat, ofInt?, dif_pos hbounded]; rfl⟩

theorem Number.ofNat_inj {i j : Nat} (hi : i < 18446744073709551616) (hj : j < 18446744073709551616)
    (h : Number.ofNat i = Number.ofNat j) : i = j := by
  obtain ⟨_, hi⟩ := ofNat_of_lt hi
  obtain ⟨_, hj⟩ := ofNat_of_lt hj
  rw [hi, hj] at h
  exact Int.ofNat.inj (Number.integer.inj h)

/-! ## Standing at a place -/

/-- A document stands at a place inside another: below a property that holds one document, or that holds
documents only. -/
inductive Stands : Document → List Value → Document → Prop
  | here (d : Document) : Stands d [] d
  | property {d c e : Document} {name : String} {place : List Value} (held : d.get? name = some c.toValue)
      (below : Stands c place e) : Stands d (.string name :: place) e
  | item {d c e : Document} {name : String} {cs : List Document} {i : Nat} {place : List Value}
      (held : d.get? name = some (.array (cs.map toValue))) (hc : cs[i]? = some c)
      (hi : i < 18446744073709551616) (below : Stands c place e) :
      Stands d (.string name :: .number (.ofNat i) :: place) e

theorem Stands.canonical {d e : Document} {place : List Value} (h : Stands d place e) :
    place.map Value.canonical = place := by
  induction h with
  | here => rfl
  | property _ _ ih => rw [List.map_cons, ih]; rfl
  | item _ _ hi _ ih =>
    obtain ⟨_, hindex⟩ := Number.ofNat_of_lt hi
    rw [List.map_cons, List.map_cons, ih, hindex]
    rfl

theorem Stands.trans {d c e : Document} {place further : List Value} (h : Stands d place c)
    (h' : Stands c further e) : Stands d (place ++ further) e := by
  induction h with
  | here => exact h'
  | property held _ ih => exact .property held (ih h')
  | item held hc hi _ ih => exact .item held hc hi (ih h')

/-- The number of names in a place. -/
def depth (place : List Value) : Nat := place.countP fun v => v.asString?.isSome

theorem depth_append (place further : List Value) : depth (place ++ further) = depth place + depth further :=
  List.countP_append

theorem depth_name (name : String) (place : List Value) : depth (.string name :: place) = depth place + 1 :=
  List.countP_cons_of_pos rfl

theorem depth_index (name : String) (i : Nat) (place : List Value) :
    depth (.string name :: .number (.ofNat i) :: place) = depth place + 1 := by
  rw [depth_name]
  exact congrArg (· + 1) (List.countP_cons_of_neg Bool.false_ne_true)

variable {d : Document}

/-- A nested document stands under one name, and is regular where the whole is. -/
theorem stands_of_mem_children (h : d.toValue.Regular) {c : List Value × Document} (hc : c ∈ d.children) :
    Stands d c.1 c.2 ∧ depth c.1 = 1 ∧ c.2.toValue.Regular := by
  obtain ⟨f, hf, hc⟩ := List.mem_flatMap.1 hc
  obtain ⟨c, hin, rfl⟩ := List.mem_map.1 hc
  have hheld := (d.mem_fields_iff f.1 f.2).1 hf
  have hregular := h.property hf
  by_cases hnested : f.2.isNested = true
  · rcases hregular.nested_cases hnested with ⟨c', hv⟩ | ⟨cs, hcs, hlength, hv⟩
    · rw [hv] at hheld hregular
      rw [hv, Value.nestedDocuments_toValue, List.mem_singleton] at hin
      subst hin
      exact ⟨.property hheld (.here _), rfl, hregular⟩
    · rw [hv] at hheld hregular
      rw [hv, Value.nestedDocuments_array hcs] at hin
      obtain ⟨⟨c', i⟩, hi, rfl⟩ := List.mem_map.1 hin
      have hget : cs[i]? = some c' := List.mem_zipIdx_iff_getElem?.1 hi
      obtain ⟨hlt, -⟩ := List.getElem?_eq_some_iff.1 hget
      refine ⟨.item hheld hget (by omega) (.here _), rfl, ?_⟩
      exact hregular.item (List.mem_map_of_mem (List.mem_of_getElem? hget))
  · rw [Value.nestedDocuments_of_not_nested hnested] at hin
    cases hin

/-- What is found level by level stands where its place says, as deep as its level. -/
theorem stands_of_mem_pieces (h : d.toValue.Regular) {n : Nat} {p : List Value × Document}
    (hp : p ∈ d.pieces n) : Stands d p.1 p.2 ∧ depth p.1 = n := by
  induction n generalizing d p with
  | zero =>
    rw [List.mem_singleton.1 hp]
    exact ⟨.here d, rfl⟩
  | succ n ih =>
    obtain ⟨c, hc, hp⟩ := List.mem_flatMap.1 hp
    obtain ⟨q, hq, rfl⟩ := List.mem_map.1 hp
    obtain ⟨hstands, hdepth, hregular⟩ := stands_of_mem_children h hc
    obtain ⟨hbelow, hrest⟩ := ih hregular hq
    refine ⟨hstands.trans hbelow, ?_⟩
    rw [depth_append]
    omega

/-! ## Distinct places -/

/-- No place is on or below both. -/
def Diverge (p q : List Value) : Prop := ∀ x y, p ++ x ≠ q ++ y

theorem children_diverge (h : d.toValue.Regular) : d.children.Pairwise fun c c' => Diverge c.1 c'.1 := by
  refine List.pairwise_flatMap.2 ⟨fun f hf => ?_, d.ascending.imp ?_⟩
  · by_cases hnested : f.2.isNested = true
    · rcases (h.property hf).nested_cases hnested with ⟨c, hv⟩ | ⟨cs, hcs, hlength, hv⟩
      · rw [hv, Value.nestedDocuments_toValue]
        exact List.pairwise_singleton _ _
      · have hindexes : cs.zipIdx.Pairwise fun e e' => e.2 ≠ e'.2 :=
          List.pairwise_map.1 (List.nodup_zipIdx_map_snd cs)
        rw [hv, Value.nestedDocuments_array hcs, List.map_map, List.pairwise_map]
        refine hindexes.imp_of_mem fun {e e'} he he' hne x y hsame => hne ?_
        have hlt := List.snd_lt_of_mem_zipIdx he
        have hlt' := List.snd_lt_of_mem_zipIdx he'
        obtain ⟨-, htail⟩ := List.cons.inj hsame
        obtain ⟨hhead, -⟩ := List.cons.inj htail
        exact Number.ofNat_inj (by omega) (by omega) (Value.number.inj hhead)
    · rw [Value.nestedDocuments_of_not_nested hnested]
      exact .nil
  · -- under two names no place is shared
    intro f g hlt p hp q hq x y hsame
    obtain ⟨p, -, rfl⟩ := List.mem_map.1 hp
    obtain ⟨q, -, rfl⟩ := List.mem_map.1 hq
    obtain ⟨hname, -⟩ := List.cons.inj hsame
    exact Document.name_ne_of_lt hlt (Value.string.inj hname)

theorem pieces_distinct (h : d.toValue.Regular) (n : Nat) : (d.pieces n).Pairwise fun p q => p.1 ≠ q.1 := by
  induction n generalizing d with
  | zero => exact List.pairwise_singleton _ _
  | succ n ih =>
    refine List.pairwise_flatMap.2 ⟨fun c hc => ?_, (children_diverge h).imp ?_⟩
    · obtain ⟨-, -, hregular⟩ := stands_of_mem_children h hc
      refine List.pairwise_map.2 ((ih hregular).imp ?_)
      intro p q hne hsame
      exact hne (List.append_cancel_left hsame)
    · intro c c' hdiverge p hp q hq
      obtain ⟨p, -, rfl⟩ := List.mem_map.1 hp
      obtain ⟨q, -, rfl⟩ := List.mem_map.1 hq
      exact hdiverge p.1 q.1

/-- The documents of a document down to a level. -/
def Document.piecesTo (n : Nat) (d : Document) : List (List Value × Document) :=
  (List.range (n + 1)).flatMap fun k => d.pieces k

theorem stands_of_mem_piecesTo (h : d.toValue.Regular) {n : Nat} {p : List Value × Document}
    (hp : p ∈ d.piecesTo n) : Stands d p.1 p.2 := by
  obtain ⟨k, -, hp⟩ := List.mem_flatMap.1 hp
  exact (stands_of_mem_pieces h hp).1

/-- Places differ within a level by divergence, and across levels by their depth. -/
theorem places_distinct (h : d.toValue.Regular) (n : Nat) : (d.piecesTo n).Pairwise fun p q => p.1 ≠ q.1 := by
  refine List.pairwise_flatMap.2 ⟨fun k _ => pieces_distinct h k, List.pairwise_lt_range.imp ?_⟩
  intro k l hlt p hp q hq hsame
  have hp := (stands_of_mem_pieces h hp).2
  have hq := (stands_of_mem_pieces h hq).2
  rw [hsame] at hp
  omega

end Tributary
