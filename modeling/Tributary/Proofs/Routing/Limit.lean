import Tributary.Proofs.Routing.Queue
import Tributary.Proofs.Routing.Reattachment

/-!
# The recursion limit

A document has a detach depth: none if nothing is nested in it, and else one more than the deepest of the documents
nested in it. A route fails exactly if this depth is above the limit. If it is not, the route has one mutation for
every document that stands at some place in the data, level by level.

* `Document.detachDepth`: the depth, by recursion over the values; `detachDepth_le_iff` says it of nested documents.
* `pieces_eq_nil_iff`: there is something on a level exactly up to this depth.
* `mem_pieces_of_stands`: every document that stands in the data is found on the level of its place.
* `TakenApart`: a list of all documents of a document, parents before those nested in them.
* `recursion_limit_is_exact`: the route of an upsert, and the end of the search for it.
-/

namespace Tributary

open Document (toValue)

/-! ## Detach depths -/

namespace Value

mutual

/-- The detach depth of a list of properties: zero if none of them is nested, and else the largest that one of them
demands. -/
def fieldsDepth : List (String × Value) → Nat
  | [] => 0
  | (_, v) :: rest => max (heldDepth v) (fieldsDepth rest)

/-- The depth that a property demands: one more than the detach depth of the document that it holds, or the largest of
those that it holds, and zero if it is not nested. -/
def heldDepth : Value → Nat
  | .document fields => 1 + fieldsDepth fields
  | .array items => if !items.isEmpty && items.all isDocument then 1 + itemsDepth items else 0
  | .null | .bool _ | .number _ | .string _ => 0

/-- The largest detach depth of the documents in a list. -/
def itemsDepth : List Value → Nat
  | [] => 0
  | .document fields :: rest => max (fieldsDepth fields) (itemsDepth rest)
  | _ :: rest => itemsDepth rest

end

end Value

/-- How deep documents are nested in a document. -/
def Document.detachDepth (d : Document) : Nat := Value.fieldsDepth d.fields

namespace Value

theorem fieldsDepth_le_iff {fields : List (String × Value)} {k : Nat} :
    fieldsDepth fields ≤ k ↔ ∀ f ∈ fields, heldDepth f.2 ≤ k := by
  induction fields with
  | nil => exact ⟨fun _ _ h => absurd h List.not_mem_nil, fun _ => Nat.zero_le k⟩
  | cons f rest ih => rw [fieldsDepth, Nat.max_le, ih, List.forall_mem_cons]

theorem itemsDepth_le_iff {cs : List Document} {k : Nat} :
    itemsDepth (cs.map toValue) ≤ k ↔ ∀ c ∈ cs, c.detachDepth ≤ k := by
  induction cs with
  | nil => exact ⟨fun _ _ h => absurd h List.not_mem_nil, fun _ => Nat.zero_le k⟩
  | cons c rest ih =>
    rw [List.map_cons, toValue, itemsDepth, Nat.max_le, ih, List.forall_mem_cons]
    rfl

/-- A property demands what the documents that it holds demand. -/
theorem heldDepth_le_iff {v : Value} (h : v.Regular) {k : Nat} :
    heldDepth v ≤ k ↔ ∀ c ∈ v.nestedDocuments, c.2.detachDepth + 1 ≤ k := by
  by_cases hnested : v.isNested = true
  · rcases h.nested_cases hnested with ⟨c, rfl⟩ | ⟨cs, hcs, -, rfl⟩
    · rw [nestedDocuments_toValue, List.forall_mem_singleton, toValue, heldDepth, Nat.add_comm]
      rfl
    · have hwhole : (!(cs.map toValue).isEmpty && (cs.map toValue).all isDocument) = true := hnested
      obtain ⟨c, hc⟩ := List.exists_mem_of_ne_nil cs hcs
      rw [nestedDocuments_array hcs, heldDepth, if_pos hwhole]
      have hall : (∀ e ∈ cs.zipIdx, e.1.detachDepth + 1 ≤ k) ↔ ∀ c ∈ cs, c.detachDepth + 1 ≤ k := by
        constructor
        · intro hdepths c hc
          obtain ⟨i, hi⟩ := List.mem_iff_getElem?.1 hc
          exact hdepths (c, i) (List.mem_zipIdx_iff_getElem?.2 hi)
        · exact fun hdepths e he => hdepths e.1 (List.fst_mem_of_mem_zipIdx he)
      rw [List.forall_mem_map, hall]
      cases k with
      | zero => exact ⟨fun hle => by omega, fun hdepths => absurd (hdepths c hc) (Nat.not_succ_le_zero _)⟩
      | succ k =>
        rw [Nat.add_comm, Nat.succ_le_succ_iff, itemsDepth_le_iff]
        exact forall₂_congr fun _ _ => Nat.succ_le_succ_iff.symm
  · have hnone : heldDepth v = 0 := by
      cases v with
      | document fields => exact absurd rfl hnested
      | array items => exact if_neg hnested
      | _ => rfl
    rw [hnone, nestedDocuments_of_not_nested hnested]
    exact ⟨fun _ _ hc => absurd hc List.not_mem_nil, fun _ => Nat.zero_le k⟩

end Value

variable {d : Document}

/-- A document has at most a depth if those nested in it have less. -/
theorem detachDepth_le_iff (h : d.toValue.Regular) {k : Nat} :
    d.detachDepth ≤ k ↔ ∀ c ∈ d.children, c.2.detachDepth + 1 ≤ k := by
  rw [Document.detachDepth, Value.fieldsDepth_le_iff, Document.children, List.forall_mem_flatMap]
  refine forall₂_congr fun f hf => ?_
  rw [Value.heldDepth_le_iff (h.property hf), List.forall_mem_map]

/-- The depth is zero if nothing is nested, and else one more than the largest depth of a nested document. -/
theorem detachDepth_eq (h : d.toValue.Regular) :
    (d.children = [] ∧ d.detachDepth = 0) ∨
      ∃ c ∈ d.children, d.detachDepth = c.2.detachDepth + 1 ∧ ∀ e ∈ d.children, e.2.detachDepth ≤ c.2.detachDepth := by
  have hall := (detachDepth_le_iff h).1 (Nat.le_refl d.detachDepth)
  cases hdepth : d.detachDepth with
  | zero =>
    rw [hdepth] at hall
    refine .inl ⟨List.eq_nil_iff_forall_not_mem.2 fun c hc => ?_, rfl⟩
    exact absurd (hall c hc) (Nat.not_succ_le_zero _)
  | succ k =>
    rw [hdepth] at hall
    -- not all that is nested has less than `k`, so something has `k`
    have hdeep : ¬ ∀ c ∈ d.children, c.2.detachDepth + 1 ≤ k := by
      intro hless
      have hle := (detachDepth_le_iff h).2 hless
      omega
    push Not at hdeep
    obtain ⟨c, hc, hlt⟩ := hdeep
    have hle := hall c hc
    have hsame : c.2.detachDepth = k := by omega
    refine .inr ⟨c, hc, by rw [hsame], fun e he => ?_⟩
    have := hall e he
    omega

/-! ## Levels -/

/-- There is something on a level exactly up to the depth. -/
theorem pieces_eq_nil_iff (h : d.toValue.Regular) {n : Nat} : d.pieces n = [] ↔ d.detachDepth < n := by
  induction n generalizing d with
  | zero => exact ⟨fun hnil => absurd hnil (List.cons_ne_nil _ _), fun hlt => absurd hlt (Nat.not_lt_zero _)⟩
  | succ n ih =>
    rw [Document.pieces, List.flatMap_eq_nil_iff, Nat.lt_succ_iff, detachDepth_le_iff h]
    refine forall₂_congr fun c hc => ?_
    obtain ⟨-, -, hregular⟩ := stands_of_mem_children h hc
    rw [List.map_eq_nil_iff, ih hregular]
    rfl

theorem mem_pieces_succ {c p : List Value × Document} (hc : c ∈ d.children) {n : Nat} (hp : p ∈ c.2.pieces n) :
    (c.1 ++ p.1, p.2) ∈ d.pieces (n + 1) := by
  refine List.mem_flatMap.2 ⟨c, hc, ?_⟩
  exact List.mem_map.2 ⟨p, hp, rfl⟩

/-- What stands at a place is found on the level of the place. -/
theorem mem_pieces_of_stands (h : d.toValue.Regular) {place : List Value} {e : Document} (hstands : Stands d place e) :
    (place, e) ∈ d.pieces (depth place) := by
  induction hstands with
  | here d => exact List.mem_singleton.2 rfl
  | @property d c e name place held below ih =>
    have hin : ([], c) ∈ c.toValue.nestedDocuments := by
      rw [Value.nestedDocuments_toValue]
      exact List.mem_singleton.2 rfl
    have hchild := Document.mem_children ((d.mem_fields_iff name _).2 held) hin
    obtain ⟨-, -, hregular⟩ := stands_of_mem_children h hchild
    rw [depth_name]
    exact mem_pieces_succ hchild (ih hregular)
  | @item d c e name cs i place held hc hi below ih =>
    have hin : ([.number (.ofNat i)], c) ∈ (Value.array (cs.map toValue)).nestedDocuments := by
      rw [Value.nestedDocuments_array (List.ne_nil_of_mem (List.mem_of_getElem? hc))]
      exact List.mem_map.2 ⟨(c, i), List.mem_zipIdx_iff_getElem?.2 hc, rfl⟩
    have hchild := Document.mem_children ((d.mem_fields_iff name _).2 held) hin
    obtain ⟨-, -, hregular⟩ := stands_of_mem_children h hchild
    rw [depth_index]
    exact mem_pieces_succ hchild (ih hregular)

/-! ## All documents of a document -/

/-- One document stands strictly inside another. -/
def Above (p q : List Value × Document) : Prop :=
  ∃ further, further ≠ [] ∧ q.1 = p.1 ++ further ∧ Stands p.2 further q.2

theorem Stands.depth_pos {e : Document} {place : List Value} (h : Stands d place e) (hplace : place ≠ []) :
    0 < depth place := by
  cases h with
  | here => exact absurd rfl hplace
  | property => rw [depth_name]; exact Nat.succ_pos _
  | item => rw [depth_index]; exact Nat.succ_pos _

theorem Above.depth_lt {p q : List Value × Document} (h : Above p q) : depth p.1 < depth q.1 := by
  obtain ⟨further, hfurther, hplace, hstands⟩ := h
  rw [hplace, depth_append]
  exact Nat.lt_add_of_pos_right (hstands.depth_pos hfurther)

/-- A list names every document that stands at some place of a document, itself included, exactly once. It goes level
by level, and no document comes after one that stands inside it. -/
structure TakenApart (d : Document) (ps : List (List Value × Document)) : Prop where
  all : ∀ p, p ∈ ps ↔ Stands d p.1 p.2
  once : ps.Pairwise fun p q => p.1 ≠ q.1
  byLevel : ps.Pairwise fun p q => depth p.1 ≤ depth q.1
  parentsFirst : ps.Pairwise fun p q => ¬ Above q p

/-- The levels down to the depth take a document apart. -/
theorem takenApart_piecesTo (h : d.toValue.Regular) {n : Nat} (hn : d.detachDepth ≤ n) :
    TakenApart d (d.piecesTo n) := by
  have hlevels : (d.piecesTo n).Pairwise fun p q => depth p.1 ≤ depth q.1 := by
    refine List.pairwise_flatMap.2 ⟨fun k _ => ?_, List.pairwise_lt_range.imp ?_⟩
    · refine List.pairwise_of_forall_mem_list fun p hp q hq => ?_
      rw [(stands_of_mem_pieces h hp).2, (stands_of_mem_pieces h hq).2]
    · intro k l hlt p hp q hq
      rw [(stands_of_mem_pieces h hp).2, (stands_of_mem_pieces h hq).2]
      exact hlt.le
  refine ⟨fun p => ⟨stands_of_mem_piecesTo h, fun hp => ?_⟩, places_distinct h n, hlevels, hlevels.imp ?_⟩
  · have hin := mem_pieces_of_stands h hp
    have hdepth : ¬ d.detachDepth < depth p.1 := by
      intro hlt
      rw [(pieces_eq_nil_iff h).2 hlt] at hin
      cases hin
    exact List.mem_flatMap.2 ⟨depth p.1, List.mem_range.2 (by omega), hin⟩
  · intro p q hle habove
    exact absurd habove.depth_lt (Nat.not_lt.2 hle)

/-! ## The route -/

/-- The mutation for a document that stands at a place of the data. Only the whole data keeps the row before the
change. -/
def Mutation.piece (m : Mutation) (p : List Value × Document) : Mutation :=
  ⟨if p.1.isEmpty then m.before else none, some p.2.flat, m.key ++ p.1, m.time, m.origin⟩

theorem map_flat_levels {m : Mutation} (hdata : m.data = some d) (h : d.toValue.Regular) (n : Nat) :
    (levels n [m]).map Mutation.flat = (d.piecesTo n).map m.piece := by
  rw [levels, Document.piecesTo, List.map_flatMap, List.map_flatMap]
  refine List.flatMap_congr fun k _ => ?_
  cases k with
  | zero =>
    show [m.flat] = [m.piece ([], d)]
    rw [Mutation.flat, Mutation.piece, hdata, List.append_nil]
    rfl
  | succ k =>
    rw [level_eq_map hdata, List.map_map]
    refine List.map_congr_left fun p hp => ?_
    have hdepth := (stands_of_mem_pieces h hp).2
    have hplace : p.1.isEmpty = false := by
      cases hp : p.1 with
      | nil => rw [hp] at hdepth; cases hdepth
      | cons => rfl
    show (m.child p.1 p.2).flat = m.piece p
    rw [Mutation.piece, hplace]
    rfl

section

variable {source : SourceConfig} {table : TableName} {m : Mutation} {data : Document}

/-- The search of a recursing source for the documents nested in an upsert ends. It fails with the recursion limit
exactly if the documents are nested deeper than the limit. Else there is one mutation for every document, parents
before those nested in them. -/
theorem recursion_limit_is_exact (htarget : source.destination = .target table) (hrecurse : source.recurse = true)
    (timeout : Span) (limit : Nat) (hdata : m.data = some data) (hregular : data.toValue.Regular) :
    (turns source timeout limit (levels limit [m]).length (.start m) = do
      let routed ← route source timeout limit m
      return ⟨[], routed⟩) ∧
      ((∃ fault, (route source timeout limit m).attempt.value = .error fault ∧ fault.kind = .recursionLimitExceeded) ↔
        limit < data.detachDepth) ∧
      (data.detachDepth ≤ limit → ∃ ps, TakenApart data ps ∧
        (route source timeout limit m).attempt.value = .ok (ps.map fun p => ⟨table, m.piece p⟩)) := by
  have hupsert : m.data.isSome = true := by rw [hdata]; rfl
  have hlast : level (limit + 1) [m] = [] ↔ data.detachDepth ≤ limit := by
    rw [level_eq_map hdata, List.map_eq_nil_iff, pieces_eq_nil_iff hregular, Nat.lt_succ_iff]
  have hroutes : (levels limit [m]).map (fun m' => (⟨table, m'.flat⟩ : Routed)) =
      (data.piecesTo limit).map fun p => ⟨table, m.piece p⟩ := by
    have hflat := congrArg (List.map (Routed.mk table)) (map_flat_levels hdata hregular limit)
    rw [List.map_map, List.map_map] at hflat
    exact hflat
  rw [route_value htarget hrecurse limit hupsert]
  refine ⟨turns_eq_route hrecurse hupsert, ?_, fun hdepth => ?_⟩
  · by_cases hdepth : data.detachDepth ≤ limit
    · rw [if_pos (hlast.2 hdepth)]
      constructor
      · rintro ⟨fault, hfault, -⟩
        cases hfault
      · intro hlt
        omega
    · rw [if_neg (mt hlast.1 hdepth)]
      exact ⟨fun _ => Nat.not_le.1 hdepth, fun _ => ⟨_, rfl, rfl⟩⟩
  · rw [if_pos (hlast.2 hdepth), hroutes]
    exact ⟨_, takenApart_piecesTo hregular hdepth, rfl⟩

end

/-- In an invoice documents are nested two levels deep, so a limit of two is enough, and a limit of one is not. -/
theorem invoice_nests_two_levels_deep :
    (∃ fault, (route Example.invoices .zero 1 Example.arrival).attempt.value = .error fault ∧
        fault.kind = .recursionLimitExceeded) ∧
      ∃ ps, TakenApart Example.invoice ps ∧
        (route Example.invoices .zero 2 Example.arrival).attempt.value =
          .ok (ps.map fun p => ⟨⟨["invoices"], by decide, by decide, by decide⟩, Example.arrival.piece p⟩) := by
  have hdepth : Example.invoice.detachDepth = 2 := by decide
  have htarget : Example.invoices.destination = .target ⟨["invoices"], by decide, by decide, by decide⟩ := rfl
  have hdata : Example.arrival.data = some Example.invoice := rfl
  obtain ⟨-, hfails, -⟩ := recursion_limit_is_exact htarget rfl .zero 1 hdata Example.regular_invoice
  obtain ⟨-, -, hroutes⟩ := recursion_limit_is_exact htarget rfl .zero 2 hdata Example.regular_invoice
  exact ⟨hfails.2 (by omega), hroutes (by omega)⟩

end Tributary
