import Mathlib.Data.List.Basic
import Tributary.Routing.Route

/-!
# Levels of nested documents

Detaching goes level by level: the documents nested in a mutation, those nested in these, and so on. Where all
documents go to one table, a route is the list of the levels, and it fails exactly if one is left beyond the
limit.

* `level`, `levels`: the mutations of one level below some mutations, and those down to a level.
* `routeLevels_value`, `route_value`: what a route gives and when it fails.
* `Document.pieces`: the documents that stand so many levels deep in a document, each with its place.
* `level_child`: levels of mutations are levels of documents.
-/

namespace Tributary

/-! ## Results of computations that may fail -/

theorem Logged.Fallible.value_bind {α β : Type} (x : Fallible α) (next : α → Fallible β) :
    (x >>= next).attempt.value = x.attempt.value.bind fun a => (next a).attempt.value := by
  rw [attempt_bind]
  obtain ⟨r, t⟩ := x.attempt
  cases r <;> rfl

/-! ## Levels -/

/-- The mutations that stand `n` levels below others. -/
def level : Nat → List Mutation → List Mutation
  | 0, ms => ms
  | n + 1, ms => level n (ms.flatMap Mutation.nested)

/-- The mutations and those up to `n` levels below them. -/
def levels (n : Nat) (ms : List Mutation) : List Mutation := (List.range (n + 1)).flatMap fun k => level k ms

theorem level_nil (n : Nat) : level n [] = [] := by
  induction n with
  | zero => rfl
  | succ n ih => exact ih

theorem level_flatMap {α : Type} (n : Nat) (f : α → List Mutation) (xs : List α) :
    level n (xs.flatMap f) = xs.flatMap fun x => level n (f x) := by
  induction n generalizing f with
  | zero => rfl
  | succ n ih =>
    rw [level, List.flatMap_assoc]
    exact ih _

theorem levels_succ (n : Nat) (ms : List Mutation) :
    levels (n + 1) ms = ms ++ levels n (ms.flatMap Mutation.nested) := by
  rw [levels, List.range_succ_eq_map, List.flatMap_cons, List.flatMap_map]
  rfl

section

variable {source : SourceConfig} {table : TableName} {timeout : Span}

theorem routeOne_value (htarget : source.destination = .target table) (m : Mutation) :
    (routeOne source timeout m).attempt.value = .ok [⟨table, m⟩] := by
  unfold routeOne
  rw [htarget]
  rfl

/-- A level keeps its order, and it fails if it must be the last and is not. -/
theorem routeLevel_value (htarget : source.destination = .target table) (limit : Nat) (last : Bool)
    (ms : List Mutation) :
    (routeLevel source timeout limit last ms).attempt.value =
      if last = true ∧ ms.flatMap Mutation.nested ≠ [] then .error (.nestsTooDeep source.name limit)
      else .ok (ms.map fun m => ⟨table, m.flat⟩, ms.flatMap Mutation.nested) := by
  induction ms with
  | nil => rw [if_neg fun h => h.2 rfl]; rfl
  | cons m rest ih =>
    by_cases hdeep : (last && !m.nested.isEmpty) = true
    · have hfails : last = true ∧ (m :: rest).flatMap Mutation.nested ≠ [] := by
        simp only [Bool.and_eq_true, Bool.not_eq_true', List.isEmpty_eq_false_iff] at hdeep
        refine ⟨hdeep.1, ?_⟩
        rw [List.flatMap_cons]
        exact fun h => hdeep.2 (List.append_eq_nil_iff.1 h).1
      rw [if_pos hfails, routeLevel, if_pos hdeep]
      rfl
    · have hrest : (last = true ∧ (m :: rest).flatMap Mutation.nested ≠ []) ↔
          last = true ∧ rest.flatMap Mutation.nested ≠ [] := by
        simp only [Bool.and_eq_true, Bool.not_eq_true', List.isEmpty_eq_false_iff, not_and, not_not] at hdeep
        refine and_congr_right fun hlast => ?_
        rw [List.flatMap_cons, hdeep hlast, List.nil_append]
      rw [routeLevel, if_neg hdeep]
      show (routeOne source timeout m.flat >>= fun here => routeLevel source timeout limit last rest >>=
        fun others => pure (here ++ others.1, m.nested ++ others.2)).attempt.value = _
      simp only [Logged.Fallible.value_bind, routeOne_value htarget, ih, hrest]
      split <;> rfl

/-- A level and those below it are routed in order if the depth suffices. -/
theorem routeLevels_value (htarget : source.destination = .target table) (limit depth : Nat)
    (ms : List Mutation) :
    (routeLevels source timeout limit depth ms).attempt.value =
      if level (depth + 1) ms = [] then .ok ((levels depth ms).map fun m => ⟨table, m.flat⟩)
      else .error (.nestsTooDeep source.name limit) := by
  induction depth generalizing ms with
  | zero =>
    cases ms with
    | nil => rfl
    | cons m rest =>
      have honly : levels 0 (m :: rest) = m :: rest := List.flatMap_singleton ..
      show (routeLevel source timeout limit true (m :: rest) >>= fun level => pure level.1).attempt.value = _
      rw [Logged.Fallible.value_bind, routeLevel_value htarget, honly]
      show _ = if (m :: rest).flatMap Mutation.nested = [] then _ else _
      by_cases hnone : (m :: rest).flatMap Mutation.nested = []
      · rw [if_neg fun h => h.2 hnone, if_pos hnone]
        rfl
      · rw [if_pos ⟨rfl, hnone⟩, if_neg hnone]
        rfl
  | succ depth ih =>
    cases ms with
    | nil =>
      have hnone : levels (depth + 1) [] = [] := by
        rw [levels, List.flatMap_eq_nil_iff]
        exact fun k _ => level_nil k
      rw [level_nil, if_pos rfl, hnone]
      rfl
    | cons m rest =>
      have hnext : level (depth + 2) (m :: rest) = level (depth + 1) ((m :: rest).flatMap Mutation.nested) := rfl
      show (routeLevel source timeout limit false (m :: rest) >>= fun level =>
        routeLevels source timeout limit depth level.2 >>= fun below =>
          pure (level.1 ++ below)).attempt.value = _
      rw [Logged.Fallible.value_bind, routeLevel_value htarget, if_neg (by simp), Except.bind,
        Logged.Fallible.value_bind, ih, levels_succ, List.map_append, hnext]
      split <;> rfl

/-- All documents of an upsert go to the one target, level by level, or the upsert nests too deep. -/
theorem route_value (htarget : source.destination = .target table) (hrecurse : source.recurse = true)
    (limit : Nat) {m : Mutation} (hupsert : m.data.isSome = true) :
    (route source timeout limit m).attempt.value =
      if level (limit + 1) [m] = [] then .ok ((levels limit [m]).map fun m => ⟨table, m.flat⟩)
      else .error (.nestsTooDeep source.name limit) := by
  unfold route Mutation.kind
  rw [if_pos hupsert]
  show (if source.recurse then _ else _ : Logged.Fallible (List Routed)).attempt.value = _
  rw [if_pos hrecurse, routeLevels_value htarget]

end

/-! ## Levels of documents -/

/-- The documents that a nested value consists of, each with its place in the value. -/
def Value.nestedDocuments (v : Value) : List (List Value × Document) :=
  if v.isNested then
    match v with
    | .array items => items.zipIdx.filterMap fun e => (Document.ofValue? e.1).map ([.number (.ofNat e.2)], ·)
    | v => (Document.ofValue? v).toList.map ([], ·)
  else []

namespace Document

/-- The documents nested in a document, each with its place. -/
def children (d : Document) : List (List Value × Document) :=
  d.fields.flatMap fun f => f.2.nestedDocuments.map fun c => (.string f.1 :: c.1, c.2)

/-- The documents that stand `n` levels deep in a document. -/
def pieces : Nat → Document → List (List Value × Document)
  | 0, d => [([], d)]
  | n + 1, d => d.children.flatMap fun c => (pieces n c.2).map fun p => (c.1 ++ p.1, p.2)

end Document

namespace Mutation

theorem nestedUnder_eq_map (m : Mutation) (field : String × Value) :
    m.nestedUnder field = field.2.nestedDocuments.map fun c => m.child (.string field.1 :: c.1) c.2 := by
  obtain ⟨name, v⟩ := field
  unfold nestedUnder Value.nestedDocuments
  show (if v.isNested then _ else _) = List.map _ (if v.isNested then _ else _)
  split
  · cases v with
    | array items =>
      show List.filterMap _ (items.zipIdx.map _) = List.map _ (items.zipIdx.filterMap _)
      rw [List.filterMap_map, List.map_filterMap]
      refine List.filterMap_congr fun e _ => ?_
      rw [Option.map_map]
      rfl
    | _ => rfl
  · rfl

theorem nested_eq_map {m : Mutation} {d : Document} (h : m.data = some d) :
    m.nested = d.children.map fun c => m.child c.1 c.2 := by
  unfold nested Document.children
  rw [h, List.map_flatMap]
  refine List.flatMap_congr fun field _ => ?_
  rw [nestedUnder_eq_map, List.map_map]
  rfl

theorem child_child (m : Mutation) (place further : List Value) (d e : Document) :
    (m.child place d).child further e = m.child (place ++ further) e := by
  unfold child
  rw [List.append_assoc]

end Mutation

/-- Below the mutation of a nested document stand those of the documents nested in it. -/
theorem level_child (n : Nat) (m : Mutation) (place : List Value) (d : Document) :
    level n [m.child place d] = (d.pieces n).map fun p => m.child (place ++ p.1) p.2 := by
  induction n generalizing place d with
  | zero => simp [level, Document.pieces]
  | succ n ih =>
    have hdata : (m.child place d).data = some d := rfl
    rw [level, List.flatMap_singleton, Mutation.nested_eq_map hdata, Document.pieces, List.map_flatMap]
    rw [← List.flatMap_pure_eq_map, level_flatMap]
    refine List.flatMap_congr fun c _ => ?_
    show level n [(m.child place d).child c.1 c.2] = _
    rw [Mutation.child_child, ih, List.map_map]
    refine List.map_congr_left fun p _ => ?_
    rw [Function.comp_apply, List.append_assoc]

theorem level_eq_map {m : Mutation} {d : Document} (h : m.data = some d) (n : Nat) :
    level (n + 1) [m] = (d.pieces (n + 1)).map fun p => m.child p.1 p.2 := by
  have hsame : level (n + 1) [m] = level (n + 1) [m.child [] d] := by
    have hdata : (m.child [] d).data = some d := rfl
    rw [level, level, List.flatMap_singleton, List.flatMap_singleton, Mutation.nested_eq_map h,
      Mutation.nested_eq_map hdata]
    refine congrArg _ (List.map_congr_left fun c _ => ?_)
    rw [Mutation.child_child, List.nil_append]
  rw [hsame, level_child]
  simp only [List.nil_append]

end Tributary
