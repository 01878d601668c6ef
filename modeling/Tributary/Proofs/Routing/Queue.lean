import Tributary.Proofs.Routing.Levels

/-!
# Levels as a queue

Nested documents can be detached with a queue: the first mutation is taken out, the documents nested in it are put
behind all others, one level deeper than it, and it is routed without them. The queue grows while it shrinks, but
after a turn for each document it is empty, and what was routed on the way is the route level by level.

* `Search`, `turn`, `turns`: the queue with what was routed, and what a turn does.
* `turns_level`: the turns for all mutations of one level.
* `turns_levels`, `turns_eq_route`: the turns for all levels.
-/

namespace Tributary

open Logged

/-! ## Recorded computations in sequence -/

theorem Logged.map_id {α : Type} (x : Logged α) : id <$> x = x := by
  show (⟨x.value, x.trace ++ Trace.empty⟩ : Logged α) = x
  rw [Trace.append_empty]

theorem Logged.assoc {α β γ : Type} (x : Logged α) (f : α → Logged β) (g : β → Logged γ) :
    x >>= f >>= g = x >>= fun a => f a >>= g := by
  show (⟨_, x.trace ++ (f x.value).trace ++ _⟩ : Logged γ) = ⟨_, x.trace ++ ((f x.value).trace ++ _)⟩
  rw [Trace.append_assoc]
  rfl

local instance : LawfulMonad Logged := LawfulMonad.mk' Logged Logged.map_id (fun _ _ => rfl) Logged.assoc

/-! ## The queue -/

/-- The mutations that wait with their depths, and what was routed so far. -/
structure Search where
  waiting : List (Mutation × Nat)
  routed : List Routed

/-- The search from a mutation. -/
def Search.start (m : Mutation) : Search := ⟨[(m, 0)], []⟩

/-- Takes out the first mutation and puts the documents nested in it behind all others, unless these would be deeper
than the limit. -/
def turn (source : SourceConfig) (timeout : Span) (limit : Nat) (q : Search) : Fallible Search :=
  match q.waiting with
  | [] => return q
  | (m, depth) :: rest => do
    if decide (limit < depth + 1) && !m.nested.isEmpty then throw (.nestsTooDeep source.name limit)
    let here ← routeOne source timeout m.flat
    return ⟨rest ++ m.nested.map (·, depth + 1), q.routed ++ here⟩

/-- So many turns. -/
def turns (source : SourceConfig) (timeout : Span) (limit : Nat) : Nat → Search → Fallible Search
  | 0, q => return q
  | n + 1, q => do
    let q ← turn source timeout limit q
    turns source timeout limit n q

variable {source : SourceConfig} {timeout : Span} {limit : Nat}

theorem turns_add (n k : Nat) (q : Search) :
    turns source timeout limit (n + k) q = turns source timeout limit n q >>= turns source timeout limit k := by
  induction n generalizing q with
  | zero => rw [Nat.zero_add, turns, pure_bind]
  | succ n ih =>
    rw [Nat.succ_add, turns, turns, bind_assoc]
    exact bind_congr ih

/-! ## One level -/

/-- A turn for each mutation of a level routes the level, and puts the next one behind what waits. -/
theorem turns_level (ms : List Mutation) (depth : Nat) (next : List (Mutation × Nat)) (routed : List Routed) :
    turns source timeout limit ms.length ⟨ms.map (·, depth) ++ next, routed⟩ = do
      let level ← routeLevel source timeout limit (decide (limit < depth + 1)) ms
      return ⟨next ++ level.2.map (·, depth + 1), routed ++ level.1⟩ := by
  induction ms generalizing next routed with
  | nil =>
    rw [routeLevel, pure_bind]
    simp [turns]
  | cons m rest ih =>
    rw [List.length_cons, turns, List.map_cons, List.cons_append, turn, routeLevel]
    dsimp only
    by_cases hdeep : (decide (limit < depth + 1) && !m.nested.isEmpty) = true
    · rw [if_pos hdeep, if_pos hdeep]
      rfl
    · rw [if_neg hdeep, if_neg hdeep]
      simp only [pure_bind, bind_assoc]
      refine bind_congr fun here => ?_
      rw [List.append_assoc, ih]
      refine bind_congr fun others => ?_
      rw [List.append_assoc, List.append_assoc, List.map_append]

/-- Where nothing else waits, the next level is all that waits then. -/
theorem turns_level_alone (ms : List Mutation) (depth : Nat) (routed : List Routed) :
    turns source timeout limit ms.length ⟨ms.map (·, depth), routed⟩ = do
      let level ← routeLevel source timeout limit (decide (limit < depth + 1)) ms
      return ⟨level.2.map (·, depth + 1), routed ++ level.1⟩ := by
  rw [← List.append_nil (ms.map (·, depth))]
  exact turns_level ms depth [] routed

/-- The next level is made of the documents nested in this one. -/
theorem routeLevel_nested (last : Bool) (ms : List Mutation) :
    routeLevel source timeout limit last ms = do
      let level ← routeLevel source timeout limit last ms
      return (level.1, ms.flatMap Mutation.nested) := by
  induction ms with
  | nil => rfl
  | cons m rest ih =>
    rw [routeLevel]
    by_cases hdeep : (last && !m.nested.isEmpty) = true
    · rw [if_pos hdeep]
      rfl
    · rw [if_neg hdeep]
      simp only [pure_bind, bind_assoc]
      refine bind_congr fun here => ?_
      rw [ih]
      simp only [bind_assoc, pure_bind, List.flatMap_cons]

/-- Behind a level that must be the last there is none. -/
theorem routeLevel_last (ms : List Mutation) :
    routeLevel source timeout limit true ms = do
      let level ← routeLevel source timeout limit true ms
      return (level.1, []) := by
  induction ms with
  | nil => rfl
  | cons m rest ih =>
    rw [routeLevel]
    by_cases hdeep : (true && !m.nested.isEmpty) = true
    · rw [if_pos hdeep]
      rfl
    · have hnone : m.nested = [] := by simpa using hdeep
      rw [if_neg hdeep, hnone]
      simp only [pure_bind, bind_assoc]
      refine bind_congr fun here => ?_
      rw [ih]
      simp only [bind_assoc, pure_bind, List.append_nil]

/-! ## All levels -/

theorem routeLevels_nil (depth : Nat) : routeLevels source timeout limit depth [] = return [] := by
  cases depth <;> rfl

/-- A turn for each mutation of a level and of those below it, as far as the limit allows, leaves nothing waiting. What
is routed is the level and those below it, or the search fails as they do. -/
theorem turns_levels {above below : Nat} (hlimit : above + below = limit) (ms : List Mutation) (routed : List Routed) :
    turns source timeout limit (levels below ms).length ⟨ms.map (·, above), routed⟩ = do
      let more ← routeLevels source timeout limit below ms
      return ⟨[], routed ++ more⟩ := by
  induction below generalizing above ms routed with
  | zero =>
    have honly : levels 0 ms = ms := List.flatMap_singleton ..
    have hdeepest : decide (limit < above + 1) = true := decide_eq_true (by omega)
    rw [honly, turns_level_alone, hdeepest, routeLevel_last]
    cases ms with
    | nil =>
      simp [routeLevel, routeLevels]
    | cons m rest => simp [routeLevels]
  | succ below ih =>
    have hinside : decide (limit < above + 1) = false := decide_eq_false (by omega)
    rw [levels_succ, List.length_append, turns_add, turns_level_alone, hinside, routeLevel_nested]
    have hnext : above + 1 + below = limit := by omega
    have hbelow := ih hnext (ms.flatMap Mutation.nested)
    simp only [bind_assoc, pure_bind, hbelow]
    cases ms with
    | nil => simp [routeLevel, routeLevels_nil]
    | cons m rest =>
      have hroutes : routeLevels source timeout limit (below + 1) (m :: rest) = do
          let level ← routeLevel source timeout limit false (m :: rest)
          let more ← routeLevels source timeout limit below ((m :: rest).flatMap Mutation.nested)
          return level.1 ++ more := by
        rw [routeLevels, routeLevel_nested]
        · simp only [bind_assoc, pure_bind]
        · exact List.cons_ne_nil m rest
      rw [hroutes]
      simp only [bind_assoc, pure_bind, List.append_assoc]

/-- So the search for a mutation is the route of the mutation, and it ends. -/
theorem turns_eq_route (hrecurse : source.recurse = true) {m : Mutation} (hupsert : m.data.isSome = true) :
    turns source timeout limit (levels limit [m]).length (.start m) = do
      let routed ← route source timeout limit m
      return ⟨[], routed⟩ := by
  have hroute : route source timeout limit m = routeLevels source timeout limit limit [m] := by
    rw [route, Mutation.kind, if_pos hupsert]
    dsimp only
    rw [if_pos hrecurse]
  rw [hroute]
  exact turns_levels (Nat.zero_add limit) [m] []

end Tributary
