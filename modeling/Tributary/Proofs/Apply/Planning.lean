import Tributary.Proofs.Apply.Schedule

/-!
# Batches mutation by mutation

A batch goes through each stage as a whole. None of the stages before rows are touched has a footprint,
and the stages treat lists piece by piece, so that the first mutation may as well go through all stages
before the next one is looked at.

* `planFrom`: all stages before rows are touched; `planBatch_eq` says that a plan groups their result by row.
* `applyFrom`: what `processBatch` does behind the lookup of the source, with the mutations of all rows
  in their own order, from given numbers on.
* `applyFrom_cons_agrees`: the first mutation of a batch may be processed before the others.
-/

namespace Tributary

open Run

/-! ## Stages piece by piece -/

variable {source : SourceConfig} {options : Options} {registry : Registry} {clock : Clock}
  {name : String}

/-- How many outcomes a source mutation has. -/
def RoutedSource.outcomes (r : RoutedSource) : Nat :=
  match r.result with
  | .ok [] => 1
  | .ok routed => routed.length
  | .error _ => 1

/-- How many outcomes source mutations have. -/
def outcomesOf : List RoutedSource → Nat
  | [] => 0
  | r :: rest => r.outcomes + outcomesOf rest

theorem routeAll_cons (index : Nat) (m : Mutation) (rest : List Mutation) :
    (routeAll source options index (m :: rest) : Run MemoryStore _) = do
      let first ← routeAll source options index [m]
      let others ← routeAll source options (index + 1) rest
      return first ++ others := by
  simp [routeAll]

theorem settleRouted_append (number : Nat) (xs ys : List RoutedSource) :
    (settleRouted options name number (xs ++ ys) : Run MemoryStore _) = do
      let first ← settleRouted options name number xs
      let second ← settleRouted options name (number + outcomesOf xs) ys
      return (first.1 ++ second.1, first.2 ++ second.2) := by
  induction xs generalizing number with
  | nil => simp [settleRouted, outcomesOf]
  | cons head rest ih =>
    obtain ⟨index, m, result⟩ := head
    rw [outcomesOf, ← Nat.add_assoc]
    cases result with
    | error fault => simp [settleRouted, ih, RoutedSource.outcomes]
    | ok routed =>
      cases routed with
      | nil => simp [settleRouted, ih, RoutedSource.outcomes]
      | cons r rs => simp [settleRouted, ih, RoutedSource.outcomes]

theorem prepareAll_append (ps qs : List Placed) :
    (prepareAll registry clock (ps ++ qs) : Run MemoryStore _) = do
      let first ← prepareAll registry clock ps
      let second ← prepareAll registry clock qs
      return first ++ second := by
  induction ps with
  | nil => simp [prepareAll]
  | cons p rest ih => simp [prepareAll, ih]

theorem settlePrepared_append (xs ys : List PreparedSource) :
    (settlePrepared options name (xs ++ ys) : Run MemoryStore _) = do
      let first ← settlePrepared options name xs
      let second ← settlePrepared options name ys
      return (first.1 ++ second.1, first.2 ++ second.2) := by
  induction xs with
  | nil => simp [settlePrepared]
  | cons head rest ih =>
    obtain ⟨placed, result⟩ := head
    cases result with
    | error fault => simp [settlePrepared, ih]
    | ok preparation => cases preparation <;> simp [settlePrepared, ih]

/-! ## All stages -/

section

variable {σ : Type} [TargetStore σ]

/-- Prepares mutations, and settles those that need no row. -/
def ready (registry : Registry) (clock : Clock) (name : String) (placed : List Placed) :
    Run σ (Numbered × List Prepared) := do
  let prepared ← prepareAll registry clock placed
  settlePrepared registry.options name prepared

/-- Settles and prepares what was routed, from a given number on. -/
def settleFrom (registry : Registry) (clock : Clock) (name : String) (number : Nat)
    (routed : List RoutedSource) : Run σ (Numbered × List Prepared) := do
  let pending ← settleRouted registry.options name number routed
  let rest ← ready registry clock name pending.2
  return (pending.1 ++ rest.1, rest.2)

/-- All stages before rows are touched, for mutations from a given number and position on. -/
def planFrom (registry : Registry) (clock : Clock) (source : SourceConfig) (number index : Nat)
    (batch : List Mutation) : Run σ (Numbered × List Prepared) := do
  let routed ← routeAll source registry.options index batch
  settleFrom registry clock source.name number routed

theorem planBatch_eq (batch : List Mutation) :
    (planBatch registry clock source batch : Run σ _) = do
      let plan ← planFrom registry clock source 0 0 batch
      return ⟨plan.1, groupRows plan.2⟩ := by
  simp [planBatch, planFrom, settleFrom, ready]

theorem planBatch_exec {batch : List Mutation} {plan : Numbered × List Prepared} {s s' : Session σ}
    (hplan : (planFrom registry clock source 0 0 batch).exec s = (.ok plan, s')) :
    (planBatch registry clock source batch).exec s = (.ok ⟨plan.1, groupRows plan.2⟩, s') := by
  rw [planBatch_eq, exec_bind_of_ok hplan]
  rfl

end

/-- All stages, with the mutations of all rows in their own order. -/
def applyFrom (registry : Registry) (clock : Clock) (source : SourceConfig) (number index : Nat)
    (batch : List Mutation) : Run MemoryStore Numbered := do
  let plan ← planFrom registry clock source number index batch
  let applied ← applyGroup registry source.name plan.2
  return plan.1 ++ applied

theorem ready_local (placed : List Placed) : Local ∅ (ready registry clock name placed) :=
  (prepareAll_local ..).bind fun _ => settlePrepared_local ..

theorem settleFrom_local (number : Nat) (routed : List RoutedSource) :
    Local ∅ (settleFrom registry clock name number routed) :=
  (settleRouted_local ..).bind fun _ => (ready_local _).bind fun _ => .pure _

theorem planFrom_local (number index : Nat) (batch : List Mutation) :
    Local ∅ (planFrom registry clock source number index batch) :=
  (routeAll_local ..).bind fun _ => settleFrom_local ..

/-- The same mutations are ready in the same order, and the same outcomes are settled. -/
def SamePlan (a b : Numbered × List Prepared) : Prop := a.1.Perm b.1 ∧ a.2 = b.2

/-! ## One piece before the other -/

theorem perm_interchange {α : Type} (as bs cs ds : List α) :
    (as ++ bs ++ (cs ++ ds)).Perm (as ++ cs ++ (bs ++ ds)) := by
  rw [List.append_assoc, List.append_assoc]
  exact (List.perm_append_comm_assoc bs cs ds).append_left as

section

variable (registry : Registry) (clock : Clock) (name : String) (source : SourceConfig)

theorem ready_append_agrees (ps qs : List Placed) :
    Agrees Eq (ready registry clock name (ps ++ qs))
      (do let first ← ready registry clock name ps
          let second ← ready registry clock name qs
          return (first.1 ++ second.1, first.2 ++ second.2)) := by
  unfold ready
  rw [prepareAll_append]
  simp only [bind_assoc, pure_bind, settlePrepared_append]
  exact .interleave (prepareAll_local ..) (prepareAll_local ..) (fun _ => settlePrepared_local ..)
    (fun _ => settlePrepared_local ..) fun _ => apart_empty _

theorem settleFrom_append_agrees (number : Nat) (xs ys : List RoutedSource) :
    Agrees SamePlan (settleFrom registry clock name number (xs ++ ys))
      (do let first ← settleFrom registry clock name number xs
          let second ← settleFrom registry clock name (number + outcomesOf xs) ys
          return (first.1 ++ second.1, first.2 ++ second.2)) := by
  unfold settleFrom
  rw [settleRouted_append]
  simp only [bind_assoc, pure_bind]
  refine (settleRouted_local ..).agrees_bind fun first => ?_
  have hsplit : Agrees Eq
      (do let second ← settleRouted registry.options name (number + outcomesOf xs) ys
          let rest ← ready registry clock name (first.2 ++ second.2)
          return (first.1 ++ second.1 ++ rest.1, rest.2))
      (do let second ← settleRouted registry.options name (number + outcomesOf xs) ys
          let before ← ready registry clock name first.2
          let after ← ready registry clock name second.2
          return (first.1 ++ second.1 ++ (before.1 ++ after.1), before.2 ++ after.2)) := by
    refine (settleRouted_local ..).agrees_bind fun second => ?_
    have hready := (ready_append_agrees registry clock name first.2 second.2).bind_pure
      fun rest => (first.1 ++ second.1 ++ rest.1, rest.2)
    simp only [bind_assoc, pure_bind] at hready
    exact hready
  refine hsplit.eq_trans (.commute (settleRouted_local ..) (ready_local _) (apart_empty _) ?_)
  intro second before
  exact (ready_local second.2).agrees_bind fun after => .pure ⟨perm_interchange .., rfl⟩

/-- The number of outcomes of one mutation. -/
def Mutation.outcomes (registry : Registry) (source : SourceConfig) (m : Mutation) : Nat :=
  let options := registry.options
  RoutedSource.outcomes
    ⟨0, m, (route source options.functionTimeout options.maxDepth m).attempt.value⟩

theorem routeAll_singleton_ensures (index : Nat) (m : Mutation) :
    Ensures (fun routed => outcomesOf routed = m.outcomes registry source)
      (routeAll source registry.options index [m] : Run MemoryStore _) := by
  refine ⟨fun s routed s' h => ?_⟩
  cases h
  simp [outcomesOf, RoutedSource.outcomes, Mutation.outcomes]

theorem planFrom_cons_agrees (number index : Nat) (m : Mutation) (rest : List Mutation) :
    Agrees SamePlan (planFrom registry clock source number index (m :: rest))
      (do let first ← planFrom registry clock source number index [m]
          let others ← planFrom registry clock source (number + m.outcomes registry source)
            (index + 1) rest
          return (first.1 ++ others.1, first.2 ++ others.2)) := by
  unfold planFrom
  rw [routeAll_cons]
  simp only [bind_assoc, pure_bind]
  refine (routeAll_local ..).agrees.bind_of_ensures (routeAll_singleton_ensures ..) ?_
  rintro routed _ rfl hcount
  have hsplit : Agrees SamePlan
      (do let others ← routeAll source registry.options (index + 1) rest
          settleFrom registry clock source.name number (routed ++ others))
      (do let others ← routeAll source registry.options (index + 1) rest
          let before ← settleFrom registry clock source.name number routed
          let after ← settleFrom registry clock source.name (number + outcomesOf routed) others
          return (before.1 ++ after.1, before.2 ++ after.2)) :=
    (routeAll_local ..).agrees_bind fun others =>
      settleFrom_append_agrees registry clock source.name number routed others
  rw [hcount] at hsplit
  refine hsplit.trans_eq ?_
  refine .commute (routeAll_local ..) (settleFrom_local ..) (apart_empty _) ?_
  exact fun others before => (settleFrom_local ..).agrees_bind fun after => .pure rfl

/-- The first mutation of a batch may be processed before the others. -/
theorem applyFrom_cons_agrees (number index : Nat) (m : Mutation) (rest : List Mutation) :
    Agrees List.Perm (applyFrom registry clock source number index (m :: rest))
      (do let first ← applyFrom registry clock source number index [m]
          let others ← applyFrom registry clock source (number + m.outcomes registry source)
            (index + 1) rest
          return first ++ others) := by
  unfold applyFrom
  simp only [bind_assoc, pure_bind]
  have hsplit : Agrees List.Perm
      (do let plan ← planFrom registry clock source number index (m :: rest)
          let applied ← applyGroup registry source.name plan.2
          return plan.1 ++ applied)
      (do let first ← planFrom registry clock source number index [m]
          let others ← planFrom registry clock source (number + m.outcomes registry source)
            (index + 1) rest
          let before ← applyGroup registry source.name first.2
          let after ← applyGroup registry source.name others.2
          return first.1 ++ before ++ (others.1 ++ after)) := by
    have hplan := (planFrom_cons_agrees registry clock source number index m rest).bind
      (f := fun plan => do
        let applied ← applyGroup registry source.name plan.2
        return plan.1 ++ applied)
      (g := fun plan => do
        let applied ← applyGroup registry source.name plan.2
        return plan.1 ++ applied)
      (S := List.Perm)
      fun a b hab => by
        rw [hab.2]
        exact (applyGroup_local ..).agrees_bind fun applied => .pure (hab.1.append_right applied)
    refine hplan.trans (T := List.Perm) ?_ fun _ _ _ => List.Perm.trans
    simp only [bind_assoc, pure_bind, applyGroup_append]
    refine (planFrom_local ..).agrees_bind fun first => (planFrom_local ..).agrees_bind fun others => ?_
    refine (applyGroup_local ..).agrees_bind fun before => ?_
    exact (applyGroup_local ..).agrees_bind fun after => .pure (perm_interchange ..)
  -- planning the others touches no row, so that it may wait until the rows of the first are done
  refine hsplit.trans_eq ?_
  exact .interleave (planFrom_local ..) (planFrom_local ..) (fun _ => applyGroup_local ..)
    (fun _ => applyGroup_local ..) fun _ => (apart_empty _).symm

end

end Tributary
