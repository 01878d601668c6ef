import Tributary.Apply.Upsert
import Tributary.Mutation.Changefeed

/-!
# Batches

A batch is processed in stages. First all mutations are routed and then all routed mutations are
prepared; those that fail or are dropped are settled after each stage. What is ready is grouped by
row, and each group is applied in order. Groups do not depend on one another.

* `planBatch`: the stages before any row is touched.
* `groupRows`: the groups, in the order in which their rows appear.
* `applyGroups`: the groups applied one after another.
* `processBatch`, `processChangefeed`: all outcomes, in the order of routing.
-/

namespace Tributary

/-- Outcomes with their numbers. -/
abbrev Numbered := List (Nat × Outcome)

/-- A source mutation with its position in the batch and what routing made of it. -/
structure RoutedSource where
  index : Nat
  mutation : Mutation
  result : Result (List Routed)

/-- A placed mutation and what preparation made of it. -/
structure PreparedSource where
  placed : Placed
  result : Result Preparation

/-- A batch whose mutations are routed and prepared. -/
structure Plan where
  /-- The outcomes that are known. -/
  settled : Numbered
  /-- The mutations that are ready, row by row. -/
  groups : List (List Prepared)

variable {σ : Type} [TargetStore σ]

/-! ## Routing -/

/-- Routes the mutations of a batch, the first of which has the given index. -/
def routeAll (source : SourceConfig) (options : Options) :
    (index : Nat) → List Mutation → Run σ (List RoutedSource)
  | _, [] => return []
  | index, m :: rest => do
    let result ← Run.logged (route source options.functionTimeout options.maxDepth m).attempt
    let others ← routeAll source options (index + 1) rest
    return ⟨index, m, result⟩ :: others

/-- Gives routed mutations consecutive numbers. -/
def place (number index : Nat) (routed : List Routed) : List Placed :=
  routed.zipIdx.map fun e => ⟨number + e.2, index, e.1⟩

/-- Settles the mutations that were discarded or failed in routing, and numbers the others. -/
def settleRouted (options : Options) (source : String) :
    (number : Nat) → List RoutedSource → Run σ (Numbered × List Placed)
  | _, [] => return ([], [])
  | number, ⟨index, m, result⟩ :: rest => do
    match result with
    | .ok [] =>
      let outcome ← report index none none (.dropped .discarded)
      let others ← settleRouted options source (number + 1) rest
      return ((number, outcome) :: others.1, others.2)
    | .ok routed =>
      let others ← settleRouted options source (number + routed.length) rest
      return (others.1, place number index routed ++ others.2)
    | .error fault =>
      let disposition ← handleFailure options source none m none fault
      let outcome ← report index none none disposition
      let others ← settleRouted options source (number + 1) rest
      return ((number, outcome) :: others.1, others.2)

/-! ## Preparation -/

/-- Prepares routed mutations. -/
def prepareAll (registry : Registry) (clock : Clock) : List Placed → Run σ (List PreparedSource)
  | [] => return []
  | placed :: rest => do
    let result ← (prepare registry clock placed).attempt
    let others ← prepareAll registry clock rest
    return ⟨placed, result⟩ :: others

/-- Settles the mutations that were dropped or failed in preparation. -/
def settlePrepared (options : Options) (source : String) :
    List PreparedSource → Run σ (Numbered × List Prepared)
  | [] => return ([], [])
  | ⟨placed, result⟩ :: rest => do
    let table := some placed.routed.table
    match result with
    | .ok (.ready prepared) =>
      let others ← settlePrepared options source rest
      return (others.1, prepared :: others.2)
    | .ok (.dropped reason) =>
      let outcome ← report placed.index table none (.dropped reason)
      let others ← settlePrepared options source rest
      return ((placed.number, outcome) :: others.1, others.2)
    | .error fault =>
      let disposition ← handleFailure options source table placed.routed.mutation none fault
      let outcome ← report placed.index table none disposition
      let others ← settlePrepared options source rest
      return ((placed.number, outcome) :: others.1, others.2)

/-! ## Groups -/

/-- Adds a mutation to the group of its row, or as a group of its own behind all others. -/
def addToGroups (p : Prepared) : List (List Prepared) → List (List Prepared)
  | [] => [[p]]
  | group :: rest =>
    if group.any fun q => q.row.same p.row then (group ++ [p]) :: rest
    else group :: addToGroups p rest

/-- Groups mutations by row. -/
def groupRows (ps : List Prepared) : List (List Prepared) :=
  ps.foldl (fun groups p => addToGroups p groups) []

/-- Applies the mutations of one row in order. -/
def applyGroup (registry : Registry) (source : String) : List Prepared → Run σ Numbered
  | [] => return []
  | p :: rest => do
    let disposition ←
      match ← (applyPrepared registry source p).attempt with
      | .ok disposition => pure disposition
      | .error fault =>
        handleFailure registry.options source (some p.row.table) p.mutation none fault
    let outcome ← report p.placed.index (some p.row.table) (some p.key) disposition
    let others ← applyGroup registry source rest
    return (p.placed.number, outcome) :: others

/-- Applies groups in the given order. -/
def applyGroups (registry : Registry) (source : String) : List (List Prepared) → Run σ Numbered
  | [] => return []
  | group :: rest => do
    let outcomes ← applyGroup registry source group
    let others ← applyGroups registry source rest
    return outcomes ++ others

/-! ## Batches -/

/-- Routes and prepares a batch. -/
def planBatch (registry : Registry) (clock : Clock) (source : SourceConfig)
    (batch : List Mutation) : Run σ Plan := do
  let options := registry.options
  let routed ← routeAll source options 0 batch
  let pending ← settleRouted options source.name 0 routed
  let prepared ← prepareAll registry clock pending.2
  let ready ← settlePrepared options source.name prepared
  return ⟨pending.1 ++ ready.1, groupRows ready.2⟩

/-- Outcomes in the order of their numbers. -/
def inOrder (outcomes : Numbered) : List Outcome :=
  (outcomes.mergeSort fun a b => a.1 ≤ b.1).map Prod.snd

/-- Processes the mutations received from a source. -/
def processBatch (registry : Registry) (clock : Clock) (source : String)
    (batch : List Mutation) : Run σ (List Outcome) := do
  let config ← registry.source source
  let plan ← planBatch registry clock config batch
  let applied ← applyGroups registry config.name plan.groups
  return inOrder (plan.settled ++ applied)

/-- Processes the body of a changefeed. The table is the source as well. -/
def processChangefeed (registry : Registry) (clock : Clock) (table : TableName) (body : String) :
    Run σ (List Outcome) := do
  let batch ← Changefeed.parse body table registry.options.lineLimit
  processBatch registry clock table.text batch

end Tributary
