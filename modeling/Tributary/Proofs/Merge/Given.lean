import Tributary.Apply.Upsert

/-!
# What user functions are given

Which calls mapping a document and resolving a conflict make. A custom merge function is given the operation of the
conflict, and the fallback of the standard merge is told which columns could not be merged as well. Either of them
is called for the proposal and the stored row, at a time at which the row before the change is needed.

* `mapRow_calls`, `runMerge_calls`: the calls of one function.
* `run_calls`: what a merge strategy hands to the merge function.
* `resolve_calls`, `resolve_given`, `resolve_of_given`: whether a resolution calls a merge function, for what, and
  what it makes of the answer.
-/

namespace Tributary

/-! ## Calls of user functions -/

theorem invoke_calls (timeout : Span) (kind : FunctionKind) (call : Call) (reply : Reply) :
    (invoke timeout kind call reply).attempt.trace.calls = [call] := by
  unfold invoke
  cases callFault? kind timeout reply <;> rfl

theorem Logged.Fallible.calls_bind {α β : Type} (x : Fallible α) {f : α → Fallible β}
    (h : ∀ a, (f a).attempt.trace.calls = []) : (x >>= f).attempt.trace.calls = x.attempt.trace.calls := by
  rw [attempt_bind]
  obtain ⟨result, trace⟩ := x.attempt
  cases result with
  | error fault => rfl
  | ok a =>
    show trace.calls ++ (f a).attempt.trace.calls = trace.calls
    rw [h a, List.append_nil]

theorem Logged.Fallible.calls_result {α : Type} (r : Result α) :
    (liftM r : Fallible α).attempt.trace.calls = [] := by
  rw [attempt_result]
  rfl

theorem runMerge_calls (timeout : Span) (merge : MergeFunction) (op : MergeOperation) :
    (runMerge timeout merge op).attempt.trace.calls = [.merge op] := by
  unfold runMerge
  rw [Logged.Fallible.calls_bind _ fun _ => Logged.Fallible.calls_result _, invoke_calls]

/-- The call that mapping a document makes, if the table has a map function. -/
def TableConfig.mapCalls (config : TableConfig) (doc origin : Document) : List Call :=
  if config.map.isSome then [.map doc origin] else []

theorem mapDocument_calls (config : TableConfig) (timeout : Span) (doc origin : Document) :
    (mapDocument config timeout doc origin).attempt.trace.calls = config.mapCalls doc origin := by
  unfold mapDocument TableConfig.mapCalls
  cases config.map with
  | none => rfl
  | some function =>
    dsimp only
    rw [Logged.Fallible.calls_bind, invoke_calls]
    · rfl
    · intro v
      split <;> rfl

theorem mapRow_calls (config : TableConfig) (schema : Schema) (timeout : Span) (doc origin : Document) :
    (mapRow config schema timeout doc origin).attempt.trace.calls = config.mapCalls doc origin := by
  unfold mapRow
  rw [Logged.Fallible.calls_bind, mapDocument_calls]
  intro mapped
  cases mapped with
  | none => rfl
  | some doc =>
    dsimp only
    rw [Logged.Fallible.calls_bind _ fun _ => rfl, Logged.Fallible.calls_result]

/-! ## What merge functions are given -/

/-- The function to which a strategy leaves a conflict. -/
def MergeStrategy.function? : MergeStrategy → Option MergeFunction
  | .custom merge => some merge
  | .standard fallback => fallback

/-- Whether a strategy leaves all conflicts to its function. -/
def MergeStrategy.isCustom : MergeStrategy → Bool
  | .custom _ => true
  | .standard _ => false

/-- A strategy calls no function, or it does what its function decides. The function is given the operation, with
the columns that could not be merged if it is a fallback. -/
theorem run_calls (strategy : MergeStrategy) (timeout : Span) {op : MergeOperation} (hop : op.unmerged = []) :
    (strategy.run timeout op).attempt.trace.calls = [] ∨
      ∃ merge given, strategy.function? = some merge ∧
        (strategy.run timeout op).attempt = (runMerge timeout merge given).attempt ∧
        { given with unmerged := [] } = op ∧ (given.unmerged = [] ↔ strategy.isCustom = true) := by
  have hop' : { op with unmerged := [] } = op := by rw [← hop]
  cases strategy with
  | custom merge => exact .inr ⟨merge, op, rfl, rfl, hop', iff_of_true hop rfl⟩
  | standard fallback =>
    show (runStandard timeout fallback op).attempt.trace.calls = [] ∨ _
    cases fallback with
    | none =>
      left
      unfold runStandard
      dsimp only
      split <;> rfl
    | some merge =>
      by_cases hmerged : (standardMerge op).unmerged.isEmpty = true
      · left
        rw [runStandard, if_pos hmerged]
        rfl
      · right
        refine ⟨merge, { op with unmerged := (standardMerge op).unmerged }, rfl, ?_, hop', ?_⟩
        · show (runStandard timeout (some merge) op).attempt = _
          rw [runStandard, if_neg hmerged]
        · refine iff_of_false (fun hnil => hmerged ?_) Bool.false_ne_true
          exact List.isEmpty_iff.2 hnil

theorem resolve_calls_of_conflict {config : TableConfig} {proposal : Proposal} {stored : Document}
    {strategy : MergeStrategy} (timeout : Span) (hconflict : conflicts config.cas proposal.proposed stored = true)
    (hstrategy : config.merge = some strategy) :
    (resolve config timeout proposal (some stored)).trace.calls =
      (strategy.run timeout (proposal.operation stored)).attempt.trace.calls := by
  simp [resolve, hconflict, resolveConflict, hstrategy, Logged.count]

theorem resolve_calls_of_merge_eq_none {config : TableConfig} (hmerge : config.merge = none) (timeout : Span)
    (proposal : Proposal) (target : Option Document) : (resolve config timeout proposal target).trace.calls = [] := by
  unfold resolve
  split
  · rfl
  · split
    · simp [resolveConflict, hmerge, Logged.count]
    · rfl

/-- A conflict is resolved without a merge function, or by what the function says to what it is given. -/
theorem resolve_calls (config : TableConfig) (timeout : Span) (proposal : Proposal) (target : Option Document) :
    (resolve config timeout proposal target).trace.calls = [] ∨
      ∃ strategy merge given, config.merge = some strategy ∧ strategy.function? = some merge ∧
        (resolve config timeout proposal target).trace.calls = [.merge given] ∧
        (resolve config timeout proposal target).value =
          .ofResult { given with unmerged := [] } (runMerge timeout merge given).attempt.value ∧
        (given.unmerged = [] ↔ strategy.isCustom = true) := by
  cases target with
  | none => exact .inl rfl
  | some stored =>
    by_cases hconflict : conflicts config.cas proposal.proposed stored = true
    · cases hstrategy : config.merge with
      | none => exact .inl (resolve_calls_of_merge_eq_none hstrategy timeout proposal (some stored))
      | some strategy =>
        rw [resolve_calls_of_conflict timeout hconflict hstrategy]
        have hop : (proposal.operation stored).unmerged = [] := rfl
        rcases run_calls strategy timeout hop with hnone | ⟨merge, given, hmerge, hrun, hop, hcustom⟩
        · exact .inl hnone
        · refine .inr ⟨strategy, merge, given, rfl, hmerge, by rw [hrun, runMerge_calls], ?_, hcustom⟩
          simp only [resolve, if_pos hconflict, resolveConflict, hstrategy, Logged.value_bind, Logged.value_pure]
          rw [← hrun, hop]
    · left
      rw [resolve, if_neg hconflict]
      rfl

/-- A merge function is called where the row before the change is needed, for the proposal and the stored row. -/
theorem resolve_given {config : TableConfig} {timeout : Span} {proposal : Proposal} {target : Option Document}
    {given : MergeOperation} (h : .merge given ∈ (resolve config timeout proposal target).trace.calls) :
    needsBefore config proposal.proposed target = true ∧
      ∃ stored, target = some stored ∧ { given with unmerged := [] } = proposal.operation stored := by
  cases target with
  | none => cases h
  | some stored =>
    by_cases hconflict : conflicts config.cas proposal.proposed stored = true
    · cases hstrategy : config.merge with
      | none =>
        rw [resolve_calls_of_merge_eq_none hstrategy] at h
        cases h
      | some strategy =>
        rw [resolve_calls_of_conflict timeout hconflict hstrategy] at h
        refine ⟨by simp [needsBefore, hstrategy, hconflict], stored, rfl, ?_⟩
        have hop : (proposal.operation stored).unmerged = [] := rfl
        rcases run_calls strategy timeout hop with hnone | ⟨merge, given', -, hrun, hgiven, -⟩
        · rw [hnone] at h
          cases h
        · rw [hrun, runMerge_calls] at h
          cases List.mem_singleton.1 h
          exact hgiven
    · rw [resolve, if_neg hconflict] at h
      cases h

/-- Where the merge function of a table is called, it resolves the conflict. -/
theorem resolve_of_given {config : TableConfig} {timeout : Span} {proposal : Proposal} {target : Option Document}
    {strategy : MergeStrategy} {merge : MergeFunction} {given : MergeOperation}
    (hstrategy : config.merge = some strategy) (hfunction : strategy.function? = some merge)
    (h : .merge given ∈ (resolve config timeout proposal target).trace.calls) :
    (resolve config timeout proposal target).value =
        .ofResult { given with unmerged := [] } (runMerge timeout merge given).attempt.value ∧
      (given.unmerged = [] ↔ strategy.isCustom = true) := by
  rcases resolve_calls config timeout proposal target with
    hnone | ⟨strategy', merge', given', hstrategy', hfunction', hcalls, hvalue, hcustom⟩
  · rw [hnone] at h
    cases h
  · rw [hcalls] at h
    cases List.mem_singleton.1 h
    obtain rfl : strategy' = strategy := Option.some.inj (hstrategy'.symm.trans hstrategy)
    obtain rfl : merge' = merge := Option.some.inj (hfunction'.symm.trans hfunction)
    exact ⟨hvalue, hcustom⟩

end Tributary
