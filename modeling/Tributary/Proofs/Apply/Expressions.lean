import Tributary.Proofs.Apply.Watching
import Tributary.Proofs.Merge.Standard
import Tributary.Proofs.Merge.Verdict

/-!
# Columns with expressions

The expressions of a row are chosen when it is mapped, for the columns that it has. What is written in the end may be
a row that a merge function made up. It is written with the same expressions, whether or not it has their columns.

* `RowWrite.Supplied`: every column with an expression has a value in the write.
* `WritesFrom`: writes compared with the answers of the merge functions that were called for them.
* `resolve_writes`, `upsertWithin_writes`: one resolution, and an upsert over any number of attempts.
* `expressions_have_values_unless_answered_away`: whole batches on any store, and single upserts exactly.
-/

namespace Tributary

open Run

/-- Every column with an expression has a value for it. -/
def RowWrite.Supplied (w : RowWrite) : Prop := ∀ e ∈ w.exprs, w.data.contains e.1 = true

instance (w : RowWrite) : Decidable w.Supplied := inferInstanceAs (Decidable (∀ e ∈ w.exprs, _))

/-- The merge function of a table, which may be the fallback of the standard merge. -/
def TableConfig.function? (config : TableConfig) : Option MergeFunction := config.merge.bind MergeStrategy.function?

/-- The merge function of a table answers an operation with a row to write. -/
def TableConfig.Answers (config : TableConfig) (timeout : Span) (given : MergeOperation) (answer : Document) : Prop :=
  ∃ merge, config.function? = some merge ∧ (runMerge timeout merge given).attempt.value = .ok (.apply answer)

/-- The writes to a row that a resolution demands, with the expressions of the upsert. A decision, or the result of
one, demands the same. -/
def Resolution.demands (id : RowId) (exprs : List (String × String)) : Resolution → List (RowId × RowWrite)
  | .apply data => [(id, ⟨data, exprs⟩)]
  | .park _ _ | .drop _ _ | .failed _ _ => []

def Decision.demands (id : RowId) (exprs : List (String × String)) : Decision → List (RowId × RowWrite)
  | .write data _ => [(id, ⟨data, exprs⟩)]
  | .settled _ => []

/-! ## Writes and answers -/

section

variable {config : TableConfig} {timeout : Span} {id : RowId} {proposed : Document} {calls later : List Call}
  {writes more : List (RowId × RowWrite)}

/-- Writes to a row, with the expressions of the proposed row, come from the calls that were made for them: what lacks
a value is an answer, and all writes have their values exactly if all answers have them. -/
structure WritesFrom (config : TableConfig) (timeout : Span) (id : RowId) (proposed : Document) (calls : List Call)
    (writes : List (RowId × RowWrite)) : Prop where
  carries : ∀ e ∈ writes, e.1 = id ∧ e.2.exprs = rowExprs config proposed
  origin : ∀ e ∈ writes, e.2.Supplied ∨
    ∃ given, .merge given ∈ calls ∧ given.proposed = proposed ∧ config.Answers timeout given e.2.data
  exact : (∀ e ∈ writes, e.2.Supplied) ↔
    ∀ given answer, .merge given ∈ calls → config.Answers timeout given answer →
      RowWrite.Supplied ⟨answer, rowExprs config proposed⟩

theorem WritesFrom.of_noMerge (h : NoMerge calls) : WritesFrom config timeout id proposed calls [] where
  carries _ he := absurd he List.not_mem_nil
  origin _ he := absurd he List.not_mem_nil
  exact := iff_of_true (fun _ he => absurd he List.not_mem_nil) fun given _ hin => absurd hin (h given)

theorem WritesFrom.append (h : WritesFrom config timeout id proposed calls writes)
    (h' : WritesFrom config timeout id proposed later more) :
    WritesFrom config timeout id proposed (calls ++ later) (writes ++ more) where
  carries := List.forall_mem_append.2 ⟨h.carries, h'.carries⟩
  origin := by
    refine List.forall_mem_append.2 ⟨fun e he => (h.origin e he).imp_right ?_,
      fun e he => (h'.origin e he).imp_right ?_⟩
    · rintro ⟨given, hin, hgiven⟩
      exact ⟨given, List.mem_append_left later hin, hgiven⟩
    · rintro ⟨given, hin, hgiven⟩
      exact ⟨given, List.mem_append_right calls hin, hgiven⟩
  exact := by
    rw [List.forall_mem_append, h.exact, h'.exact]
    constructor
    · rintro ⟨hfirst, hsecond⟩ given answer hin hanswer
      rcases List.mem_append.1 hin with hin | hin
      · exact hfirst given answer hin hanswer
      · exact hsecond given answer hin hanswer
    · intro hall
      exact ⟨fun given answer hin => hall given answer (List.mem_append_left later hin),
        fun given answer hin => hall given answer (List.mem_append_right calls hin)⟩

theorem WritesFrom.append_noMerge (h : WritesFrom config timeout id proposed calls writes) (hlater : NoMerge later) :
    WritesFrom config timeout id proposed (calls ++ later) writes := by
  have happended := h.append (.of_noMerge hlater)
  rwa [List.append_nil] at happended

theorem supplied_of_names {data : Document}
    (h : ∀ name, proposed.contains name = true → data.contains name = true) :
    RowWrite.Supplied ⟨data, rowExprs config proposed⟩ := by
  intro e he
  exact h e.1 (List.mem_filter.1 he).2

/-- A write that was not answered by a merge function has all columns that are proposed. -/
theorem WritesFrom.of_names {data : Document} (hcalls : NoMerge calls)
    (h : ∀ name, proposed.contains name = true → data.contains name = true) :
    WritesFrom config timeout id proposed calls [(id, ⟨data, rowExprs config proposed⟩)] where
  carries := List.forall_mem_singleton.2 ⟨rfl, rfl⟩
  origin := List.forall_mem_singleton.2 (.inl (supplied_of_names h))
  exact := iff_of_true (List.forall_mem_singleton.2 (supplied_of_names h)) fun given _ hin => absurd hin (hcalls given)

theorem TableConfig.answers_iff {merge : MergeFunction} (hmerge : config.function? = some merge)
    {given : MergeOperation} {answer : Document} :
    config.Answers timeout given answer ↔ (runMerge timeout merge given).attempt.value = .ok (.apply answer) := by
  constructor
  · rintro ⟨other, hother, hanswer⟩
    cases hmerge.symm.trans hother
    exact hanswer
  · exact fun hanswer => ⟨merge, hmerge, hanswer⟩

theorem TableConfig.Answers.unique {given : MergeOperation} {answer other : Document}
    (h : config.Answers timeout given answer) (h' : config.Answers timeout given other) : other = answer := by
  obtain ⟨merge, hmerge, hanswer⟩ := h
  cases hanswer.symm.trans ((TableConfig.answers_iff hmerge).1 h')
  rfl

theorem WritesFrom.of_answer {given : MergeOperation} {answer : Document} (hgiven : given.proposed = proposed)
    (h : config.Answers timeout given answer) :
    WritesFrom config timeout id proposed [.merge given] [(id, ⟨answer, rowExprs config proposed⟩)] where
  carries := List.forall_mem_singleton.2 ⟨rfl, rfl⟩
  origin := List.forall_mem_singleton.2 (.inr ⟨given, List.mem_singleton_self _, hgiven, h⟩)
  exact := by
    rw [List.forall_mem_singleton]
    constructor
    · intro hsupplied other answer' hin hanswer
      cases List.mem_singleton.1 hin
      cases h.unique hanswer
      exact hsupplied
    · intro hall
      exact hall given answer (List.mem_singleton_self _) h

theorem WritesFrom.of_refusal {given : MergeOperation} (h : ∀ answer, ¬ config.Answers timeout given answer) :
    WritesFrom config timeout id proposed [.merge given] [] where
  carries _ he := absurd he List.not_mem_nil
  origin _ he := absurd he List.not_mem_nil
  exact := by
    refine iff_of_true (fun _ he => absurd he List.not_mem_nil) fun other answer hin hanswer => ?_
    cases List.mem_singleton.1 hin
    exact absurd hanswer (h answer)

/-! ## Resolutions -/

/-- The standard merge leaves a value in every column that is proposed, if it leaves nothing over. -/
theorem contains_merged {op : MergeOperation} (h : (standardMerge op).unmerged.isEmpty = true) {name : String}
    (hname : op.proposed.contains name = true) : (standardMerge op).merged.contains name = true := by
  obtain ⟨value, hvalue⟩ := Option.isSome_iff_exists.1 hname
  have hadmits : op.Admits name value := by
    by_contra hrefused
    have hin := (mem_unmerged_iff op name).2 ⟨value, hvalue, hrefused⟩
    rw [List.isEmpty_iff.1 h] at hin
    cases hin
  obtain ⟨merged, hmerged, -⟩ := sameOptional_some_iff.1 (mergedValue_same hadmits)
  rw [Document.contains, get?_merged, hvalue]
  dsimp only
  rw [hmerged]
  rfl

/-- A row that is resolved without a merge function has all columns that are proposed. -/
theorem contains_of_resolve {proposal : Proposal} {target : Option Document} {data : Document}
    (hcalls : (resolve config timeout proposal target).trace.calls = [])
    (h : (resolve config timeout proposal target).value = .apply data) {name : String}
    (hname : proposal.proposed.contains name = true) : data.contains name = true := by
  cases target with
  | none =>
    cases h
    exact hname
  | some stored =>
    by_cases hconflict : conflicts config.cas proposal.proposed stored = true
    · rw [resolve, if_pos hconflict] at h
      cases hmerge : config.merge with
      | none =>
        simp only [resolveConflict, hmerge, Logged.value_bind, Logged.value_pure] at h
        cases h
      | some strategy =>
        rw [resolve_calls_of_conflict timeout hconflict hmerge] at hcalls
        simp only [resolveConflict, hmerge, Logged.value_bind, Logged.value_pure] at h
        cases strategy with
        | custom merge =>
          rw [MergeStrategy.run, runMerge_calls] at hcalls
          cases hcalls
        | standard fallback =>
          unfold MergeStrategy.run runStandard at hcalls h
          dsimp only at hcalls h
          split at h
          · next hmerged =>
            cases h
            exact contains_merged hmerged hname
          · next hleft =>
            rw [if_neg hleft] at hcalls
            cases fallback with
            | none => cases h
            | some merge =>
              dsimp only at hcalls
              rw [runMerge_calls] at hcalls
              cases hcalls
    · rw [resolve, if_neg hconflict] at h
      cases h
      exact hname

theorem resolve_writes (config : TableConfig) (timeout : Span) (id : RowId) (proposal : Proposal)
    (target : Option Document) :
    WritesFrom config timeout id proposal.proposed (resolve config timeout proposal target).trace.calls
      ((resolve config timeout proposal target).value.demands id (rowExprs config proposal.proposed)) := by
  rcases resolve_calls config timeout proposal target with
    hnone | ⟨strategy, merge, given, hstrategy, hfunction, hcalls, hvalue, -⟩
  · rw [hnone]
    cases hvalue : (resolve config timeout proposal target).value with
    | apply data => exact .of_names noMerge_nil fun name => contains_of_resolve hnone hvalue
    | _ => exact .of_noMerge noMerge_nil
  · have hgiven : given.proposed = proposal.proposed := by
      obtain ⟨-, stored, -, hop⟩ := resolve_given (by rw [hcalls]; exact List.mem_singleton_self _)
      exact congrArg MergeOperation.proposed hop
    have hmerge : config.function? = some merge := by
      rw [TableConfig.function?, hstrategy]
      exact hfunction
    have hanswers (answer : Document) : config.Answers timeout given answer ↔
        (runMerge timeout merge given).attempt.value = .ok (.apply answer) := TableConfig.answers_iff hmerge
    rw [hcalls, hvalue]
    generalize (runMerge timeout merge given).attempt.value = result at hanswers ⊢
    have hrefused (h : ∀ answer, result ≠ .ok (.apply answer)) :
        WritesFrom config timeout id proposal.proposed [.merge given] [] :=
      .of_refusal fun answer hanswer => h answer ((hanswers answer).1 hanswer)
    cases result with
    | error fault => exact hrefused fun _ h => by cases h
    | ok result =>
      cases result with
      | park queue => exact hrefused fun _ h => by cases h
      | drop => exact hrefused fun _ h => by cases h
      | apply answer => exact .of_answer hgiven ((hanswers answer).2 rfl)

end

/-! ## Upserts -/

section

variable {σ : Type} [TargetStore σ] {registry : Registry} {source : String} {p : Prepared}

def demanded (id : RowId) (exprs : List (String × String)) : Result Decision → List (RowId × RowWrite)
  | .ok decision => decision.demands id exprs
  | .error _ => []

omit [TargetStore σ] in
theorem Run.Quiet.then_settled {α : Type} {x : Run (WatchedStore σ) α} (hx : Quiet WatchedStore.handed x)
    (id : RowId) (exprs : List (String × String)) (f : α → Disposition) :
    Leaves WatchedStore.handed (fun r calls more => NoMerge calls ∧ more = [] ∧ demanded id exprs r = [])
      (do
        let a ← x
        return .settled (f a)) := by
  refine Leaves.bind hx (fun _ _ _ h => ⟨h.1, h.2, rfl⟩) fun a calls more h => .pure ?_
  rw [List.append_nil, List.append_nil]
  exact ⟨h.1, h.2, rfl⟩

/-- Deciding hands nothing to the store, and demands what the resolution demands. -/
theorem decideResolution_demands (exprs : List (String × String)) (current : Option StoredRow)
    (resolution : Resolution) :
    Leaves WatchedStore.handed
      (fun r calls more => NoMerge calls ∧ more = [] ∧ demanded p.row exprs r = resolution.demands p.row exprs)
      (decideResolution registry source p current resolution : Run (WatchedStore σ) _) := by
  cases resolution with
  | apply data => exact .pure ⟨noMerge_nil, rfl, rfl⟩
  | drop reason op => exact .pure ⟨noMerge_nil, rfl, rfl⟩
  | park queue op => exact (Quiet.store fun _ => rfl).then_settled p.row exprs _
  | failed fault op => exact (handleFailure_quiet ..).then_settled p.row exprs _

/-- Nothing was handed to the store yet, and what the decision demands comes from the calls. -/
def Demands (registry : Registry) (id : RowId) (proposed : Document) (r : Result (Decision × MappedBefore))
    (calls : List Call) (more : List (RowId × RowWrite)) : Prop :=
  more = [] ∧ WritesFrom (registry.table id.table) registry.options.functionTimeout id proposed calls
    (demanded id (rowExprs (registry.table id.table) proposed) (r.map Prod.fst))

omit [TargetStore σ] in
theorem Run.Quiet.then_demands {α : Type} {x : Run (WatchedStore σ) α}
    {f : α → Run (WatchedStore σ) (Decision × MappedBefore)} {id : RowId} {proposed : Document}
    (hx : Quiet WatchedStore.handed x)
    (hf : ∀ a, Leaves WatchedStore.handed (Demands registry id proposed) (f a)) :
    Leaves WatchedStore.handed (Demands registry id proposed) (x >>= f) := by
  refine Leaves.bind hx (fun fault calls more h => ⟨h.2, .of_noMerge h.1⟩) fun a calls more h => ?_
  refine (hf a).mono fun r later rest h' => ?_
  obtain ⟨hnone, rfl⟩ := h
  exact ⟨h'.1, (WritesFrom.of_noMerge hnone).append h'.2⟩

theorem decideCas_demands (proposed : Document) (known : MappedBefore) :
    Leaves WatchedStore.handed (Demands registry p.row proposed)
      (decideCas registry source p proposed known : Run (WatchedStore σ) _) := by
  refine Quiet.then_demands (Quiet.store fun _ => rfl) fun current => ?_
  refine Quiet.then_demands (refreshBefore_quiet (fun _ _ => rfl) proposed _ known) fun before => ?_
  refine (Leaves.logged _).bind (fun _ _ _ hr => by cases hr.1) ?_
  rintro resolution calls more ⟨hr, rfl, rfl⟩
  cases hr
  have hwrites := resolve_writes (registry.table p.row.table) registry.options.functionTimeout p.row
    ⟨p.row.table, proposed, before.join, p.mutation.origin⟩ (current.map StoredRow.data)
  refine (decideResolution_demands (rowExprs (registry.table p.row.table) proposed) current _).bind
    (fun fault later rest h => ?_) fun decision later rest h => .pure ?_
  · obtain ⟨hnone, rfl, hdemanded⟩ := h
    rw [← hdemanded] at hwrites
    exact ⟨rfl, hwrites.append_noMerge hnone⟩
  · obtain ⟨hnone, rfl, hdemanded⟩ := h
    rw [← hdemanded] at hwrites
    rw [List.append_nil, List.append_nil]
    exact ⟨rfl, hwrites.append_noMerge hnone⟩

theorem decideWrite_demands (proposed : Document) (known : MappedBefore) :
    Leaves WatchedStore.handed (Demands registry p.row proposed)
      (decideWrite registry source p proposed known : Run (WatchedStore σ) _) := by
  unfold decideWrite
  split
  · exact decideCas_demands proposed known
  · exact .pure ⟨rfl, .of_names noMerge_nil fun _ h => h⟩

/-- A write is handed to the store once, whatever becomes of it. -/
theorem writeRow_handed (id : RowId) (w : RowWrite) (expected : ExpectedVersion) :
    Leaves WatchedStore.handed (fun _ calls more => calls = [] ∧ more = [(id, w)])
      (Run.store (TargetStore.writeRow id w expected) : Run (WatchedStore σ) _) :=
  ⟨fun _ => ⟨[], [(id, w)], (List.append_nil _).symm, rfl, rfl, rfl⟩⟩

theorem upsertWithin_writes {row : MappedRow} (hrow : row.exprs = rowExprs (registry.table p.row.table) row.row)
    (total attempts : Nat) (known : MappedBefore) :
    Leaves WatchedStore.handed
      (fun _ => WritesFrom (registry.table p.row.table) registry.options.functionTimeout p.row row.row)
      (upsertWithin registry source p row total attempts known : Run (WatchedStore σ) _) := by
  induction attempts generalizing known with
  | zero => exact .throw (.of_noMerge noMerge_nil)
  | succ attempts ih =>
    unfold upsertWithin
    refine (decideWrite_demands row.row known).bind (fun fault calls more h => ?_) ?_
    · obtain ⟨rfl, hwrites⟩ := h
      exact hwrites
    · rintro ⟨decision, known'⟩ calls more ⟨rfl, hwrites⟩
      cases decision with
      | settled disposition =>
        refine .pure ?_
        rw [List.append_nil]
        exact hwrites
      | write data expected =>
        rw [hrow]
        -- the write that follows comes from the calls up to here
        refine (writeRow_handed ..).bind (fun fault later rest hw => ?_) fun outcome later rest hw => ?_
        · obtain ⟨rfl, rfl⟩ := hw
          rw [List.append_nil]
          exact hwrites
        · obtain ⟨rfl, rfl⟩ := hw
          cases outcome with
          | written =>
            refine .pure ?_
            rw [List.append_nil, List.append_nil]
            exact hwrites
          | versionMismatch =>
            refine (ih known').mono fun r later rest hlater => ?_
            exact hwrites.append hlater

theorem applyUpsert_writes {row : MappedRow} (hrow : row.exprs = rowExprs (registry.table p.row.table) row.row) :
    Leaves WatchedStore.handed
      (fun _ => WritesFrom (registry.table p.row.table) registry.options.functionTimeout p.row row.row)
      (applyUpsert registry source p row : Run (WatchedStore σ) _) := upsertWithin_writes hrow _ _ none

end

/-- A write has a value for each column with an expression, or it is the answer of a merge function to one of the
calls, with the expressions for the row that was proposed in it. -/
def explained (registry : Registry) : WriteProperty where
  Holds calls id w := w.Supplied ∨ ∃ given, .merge given ∈ calls ∧
    w.exprs = rowExprs (registry.table id.table) given.proposed ∧
    (registry.table id.table).Answers registry.options.functionTimeout given w.data
  grow hcalls h := by
    refine h.imp_right ?_
    rintro ⟨given, hin, hgiven⟩
    exact ⟨given, hcalls hin, hgiven⟩

theorem applyUpsert_explained {σ : Type} [TargetStore σ] (registry : Registry) :
    AllUpserts σ registry (explained registry) := by
  intro source p row hrow
  refine (applyUpsert_writes hrow).mono fun r calls more hwrites => ⟨fun e he => ?_, .trivially r⟩
  obtain ⟨hid, hexprs⟩ := hwrites.carries e he
  refine (hwrites.origin e he).imp_right ?_
  rintro ⟨given, hin, hgiven, hanswer⟩
  refine ⟨given, hin, ?_, ?_⟩
  · rw [hexprs, hid, hgiven]
  · rw [hid]
    exact hanswer

/-- A column with an expression lacks a value in a write of a batch only where the write is what a merge function
answered that was called in the batch. The writes of one upsert all have their values exactly if all functions that
were called for it answered with rows that have the columns with expressions of the upsert. -/
theorem expressions_have_values_unless_answered_away {σ : Type} [TargetStore σ] (registry : Registry) :
    (∀ (clock : Clock) (source : String) (arrangement : Arrangement) (batch : List Mutation) (s : Session σ),
        let after := ((processArranged registry clock source arrangement batch).exec s.watched).2
        ∀ e ∈ after.handed, e.2.Supplied ∨ ∃ given, .merge given ∈ after.trace.calls.drop s.trace.calls.length ∧
          e.2.exprs = rowExprs (registry.table e.1.table) given.proposed ∧
          (registry.table e.1.table).Answers registry.options.functionTimeout given e.2.data) ∧
      ∀ (source : String) (p : Prepared) (proposed : Document) (s : Session (WatchedStore σ)),
        let config := registry.table p.row.table
        let after := ((applyUpsert registry source p ⟨proposed, rowExprs config proposed⟩).exec s).2
        (∀ e ∈ after.handed.drop s.handed.length, e.2.Supplied) ↔
          ∀ given answer, .merge given ∈ after.trace.calls.drop s.trace.calls.length →
            config.Answers registry.options.functionTimeout given answer →
            RowWrite.Supplied ⟨answer, rowExprs config proposed⟩ := by
  constructor
  · intro clock source arrangement batch s
    exact processArranged_hands (applyUpsert_explained registry) clock source arrangement batch s
  · intro source p proposed s config after
    have hrow : MappedRow.exprs ⟨proposed, rowExprs config proposed⟩ = rowExprs config proposed := rfl
    obtain ⟨calls, more, hcalls, hmore, hwrites⟩ := (applyUpsert_writes hrow).left s
    have hcalled : after.trace.calls = s.trace.calls ++ calls := hcalls
    have hhanded : after.handed = s.handed ++ more := hmore
    rw [hcalled, hhanded, List.drop_left, List.drop_left]
    exact hwrites.exact

namespace Example

/-- A merge function that has the same answer to everything. -/
def always (answer : Document) : MergeFunction := fun _ =>
  ⟨0, .value (Document.ofList [("apply", answer.toValue)]).toValue⟩

/-- A registry that has an expression for payments. -/
def negating (answer : Document) : Registry :=
  ⟨.default, Keyed.empty.put "orders" feed, Keyed.empty.put orders.name
    { TableConfig.plain with
      cas := ["paid"], exprs := [("paid", "not $0")], merge := some (.custom (always answer)) }⟩

/-- What a batch that would take back the payment leaves. -/
def negated (answer : Document) : Session (WatchedStore MemoryStore) :=
  ((processBatch (negating answer) default "orders" [change false true]).exec settledUp.watched).2

/-- What its upsert alone leaves. -/
def retracted (answer : Document) : Session (WatchedStore MemoryStore) :=
  ((applyUpsert (negating answer) "orders" refund
    ⟨content false, rowExprs ((negating answer).table refund.row.table) (content false)⟩).exec settledUp.watched).2

/-- What is written to the row. -/
def overruling (answer : Document) : RowWrite := ⟨answer, [("paid", "not $0")]⟩

theorem empty_answer_is_handed : (order, overruling .empty) ∈ (negated .empty).handed := by decide +kernel

theorem empty_answer_lacks_payment : ¬ (overruling .empty).Supplied := by decide +kernel

theorem runMerge_always (timeout : Span) (answer : Document) (given : MergeOperation) :
    (runMerge timeout (always answer) given).attempt.value = .ok (.apply answer) := by
  have hget (name : String) : (Document.ofList [("apply", answer.toValue)]).get? name =
      if name = "apply" then some answer.toValue else none := Document.get?_insert ..
  have hset : MergeResult.Sets (Document.ofList [("apply", answer.toValue)]) "apply" answer.toValue := by
    refine ⟨fun other hother => ?_, by rw [hget, if_pos rfl], Value.noConfusion, fun other rest hne hrest => ?_⟩
    · rw [Document.contains, hget] at hother
      split at hother
      · next hname =>
        rw [hname]
        decide
      · cases hother
    · rw [hget, if_neg hne] at hrest
      cases hrest
  refine (runMerge_eq_ok_iff ..).2 ⟨by simp [always], _, rfl, ?_⟩
  exact .apply (Document.ofValue?_toValue _) hset (Document.ofValue?_toValue _)

theorem negating_answers {given : MergeOperation} {answer other : Document}
    (h : ((negating answer).table orders.name).Answers (negating answer).options.functionTimeout given other) :
    other = answer := by
  have hmerge : ((negating answer).table orders.name).function? = some (always answer) := rfl
  have hvalue := (TableConfig.answers_iff hmerge).1 h
  rw [runMerge_always] at hvalue
  cases hvalue
  rfl

end Example

/-- An empty answer takes the payment away, and so it must be the answer of a merge function. The answer that keeps
the payment leaves a value for its expression. -/
theorem only_answer_takes_payment_away :
    ((Example.order, Example.overruling .empty) ∈ (Example.negated .empty).handed ∧ ∃ given,
        .merge given ∈ (Example.negated .empty).trace.calls ∧
        ((Example.negating .empty).table Example.orders.name).Answers
          (Example.negating .empty).options.functionTimeout given .empty) ∧
      (Example.order, Example.overruling (Example.content true)) ∈ (Example.retracted (Example.content true)).handed ∧
        ∀ e ∈ (Example.retracted (Example.content true)).handed, e.2.Supplied := by
  refine ⟨⟨Example.empty_answer_is_handed, ?_⟩, by decide +kernel, ?_⟩
  · have hexplained := (expressions_have_values_unless_answered_away (σ := MemoryStore) (Example.negating .empty)).1
      default "orders" .asFound [Example.change false true] Example.settledUp _ Example.empty_answer_is_handed
    obtain ⟨given, hcalled, -, hanswer⟩ := hexplained.resolve_left Example.empty_answer_lacks_payment
    exact ⟨given, hcalled, hanswer⟩
  · refine ((expressions_have_values_unless_answered_away (σ := MemoryStore)
      (Example.negating (Example.content true))).2 "orders" Example.refund (Example.content false)
      Example.settledUp.watched).2 fun given answer _ hanswer => ?_
    obtain rfl := Example.negating_answers hanswer
    decide +kernel

/-- The empty answer is written with the expression for payments, which has no value to work on. -/
theorem empty_answer_is_written_with_expression :
    ((Example.order, Example.overruling .empty) ∈ (Example.negated .empty).handed ∧
        ¬ (Example.overruling .empty).Supplied) ∧
      ¬ ∀ (registry : Registry) (clock : Clock) (source : String) (batch : List Mutation) (s : Session MemoryStore),
        ∀ e ∈ ((processBatch registry clock source batch).exec s.watched).2.handed, e.2.Supplied := by
  refine ⟨⟨Example.empty_answer_is_handed, Example.empty_answer_lacks_payment⟩, fun hclaimed => ?_⟩
  exact Example.empty_answer_lacks_payment (hclaimed (Example.negating .empty) default "orders"
    [Example.change false true] Example.settledUp _ Example.empty_answer_is_handed)

end Tributary
