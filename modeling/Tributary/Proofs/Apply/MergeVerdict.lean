import Tributary.Proofs.Apply.Alone
import Tributary.Proofs.Apply.Calls
import Tributary.Proofs.Apply.DeadLetters
import Tributary.Proofs.Merge.Verdict

/-!
# What becomes of a merge's verdict

On a store in memory, an upsert whose merge function is called ends as the function decides, and where it decides
nothing the upsert is parked. A call decides nothing if it fails, panics or takes too long, or if its value stands
for no result.

* `overwriting_given`: where the function is called, what it says is all that matters to the rest of the upsert.
* `Obeyed`: the outcome and the store that suit the result of a call.
* `merge_verdict_is_obeyed`: the outcome and the store in terms of what the function said.
-/

namespace Tributary

open Run

variable {registry : Registry} {source : String} {p : Prepared} {row : MappedRow} {strategy : MergeStrategy}
  {merge : MergeFunction} {given : MergeOperation}

/-! ## The call -/

/-- The function is called for the stored row, which is in conflict, and it alone decides. -/
theorem resolveOn_given (hstrategy : (registry.table p.row.table).merge = some strategy)
    (hfunction : strategy.function? = some merge) (proposed : Document) (target : Option Document) :
    Leaves MemoryStore.letters (fun r calls _ => ∀ given, .merge given ∈ calls →
        target = some given.target ∧ given.proposed = proposed ∧
          r = .ok (.ofResult { given with unmerged := [] }
            (runMerge registry.options.functionTimeout merge given).attempt.value))
      (resolveOn registry p proposed target) := by
  have hbefore : Quiet MemoryStore.letters (refreshBefore registry p proposed target none : Run MemoryStore _) :=
    refreshBefore_quiet MemoryStore.keepsLetters.tableSchema proposed target none
  refine Leaves.bind hbefore (fun fault calls more h => ?_)
    fun before calls more h => (Leaves.logged _).mono fun r later rest hr => ?_
  · intro given hgiven
    exact absurd hgiven (h.1 given)
  · obtain ⟨rfl, rfl, -⟩ := hr
    intro given hgiven
    rcases List.mem_append.1 hgiven with hgiven | hgiven
    · exact absurd hgiven (h.1 given)
    · obtain ⟨-, stored, rfl, hop⟩ := resolve_given hgiven
      have htarget : given.target = stored := congrArg MergeOperation.target hop
      have hproposed : given.proposed = proposed := congrArg MergeOperation.proposed hop
      exact ⟨by rw [htarget], hproposed, congrArg Except.ok (resolve_of_given hstrategy hfunction hgiven).1⟩

theorem steady_store : Steady fun s : Session MemoryStore => s.store :=
  ⟨fun _ => ⟨fun _ => rfl⟩, fun _ _ => ⟨fun _ => rfl⟩, fun _ _ _ => rfl⟩

theorem resolveOn_keeps (registry : Registry) (p : Prepared) (proposed : Document) (target : Option Document) :
    Keeps (fun s : Session MemoryStore => s.store) (resolveOn registry p proposed target) :=
  (refreshBefore_keeps steady_store ..).bind fun _ => steady_store.logged (resolve_silent ..)

theorem carryOut_callsNothing (decision : Decision) (s : Session MemoryStore) :
    CallsNothing (carryOut p row decision) s := by
  cases decision with
  | settled disposition => exact .pure rfl
  | write data expected => exact CallsNothing.then_pure (.store rfl) _

/-- What a resolution comes to. -/
def settle (registry : Registry) (source : String) (p : Prepared) (row : MappedRow) (resolution : Resolution) :
    Run MemoryStore Disposition :=
  decideResolution registry source p none resolution >>= carryOut p row

theorem settle_callsNothing (resolution : Resolution) (s : Session MemoryStore) :
    CallsNothing (settle registry source p row resolution) s := by
  refine (decideResolution_callsNothing none resolution).bind (fun _ _ h => h) fun decision calls t h _ => ?_
  rw [h]
  exact carryOut_callsNothing decision t

theorem overwriting_callsNothing (hcas : (registry.table p.row.table).isCas = false) (s : Session MemoryStore) :
    CallsNothing (overwriting registry source p row) s := by
  have hplain : overwriting registry source p row =
      (readData p.row >>= fun _ => carryOut p row (.write row.row .any)) := by
    unfold overwriting carryOut
    refine bind_congr fun target => ?_
    rw [decideData, hcas]
    rfl
  rw [hplain]
  have hread : CallsNothing (readData p.row) s := .of_exec (readData_exec p.row s) rfl rfl rfl
  refine hread.bind (fun _ _ h => h) fun _ calls t h _ => ?_
  rw [h]
  exact carryOut_callsNothing _ t

/-- Where a merge function is called, it is called for the stored row, and what it says is all that matters to the
rest of the upsert. -/
theorem overwriting_given (hstrategy : (registry.table p.row.table).merge = some strategy)
    (hfunction : strategy.function? = some merge) {s : Session MemoryStore}
    (hgiven : .merge given ∈ ((overwriting registry source p row).exec s).2.trace.calls.drop s.trace.calls.length) :
    s.store.row? p.row = some given.target ∧ given.proposed = row.row ∧ ∃ t : Session MemoryStore,
      t.store = s.store ∧ (overwriting registry source p row).exec s =
        (settle registry source p row (.ofResult { given with unmerged := [] }
          (runMerge registry.options.functionTimeout merge given).attempt.value)).exec t := by
  by_cases hcas : (registry.table p.row.table).isCas = true
  · obtain ⟨calls, more, hcalls, -, hcalled⟩ :=
      (resolveOn_given hstrategy hfunction row.row (s.store.row? p.row)).left s
    have hkept := (resolveOn_keeps registry p row.row (s.store.row? p.row)).kept s
    have hexec : (overwriting registry source p row).exec s =
        (resolveOn registry p row.row (s.store.row? p.row) >>= settle registry source p row).exec s := by
      rw [overwriting_eq p row hcas, exec_bind_of_ok (readData_exec p.row s)]
      rfl
    rw [exec_bind] at hexec
    rw [hexec] at hgiven ⊢
    generalize (resolveOn registry p row.row (s.store.row? p.row)).exec s = r at hcalls hcalled hkept hgiven ⊢
    obtain ⟨result, t⟩ := r
    cases result with
    | error fault =>
      rw [hcalls, List.drop_left] at hgiven
      cases (hcalled given hgiven).2.2
    | ok resolution =>
      have hsettle : CallsNothing (settle registry source p row resolution) t := settle_callsNothing resolution t
      obtain ⟨later, hlater, -, rfl⟩ := hsettle
      dsimp only at hgiven hcalls
      rw [hlater, List.append_nil, hcalls, List.drop_left] at hgiven
      obtain ⟨htarget, hproposed, hresolution⟩ := hcalled given hgiven
      cases hresolution
      exact ⟨htarget, hproposed, t, hkept, rfl⟩
  · have hplain : CallsNothing (overwriting registry source p row) s :=
      overwriting_callsNothing (Bool.eq_false_iff.2 hcas) s
    obtain ⟨calls, hcalls, -, rfl⟩ := hplain
    rw [hcalls, List.append_nil, List.drop_length] at hgiven
    cases hgiven

/-! ## The outcome -/

/-- The outcome of an upsert and the store behind it suit the result of the call of its merge function. -/
def Obeyed (registry : Registry) (source : String) (p : Prepared) (given : MergeOperation) (s t : MemoryStore)
    (disposition : Disposition) : Result MergeResult → Prop
  | .ok (.apply document) => disposition = .applied ∧ t.row? p.row = some (given.target.overlay document) ∧
      (∀ other : RowId, other.address ≠ p.row.address → t.row? other = s.row? other) ∧ t.letters = s.letters
  | .ok (.park queue) => disposition = .parked queue ∧
      t = (MemoryStore.park (p.letter source queue { given with unmerged := [] } none) s).2
  | .ok .drop => disposition = .dropped .mergeDropped ∧ t = s
  | .error fault => disposition = .parked registry.options.defaultDlq ∧
      t = (MemoryStore.park (p.letter source registry.options.defaultDlq { given with unmerged := [] }
        (some fault.text)) s).2

theorem settle_obeyed (registry : Registry) (source : String) (row : MappedRow) {s : Session MemoryStore}
    (hrow : s.store.row? p.row = some given.target)
    (htable : s.store.hasTable p.row.table = true) {result : Result MergeResult}
    (hparked : ∀ fault, result = .error fault → fault.Parked) :
    ∃ disposition t, (settle registry source p row (.ofResult { given with unmerged := [] } result)).exec s =
        (.ok disposition, t) ∧ Obeyed registry source p given s.store t.store disposition result := by
  cases result with
  | error fault =>
    have haction : fault.action = .park := hparked fault rfl
    let letter := p.letter source registry.options.defaultDlq { given with unmerged := [] } (some fault.text)
    have hsettle : settle registry source p row (.failed fault { given with unmerged := [] }) =
        (do park letter
            return .parked registry.options.defaultDlq) := by
      simp [settle, decideResolution, handleFailure, haction, carryOut, Prepared.letter, letter]
    refine ⟨.parked registry.options.defaultDlq, { s with store := (MemoryStore.park letter s.store).2 }, ?_, rfl,
      rfl⟩
    show (settle registry source p row (.failed fault _)).exec s = _
    rw [hsettle]
    rfl
  | ok decision =>
    cases decision with
    | park queue => exact ⟨.parked queue, _, rfl, rfl, rfl⟩
    | drop => exact ⟨.dropped .mergeDropped, s, rfl, rfl, rfl⟩
    | apply document =>
      have hwrite := overwriteRow_exec p.row ⟨document, row.exprs⟩ s
      rw [if_pos htable] at hwrite
      refine ⟨.applied, { s with store := s.store.overwritten p.row ⟨document, row.exprs⟩ }, exec_bind_of_ok hwrite,
        rfl, ?_, fun other hother => ?_, MemoryStore.letters_overwritten ..⟩
      · show (s.store.overwritten p.row ⟨document, row.exprs⟩).row? p.row = _
        rw [MemoryStore.row?_overwritten, if_pos rfl, hrow]
        rfl
      · show (s.store.overwritten p.row ⟨document, row.exprs⟩).row? other = _
        rw [MemoryStore.row?_overwritten, if_neg hother]

/-! ## The report -/

theorem disposeOf_callsNothing (result : Result Disposition) (s : Session MemoryStore) :
    CallsNothing (disposeOf registry source p result) s := by
  cases result with
  | ok disposition => exact .pure rfl
  | error fault => exact handleFailure_callsNothing ..

theorem report_callsNothing (index : Nat) (table : Option TableName) (key : Option RowKey) (disposition : Disposition)
    (s : Session MemoryStore) : CallsNothing (report index table key disposition) s :=
  ⟨[], rfl, rfl, rfl⟩

/-- Disposing of a mutation and reporting what became of it calls nothing. -/
theorem applyGroup_calls (s : Session MemoryStore) :
    ((applyGroup registry source [p]).exec s).2.trace.calls =
      ((applyPrepared registry source p).exec s).2.trace.calls := by
  generalize hresult : ((applyPrepared registry source p).exec s).1 = result
  generalize ht : ((applyPrepared registry source p).exec s).2 = t
  have hattempt : (applyPrepared registry source p).attempt.exec s = (.ok result, t) := by
    rw [exec_attempt, hresult, ht]
  have hrest : CallsNothing (do
      let disposition ← disposeOf registry source p result
      let outcome ← report p.placed.index (some p.row.table) (some p.key) disposition
      pure (p.placed.number, outcome)) t := by
    refine (disposeOf_callsNothing result t).bind (fun _ _ h => h) fun disposition calls u h _ => ?_
    rw [h]
    exact (report_callsNothing ..).then_pure _
  obtain ⟨calls, hcalls, -, rfl⟩ := hrest.then_pure fun first => [first]
  rw [applyGroup_singleton, applyOne, bind_assoc, exec_bind_of_ok hattempt, hcalls, List.append_nil]

/-- An upsert whose merge function is called for the stored row ends as the function says. A document is laid over
the row, and nothing else is changed. A queue gets the one letter for the upsert, without an error, and no row is
changed. Dropping the upsert changes nothing at all. Where the function says none of these in time, the upsert is
parked in the default queue with one letter, which has an error, and no row is changed. -/
theorem merge_verdict_is_obeyed (registry : Registry) (source : String) {p : Prepared} {row : MappedRow}
    (haction : p.action = .upsert row) {strategy : MergeStrategy} {merge : MergeFunction}
    (hstrategy : (registry.table p.row.table).merge = some strategy) (hfunction : strategy.function? = some merge)
    {s : Session MemoryStore} (hs : Reachable s.store) {given : MergeOperation}
    (hgiven : .merge given ∈ ((applyGroup registry source [p]).exec s).2.trace.calls.drop s.trace.calls.length) :
    let verdict := (merge given).Says registry.options.functionTimeout
    let letter := fun queue => p.letter source queue { given with unmerged := [] }
    s.store.row? p.row = some given.target ∧ given.proposed = row.row ∧ ∃ disposition t,
      (applyGroup registry source [p]).exec s =
          (.ok [(p.placed.number, ⟨p.placed.index, some p.row.table, some p.key, disposition⟩)], t) ∧
        (∀ document, verdict (.apply document) → disposition = .applied ∧
          t.store.row? p.row = some (given.target.overlay document) ∧
          (∀ other : RowId, other.address ≠ p.row.address → t.store.row? other = s.store.row? other) ∧
          t.store.letters = s.store.letters) ∧
        (∀ queue, verdict (.park queue) → disposition = .parked queue ∧
          t.store = { s.store with letters := s.store.letters ++ [letter queue none] }) ∧
        (verdict .drop → disposition = .dropped .mergeDropped ∧ t.store = s.store) ∧
        ((∀ result, ¬ verdict result) → disposition = .parked registry.options.defaultDlq ∧ ∃ error,
          t.store = { s.store with
            letters := s.store.letters ++ [letter registry.options.defaultDlq (some error)] }) := by
  intro verdict letter
  have happlied : (applyPrepared registry source p : Run MemoryStore _) =
      if registry.options.attempts = 0 then throw p.unattempted else overwriting registry source p row :=
    applyPrepared_of_upsert source haction
  -- without an attempt nothing is called
  have hattempts : registry.options.attempts ≠ 0 := by
    intro hnone
    rw [applyGroup_calls, happlied, if_pos hnone, exec_throw, List.drop_length] at hgiven
    cases hgiven
  have hexec : (applyPrepared registry source p).exec s = (overwriting registry source p row).exec s := by
    rw [happlied, if_neg hattempts]
  rw [applyGroup_calls, hexec] at hgiven
  obtain ⟨hrow, hproposed, u, hstore, hsettle⟩ := overwriting_given hstrategy hfunction hgiven
  refine ⟨hrow, hproposed, ?_⟩
  have htable : s.store.hasTable p.row.table = true := by
    obtain ⟨stored, hstored, -⟩ := Option.map_eq_some_iff.1 hrow
    exact hs.rowsHaveTables p.row stored hstored
  have hparked : ∀ fault, (runMerge registry.options.functionTimeout merge given).attempt.value = .error fault →
      fault.Parked := by
    intro fault hfault
    have hwithin : Result.Within Fault.Parked (fun _ => True)
        (runMerge registry.options.functionTimeout merge given).attempt.value := (runMerge_within merge given).result
    rwa [hfault] at hwithin
  rw [← hstore] at hrow htable
  obtain ⟨disposition, t, hdone, hobeyed⟩ := settle_obeyed registry source row hrow htable hparked
  refine ⟨disposition, _, applyGroup_of_applied (hexec.trans (hsettle.trans hdone)), ?_⟩
  rw [hstore] at hobeyed
  have hvalue (result : MergeResult) := runMerge_eq_ok_iff registry.options.functionTimeout merge given result
  refine ⟨fun document h => ?_, fun queue h => ?_, fun h => ?_, fun hnone => ?_⟩
  · rw [(hvalue _).2 h] at hobeyed
    exact hobeyed
  · rw [(hvalue _).2 h] at hobeyed
    exact hobeyed
  · rw [(hvalue _).2 h] at hobeyed
    exact hobeyed
  · cases hfault : (runMerge registry.options.functionTimeout merge given).attempt.value with
    | ok result => exact absurd ((hvalue result).1 hfault) (hnone result)
    | error fault =>
      rw [hfault] at hobeyed
      exact ⟨hobeyed.1, fault.text, hobeyed.2⟩

namespace Example

/-- A registry in which all conflicts get the same answer. -/
def answered (answer : Document) : Registry :=
  ⟨.default, Keyed.empty.put "orders" feed, Keyed.empty.put orders.name
    { TableConfig.plain with cas := ["paid"], merge := some (.custom fun _ => ⟨0, .value answer.toValue⟩) }⟩

/-- What the function is given. -/
def dispute : MergeOperation := ⟨none, .empty, content false, content true, []⟩

/-- What becomes of the upsert. -/
def answeredRefund (answer : Document) : Result Numbered × Session MemoryStore :=
  (applyGroup (answered answer) "orders" [refund]).exec settledUp

/-- A queue, beside a property that is not set. -/
def toReview : Document := .ofList [("apply", .null), ("dlq", .string "review")]

/-- A queue and a decision to drop. -/
def undecided : Document := .ofList [("dlq", .string "review"), ("drop", .bool true)]

end Example

/-- One answer names a queue and is obeyed. The other one also drops the upsert, so that it is no answer. -/
theorem only_one_answer_is_obeyed :
    (∃ t, Example.answeredRefund Example.toReview =
        (.ok [(0, ⟨0, some Example.orders.name, some ⟨[.bool true]⟩, .parked "review"⟩)], t) ∧
      t.store.letters.map DeadLetter.error = [none]) ∧
    ∃ t error, Example.answeredRefund Example.undecided =
        (.ok [(0, ⟨0, some Example.orders.name, some ⟨[.bool true]⟩, .parked "dlq"⟩)], t) ∧
      t.store.letters.map DeadLetter.error = [some error] := by
  have hreachable : Reachable Example.settledUp.store := ⟨_, rfl⟩
  constructor
  · have hgiven : .merge Example.dispute ∈ (Example.answeredRefund Example.toReview).2.trace.calls.drop
        Example.settledUp.trace.calls.length := by decide +kernel
    obtain ⟨-, -, disposition, t, hexec, -, hpark, -, -⟩ :=
      merge_verdict_is_obeyed (Example.answered Example.toReview) "orders" rfl rfl rfl hreachable hgiven
    have hset : MergeResult.Sets Example.toReview "dlq" (.string "review") :=
      .of_properties (MergeResult.find?_unknown_eq_none_iff.1 (by decide +kernel)) (by decide +kernel)
        (by decide +kernel)
    obtain ⟨rfl, hstore⟩ := hpark "review"
      ⟨by decide, _, rfl, .park (Document.ofValue?_toValue _) hset ⟨'r', by decide, by decide⟩⟩
    exact ⟨t, hexec, by rw [hstore]; rfl⟩
  · have hgiven : .merge Example.dispute ∈ (Example.answeredRefund Example.undecided).2.trace.calls.drop
        Example.settledUp.trace.calls.length := by decide +kernel
    obtain ⟨-, -, disposition, t, hexec, -, -, -, hnone⟩ :=
      merge_verdict_is_obeyed (Example.answered Example.undecided) "orders" rfl rfl rfl hreachable hgiven
    have hqueue : MergeResult.property? Example.undecided "dlq" = some (.string "review") := by decide +kernel
    have hdrop : MergeResult.property? Example.undecided "drop" = some (.bool true) := by decide +kernel
    have hnothing (result : MergeResult) : ¬ MergeResult.Stands Example.undecided.toValue result :=
      MergeResult.not_stands_of_two (by decide) hqueue hdrop result
    obtain ⟨rfl, error, hstore⟩ := hnone fun result ⟨_, v, hv, hstands⟩ => by
      cases hv
      exact hnothing result hstands
    exact ⟨t, error, hexec, by rw [hstore]; rfl⟩

end Tributary
