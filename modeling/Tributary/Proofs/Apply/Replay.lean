import Tributary.Proofs.Apply.Alone
import Tributary.Proofs.Apply.Attempts
import Tributary.Proofs.Apply.MergeVerdict
import Tributary.Proofs.Merge.Standard

/-!
# Merged upserts that come again

The standard merge applies an upsert only if it leaves the proposal as a part of the row. When the same upsert comes
again it therefore repeats what is stored, so that there is nothing to merge any more, however the two rows compare
as versions.

* `applyPrepared_merged`: an upsert that the standard merge has applied is a part of its row from then on.
* `applyPrepared_repeated`: an upsert that repeats a part of its row is written as it is, whatever the merge of the
  table.
* `prepare_uncounted`: preparing a mutation counts nothing unless it fails.
* `processBatch_merged`, `processBatch_repeated`: the same for a batch of one, from its source on.
* `merged_upsert_is_a_replay`: the batch that was merged, and the same batch at once behind it.
-/

namespace Tributary

open Run

/-! ## The first time -/

section

variable {registry : Registry} {source : String} {p : Prepared} {row : MappedRow} {target : Document}
  {s t : Session MemoryStore}

theorem resolveOn_standard (hmerge : (registry.table p.row.table).merge = some (.standard none))
    (hconflict : conflicts (registry.table p.row.table).cas row.row target = true) {resolution : Resolution}
    (h : (resolveOn registry p row.row (some target)).exec s = (.ok resolution, t)) :
    ∃ op : MergeOperation, op.proposed = row.row ∧ op.target = target ∧
      (op.Mergeable ∧ resolution = .apply (standardMerge op).merged ∨ resolution = .park unmergedQueue op) := by
  obtain ⟨before, u, -, hlogged⟩ := exec_bind_ok h
  cases hlogged
  refine ⟨⟨before.join, p.mutation.origin, row.row, target, []⟩, rfl, rfl, ?_⟩
  rw [resolve, if_pos hconflict, resolveConflict, hmerge]
  dsimp only [Proposal.operation, MergeStrategy.run]
  by_cases hmergeable : (⟨before.join, p.mutation.origin, row.row, target, []⟩ : MergeOperation).Mergeable
  · rw [runStandard_of_mergeable none hmergeable]
    exact .inl ⟨hmergeable, rfl⟩
  · rw [runStandard_of_not_mergeable hmergeable]
    exact .inr rfl

theorem settle_apply {data : Document} {disposition : Disposition}
    (h : (settle registry source p row (.apply data)).exec s = (.ok disposition, t)) :
    s.store.hasTable p.row.table = true ∧
      t = { s with store := s.store.overwritten p.row ⟨data, row.exprs⟩ } := by
  obtain ⟨outcome, u, hwrite, hdone⟩ := exec_bind_ok (x := overwriteRow p.row ⟨data, row.exprs⟩) h
  rw [overwriteRow_exec] at hwrite
  by_cases htable : s.store.hasTable p.row.table = true
  · rw [if_pos htable] at hwrite
    cases hwrite
    cases hdone
    exact ⟨htable, rfl⟩
  · rw [if_neg htable] at hwrite
    cases hwrite

theorem overwriting_merged (hcas : (registry.table p.row.table).isCas = true)
    (hmerge : (registry.table p.row.table).merge = some (.standard none))
    (hrow : s.store.row? p.row = some target)
    (hconflict : conflicts (registry.table p.row.table).cas row.row target = true)
    (h : (overwriting registry source p row).exec s = (.ok .applied, t)) :
    s.store.hasTable p.row.table = true ∧ ∃ op : MergeOperation, op.proposed = row.row ∧ op.target = target ∧
      op.Mergeable ∧ t.store = s.store.overwritten p.row ⟨(standardMerge op).merged, row.exprs⟩ := by
  rw [overwriting_eq p row hcas, exec_bind_of_ok (readData_exec p.row s), hrow] at h
  obtain ⟨resolution, u, hresolve, hsettle⟩ := exec_bind_ok h
  obtain ⟨op, hproposed, htarget, hresolution⟩ := resolveOn_standard hmerge hconflict hresolve
  have hkept : u.store = s.store := by
    rw [← (resolveOn_keeps registry p row.row (some target)).kept s, hresolve]
  rcases hresolution with ⟨hmergeable, rfl⟩ | rfl
  · obtain ⟨htable, rfl⟩ := settle_apply hsettle
    rw [hkept] at htable
    exact ⟨htable, op, hproposed, htarget, hmergeable, by rw [hkept]⟩
  · -- what could not be merged is parked, and so not applied
    cases hsettle

/-- An upsert that the standard merge has applied is a part of its row from then on. -/
theorem applyPrepared_merged (haction : p.action = .upsert row) (hcas : (registry.table p.row.table).isCas = true)
    (hmerge : (registry.table p.row.table).merge = some (.standard none)) (hrow : s.store.row? p.row = some target)
    (hconflict : conflicts (registry.table p.row.table).cas row.row target = true)
    (h : (applyPrepared registry source p).exec s = (.ok .applied, t)) :
    registry.options.attempts ≠ 0 ∧ s.store.hasTable p.row.table = true ∧ t.store.rowExprs p.row = row.exprs ∧
      ∃ merged, t.store.row? p.row = some merged ∧ row.row.subsetOf merged = true := by
  rw [applyPrepared_of_upsert source haction] at h
  have hattempts : registry.options.attempts ≠ 0 := by
    intro hnone
    rw [if_pos hnone] at h
    cases h
  rw [if_neg hattempts] at h
  obtain ⟨htable, op, hproposed, rfl, hmergeable, hstore⟩ := overwriting_merged hcas hmerge hrow hconflict h
  rw [hstore, MemoryStore.rowExprs_overwritten, MemoryStore.row?_overwritten, if_pos rfl, hrow]
  refine ⟨hattempts, htable, rfl, op.target.overlay (standardMerge op).merged, rfl, ?_⟩
  rw [← hproposed, Document.subsetOf_iff]
  exact fun column value => proposed_of_overlay_merged hmergeable

end

/-! ## The second time -/

section

variable {registry : Registry} {p : Prepared} {row : MappedRow} {stored : Document} {s : Session MemoryStore}

/-- An upsert that is attempted and repeats a part of its row is written as it is, whatever the merge of the table. -/
theorem applyPrepared_repeated (source : String) (haction : p.action = .upsert row)
    (hattempts : registry.options.attempts ≠ 0)
    (hcas : (registry.table p.row.table).isCas = true) (htable : s.store.hasTable p.row.table = true)
    (hrow : s.store.row? p.row = some stored) (hpart : row.row.subsetOf stored = true) :
    (applyPrepared registry source p).exec s =
      (.ok .applied, { s with store := s.store.overwritten p.row ⟨row.row, row.exprs⟩ }) := by
  obtain ⟨current, hcurrent, rfl⟩ := Option.map_eq_some_iff.1 hrow
  have hagrees : conflicts (registry.table p.row.table).cas row.row current.data = false := by
    rw [conflicts, hpart]
    rfl
  have hread : TargetStore.readRow p.row s.store = (.ok (some current), s.store) := by
    show (Except.ok (s.store.stored? p.row), s.store) = _
    rw [hcurrent]
  have hadmits : (ExpectedVersion.exactly current.version).admits
      ((s.store.stored? p.row).map StoredRow.version) = true := by
    rw [hcurrent]
    simp [ExpectedVersion.admits]
  have hwrite : TargetStore.writeRow p.row ⟨row.row, row.exprs⟩ (.exactly current.version) s.store =
      (.ok .written, s.store.overwritten p.row ⟨row.row, row.exprs⟩) := by
    refine (MemoryStore.writeRow_of_admits hadmits _).trans ?_
    rw [if_pos htable]
  rw [applyPrepared, haction]
  dsimp only
  obtain ⟨further, hfurther⟩ := Nat.exists_eq_succ_of_ne_zero hattempts
  rw [applyUpsert, hfurther, upsertWithin_succ,
    exec_bind_of_ok (attemptOnce_of_agreed source hcas hread hagrees hwrite)]
  rfl

end

/-! ## Successes that count nothing -/

namespace Logged.Fallible

variable {α β : Type}

/-- The computation counts nothing unless it fails. -/
structure Uncounted (x : Fallible α) : Prop where
  metrics : ∀ a, x.attempt.value = .ok a → x.attempt.trace.metrics = []

theorem Uncounted.pure (a : α) : Uncounted (pure a) := ⟨fun _ _ => rfl⟩

theorem Uncounted.throw (fault : Fault) : Uncounted (throw fault : Fallible α) := ⟨fun _ h => by cases h⟩

theorem Uncounted.result (r : Result α) : Uncounted (liftM r : Fallible α) := by
  refine ⟨fun _ _ => ?_⟩
  rw [attempt_result]
  rfl

theorem Uncounted.bind {x : Fallible α} {f : α → Fallible β} (hx : Uncounted x) (hf : ∀ a, Uncounted (f a)) :
    Uncounted (x >>= f) := by
  obtain ⟨hfirst⟩ := hx
  refine ⟨fun b hb => ?_⟩
  rw [attempt_bind] at hb ⊢
  generalize x.attempt = r at hfirst hb ⊢
  obtain ⟨result, trace⟩ := r
  cases result with
  | error fault => cases hb
  | ok a =>
    have hnothing : trace.metrics = [] := hfirst a rfl
    show trace.metrics ++ (f a).attempt.trace.metrics = []
    rw [hnothing, (hf a).metrics b hb]
    rfl

end Logged.Fallible

section

open Logged.Fallible

theorem invoke_uncounted (timeout : Span) (kind : FunctionKind) (call : Call) (reply : Reply) :
    Uncounted (invoke timeout kind call reply) := by
  unfold invoke
  refine Uncounted.bind ⟨fun _ _ => ?_⟩ fun _ => ?_
  · rw [attempt_logged]
    rfl
  · cases callFault? kind timeout reply with
    | none => exact .pure _
    | some fault =>
      -- the failure is counted, but the computation then fails with it
      refine ⟨fun a h => ?_⟩
      cases h

theorem mapRow_uncounted (config : TableConfig) (schema : Schema) (timeout : Span) (doc origin : Document) :
    Uncounted (mapRow config schema timeout doc origin) := by
  have hmap : Uncounted (mapDocument config timeout doc origin) := by
    unfold mapDocument
    cases config.map with
    | none => exact .pure _
    | some function =>
      refine (invoke_uncounted ..).bind fun v => ?_
      split
      · exact .pure _
      · exact .pure _
      · exact .throw _
  unfold mapRow
  refine hmap.bind fun mapped => ?_
  cases mapped with
  | none => exact .pure _
  | some doc => exact (Uncounted.result _).bind fun _ => .pure _

end

namespace Run

variable {σ α β : Type}

/-- The step counts nothing unless it fails. -/
structure Uncounted (x : Run σ α) : Prop where
  metrics : ∀ s a t, x.exec s = (.ok a, t) → t.trace.metrics = s.trace.metrics

theorem Uncounted.pure (a : α) : Uncounted (pure a : Run σ α) := by
  refine ⟨fun s b t h => ?_⟩
  cases h
  rfl

theorem Uncounted.throw (fault : Fault) : Uncounted (throw fault : Run σ α) := ⟨fun _ _ _ h => by cases h⟩

theorem Uncounted.liftM (r : Result α) : Uncounted (liftM r : Run σ α) := by
  refine ⟨fun s a t h => ?_⟩
  rw [exec_liftM] at h
  cases h
  rfl

theorem Uncounted.fallible {x : Logged.Fallible α} (hx : x.Uncounted) : Uncounted (fallible x : Run σ α) := by
  refine ⟨fun s a t h => ?_⟩
  have hvalue : x.attempt.value = .ok a := congrArg Prod.fst h
  obtain rfl : { s with trace := s.trace ++ x.attempt.trace } = t := congrArg Prod.snd h
  show s.trace.metrics ++ x.attempt.trace.metrics = s.trace.metrics
  rw [hx.metrics a hvalue, List.append_nil]

theorem Uncounted.bind {x : Run σ α} {f : α → Run σ β} (hx : Uncounted x) (hf : ∀ a, Uncounted (f a)) :
    Uncounted (x >>= f) := by
  refine ⟨fun s b u h => ?_⟩
  obtain ⟨a, t, hfirst, hrest⟩ := exec_bind_ok h
  exact ((hf a).metrics t b u hrest).trans (hx.metrics s a t hfirst)

end Run

/-- Preparing a mutation counts nothing unless it fails. -/
theorem prepare_uncounted {σ : Type} [TargetStore σ] (registry : Registry) (clock : Clock) (placed : Placed) :
    Run.Uncounted (prepare registry clock placed : Run σ _) := by
  have hschema (table : TableName) : Run.Uncounted (schemaOf table : Run σ _) :=
    ⟨fun _ _ _ h => congrArg Trace.metrics (schemaOf_ok h).1⟩
  unfold prepare
  split
  · refine (hschema _).bind fun schema => (Run.Uncounted.fallible (mapRow_uncounted ..)).bind fun mapped => ?_
    cases mapped with
    | none => exact .pure _
    | some row =>
      refine (Run.Uncounted.liftM _).bind fun expired => ?_
      cases expired with
      | some column => exact .pure _
      | none => exact (Run.Uncounted.liftM _).bind fun key => .pure _
  · split
    · exact .throw _
    · exact .pure _

/-! ## Batches of one -/

section

variable {registry : Registry} {clock : Clock} {source name : String} {table : TableName} {m : Mutation}
  {p : Prepared} {row : MappedRow} {s t : Session MemoryStore}

/-- Preparing a mutation that is ready leaves no trace but calls and the shape of its table. -/
theorem prepare_of_readyAt {placed : Placed} (hready : readyAt registry clock s placed = some p) :
    ∃ t, (prepare registry clock placed).exec s = (.ok (.ready p), t) ∧ s.SameTables t ∧ t.store = s.store ∧
      t.trace.metrics = s.trace.metrics := by
  have hprepare := exec_of_fst (readyAt_eq_some_iff.1 hready)
  obtain ⟨_, hfollows⟩ := (prepare_local registry clock placed).follows s
  exact ⟨_, hprepare, hfollows.tables, (prepare_keeps steady_store registry clock placed).kept s,
    (prepare_uncounted registry clock placed).metrics _ _ _ hprepare⟩

theorem table_of_readyAt (hready : readyAt registry clock s ⟨0, 0, table, m⟩ = some p) : p.row.table = table :=
  congrArg (fun placed => placed.routed.table) (placed_of_readyAt hready)

/-- The first time the mutation is merged. It is ready behind that as it was before, and its row has what it
proposes. -/
theorem processBatch_merged (hsource : registry.source source = .ok (.passing name table))
    (hcas : (registry.table table).isCas = true) (hmerge : (registry.table table).merge = some (.standard none))
    (hready : readyAt registry clock s ⟨0, 0, table, m⟩ = some p) (haction : p.action = .upsert row)
    {target : Document} (htarget : s.store.row? p.row = some target)
    (hconflict : conflicts (registry.table table).cas row.row target = true) {o : Outcome}
    (hfirst : (processBatch registry clock source [m]).exec s = (.ok [o], t)) (happlied : o.disposition = .applied) :
    o = (p.settled .applied).2 ∧ readyAt registry clock t ⟨0, 0, table, m⟩ = some p ∧
      registry.options.attempts ≠ 0 ∧ t.store.hasTable p.row.table = true ∧ t.store.rowExprs p.row = row.exprs ∧
      ∃ merged, t.store.row? p.row = some merged ∧ row.row.subsetOf merged = true := by
  obtain rfl : p.row.table = table := table_of_readyAt hready
  obtain ⟨ready, hprepare, hprepared, hkept, -⟩ := prepare_of_readyAt hready
  rw [processBatch_of_ready hsource hprepare] at hfirst
  obtain ⟨applied, u, hgroup, hdone⟩ := exec_bind_ok hfirst
  obtain ⟨disposition, rfl, hwas⟩ := applied_of_applyGroup hgroup
  rw [inOrder_singleton] at hdone
  cases hdone
  obtain rfl : disposition = .applied := happlied
  obtain ⟨written, happly, rfl⟩ := hwas rfl
  rw [← hkept] at htarget
  obtain ⟨hattempts, htable, hexprs, hmerged⟩ := applyPrepared_merged haction hcas hmerge htarget hconflict happly
  obtain ⟨_, hchanged⟩ := (applyPrepared_local registry name p).follows ready
  rw [happly] at hchanged
  -- no shape of a table has changed, so that preparation comes to the same again
  have htables : s.SameTables (written.counted (.ofDisposition (some p.row.table) .applied)) :=
    (hprepared.trans hchanged.tables).trans ⟨fun _ => rfl, fun _ => rfl⟩
  refine ⟨rfl, ?_, hattempts, (hchanged.tables.hasTable p.row.table).symm.trans htable, hexprs, hmerged⟩
  rw [readyAt_eq_some_iff] at hready ⊢
  rw [← hready]
  exact prepare_exec_eq htables _

/-- Whenever a mutation that is ready and attempted repeats a part of its row, it is applied, and nothing else is
counted. -/
theorem processBatch_repeated (hsource : registry.source source = .ok (.passing name table))
    (hcas : (registry.table table).isCas = true) (hready : readyAt registry clock s ⟨0, 0, table, m⟩ = some p)
    (haction : p.action = .upsert row) (hattempts : registry.options.attempts ≠ 0)
    (htable : s.store.hasTable p.row.table = true) {stored : Document}
    (hrow : s.store.row? p.row = some stored) (hpart : row.row.subsetOf stored = true) :
    ∃ t, (processBatch registry clock source [m]).exec s = (.ok [(p.settled .applied).2], t) ∧
      t.store = s.store.overwritten p.row ⟨row.row, row.exprs⟩ ∧
      t.trace.metrics = s.trace.metrics ++ [Metric.ofOutcome (p.settled .applied).2] := by
  obtain rfl : p.row.table = table := table_of_readyAt hready
  obtain ⟨ready, hprepare, -, hkept, hmetrics⟩ := prepare_of_readyAt hready
  rw [← hkept] at htable hrow
  have hgroup := applyGroup_of_applied (applyPrepared_repeated name haction hattempts hcas htable hrow hpart)
  have hbatch := processBatch_of_ready hsource hprepare
  rw [exec_bind_of_ok hgroup, inOrder_singleton] at hbatch
  refine ⟨_, hbatch, ?_, ?_⟩
  · exact congrArg (fun store : MemoryStore => store.overwritten p.row ⟨row.row, row.exprs⟩) hkept
  · exact congrArg (· ++ [Metric.ofOutcome (p.settled .applied).2]) hmetrics

/-- An upsert is in conflict with the row that is stored, and the standard merge, without a fallback, lets it be
applied. If the same mutation comes again at once, it is applied again. The row is then equal to what it was after
the first time, with the same expressions, all other rows and the dead letters are as they were, and the outcome is
all that is counted, so that there is no conflict any more. -/
theorem merged_upsert_is_a_replay (hsource : registry.source source = .ok (.passing name table))
    (hcas : (registry.table table).isCas = true) (hmerge : (registry.table table).merge = some (.standard none))
    (hready : readyAt registry clock s ⟨0, 0, table, m⟩ = some p) (haction : p.action = .upsert row)
    {target : Document} (htarget : s.store.row? p.row = some target)
    (hconflict : conflicts (registry.table table).cas row.row target = true) {o : Outcome}
    (hfirst : (processBatch registry clock source [m]).exec s = (.ok [o], t)) (happlied : o.disposition = .applied) :
    ∃ merged again u, t.store.row? p.row = some merged ∧
      (processBatch registry clock source [m]).exec t = (.ok [o], u) ∧
      u.store.row? p.row = some again ∧ again.same merged = true ∧
      u.store.rowExprs p.row = t.store.rowExprs p.row ∧
      (∀ other : RowId, other.address ≠ p.row.address → u.store.row? other = t.store.row? other) ∧
      u.store.letters = t.store.letters ∧ u.trace.metrics = t.trace.metrics ++ [Metric.ofOutcome o] := by
  obtain ⟨rfl, hready', hattempts, htable, hexprs, merged, hmerged, hpart⟩ :=
    processBatch_merged hsource hcas hmerge hready haction htarget hconflict hfirst happlied
  obtain ⟨u, hagain, hstore, hmetrics⟩ :=
    processBatch_repeated hsource hcas hready' haction hattempts htable hmerged hpart
  refine ⟨merged, merged.overlay row.row, u, hmerged, hagain, ?_, Document.overlay_same_of_subset hpart, ?_,
    fun other hother => ?_, ?_, hmetrics⟩
  · rw [hstore, MemoryStore.row?_overwritten, if_pos rfl, hmerged]
    rfl
  · rw [hstore, MemoryStore.rowExprs_overwritten, hexprs]
  · rw [hstore, MemoryStore.row?_overwritten, if_neg hother]
  · rw [hstore, MemoryStore.letters_overwritten]

end

namespace Example

/-- A table with a note beside the column that orders the versions of a row. -/
def notedOrders : Schema := { orders with columns := [⟨"note", false⟩, ⟨"paid", false⟩] }

def noted (note : String) : Document := .ofList [("note", .string note)]

/-- A registry in which conflicts of the table are merged. -/
def mergedNotes : Registry :=
  ⟨.default, Keyed.empty.put "orders" (.passing "orders" orders.name),
    Keyed.empty.put orders.name { TableConfig.plain with cas := ["paid"], merge := some (.standard none) }⟩

/-- A session with a payment that has a note. -/
def notedPayment : Session MemoryStore :=
  .ofStore (StoreOp.runAll [.createTable notedOrders, .insert order ((noted "held").insert "paid" (.bool true))] .empty)

/-- A change of the note, which knows nothing of the payment. -/
def release : Mutation := ⟨some (noted "held"), some (noted "released"), [.bool true], default, .empty⟩

/-- The change, ready for its row. -/
def released : Prepared := ⟨⟨0, 0, orders.name, release⟩, ⟨[.bool true]⟩, .upsert ⟨noted "released", []⟩⟩

/-- What processing the change comes to. -/
def releasing (s : Session MemoryStore) : Result (List Outcome) × Session MemoryStore :=
  (processBatch mergedNotes default "orders" [release]).exec s

end Example

/-- The row that is merged is newer than the change of its note, which still counts as a replay of it. -/
theorem released_note_is_released_again :
    ∃ o t merged again u, Example.releasing Example.notedPayment = (.ok [o], t) ∧ o.disposition = .applied ∧
      t.store.row? Example.order = some merged ∧ casOrder ["paid"] (Example.noted "released") merged = .lt ∧
      Example.releasing t = (.ok [o], u) ∧ u.store.row? Example.order = some again ∧ again.same merged = true := by
  have hsource : Example.mergedNotes.source "orders" = .ok (.passing "orders" Example.orders.name) := rfl
  have hready : readyAt Example.mergedNotes default Example.notedPayment Example.released.placed =
      some Example.released := rfl
  have hprepare := exec_of_fst (readyAt_eq_some_iff.1 hready)
  have hgroup : ((applyGroup Example.mergedNotes "orders" [Example.released]).exec
      ((prepare Example.mergedNotes default Example.released.placed).exec Example.notedPayment).2).1 =
        .ok [Example.released.settled .applied] := rfl
  have hfirst := processBatch_of_ready hsource hprepare
  rw [exec_bind_of_ok (exec_of_fst hgroup), inOrder_singleton] at hfirst
  obtain ⟨merged, again, u, hmerged, hagain, hrow, hsame, -⟩ :=
    merged_upsert_is_a_replay hsource rfl rfl hready rfl rfl (by decide) hfirst rfl
  refine ⟨_, _, merged, again, u, hfirst, rfl, hmerged, ?_, hagain, hrow, hsame⟩
  cases hmerged
  decide

end Tributary
