import Tributary.Proofs.Apply.RowActions
import Tributary.Proofs.Apply.Sequential
import Tributary.Proofs.Merge.Race

/-!
# Rows behind applied mutations

What the engine leaves of the rows of tables without a merge, in terms of `RowAction.on`.

* `RowAction.reaches`: whether an action comes to its row at all. An upsert does so only if there is an attempt.
* `applyOne_exec`: a mutation whose table exists succeeds and does its action on its row, if it reaches it.
* `applyGroup_row`: mutations one after another do the actions that reach a row on that row, in their order.
* `hasTable_of_applyGroup`, `applyGroup_succeeds`: they succeed exactly if the tables of those that reach their
  rows exist, since no row is stored without a table.
* `row_of_plan`: so a batch does to a row the actions that its plan has for the row, in order.
-/

namespace Tributary

open Run

variable {registry : Registry} {source : String}

/-! ## One mutation -/

/-- Whether an action comes to its row. An upsert needs an attempt for that. -/
def RowAction.reaches (options : Options) : RowAction → Bool
  | .upsert _ => options.attempts != 0
  | .delete => true

theorem RowAction.reaches_of_attempts {options : Options} (h : options.attempts ≠ 0) (action : RowAction) :
    action.reaches options = true := by
  cases action with
  | upsert _ => exact bne_iff_ne.2 h
  | delete => rfl

/-- What does not reach its row has failed at once. -/
theorem applyPrepared_of_not_reaches (source : String) {p : Prepared}
    (h : p.action.reaches registry.options = false) :
    (applyPrepared registry source p : Run MemoryStore _) = throw p.unattempted := by
  unfold applyPrepared
  cases haction : p.action with
  | upsert row =>
    rw [haction] at h
    have hnone : registry.options.attempts = 0 := by simpa [RowAction.reaches] using h
    dsimp only
    rw [applyUpsert_eq, if_pos hnone]
  | delete =>
    rw [haction] at h
    cases h

theorem RowAction.on_upsert_eq (config : TableConfig) (row : Option Document) (proposed : MappedRow) :
    RowAction.on config row (.upsert proposed) =
      if config.isCas && row.any (conflicts config.cas proposed.row) then row
      else some ((row.getD .empty).overlay proposed.row) := by
  cases row with
  | none => simp [RowAction.on]
  | some target => simp [RowAction.on]

/-- Without a merge the decision is to drop a stale proposal, and else to write it; nothing is changed. -/
theorem decideData_exec (source : String) (p : Prepared)
    (hmerge : (registry.table p.row.table).merge = none)
    (proposed : Document) (target : Option Document) (s : Session MemoryStore) :
    ∃ decision trace, (decideData registry source p proposed target).exec s =
        (.ok decision, { s with trace := trace }) ∧
      if (registry.table p.row.table).isCas &&
          target.any (conflicts (registry.table p.row.table).cas proposed) then
        decision = .settled (.dropped .stale)
      else ∃ expected, decision = .write proposed expected := by
  unfold decideData
  cases hcas : (registry.table p.row.table).isCas with
  | false => exact ⟨.write proposed .any, s.trace, rfl, .any, rfl⟩
  | true =>
    have hbefore : refreshBefore registry p proposed target none = (pure none : Run MemoryStore _) := by
      unfold refreshBefore
      cases p.mutation.before <;> simp [needsBefore, hmerge]
    let resolution := resolve (registry.table p.row.table) registry.options.functionTimeout
      ⟨p.row.table, proposed, (none : MappedBefore).join, p.mutation.origin⟩ target
    have hvalue := resolve_of_merge_eq_none hmerge registry.options.functionTimeout
      ⟨p.row.table, proposed, (none : MappedBefore).join, p.mutation.origin⟩ target
    simp only [if_true, exec_map, decideOn, hbefore, pure_bind, exec_bind, Run.logged, exec_ofFunction,
      hvalue]
    cases target with
    | none => exact ⟨.write proposed .absent, s.trace ++ resolution.trace, rfl, .absent, rfl⟩
    | some target =>
      cases hconflict : conflicts (registry.table p.row.table).cas proposed target with
      | true =>
        refine ⟨.settled (.dropped .stale), s.trace ++ resolution.trace, ?_, by simp [hconflict]⟩
        simp only [hconflict, if_true]
        rfl
      | false =>
        refine ⟨.write proposed .absent, s.trace ++ resolution.trace, ?_, by simp [hconflict]⟩
        simp only [hconflict, Bool.false_eq_true, if_false]
        rfl

/-- Where an upsert without a merge succeeds it does its action; its table exists, or its row does. Else
its table does not exist, and the batch stops. -/
theorem overwriting_exec (source : String) (p : Prepared)
    (hmerge : (registry.table p.row.table).merge = none)
    (row : MappedRow) (s : Session MemoryStore) :
    (∃ disposition s', (overwriting registry source p row).exec s = (.ok disposition, s') ∧
        s'.store.row? p.row =
          RowAction.on (registry.table p.row.table) (s.store.row? p.row) (.upsert row) ∧
        (s.store.hasTable p.row.table = true ∨ (s.store.row? p.row).isSome)) ∨
      (s.store.hasTable p.row.table = false ∧ ∃ fault s',
        (overwriting registry source p row).exec s = (.error fault, s') ∧ fault.action = .stop) := by
  obtain ⟨decision, trace, hdecide, hcases⟩ :=
    decideData_exec source p hmerge row.row (s.store.row? p.row) s
  rw [RowAction.on_upsert_eq]
  rw [overwriting, exec_bind_of_ok (readData_exec p.row s), exec_bind_of_ok hdecide]
  split at hcases
  · rename_i hstale
    subst hcases
    obtain ⟨-, hany⟩ := Bool.and_eq_true_iff.1 hstale
    have hrow : (s.store.row? p.row).isSome = true := by
      cases hfound : s.store.row? p.row with
      | none => simp [hfound] at hany
      | some _ => rfl
    exact .inl ⟨.dropped .stale, _, rfl, by simp [hstale], .inr hrow⟩
  · rename_i hstale
    obtain ⟨expected, rfl⟩ := hcases
    dsimp only
    rw [exec_bind, overwriteRow_exec]
    cases htable : s.store.hasTable p.row.table with
    | true =>
      refine .inl ⟨.applied, _, rfl, ?_, .inl rfl⟩
      have hcell := MemoryStore.cell_overwritten s.store p.row ⟨row.row, row.exprs⟩
      rw [if_neg hstale]
      exact congrArg Cell.data hcell
    | false => exact .inr ⟨rfl, _, _, rfl, rfl⟩

theorem applyPrepared_exec (source : String) {p : Prepared}
    (hmerge : (registry.table p.row.table).merge = none) (hreaches : p.action.reaches registry.options = true)
    (s : Session MemoryStore) :
    (∃ disposition s', (applyPrepared registry source p).exec s = (.ok disposition, s') ∧
        s'.store.row? p.row =
          RowAction.on (registry.table p.row.table) (s.store.row? p.row) p.action ∧
        (s.store.hasTable p.row.table = true ∨ (s.store.row? p.row).isSome)) ∨
      (s.store.hasTable p.row.table = false ∧ ∃ fault s',
        (applyPrepared registry source p).exec s = (.error fault, s') ∧ fault.action = .stop) := by
  unfold applyPrepared
  cases haction : p.action with
  | upsert row =>
    rw [haction] at hreaches
    have hattempts : registry.options.attempts ≠ 0 := by simpa [RowAction.reaches] using hreaches
    dsimp only
    rw [applyUpsert_eq, if_neg hattempts]
    exact overwriting_exec source p hmerge row s
  | delete =>
    have hdelete : (Run.store (TargetStore.deleteRow p.row)).exec s =
        ((MemoryStore.deleteRow p.row s.store).1,
          { s with store := (MemoryStore.deleteRow p.row s.store).2 }) := rfl
    have hstored := MemoryStore.stored?_deleteRow p.row p.row s.store
    cases htable : s.store.hasTable p.row.table with
    | true =>
      have hok : (MemoryStore.deleteRow p.row s.store).1 = .ok () := by
        simp [MemoryStore.deleteRow, htable]
      rw [hok] at hdelete
      refine .inl ⟨.deleted, _, exec_bind_of_ok hdelete, ?_, .inl rfl⟩
      simp only [MemoryStore.row?, hstored, htable, and_self, if_true]
      rfl
    | false =>
      refine .inr ⟨rfl, .tableNotInStore p.row.table.text,
        { s with store := (MemoryStore.deleteRow p.row s.store).2 }, ?_, rfl⟩
      rw [exec_bind, hdelete]
      simp [MemoryStore.deleteRow, htable]

/-- A mutation that does not reach its row succeeds, since the failure is parked, and touches no row. -/
theorem applyOne_of_not_reaches (source : String) {p : Prepared} (h : p.action.reaches registry.options = false) :
    Local ∅ (applyOne registry source p : Run MemoryStore _) ∧
      ∀ s : Session MemoryStore, ∃ outcome s', (applyOne registry source p).exec s = (.ok outcome, s') := by
  unfold applyOne
  rw [applyPrepared_of_not_reaches source h]
  refine ⟨(Local.throw _).attempt.bind fun result => Local.bind ?_ fun disposition =>
    (report_local ..).bind fun _ => .pure _, fun s => ⟨_, _, rfl⟩⟩
  cases result with
  | ok disposition => exact .pure _
  | error fault => exact handleFailure_local ..

/-- A mutation of a table without a merge that reaches its row succeeds if its table exists, and does its action. If
it succeeds its table exists, or its row does. -/
theorem applyOne_exec (source : String) {p : Prepared}
    (hmerge : (registry.table p.row.table).merge = none) (hreaches : p.action.reaches registry.options = true)
    (s : Session MemoryStore) :
    (s.store.hasTable p.row.table = true →
        ∃ outcome s', (applyOne registry source p).exec s = (.ok outcome, s')) ∧
      ∀ outcome s', (applyOne registry source p).exec s = (.ok outcome, s') →
        s'.store.row? p.row =
            RowAction.on (registry.table p.row.table) (s.store.row? p.row) p.action ∧
          (s.store.hasTable p.row.table = true ∨ (s.store.row? p.row).isSome) := by
  unfold applyOne
  rcases applyPrepared_exec source hmerge hreaches s with
    ⟨disposition, s₁, happlied, hrow, hexists⟩ | ⟨htable, fault, s₁, hfailed, hstop⟩
  · have hattempt : (applyPrepared registry source p).attempt.exec s = (.ok (.ok disposition), s₁) := by
      rw [exec_attempt, happlied]
    rw [exec_bind_of_ok hattempt]
    refine ⟨fun _ => ⟨_, _, rfl⟩, fun outcome s' hdone => ?_⟩
    cases hdone
    exact ⟨hrow, hexists⟩
  · have hattempt : (applyPrepared registry source p).attempt.exec s = (.ok (.error fault), s₁) := by
      rw [exec_attempt, hfailed]
    rw [exec_bind_of_ok hattempt, disposeOf, handleFailure_of_stop hstop, exec_bind, exec_throw]
    refine ⟨fun h => ?_, fun outcome s' hdone => by cases hdone⟩
    rw [htable] at h
    cases h

/-! ## Mutations one after another -/

theorem MemoryStore.row?_congr (s : MemoryStore) {id other : RowId} (h : id.address = other.address) :
    s.row? id = s.row? other := by
  rw [row?, row?, stored?, stored?, h]

/-- The actions of prepared mutations that reach a row, in their order. -/
def actionsOn (registry : Registry) (id : RowId) (ps : List Prepared) : List RowAction :=
  ((ofRow id.address ps).map Prepared.action).filter (RowAction.reaches registry.options)

theorem actionsOn_cons (id : RowId) (p : Prepared) (rest : List Prepared) :
    actionsOn registry id (p :: rest) = actionsOn registry id [p] ++ actionsOn registry id rest := by
  have hcons : ofRow id.address (p :: rest) = ofRow id.address [p] ++ ofRow id.address rest :=
    ofRow_append id.address [p] rest
  rw [actionsOn, hcons, List.map_append, List.filter_append]
  rfl

theorem applyOne_row (p : Prepared) (hmerge : (registry.table p.row.table).merge = none)
    {s s' : Session MemoryStore} {outcome : Nat × Outcome}
    (hrun : (applyOne registry source p).exec s = (.ok outcome, s')) (id : RowId) :
    s'.store.row? id =
      RowAction.onAll (registry.table id.table) (s.store.row? id) (actionsOn registry id [p]) := by
  by_cases hrow : p.row.address = id.address
  · have htable : p.row.table = id.table := congrArg RowAddress.table hrow
    cases hreaches : p.action.reaches registry.options with
    | true =>
      obtain ⟨haction, -⟩ := (applyOne_exec source hmerge hreaches s).2 outcome s' hrun
      rw [← MemoryStore.row?_congr _ hrow, ← MemoryStore.row?_congr _ hrow, haction, htable]
      simp [actionsOn, ofRow, hrow, hreaches, RowAction.onAll]
    | false =>
      obtain ⟨letters, hfollows⟩ := (applyOne_of_not_reaches source hreaches).1.follows s
      rw [hrun] at hfollows
      have hstored := hfollows.stored id.address (Set.notMem_empty _)
      simp [actionsOn, ofRow, hrow, hreaches, RowAction.onAll, MemoryStore.row?, MemoryStore.stored?, hstored]
  · obtain ⟨letters, hfollows⟩ := (applyOne_local registry source p).follows s
    rw [hrun] at hfollows
    have hstored := hfollows.stored id.address fun h => hrow (Eq.symm h)
    simp [actionsOn, ofRow, hrow, RowAction.onAll, MemoryStore.row?, MemoryStore.stored?, hstored]

/-- Mutations one after another do the actions that reach a row on that row. -/
theorem applyGroup_row {ps : List Prepared} (hmerge : ∀ p ∈ ps, (registry.table p.row.table).merge = none)
    {s s' : Session MemoryStore} {outcomes : Numbered}
    (hrun : (applyGroup registry source ps).exec s = (.ok outcomes, s')) (id : RowId) :
    s'.store.row? id =
      RowAction.onAll (registry.table id.table) (s.store.row? id) (actionsOn registry id ps) := by
  induction ps generalizing s outcomes with
  | nil =>
    cases hrun
    rfl
  | cons p rest ih =>
    rw [applyGroup_cons] at hrun
    obtain ⟨first, s₁, hfirst, hothers⟩ := exec_bind_ok hrun
    obtain ⟨others, s₂, hrest, hdone⟩ := exec_bind_ok hothers
    cases hdone
    rw [ih (fun q hq => hmerge q (List.mem_cons_of_mem p hq)) hrest,
      applyOne_row p (hmerge p List.mem_cons_self) hfirst id, actionsOn_cons id p rest, RowAction.onAll_append]

/-! ## Success -/

theorem applyGroup_succeeds (source : String) {ps : List Prepared}
    (hmerge : ∀ p ∈ ps, (registry.table p.row.table).merge = none) {s : Session MemoryStore}
    (htable : ∀ p ∈ ps, p.action.reaches registry.options = true → s.store.hasTable p.row.table = true) :
    ∃ outcomes s', (applyGroup registry source ps).exec s = (.ok outcomes, s') := by
  induction ps generalizing s with
  | nil => exact ⟨[], s, rfl⟩
  | cons p rest ih =>
    obtain ⟨first, s₁, hfirst⟩ : ∃ first s₁, (applyOne registry source p).exec s = (.ok first, s₁) := by
      cases hreaches : p.action.reaches registry.options with
      | true =>
        exact (applyOne_exec source (hmerge p List.mem_cons_self) hreaches s).1
          (htable p List.mem_cons_self hreaches)
      | false => exact (applyOne_of_not_reaches source hreaches).2 s
    obtain ⟨letters, hfollows⟩ := (applyOne_local registry source p).follows s
    rw [hfirst] at hfollows
    obtain ⟨others, s₂, hothers⟩ := ih (s := s₁) (fun q hq => hmerge q (List.mem_cons_of_mem p hq))
      fun q hq hreaches => by
        rw [← hfollows.tables.hasTable]
        exact htable q (List.mem_cons_of_mem p hq) hreaches
    refine ⟨first :: others, s₂, ?_⟩
    rw [applyGroup_cons, exec_bind_of_ok hfirst, exec_bind_of_ok hothers]
    rfl

/-- No mutation brings a row into a table that does not exist. -/
theorem applyOne_rowsHaveTables (p : Prepared) (hmerge : (registry.table p.row.table).merge = none)
    {s s' : Session MemoryStore} {outcome : Nat × Outcome} (hs : RowsHaveTables s.store)
    (hrun : (applyOne registry source p).exec s = (.ok outcome, s')) :
    (p.action.reaches registry.options = true → s.store.hasTable p.row.table = true) ∧
      RowsHaveTables s'.store := by
  cases hreaches : p.action.reaches registry.options with
  | false =>
    obtain ⟨letters, hfollows⟩ := (applyOne_of_not_reaches source hreaches).1.follows s
    rw [hrun] at hfollows
    refine ⟨fun h => absurd h Bool.false_ne_true, fun id row hrow => ?_⟩
    rw [← hfollows.tables.hasTable]
    exact hs id row ((hfollows.stored id.address (Set.notMem_empty _)).symm.trans hrow)
  | true =>
    have htable : s.store.hasTable p.row.table = true := by
      rcases ((applyOne_exec source hmerge hreaches s).2 outcome s' hrun).2 with htable | hrow
      · exact htable
      · obtain ⟨data, hdata⟩ := Option.isSome_iff_exists.1 hrow
        obtain ⟨row, hstored, -⟩ := Option.map_eq_some_iff.1 hdata
        exact hs p.row row hstored
    obtain ⟨letters, hfollows⟩ := (applyOne_local registry source p).follows s
    rw [hrun] at hfollows
    refine ⟨fun _ => htable, fun id row hrow => ?_⟩
    rw [← hfollows.tables.hasTable]
    by_cases haddress : id.address = p.row.address
    · have hsame : id.table = p.row.table := congrArg RowAddress.table haddress
      rw [hsame]
      exact htable
    · refine hs id row ((hfollows.stored id.address ?_).symm.trans hrow)
      exact fun h => haddress h

theorem hasTable_of_applyGroup {ps : List Prepared}
    (hmerge : ∀ p ∈ ps, (registry.table p.row.table).merge = none) {s s' : Session MemoryStore}
    {outcomes : Numbered} (hs : RowsHaveTables s.store)
    (hrun : (applyGroup registry source ps).exec s = (.ok outcomes, s')) :
    ∀ p ∈ ps, p.action.reaches registry.options = true → s.store.hasTable p.row.table = true := by
  induction ps generalizing s outcomes with
  | nil => exact fun p hp => absurd hp List.not_mem_nil
  | cons p rest ih =>
    rw [applyGroup_cons] at hrun
    obtain ⟨first, s₁, hfirst, hothers⟩ := exec_bind_ok hrun
    obtain ⟨others, s₂, hrest, hdone⟩ := exec_bind_ok hothers
    cases hdone
    obtain ⟨htable, hs₁⟩ := applyOne_rowsHaveTables p (hmerge p List.mem_cons_self) hs hfirst
    obtain ⟨letters, hfollows⟩ := (applyOne_local registry source p).follows s
    rw [hfirst] at hfollows
    intro q hq hreaches
    rcases List.mem_cons.1 hq with rfl | hq
    · exact htable hreaches
    · rw [hfollows.tables.hasTable]
      exact ih (fun r hr => hmerge r (List.mem_cons_of_mem p hr)) hs₁ hrest q hq hreaches

/-! ## Plans -/

section

variable {clock : Clock} {config : SourceConfig} {batch : List Mutation} {plan : Numbered × List Prepared}
  {s s₁ s' : Session MemoryStore}

/-- Planning leaves tables and rows as they are. -/
theorem planFrom_follows (hplan : (planFrom registry clock config 0 0 batch).exec s = (.ok plan, s₁)) :
    s.SameTables s₁ ∧ ∀ id, s₁.store.stored? id = s.store.stored? id := by
  obtain ⟨letters, hfollows⟩ := (planFrom_local 0 0 batch).follows s
  rw [hplan] at hfollows
  exact ⟨hfollows.tables, fun id => hfollows.stored id.address (Set.notMem_empty _)⟩

/-- A plan does not depend on rows. -/
theorem planFrom_exec_of_sameTables (htables : s.SameTables s')
    (hplan : (planFrom registry clock config 0 0 batch).exec s = (.ok plan, s₁)) :
    ∃ s₁', (planFrom registry clock config 0 0 batch).exec s' = (.ok plan, s₁') := by
  have hlocal : Local ∅ (planFrom registry clock config 0 0 batch) := planFrom_local 0 0 batch
  obtain ⟨letters, hresult, -⟩ :=
    hlocal.alike s s' ⟨htables, fun _ hplace => absurd hplace (Set.notMem_empty _)⟩
  rw [hplan] at hresult
  exact ⟨_, exec_of_fst hresult.symm⟩

/-- In whatever order the groups of a plan are applied, each row has the actions that the plan has for it done
to it, as far as they reach it. -/
theorem row_of_plan (arrangement : Arrangement)
    (hplan : (planFrom registry clock config 0 0 batch).exec s = (.ok plan, s₁))
    (hmerge : ∀ p ∈ plan.2, (registry.table p.row.table).merge = none) {applied : Numbered}
    (happlied : (applyGroup registry config.name (arrangement.arrange (groupRows plan.2)).flatten).exec s₁ =
      (.ok applied, s')) (id : RowId) :
    s'.store.row? id =
      RowAction.onAll (registry.table id.table) (s.store.row? id) (actionsOn registry id plan.2) := by
  have hperm := arrangement.flatten_perm plan.2
  have hrow := applyGroup_row (fun p hp => hmerge p (hperm.mem_iff.1 hp)) happlied id
  rw [hrow, actionsOn, sameRowOrder_groupRows (arrangement.perm _) id.address, MemoryStore.row?,
    (planFrom_follows hplan).2]
  rfl

end

end Tributary
