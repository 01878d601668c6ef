import Mathlib.Data.List.DropRight
import Tributary.Proofs.Store.Versions

/-!
# What a store remembers

The rows and expressions of a store in memory follow from the operations that succeeded, and from nothing else: an
operation that fails, or does not find the version that it expects, uses up a version number at most.

* `StoreOp.succeeds`, `StoreOp.history`: the operations of a sequence that answered that they are done.
* `StoreOp.recordedExprs`, `StoreOp.writtenRow?`: what a history says of a row. Writes are counted from the last
  operation on that did away with the row, or for its data also from the last one that stored it anew.
* `StoreOp.run_of_not_succeeds`, `StoreOp.rowExprs_run`, `StoreOp.row?_run`: one operation.
* `StoreOp.views_of_history`: a whole sequence, seen through one row.
* `ExprsHaveRows`: expressions are recorded for rows that exist. Every operation keeps this.
* `store_remembers_what_succeeded`: all this for every sequence of operations on an empty store.
-/

namespace Tributary

namespace StoreOp

/-! ## Histories -/

/-- Whether an operation answers that it is done. A write that finds another version than it expects does not. -/
def succeeds (op : StoreOp) (s : MemoryStore) : Bool :=
  match op with
  | .createTable _ | .clear => true
  | .write id w expected =>
    match (MemoryStore.writeRow id w expected s).1 with
    | .ok .written => true
    | .ok .versionMismatch | .error _ => false
  | .delete id => (MemoryStore.deleteRow id s).1.isOk
  | .insert id data => (MemoryStore.insertRow id data s).1.isOk
  | .park letter => (MemoryStore.park letter s).1.isOk

/-- The operations of a sequence that succeed. -/
def history : List StoreOp → MemoryStore → List StoreOp
  | [], _ => []
  | op :: ops, s => if op.succeeds s then op :: history ops (op.run s) else history ops (op.run s)

section
variable (id : RowId)

/-- What an operation writes to a row. -/
def write? : StoreOp → Option RowWrite
  | .write other w _ => if id.address = other.address then some w else none
  | _ => none

/-- Whether an operation does away with a row. -/
def removes : StoreOp → Bool
  | .delete other => id.address = other.address
  | .clear => true
  | _ => false

/-- What an operation stores as a row, whatever was there before. -/
def inserted? : StoreOp → Option Document
  | .insert other data => if id.address = other.address then some data else none
  | _ => none

/-- Whether an operation leaves nothing of what was written to a row before. -/
def restarts (op : StoreOp) : Bool := op.removes id || (op.inserted? id).isSome

/-- The writes to a row behind the last operation of a kind. -/
def writesSince (ends : StoreOp → Bool) (log : List StoreOp) : List RowWrite :=
  (log.rtakeWhile fun op => !ends op).filterMap (write? id)

/-- The expressions of the last write to a row since something did away with it. -/
def recordedExprs (log : List StoreOp) : List (String × String) :=
  ((writesSince id (removes id) log).getLast?.map RowWrite.exprs).getD []

/-- The data that the last operation to leave nothing of a row stored in its place. -/
def base? (log : List StoreOp) : Option Document := (log.filter (restarts id)).getLast?.bind (inserted? id)

/-- The data of the writes to a row since nothing was left of it, one over the other, over what was stored then. -/
def writtenRow? (log : List StoreOp) : Option Document :=
  (writesSince id (restarts id) log).foldl (fun row w => some ((row.getD .empty).overlay w.data)) (base? id log)

end

/-! ## One operation -/

theorem succeeds_write_iff {id : RowId} {w : RowWrite} {expected : ExpectedVersion} {s : MemoryStore} :
    (write id w expected).succeeds s = true ↔ (MemoryStore.writeRow id w expected s).1 = .ok .written := by
  unfold succeeds
  dsimp only
  split
  · next hw => simp [hw]
  · next hw => simp [hw]
  · next hw => simp [hw]

theorem succeeds_delete {id : RowId} {s : MemoryStore} : (delete id).succeeds s = s.hasTable id.table := by
  unfold succeeds MemoryStore.deleteRow
  dsimp only
  split
  · next h => rw [h]; rfl
  · next h => rw [Bool.eq_false_iff.2 h]; rfl

theorem succeeds_insert {id : RowId} {data : Document} {s : MemoryStore} :
    (insert id data).succeeds s = s.hasTable id.table := by
  unfold succeeds MemoryStore.insertRow
  dsimp only
  split
  · next h => exact h.symm
  · next h => exact (Bool.eq_false_iff.2 h).symm

variable {op : StoreOp} {s : MemoryStore}

/-- An operation that does not succeed uses up a version number at most. -/
theorem run_of_not_succeeds (h : op.succeeds s = false) : op.run s = s ∨ op.run s = s.advance := by
  cases op with
  | createTable _ | park _ | clear => cases h
  | write id w expected =>
    rcases MemoryStore.writeRow_cases id w expected s with ⟨-, -, hw, -⟩ | ⟨-, -, hw⟩ | ⟨-, hw⟩
    · rw [succeeds_write_iff.2 hw] at h
      cases h
    · exact .inr (congrArg Prod.snd hw)
    · exact .inr (congrArg Prod.snd hw)
  | delete id =>
    rw [succeeds_delete] at h
    exact .inl (by simp [run, MemoryStore.deleteRow, h])
  | insert id data =>
    rw [succeeds_insert] at h
    exact .inr (by simp [run, MemoryStore.insertRow, h])

theorem unchanged_of_not_succeeds (h : op.succeeds s = false) :
    (op.run s).stored = s.stored ∧ (op.run s).exprs = s.exprs ∧ (op.run s).letters = s.letters := by
  rcases run_of_not_succeeds h with hrun | hrun
  · rw [hrun]
    exact ⟨rfl, rfl, rfl⟩
  · rw [hrun]
    exact ⟨rfl, rfl, rfl⟩

/-- What an operation that succeeds leaves of the data of a row. -/
theorem row?_run (h : op.succeeds s = true) (id : RowId) :
    (op.run s).row? id =
      match op.write? id with
      | some w => some (((s.row? id).getD .empty).overlay w.data)
      | none => if op.restarts id then op.inserted? id else s.row? id := by
  cases op with
  | createTable _ | park _ | clear => rfl
  | write other w expected =>
    rw [run, MemoryStore.writeRow_of_written (succeeds_write_iff.1 h), MemoryStore.row?_overwritten, write?]
    by_cases haddress : id.address = other.address
    · have hrow : s.row? other = s.row? id := by rw [MemoryStore.row?, MemoryStore.stored?, ← haddress]; rfl
      rw [if_pos haddress, if_pos haddress, hrow]
    · rw [if_neg haddress, if_neg haddress]
      rfl
  | delete other =>
    rw [succeeds_delete] at h
    rw [run, MemoryStore.row?, MemoryStore.stored?_deleteRow]
    by_cases haddress : id.address = other.address
    · simp [write?, restarts, removes, inserted?, haddress, h]
    · simp [write?, restarts, removes, inserted?, haddress, MemoryStore.row?]
  | insert other data =>
    rw [succeeds_insert] at h
    rw [run, MemoryStore.row?, MemoryStore.stored?_insertRow]
    by_cases haddress : id.address = other.address
    · simp [write?, restarts, removes, inserted?, haddress, h]
    · simp [write?, restarts, removes, inserted?, haddress, MemoryStore.row?]

/-- What an operation that succeeds leaves of the expressions of a row. -/
theorem rowExprs_run (h : op.succeeds s = true) (id : RowId) :
    (op.run s).rowExprs id =
      match op.write? id with
      | some w => w.exprs
      | none => if op.removes id then [] else s.rowExprs id := by
  cases op with
  | createTable _ | park _ | clear => rfl
  | write other w expected =>
    rw [run, MemoryStore.writeRow_of_written (succeeds_write_iff.1 h), MemoryStore.overwritten,
      MemoryStore.rowExprs_putExprs, write?]
    by_cases haddress : id.address = other.address
    · rw [if_pos haddress, if_pos haddress]
    · rw [if_neg haddress, if_neg haddress]
      rfl
  | delete other =>
    rw [succeeds_delete] at h
    rw [run, MemoryStore.rowExprs_deleteRow]
    by_cases haddress : id.address = other.address
    · simp [write?, removes, haddress, h]
    · simp [write?, removes, haddress]
  | insert other data => exact MemoryStore.rowExprs_insertRow ..

/-! ## Sequences of operations -/

theorem history_concat (ops : List StoreOp) (op : StoreOp) (s : MemoryStore) :
    history (ops ++ [op]) s = history ops s ++ if op.succeeds (runAll ops s) then [op] else [] := by
  induction ops generalizing s with
  | nil => rfl
  | cons first ops ih =>
    rw [List.cons_append, history, history, ih, runAll_cons]
    split <;> rfl

/-- A write to a row neither does away with it nor stores it anew. -/
theorem not_restarts_of_write {op : StoreOp} {id : RowId} {w : RowWrite} (h : op.write? id = some w) :
    op.removes id = false ∧ op.restarts id = false := by
  cases op with
  | write _ _ _ => exact ⟨rfl, rfl⟩
  | createTable _ | delete _ | insert _ _ | park _ | clear => cases h

theorem writesSince_concat (id : RowId) (ends : StoreOp → Bool) (log : List StoreOp) (op : StoreOp) :
    writesSince id ends (log ++ [op]) =
      if ends op then [] else writesSince id ends log ++ (op.write? id).toList := by
  unfold writesSince
  rw [List.rtakeWhile_concat]
  cases hends : ends op with
  | true => rfl
  | false =>
    rw [if_pos (by rfl), List.filterMap_append]
    cases hwrite : op.write? id <;> simp [hwrite]

theorem recordedExprs_concat (id : RowId) (log : List StoreOp) (op : StoreOp) :
    recordedExprs id (log ++ [op]) =
      match op.write? id with
      | some w => w.exprs
      | none => if op.removes id then [] else recordedExprs id log := by
  rw [recordedExprs, writesSince_concat]
  cases hwrite : op.write? id with
  | some w =>
    rw [(not_restarts_of_write hwrite).1]
    simp
  | none =>
    cases hremoves : op.removes id with
    | true => rfl
    | false => simp [recordedExprs]

theorem base?_concat (id : RowId) (log : List StoreOp) (op : StoreOp) :
    base? id (log ++ [op]) = if op.restarts id then op.inserted? id else base? id log := by
  rw [base?, List.filter_append]
  cases hrestarts : op.restarts id <;> simp [base?, hrestarts]

theorem writtenRow?_concat (id : RowId) (log : List StoreOp) (op : StoreOp) :
    writtenRow? id (log ++ [op]) =
      match op.write? id with
      | some w => some (((writtenRow? id log).getD .empty).overlay w.data)
      | none => if op.restarts id then op.inserted? id else writtenRow? id log := by
  rw [writtenRow?, writesSince_concat, base?_concat]
  cases hwrite : op.write? id with
  | some w =>
    rw [(not_restarts_of_write hwrite).2]
    simp [writtenRow?, List.foldl_append]
  | none =>
    cases hrestarts : op.restarts id with
    | true => rfl
    | false => simp [writtenRow?]

/-- Each operation that succeeds adds to the history what it does to the row, and no other operation does anything. -/
theorem views_of_history (id : RowId) (ops : List StoreOp) :
    (runAll ops .empty).rowExprs id = recordedExprs id (history ops .empty) ∧
      (runAll ops .empty).row? id = writtenRow? id (history ops .empty) := by
  induction ops using List.reverseRecOn with
  | nil => exact ⟨rfl, rfl⟩
  | append_singleton ops op ih =>
    obtain ⟨hexprs, hrow⟩ := ih
    rw [history_concat, runAll_append, runAll_cons, runAll_nil]
    cases hsucceeds : op.succeeds (runAll ops .empty) with
    | true =>
      rw [if_pos rfl, recordedExprs_concat, writtenRow?_concat, ← hexprs, ← hrow]
      exact ⟨rowExprs_run hsucceeds id, row?_run hsucceeds id⟩
    | false =>
      obtain ⟨hstored, hkept, -⟩ := unchanged_of_not_succeeds hsucceeds
      rw [if_neg Bool.false_ne_true, List.append_nil, ← hexprs, ← hrow]
      constructor
      · rw [MemoryStore.rowExprs, hkept, MemoryStore.rowExprs]
      · rw [MemoryStore.row?, MemoryStore.stored?, hstored, MemoryStore.row?, MemoryStore.stored?]

end StoreOp

/-! ## Expressions and rows -/

/-- Expressions are recorded for rows that exist. -/
def ExprsHaveRows (s : MemoryStore) : Prop :=
  ∀ place, s.exprs.contains place = true → s.stored.contains place = true

theorem ExprsHaveRows.run {s : MemoryStore} (h : ExprsHaveRows s) (op : StoreOp) : ExprsHaveRows (op.run s) := by
  intro place hplace
  cases hsucceeds : op.succeeds s with
  | false =>
    obtain ⟨hstored, hexprs, -⟩ := StoreOp.unchanged_of_not_succeeds hsucceeds
    rw [hexprs] at hplace
    rw [hstored]
    exact h place hplace
  | true =>
    cases op with
    | createTable _ | park _ => exact h place hplace
    | clear => cases hplace
    | write id w expected =>
      have hrun := MemoryStore.writeRow_of_written (StoreOp.succeeds_write_iff.1 hsucceeds)
      rw [StoreOp.run, hrun, Keyed.contains] at hplace ⊢
      rw [MemoryStore.get?_exprs_overwritten] at hplace
      rw [MemoryStore.get?_stored_overwritten]
      by_cases haddress : place = id.address
      · rw [if_pos haddress]
        rfl
      · rw [if_neg haddress] at hplace ⊢
        exact h place hplace
    | delete id =>
      rw [StoreOp.succeeds_delete] at hsucceeds
      rw [StoreOp.run, MemoryStore.deleteRow, if_pos hsucceeds, Keyed.contains, Keyed.get?_drop] at hplace ⊢
      by_cases haddress : place = id.address
      · rw [if_pos haddress] at hplace
        cases hplace
      · rw [if_neg haddress] at hplace ⊢
        exact h place hplace
    | insert id data =>
      rw [StoreOp.succeeds_insert] at hsucceeds
      have hrun : (StoreOp.insert id data).run s = s.advance.putRow id data := by
        simp [StoreOp.run, MemoryStore.insertRow, hsucceeds]
      rw [hrun] at hplace ⊢
      rw [Keyed.contains, MemoryStore.putRow, Keyed.get?_put]
      split
      · rfl
      · exact h place hplace

theorem Reachable.exprsHaveRows {s : MemoryStore} (h : Reachable s) : ExprsHaveRows s :=
  h.induction (fun _ hplace => by cases hplace) fun _ op hs => hs.run op

/-- Behind every sequence of operations on an empty store, an operation that does not succeed leaves rows, expressions
and dead letters alone, a row has expressions only if it exists, and both its expressions and its data are those of the
history. -/
theorem store_remembers_what_succeeded (ops : List StoreOp) :
    let s := StoreOp.runAll ops .empty
    let log := StoreOp.history ops .empty
    (∀ op : StoreOp, op.succeeds s = false →
        (op.run s).stored = s.stored ∧ (op.run s).exprs = s.exprs ∧ (op.run s).letters = s.letters) ∧
      (∀ place, s.exprs.contains place = true → s.stored.contains place = true) ∧
      ∀ id, s.rowExprs id = StoreOp.recordedExprs id log ∧ s.row? id = StoreOp.writtenRow? id log := by
  intro s log
  have hreachable : Reachable s := ⟨ops, rfl⟩
  refine ⟨?_, hreachable.exprsHaveRows, ?_⟩
  · intro op hfails
    exact StoreOp.unchanged_of_not_succeeds hfails
  · intro id
    exact StoreOp.views_of_history id ops

open Example in
/-- A row is inserted and written, so that it cannot be made once more: the attempt finds its version and changes
nothing, and the expressions are still those of the write. -/
theorem mismatch_leaves_the_written_row :
    let ops : List StoreOp :=
      [.createTable orders, .insert order (content false), .write order ⟨content true, [("paid", "all")]⟩ (.exactly 1)]
    let again : StoreOp := .write order ⟨content false, []⟩ .absent
    again.succeeds (StoreOp.runAll ops .empty) = false ∧
      (again.run (StoreOp.runAll ops .empty)).stored = (StoreOp.runAll ops .empty).stored ∧
      (StoreOp.runAll ops .empty).exprs.contains order.address = true ∧
      (StoreOp.runAll ops .empty).stored.contains order.address = true ∧
      (StoreOp.runAll ops .empty).rowExprs order = [("paid", "all")] := by
  intro ops again
  obtain ⟨hfails, hplaces, hviews⟩ := store_remembers_what_succeeded ops
  have hagain : again.succeeds (StoreOp.runAll ops .empty) = false := by decide
  have hplace : (StoreOp.runAll ops .empty).exprs.contains order.address = true := by decide
  refine ⟨hagain, (hfails again hagain).1, hplace, hplaces order.address hplace, ?_⟩
  rw [(hviews order).1]
  decide

end Tributary
