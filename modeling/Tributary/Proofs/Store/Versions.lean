import Tributary.Store.Memory

/-!
# Versions of stored rows

A store in memory is used by many writers at once, each of which reads a row and later writes it
under the demand that it is still what was read. All versions come from one counter, which deletions,
clearing and failed writes never set back, so a row that is deleted and made again never has a version
that was read before.

* `StoreOp`: what a writer can do to a store; `StoreOp.runAll` does one thing after another, and
  `Reachable` says that a store is the result of that.
* `VersionsUsed`: no row has a version that the counter has not reached. Every operation keeps this, and
  so it keeps `RowsHaveTables`.
* `stored?_runAll_eq_or_newer`: a row that is found later is the one that was found before, or its
  version is newer than all that were used then.
* `writeRow_of_eq_written_iff`: a write that demands what was read succeeds exactly if its table exists
  and the row is what was read.
* `conditional_write_detects_every_change`: both directions over every sequence of operations in
  between.
-/

namespace Tributary

/-! ## Operations -/

/-- What a writer can do to a store in memory. -/
inductive StoreOp where
  | createTable (schema : Schema)
  | write (id : RowId) (w : RowWrite) (expected : ExpectedVersion)
  | delete (id : RowId)
  | insert (id : RowId) (data : Document)
  | park (letter : DeadLetter)
  | clear

namespace StoreOp

/-- The store behind an operation, whether or not the operation succeeds. -/
def run (op : StoreOp) (s : MemoryStore) : MemoryStore :=
  match op with
  | .createTable schema => s.createTable schema
  | .write id w expected => (MemoryStore.writeRow id w expected s).2
  | .delete id => (MemoryStore.deleteRow id s).2
  | .insert id data => (MemoryStore.insertRow id data s).2
  | .park letter => (MemoryStore.park letter s).2
  | .clear => s.clear

/-- The store behind a sequence of operations. -/
def runAll (ops : List StoreOp) (s : MemoryStore) : MemoryStore := ops.foldl (fun s op => op.run s) s

@[simp] theorem runAll_nil (s : MemoryStore) : runAll [] s = s := rfl

@[simp] theorem runAll_cons (op : StoreOp) (ops : List StoreOp) (s : MemoryStore) :
    runAll (op :: ops) s = runAll ops (op.run s) := rfl

theorem runAll_append (ops more : List StoreOp) (s : MemoryStore) :
    runAll (ops ++ more) s = runAll more (runAll ops s) := List.foldl_append ..

/-- Whether an operation writes, inserts, deletes or clears a row. A write that finds another version
than it expects does not. -/
def Touches (op : StoreOp) (s : MemoryStore) (id : RowId) : Prop :=
  match op with
  | .write other w expected =>
    id.address = other.address ∧ (MemoryStore.writeRow other w expected s).1 = .ok .written
  | .insert other _ | .delete other => id.address = other.address ∧ s.hasTable other.table = true
  | .clear => True
  | .createTable _ | .park _ => False

/-- No operation of a sequence touches a row. -/
def NoneTouch : List StoreOp → MemoryStore → RowId → Prop
  | [], _, _ => True
  | op :: ops, s, id => ¬ op.Touches s id ∧ NoneTouch ops (op.run s) id

end StoreOp

/-- A store that comes about from an empty one. -/
def Reachable (s : MemoryStore) : Prop := ∃ ops, s = StoreOp.runAll ops .empty

theorem Reachable.runAll {s : MemoryStore} (h : Reachable s) (ops : List StoreOp) :
    Reachable (StoreOp.runAll ops s) := by
  obtain ⟨before, rfl⟩ := h
  exact ⟨before ++ ops, (StoreOp.runAll_append before ops .empty).symm⟩

namespace MemoryStore

/-! ## One operation -/

theorem stored?_drop (s : MemoryStore) (id other : RowId) :
    ({ s with stored := s.stored.drop id.address } : MemoryStore).stored? other =
      if other.address = id.address then none else s.stored? other :=
  Keyed.get?_drop ..

@[simp] theorem stored?_advance (s : MemoryStore) (id : RowId) :
    s.advance.stored? id = s.stored? id := rfl

@[simp] theorem hasTable_advance (s : MemoryStore) (table : TableName) :
    s.advance.hasTable table = s.hasTable table := rfl

@[simp] theorem lastVersion_advance (s : MemoryStore) : s.advance.lastVersion = s.lastVersion + 1 :=
  rfl

@[simp] theorem lastVersion_putRow (s : MemoryStore) (id : RowId) (data : Document) :
    (s.putRow id data).lastVersion = s.lastVersion := rfl

@[simp] theorem lastVersion_putExprs (s : MemoryStore) (id : RowId)
    (exprs : List (String × String)) : (s.putExprs id exprs).lastVersion = s.lastVersion := by
  unfold putExprs
  split <;> rfl

/-- What a write answers, and what it leaves of every row. -/
theorem writeRow_cases (id : RowId) (w : RowWrite) (expected : ExpectedVersion) (s : MemoryStore) :
    (s.hasTable id.table = true ∧ expected.admits ((s.stored? id).map StoredRow.version) = true ∧
      (writeRow id w expected s).1 = .ok .written ∧
      ∀ other, (writeRow id w expected s).2.stored? other =
        if other.address = id.address then
          some ⟨((s.row? id).getD .empty).overlay w.data, s.lastVersion + 1⟩
        else s.stored? other) ∨
    (s.hasTable id.table = true ∧ expected.admits ((s.stored? id).map StoredRow.version) = false ∧
      writeRow id w expected s = (.ok .versionMismatch, s.advance)) ∨
    (s.hasTable id.table = false ∧
      writeRow id w expected s = (.error (.tableNotInStore id.table.text), s.advance)) := by
  unfold writeRow
  by_cases htable : s.hasTable id.table = true
  · by_cases hadmits : expected.admits ((s.stored? id).map StoredRow.version) = true
    · refine .inl ⟨htable, hadmits, ?_, fun other => ?_⟩
      · simp [htable, hadmits]
      · simp only [hasTable_advance, htable, stored?_advance, hadmits, if_true, stored?_putExprs,
          stored?_putRow]
        rfl
    · simp only [Bool.not_eq_true] at hadmits
      exact .inr (.inl ⟨htable, hadmits, by simp [htable, hadmits]⟩)
  · simp only [Bool.not_eq_true] at htable
    exact .inr (.inr ⟨htable, by simp [htable]⟩)

theorem writeRow_eq_written_iff (id : RowId) (w : RowWrite) (expected : ExpectedVersion)
    (s : MemoryStore) :
    (writeRow id w expected s).1 = .ok .written ↔
      s.hasTable id.table = true ∧
        expected.admits ((s.stored? id).map StoredRow.version) = true := by
  rcases writeRow_cases id w expected s with ⟨ht, ha, hw, -⟩ | ⟨ht, ha, hw⟩ | ⟨ht, hw⟩
  · simp [ht, ha, hw]
  · simp [ha, hw]
  · simp [ht, hw]

theorem lastVersion_writeRow (id : RowId) (w : RowWrite) (expected : ExpectedVersion)
    (s : MemoryStore) : (writeRow id w expected s).2.lastVersion = s.lastVersion + 1 := by
  unfold writeRow
  by_cases htable : s.hasTable id.table = true
  · by_cases hadmits : expected.admits ((s.stored? id).map StoredRow.version) = true <;>
      simp [htable, hadmits]
  · simp [htable]

/-- The store after a write over whatever is there. -/
def overwritten (s : MemoryStore) (id : RowId) (w : RowWrite) : MemoryStore :=
  (s.advance.putRow id (((s.row? id).getD .empty).overlay w.data)).putExprs id w.exprs

/-- A write whose demand is met is a write without a demand. -/
theorem writeRow_of_admits {s : MemoryStore} {id : RowId} {expected : ExpectedVersion}
    (h : expected.admits ((s.stored? id).map StoredRow.version) = true) (w : RowWrite) :
    writeRow id w expected s =
      if s.hasTable id.table then (.ok .written, s.overwritten id w)
      else (.error (.tableNotInStore id.table.text), s.advance) := by
  have hstored : s.advance.stored? id = s.stored? id := rfl
  have htable : s.advance.hasTable id.table = s.hasTable id.table := rfl
  simp only [writeRow, hstored, htable, h, if_true]
  rfl

theorem schemas_overwritten (s : MemoryStore) (id : RowId) (w : RowWrite) :
    (s.overwritten id w).schemas = s.schemas := by
  unfold overwritten putExprs
  split <;> rfl

theorem letters_overwritten (s : MemoryStore) (id : RowId) (w : RowWrite) :
    (s.overwritten id w).letters = s.letters := by
  unfold overwritten putExprs
  split <;> rfl

theorem get?_stored_overwritten (s : MemoryStore) (id : RowId) (w : RowWrite) (place : RowAddress) :
    (s.overwritten id w).stored.get? place =
      if place = id.address then
        some ⟨((s.row? id).getD .empty).overlay w.data, s.lastVersion + 1⟩
      else s.stored.get? place := by
  have hstored : (s.overwritten id w).stored =
      (s.advance.putRow id (((s.row? id).getD .empty).overlay w.data)).stored := by
    unfold overwritten putExprs
    split <;> rfl
  rw [hstored]
  exact Keyed.get?_put ..

theorem row?_overwritten (s : MemoryStore) (id : RowId) (w : RowWrite) (other : RowId) :
    (s.overwritten id w).row? other =
      if other.address = id.address then some (((s.row? id).getD .empty).overlay w.data) else s.row? other := by
  show ((s.overwritten id w).stored.get? other.address).map StoredRow.data = _
  rw [get?_stored_overwritten]
  split <;> rfl

theorem get?_exprs_overwritten (s : MemoryStore) (id : RowId) (w : RowWrite) (place : RowAddress) :
    (s.overwritten id w).exprs.get? place =
      if place = id.address then (if w.exprs.isEmpty then none else some w.exprs)
      else s.exprs.get? place := by
  unfold overwritten putExprs
  by_cases hempty : w.exprs.isEmpty = true
  · rw [if_pos hempty, if_pos hempty]
    exact Keyed.get?_drop ..
  · rw [if_neg hempty, if_neg hempty]
    exact Keyed.get?_put ..

theorem writeRow_of_written {id : RowId} {w : RowWrite} {expected : ExpectedVersion} {s : MemoryStore}
    (h : (writeRow id w expected s).1 = .ok .written) : (writeRow id w expected s).2 = s.overwritten id w := by
  obtain ⟨htable, hadmits⟩ := (writeRow_eq_written_iff id w expected s).1 h
  rw [writeRow_of_admits hadmits, if_pos htable]

/-- An insertion stores a row in the next version if its table exists. -/
theorem stored?_insertRow (id other : RowId) (data : Document) (s : MemoryStore) :
    (insertRow id data s).2.stored? other =
      if s.hasTable id.table = true ∧ other.address = id.address then
        some ⟨data, s.lastVersion + 1⟩
      else s.stored? other := by
  unfold insertRow
  by_cases htable : s.hasTable id.table = true
  · simp only [hasTable_advance, htable, if_true, true_and, stored?_putRow]
    rfl
  · simp [htable]

theorem lastVersion_insertRow (id : RowId) (data : Document) (s : MemoryStore) :
    (insertRow id data s).2.lastVersion = s.lastVersion + 1 := by
  unfold insertRow
  by_cases htable : s.hasTable id.table = true <;> simp [htable]

theorem stored?_deleteRow (id other : RowId) (s : MemoryStore) :
    (deleteRow id s).2.stored? other =
      if s.hasTable id.table = true ∧ other.address = id.address then none else s.stored? other := by
  unfold deleteRow
  by_cases htable : s.hasTable id.table = true
  · simp only [htable, if_true, true_and]
    exact stored?_drop s id other
  · simp [htable]

theorem lastVersion_deleteRow (id : RowId) (s : MemoryStore) :
    (deleteRow id s).2.lastVersion = s.lastVersion := by
  unfold deleteRow
  split <;> rfl

/-- An insertion leaves the expressions of the row that was there before. -/
theorem rowExprs_insertRow (id other : RowId) (data : Document) (s : MemoryStore) :
    (insertRow id data s).2.rowExprs other = s.rowExprs other := by
  unfold insertRow
  dsimp only
  split <;> rfl

theorem rowExprs_deleteRow (id other : RowId) (s : MemoryStore) :
    (deleteRow id s).2.rowExprs other =
      if s.hasTable id.table = true ∧ other.address = id.address then [] else s.rowExprs other := by
  unfold deleteRow
  by_cases htable : s.hasTable id.table = true
  · simp only [htable, if_true, true_and, rowExprs, Keyed.get?_drop]
    split <;> rfl
  · simp [htable]

theorem schemas_writeRow (id : RowId) (w : RowWrite) (expected : ExpectedVersion)
    (s : MemoryStore) : (writeRow id w expected s).2.schemas = s.schemas := by
  unfold writeRow putExprs
  dsimp only
  split
  · split
    · split <;> rfl
    · rfl
  · rfl

theorem schemas_insertRow (id : RowId) (data : Document) (s : MemoryStore) :
    (insertRow id data s).2.schemas = s.schemas := by
  unfold insertRow
  dsimp only
  split <;> rfl

theorem schemas_deleteRow (id : RowId) (s : MemoryStore) :
    (deleteRow id s).2.schemas = s.schemas := by
  unfold deleteRow
  split <;> rfl

end MemoryStore

namespace StoreOp

theorem lastVersion_le_run (op : StoreOp) (s : MemoryStore) :
    s.lastVersion ≤ (op.run s).lastVersion := by
  cases op with
  | write id w expected =>
    have h := MemoryStore.lastVersion_writeRow id w expected s
    simp only [run]
    omega
  | delete id => exact Nat.le_of_eq (MemoryStore.lastVersion_deleteRow id s).symm
  | insert id data =>
    have h := MemoryStore.lastVersion_insertRow id data s
    simp only [run]
    omega
  | createTable _ | park _ | clear => exact Nat.le_refl _

/-- Tables stay. -/
theorem hasTable_run (op : StoreOp) {s : MemoryStore} {table : TableName}
    (h : s.hasTable table = true) : (op.run s).hasTable table = true := by
  cases op with
  | createTable schema =>
    show (s.schemas.put schema.name schema).contains table = true
    rw [Keyed.contains, Keyed.get?_put]
    split
    · rfl
    · exact h
  | write id w expected =>
    rw [run, MemoryStore.hasTable, MemoryStore.schemas_writeRow]
    exact h
  | delete id =>
    rw [run, MemoryStore.hasTable, MemoryStore.schemas_deleteRow]
    exact h
  | insert id data =>
    rw [run, MemoryStore.hasTable, MemoryStore.schemas_insertRow]
    exact h
  | park _ | clear => exact h

/-- An operation that does not touch a row leaves it as it is. -/
theorem stored?_run_of_not_touches {op : StoreOp} {s : MemoryStore} {id : RowId}
    (h : ¬ op.Touches s id) : (op.run s).stored? id = s.stored? id := by
  cases op with
  | createTable schema => rfl
  | write other w expected =>
    rcases MemoryStore.writeRow_cases other w expected s with ⟨-, -, hw, hrows⟩ | ⟨-, -, hw⟩ | ⟨-, hw⟩
    · have hne : ¬ id.address = other.address := fun e => h ⟨e, hw⟩
      exact (hrows id).trans (if_neg hne)
    · exact congrArg (fun r => r.2.stored? id) hw
    · exact congrArg (fun r => r.2.stored? id) hw
  | delete other =>
    exact (MemoryStore.stored?_deleteRow other id s).trans (if_neg fun e => h ⟨e.2, e.1⟩)
  | insert other data =>
    exact (MemoryStore.stored?_insertRow other id data s).trans (if_neg fun e => h ⟨e.2, e.1⟩)
  | park letter => rfl
  | clear => exact absurd trivial h

/-- An operation that touches a row removes it or gives it a version that was never used. -/
theorem stored?_run_of_touches {op : StoreOp} {s : MemoryStore} {id : RowId} {row : StoredRow}
    (h : op.Touches s id) (hrow : (op.run s).stored? id = some row) :
    row.version = s.lastVersion + 1 ∧ (op.run s).lastVersion = s.lastVersion + 1 := by
  cases op with
  | createTable schema => exact h.elim
  | write other w expected =>
    obtain ⟨haddress, hwritten⟩ := h
    refine ⟨?_, MemoryStore.lastVersion_writeRow other w expected s⟩
    rcases MemoryStore.writeRow_cases other w expected s with ⟨-, -, -, hrows⟩ | ⟨-, -, hw⟩ | ⟨-, hw⟩
    · have hnew := (hrows id).symm.trans hrow
      rw [if_pos haddress] at hnew
      exact congrArg StoredRow.version (Option.some.inj hnew).symm
    · rw [hw] at hwritten
      cases hwritten
    · rw [hw] at hwritten
      cases hwritten
  | delete other =>
    have hnone := (MemoryStore.stored?_deleteRow other id s).symm.trans hrow
    rw [if_pos ⟨h.2, h.1⟩] at hnone
    cases hnone
  | insert other data =>
    refine ⟨?_, MemoryStore.lastVersion_insertRow other data s⟩
    have hnew := (MemoryStore.stored?_insertRow other id data s).symm.trans hrow
    rw [if_pos ⟨h.2, h.1⟩] at hnew
    exact congrArg StoredRow.version (Option.some.inj hnew).symm
  | park letter => exact h.elim
  | clear => cases hrow

/-- An operation that touches a row which is there afterwards found the table of the row. -/
theorem hasTable_of_touches {op : StoreOp} {s : MemoryStore} {id : RowId} {row : StoredRow}
    (h : op.Touches s id) (hrow : (op.run s).stored? id = some row) :
    s.hasTable id.table = true := by
  have htable {other : RowId} (haddress : id.address = other.address) : id.table = other.table :=
    congrArg RowAddress.table haddress
  cases op with
  | createTable schema => exact h.elim
  | write other w expected =>
    rw [htable h.1]
    exact ((MemoryStore.writeRow_eq_written_iff other w expected s).1 h.2).1
  | delete other | insert other data =>
    rw [htable h.1]
    exact h.2
  | park letter => exact h.elim
  | clear => cases hrow

/-- A row that is found behind an operation was there before, or its version is new. -/
theorem stored?_run_eq_or_newer (op : StoreOp) {s : MemoryStore} {id : RowId} {row : StoredRow}
    (hrow : (op.run s).stored? id = some row) :
    s.stored? id = some row ∨ s.lastVersion < row.version := by
  by_cases h : op.Touches s id
  · have hversion := (stored?_run_of_touches h hrow).1
    exact .inr (by omega)
  · exact .inl ((stored?_run_of_not_touches h).symm.trans hrow)

/-! ## Sequences of operations -/

/-- A row that is found later was there before, or its version is newer than all that were used. -/
theorem stored?_runAll_eq_or_newer {ops : List StoreOp} {s : MemoryStore} {id : RowId}
    {row : StoredRow} (hrow : (runAll ops s).stored? id = some row) :
    s.stored? id = some row ∨ s.lastVersion < row.version := by
  induction ops generalizing s with
  | nil => exact .inl hrow
  | cons op ops ih =>
    rcases ih hrow with hbetween | hnew
    · exact stored?_run_eq_or_newer op hbetween
    · exact .inr (Nat.lt_of_le_of_lt (lastVersion_le_run op s) hnew)

theorem stored?_runAll_of_noneTouch {ops : List StoreOp} {s : MemoryStore} {id : RowId}
    (h : NoneTouch ops s id) : (runAll ops s).stored? id = s.stored? id := by
  induction ops generalizing s with
  | nil => rfl
  | cons op ops ih => exact (ih h.2).trans (stored?_run_of_not_touches h.1)

end StoreOp

/-! ## Reachable stores -/

/-- What holds of the empty store and is kept by every operation holds of every reachable store. -/
theorem Reachable.induction {P : MemoryStore → Prop} (hempty : P .empty)
    (hrun : ∀ s op, P s → P (StoreOp.run op s)) {s : MemoryStore} (h : Reachable s) : P s := by
  have hall (ops : List StoreOp) : ∀ s, P s → P (StoreOp.runAll ops s) := by
    induction ops with
    | nil => exact fun _ hs => hs
    | cons op ops ih => exact fun s hs => ih _ (hrun s op hs)
  obtain ⟨ops, rfl⟩ := h
  exact hall ops .empty hempty

/-- No row has a version that the counter has not reached. -/
def VersionsUsed (s : MemoryStore) : Prop :=
  ∀ id row, s.stored? id = some row → row.version ≤ s.lastVersion

/-- Every row belongs to a table that exists. -/
def RowsHaveTables (s : MemoryStore) : Prop :=
  ∀ id row, s.stored? id = some row → s.hasTable id.table = true

theorem VersionsUsed.run {s : MemoryStore} (h : VersionsUsed s) (op : StoreOp) :
    VersionsUsed (op.run s) := by
  intro id row hrow
  by_cases htouch : op.Touches s id
  · obtain ⟨hversion, hlast⟩ := StoreOp.stored?_run_of_touches htouch hrow
    omega
  · rw [StoreOp.stored?_run_of_not_touches htouch] at hrow
    exact Nat.le_trans (h id row hrow) (op.lastVersion_le_run s)

theorem RowsHaveTables.run {s : MemoryStore} (h : RowsHaveTables s) (op : StoreOp) :
    RowsHaveTables (op.run s) := by
  intro id row hrow
  refine op.hasTable_run ?_
  by_cases htouch : op.Touches s id
  · exact StoreOp.hasTable_of_touches htouch hrow
  · rw [StoreOp.stored?_run_of_not_touches htouch] at hrow
    exact h id row hrow

theorem Reachable.versionsUsed {s : MemoryStore} (h : Reachable s) : VersionsUsed s :=
  h.induction (fun _ _ hrow => by cases hrow) fun _ op hs => hs.run op

theorem Reachable.rowsHaveTables {s : MemoryStore} (h : Reachable s) : RowsHaveTables s :=
  h.induction (fun _ _ hrow => by cases hrow) fun _ op hs => hs.run op

/-! ## Writes that demand what was read -/

/-- Where the demand for what was read is met, the row is what was read. A row that was deleted and
made again in between has another version. -/
theorem stored?_eq_of_admits {s : MemoryStore} (hs : VersionsUsed s) {id : RowId}
    {ops : List StoreOp}
    (h : (ExpectedVersion.of (s.stored? id)).admits
      (((StoreOp.runAll ops s).stored? id).map StoredRow.version) = true) :
    (StoreOp.runAll ops s).stored? id = s.stored? id := by
  cases hread : s.stored? id with
  | none =>
    rw [hread] at h
    cases hnow : (StoreOp.runAll ops s).stored? id with
    | none => rfl
    | some row => simp [hnow, ExpectedVersion.of, ExpectedVersion.admits] at h
  | some row =>
    rw [hread] at h
    cases hnow : (StoreOp.runAll ops s).stored? id with
    | none => simp [hnow, ExpectedVersion.of, ExpectedVersion.admits] at h
    | some now =>
      have hversion : row.version = now.version := by
        simpa [hnow, ExpectedVersion.of, ExpectedVersion.admits] using h
      have hused := hs id row hread
      rcases StoreOp.stored?_runAll_eq_or_newer hnow with hsame | hnewer
      · exact (hread.symm.trans hsame).symm
      · omega

theorem admits_of_self (found : Option StoredRow) :
    (ExpectedVersion.of found).admits (found.map StoredRow.version) = true := by
  cases found <;> simp [ExpectedVersion.of, ExpectedVersion.admits]

/-- A write that demands what was read succeeds exactly if its table exists and the row is what was
read. -/
theorem writeRow_of_eq_written_iff {s : MemoryStore} (hs : VersionsUsed s) (id : RowId)
    (ops : List StoreOp) (w : RowWrite) :
    (MemoryStore.writeRow id w (.of (s.stored? id)) (StoreOp.runAll ops s)).1 = .ok .written ↔
      (StoreOp.runAll ops s).hasTable id.table = true ∧
        (StoreOp.runAll ops s).stored? id = s.stored? id := by
  rw [MemoryStore.writeRow_eq_written_iff]
  refine and_congr_right fun _ => ⟨stored?_eq_of_admits hs, fun hsame => ?_⟩
  rw [hsame]
  exact admits_of_self _

/-- A row is read, anything is done to the store, and the row is written under the demand that it is
what was read. If it is written, it was exactly what was read, and if nothing in between touched it
it is written, unless it was absent and its table does not exist. -/
theorem conditional_write_detects_every_change {s : MemoryStore} (hs : Reachable s) (id : RowId)
    {found : Option StoredRow} (hread : (TargetStore.readRow id s).1 = .ok found)
    (ops : List StoreOp) (w : RowWrite) :
    let now := StoreOp.runAll ops s
    let answer := (TargetStore.writeRow id w (.of found) now).1
    (answer = .ok .written → now.stored? id = found) ∧
      (StoreOp.NoneTouch ops s id → (found = none → now.hasTable id.table = true) →
        answer = .ok .written) := by
  have hfound : s.stored? id = found := Except.ok.inj hread
  subst hfound
  have hiff := writeRow_of_eq_written_iff hs.versionsUsed id ops w
  refine ⟨fun hwritten => (hiff.1 hwritten).2, fun hnone habsent => hiff.2 ⟨?_, ?_⟩⟩
  · cases hrow : s.stored? id with
    | none => exact habsent hrow
    | some row =>
      rw [← StoreOp.stored?_runAll_of_noneTouch hnone] at hrow
      exact (hs.runAll ops).rowsHaveTables id row hrow
  · exact StoreOp.stored?_runAll_of_noneTouch hnone

namespace Example

/-- A table with one column. -/
def orders : Schema := ⟨⟨["orders"], by decide, by decide, by decide⟩, [⟨"paid", false⟩], false⟩

/-- A row of that table. -/
def order : RowId := ⟨orders.name, ⟨[.bool true]⟩⟩

/-- What the row can hold. -/
def content (paid : Bool) : Document := .ofList [("paid", .bool paid)]

/-- A store that holds the row. -/
def filled : MemoryStore := StoreOp.runAll [.createTable orders, .insert order (content false)] .empty

end Example

/-- A row that is deleted and made again with the same data is not what was read. -/
theorem recreated_row_is_another :
    Reachable Example.filled ∧
      (TargetStore.readRow Example.order Example.filled).1 = .ok (some ⟨Example.content false, 1⟩) ∧
      (TargetStore.writeRow Example.order ⟨Example.content true, []⟩ (.exactly 1)
        (StoreOp.runAll [.delete Example.order, .insert Example.order (Example.content false)]
          Example.filled)).1 ≠ .ok .written := by
  have hreach : Reachable Example.filled := ⟨_, rfl⟩
  have hread : (TargetStore.readRow Example.order Example.filled).1 =
      .ok (some ⟨Example.content false, 1⟩) := rfl
  refine ⟨hreach, hread, fun hwritten => ?_⟩
  have hsame := (conditional_write_detects_every_change hreach Example.order hread
    [.delete Example.order, .insert Example.order (Example.content false)]
    ⟨Example.content true, []⟩).1 hwritten
  exact absurd hsame (by decide)

/-- A row of a table that does not exist is read as absent, and writing it is a fault. -/
theorem untouched_row_of_missing_table_is_not_written :
    ¬ ∀ (s : MemoryStore), Reachable s → ∀ (id : RowId) (found : Option StoredRow),
      (TargetStore.readRow id s).1 = .ok found → ∀ (ops : List StoreOp) (w : RowWrite),
        StoreOp.NoneTouch ops s id →
          (TargetStore.writeRow id w (.of found) (StoreOp.runAll ops s)).1 = .ok .written := by
  intro h
  have hwritten := h .empty ⟨[], rfl⟩ Example.order none rfl [] ⟨Example.content true, []⟩ trivial
  have hfault : (TargetStore.writeRow Example.order ⟨Example.content true, []⟩ .absent
    MemoryStore.empty).1 = .error (.tableNotInStore Example.orders.name.text) := rfl
  have habsurd := hwritten.symm.trans hfault
  cases habsurd

end Tributary
