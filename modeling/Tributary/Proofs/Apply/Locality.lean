import Tributary.Apply.Batch
import Tributary.Proofs.Apply.Footprint
import Tributary.Proofs.Store.Versions

/-!
# What the stages of a batch touch

Every function of the engine, run on a store in memory, is local: routing, preparation and the handling
of failures touch no row at all, and applying a mutation touches the row of the mutation.

An upsert demands the version that it has read. No step between the reading and the write touches the
row, so the demand is always met, the first attempt is the last, and the upsert is one that writes
whatever the version is (`upsertWithin_exec`), unless there is no attempt at all (`applyUpsert_eq`).

* `routeAll_local`, `settleRouted_local`, `prepareAll_local`, `settlePrepared_local`: the stages before
  rows are touched.
* `applyPrepared_local`, `applyGroup_local`: the rows of prepared mutations.
-/

namespace Tributary

open Run

/-! ## Reports and failures -/

theorem report_local (index : Nat) (table : Option TableName) (key : Option RowKey)
    (disposition : Disposition) : Local ∅ (report index table key disposition : Run MemoryStore _) :=
  (Local.logged _).bind fun _ => .pure _

theorem handleFailure_of_stop {σ : Type} [TargetStore σ] {options : Options} {source : String}
    {table : Option TableName} {m : Mutation} {operation : Option MergeOperation} {fault : Fault}
    (h : fault.action = .stop) :
    (handleFailure options source table m operation fault : Run σ _) = throw fault := by
  unfold handleFailure
  rw [h]

theorem handleFailure_local (options : Options) (source : String) (table : Option TableName)
    (m : Mutation) (operation : Option MergeOperation) (fault : Fault) :
    Local ∅ (handleFailure options source table m operation fault : Run MemoryStore _) := by
  unfold handleFailure
  split
  · exact .throw fault
  · exact .pure _
  · exact (park_local _).bind fun _ => .pure _

/-! ## Planning -/

theorem routeAll_local (source : SourceConfig) (options : Options) (index : Nat)
    (batch : List Mutation) : Local ∅ (routeAll source options index batch : Run MemoryStore _) := by
  induction batch generalizing index with
  | nil => exact .pure _
  | cons m rest ih =>
    unfold routeAll
    exact (Local.logged _).bind fun _ => (ih (index + 1)).bind fun _ => .pure _

theorem settleRouted_local (options : Options) (source : String) (number : Nat)
    (routed : List RoutedSource) :
    Local ∅ (settleRouted options source number routed : Run MemoryStore _) := by
  induction routed generalizing number with
  | nil => exact .pure _
  | cons head rest ih =>
    obtain ⟨index, m, result⟩ := head
    unfold settleRouted
    split
    · exact (report_local ..).bind fun _ => (ih (number + 1)).bind fun _ => .pure _
    · exact (ih _).bind fun _ => .pure _
    · refine (handleFailure_local ..).bind fun _ => (report_local ..).bind fun _ => ?_
      exact (ih (number + 1)).bind fun _ => .pure _

theorem prepare_local (registry : Registry) (clock : Clock) (placed : Placed) :
    Local ∅ (prepare registry clock placed : Run MemoryStore _) := by
  unfold prepare
  split
  · refine (schemaOf_local _).bind fun _ => (Local.fallible _).bind fun mapped => ?_
    cases mapped with
    | none => exact .pure _
    | some row =>
      refine (Local.liftM _).bind fun expired => ?_
      cases expired with
      | some _ => exact .pure _
      | none => exact (Local.liftM _).bind fun _ => .pure _
  · split
    · exact .throw _
    · exact .pure _

theorem prepareAll_local (registry : Registry) (clock : Clock) (placed : List Placed) :
    Local ∅ (prepareAll registry clock placed : Run MemoryStore _) := by
  induction placed with
  | nil => exact .pure _
  | cons p rest ih =>
    unfold prepareAll
    exact (prepare_local registry clock p).attempt.bind fun _ => ih.bind fun _ => .pure _

theorem settlePrepared_local (options : Options) (source : String) (prepared : List PreparedSource) :
    Local ∅ (settlePrepared options source prepared : Run MemoryStore _) := by
  induction prepared with
  | nil => exact .pure _
  | cons head rest ih =>
    obtain ⟨placed, result⟩ := head
    unfold settlePrepared
    dsimp only
    split
    · exact ih.bind fun _ => .pure _
    · exact (report_local ..).bind fun _ => ih.bind fun _ => .pure _
    · refine (handleFailure_local ..).bind fun _ => (report_local ..).bind fun _ => ?_
      exact ih.bind fun _ => .pure _

/-! ## Upserts -/

/-- The decision with another demand on the row, if it is to be written. -/
def Decision.expecting (expected : ExpectedVersion) : Decision → Decision
  | .write data _ => .write data expected
  | .settled disposition => .settled disposition

/-- What is decided on the data of the stored row of a table with compare-and-set columns. -/
def decideOn (registry : Registry) (source : String) (p : Prepared) (proposed : Document)
    (target : Option Document) : Run MemoryStore (Decision × MappedBefore) := do
  let before ← refreshBefore registry p proposed target none
  let resolution ← Run.logged
    (resolve (registry.table p.row.table) registry.options.functionTimeout
      ⟨p.row.table, proposed, before.join, p.mutation.origin⟩ target)
  let decision ← decideResolution registry source p none resolution
  return (decision, before)

/-- The version of what was read matters only as the demand on the row. -/
theorem decideResolution_eq (registry : Registry) (source : String) (p : Prepared)
    (current : Option StoredRow) (resolution : Resolution) :
    (decideResolution registry source p current resolution : Run MemoryStore _) =
      Decision.expecting (.of current) <$> decideResolution registry source p none resolution := by
  cases resolution <;> simp [decideResolution, Decision.expecting]

theorem decideCas_eq (registry : Registry) (source : String) (p : Prepared) (proposed : Document) :
    (decideCas registry source p proposed none : Run MemoryStore _) = do
      let current ← Run.store (TargetStore.readRow p.row)
      let decided ← decideOn registry source p proposed (current.map StoredRow.data)
      return (decided.1.expecting (.of current), decided.2) := by
  unfold decideCas decideOn
  simp only [bind_assoc, pure_bind]
  congr 1
  funext current
  rw [funext fun resolution => decideResolution_eq registry source p current resolution]
  simp only [bind_map_left]

theorem refreshBefore_local (registry : Registry) (p : Prepared) (proposed : Document)
    (target : Option Document) (known : MappedBefore) :
    Local ∅ (refreshBefore registry p proposed target known : Run MemoryStore _) := by
  unfold refreshBefore
  split
  · split
    · refine Local.bind ?_ fun _ => .pure _
      exact (schemaOf_local _).bind fun _ => (Local.fallible _).bind fun _ => .pure _
    · exact .pure _
  · exact .pure _

theorem decideOn_local (registry : Registry) (source : String) (p : Prepared) (proposed : Document)
    (target : Option Document) : Local ∅ (decideOn registry source p proposed target) := by
  refine (refreshBefore_local ..).bind fun _ => (Local.logged _).bind fun resolution => ?_
  refine Local.bind ?_ fun _ => .pure _
  cases resolution with
  | apply data => exact .pure _
  | park queue operation => exact (park_local _).bind fun _ => .pure _
  | drop reason operation => exact .pure _
  | failed fault operation => exact (handleFailure_local ..).bind fun _ => .pure _

/-- What is decided on the data of the stored row. -/
def decideData (registry : Registry) (source : String) (p : Prepared) (proposed : Document)
    (target : Option Document) : Run MemoryStore Decision :=
  if (registry.table p.row.table).isCas then
    Prod.fst <$> decideOn registry source p proposed target
  else return .write proposed .any

/-- An upsert that writes whatever the version is. -/
def overwriting (registry : Registry) (source : String) (p : Prepared) (row : MappedRow) :
    Run MemoryStore Disposition := do
  let target ← readData p.row
  match ← decideData registry source p row.row target with
  | .settled disposition => return disposition
  | .write data _ =>
    let _ ← overwriteRow p.row ⟨data, row.exprs⟩
    return .applied

/-- The first attempt to write what was decided on is the last. -/
theorem write_decided_exec {s : Session MemoryStore} {id : RowId} {expected : ExpectedVersion}
    (hadmits : expected.admits ((s.store.stored? id).map StoredRow.version) = true) (w : RowWrite)
    (again : Run MemoryStore Disposition) :
    (do match ← Run.store (TargetStore.writeRow id w expected) with
        | .written => return .applied
        | .versionMismatch => again : Run MemoryStore Disposition).exec s =
      (do let _ ← overwriteRow id w
          return .applied : Run MemoryStore Disposition).exec s := by
  have hwrite : (Run.store (TargetStore.writeRow id w expected)).exec s =
      (overwriteRow id w).exec s := by
    have hsame : MemoryStore.writeRow id w expected s.store = MemoryStore.writeRow id w .any s.store := by
      rw [MemoryStore.writeRow_of_admits hadmits, MemoryStore.writeRow_of_admits rfl]
    show ((MemoryStore.writeRow id w expected s.store).1,
      { s with store := (MemoryStore.writeRow id w expected s.store).2 }) = _
    rw [hsame]
    rfl
  rw [exec_bind, exec_bind, hwrite, overwriteRow_exec]
  by_cases htable : s.store.hasTable id.table = true
  · rw [if_pos htable]
  · rw [if_neg htable]

/-- On a store in memory an upsert is done with its first attempt. -/
theorem upsertWithin_exec (registry : Registry) (source : String) (p : Prepared) (row : MappedRow)
    (total attempts : Nat) (s : Session MemoryStore) :
    (upsertWithin registry source p row total (attempts + 1) none).exec s =
      (overwriting registry source p row).exec s := by
  unfold upsertWithin overwriting decideWrite decideData
  by_cases hcas : (registry.table p.row.table).isCas = true
  · simp only [hcas, if_true]
    rw [decideCas_eq, bind_assoc, exec_bind, exec_bind, readData_exec]
    show (_ >>= _ : Run MemoryStore Disposition).exec s = _
    have hrow : (s.store.stored? p.row).map StoredRow.data = s.store.row? p.row := rfl
    rw [hrow, bind_assoc, exec_bind]
    dsimp only
    rw [bind_map_left, exec_bind]
    obtain ⟨letters, hfollows⟩ :=
      (decideOn_local registry source p row.row (s.store.row? p.row)).follows s
    -- nothing between reading and writing touches the row, so that what is demanded is what is there
    have hstored := hfollows.stored p.row.address (Set.notMem_empty _)
    generalize (decideOn registry source p row.row (s.store.row? p.row)).exec s = decided at hstored ⊢
    obtain ⟨result, s'⟩ := decided
    cases result with
    | error fault => rfl
    | ok decided =>
      obtain ⟨decision, before⟩ := decided
      cases decision with
      | settled disposition => rfl
      | write data expected =>
        have hsame : s'.store.stored? p.row = s.store.stored? p.row := hstored
        refine write_decided_exec ?_ _ _
        rw [hsame]
        exact admits_of_self _
  · rw [Bool.not_eq_true] at hcas
    simp only [hcas, Bool.false_eq_true, if_false, pure_bind]
    have hadmits : ExpectedVersion.any.admits ((s.store.stored? p.row).map StoredRow.version) = true :=
      rfl
    rw [exec_bind (readData p.row), readData_exec]
    exact write_decided_exec hadmits _ _

/-- The fault of an upsert for which the options leave no attempt. -/
def Prepared.unattempted (p : Prepared) : Fault := .keepsChanging p.row.table.text p.row.key.text 0

/-- An upsert is one that writes whatever the version is, unless it is not attempted at all. -/
theorem applyUpsert_eq (registry : Registry) (source : String) (p : Prepared) (row : MappedRow) :
    (applyUpsert registry source p row : Run MemoryStore _) =
      if registry.options.attempts = 0 then throw p.unattempted
      else overwriting registry source p row := by
  unfold applyUpsert
  cases registry.options.attempts with
  | zero => rfl
  | succ attempts =>
    rw [if_neg (Nat.succ_ne_zero attempts)]
    exact funext fun s => upsertWithin_exec registry source p row (attempts + 1) attempts s

theorem applyPrepared_of_upsert (source : String) {p : Prepared} {row : MappedRow} (haction : p.action = .upsert row) :
    (applyPrepared registry source p : Run MemoryStore _) =
      if registry.options.attempts = 0 then throw p.unattempted else overwriting registry source p row := by
  rw [applyPrepared, haction]
  exact applyUpsert_eq registry source p row

/-! ## Rows -/

theorem overwriting_local (registry : Registry) (source : String) (p : Prepared) (row : MappedRow) :
    Local {p.row.address} (overwriting registry source p row) := by
  unfold overwriting
  refine (readData_local p.row).bind fun target => Local.bind ?_ fun decision => ?_
  · unfold decideData
    split
    · exact ((decideOn_local ..).map _).anywhere
    · exact .pure _
  · cases decision with
    | settled disposition => exact .pure _
    | write data expected => exact (overwriteRow_local ..).bind fun _ => .pure _

/-- Applying a mutation touches its row. -/
theorem applyPrepared_local (registry : Registry) (source : String) (p : Prepared) :
    Local {p.row.address} (applyPrepared registry source p : Run MemoryStore _) := by
  unfold applyPrepared
  split
  · rename_i row haction
    rw [applyUpsert_eq]
    split
    · exact .throw _
    · exact overwriting_local registry source p row
  · exact (deleteRow_local p.row).bind fun _ => .pure _

/-- The places of the rows of prepared mutations. -/
def places (ps : List Prepared) : Set RowAddress := { place | ∃ p ∈ ps, p.row.address = place }

/-- Disposes of a mutation that was applied or failed. -/
def disposeOf {σ : Type} [TargetStore σ] (registry : Registry) (source : String) (p : Prepared) :
    Result Disposition → Run σ Disposition
  | .ok disposition => return disposition
  | .error fault => handleFailure registry.options source (some p.row.table) p.mutation none fault

/-- Applies one mutation, and reports what became of it. -/
def applyOne {σ : Type} [TargetStore σ] (registry : Registry) (source : String) (p : Prepared) :
    Run σ (Nat × Outcome) := do
  let result ← (applyPrepared registry source p).attempt
  let disposition ← disposeOf registry source p result
  let outcome ← report p.placed.index (some p.row.table) (some p.key) disposition
  return (p.placed.number, outcome)

theorem applyGroup_cons {σ : Type} [TargetStore σ] (registry : Registry) (source : String)
    (p : Prepared) (rest : List Prepared) :
    (applyGroup registry source (p :: rest) : Run σ _) = do
      let first ← applyOne registry source p
      let others ← applyGroup registry source rest
      return first :: others := by
  simp only [applyGroup, applyOne, bind_assoc, pure_bind]
  congr 1
  funext result
  cases result <;> simp [disposeOf]

theorem applyOne_local (registry : Registry) (source : String) (p : Prepared) :
    Local {p.row.address} (applyOne registry source p : Run MemoryStore _) := by
  refine (applyPrepared_local registry source p).attempt.bind fun result => ?_
  refine Local.bind ?_ fun disposition => (report_local ..).anywhere.bind fun _ => .pure _
  cases result with
  | ok disposition => exact .pure _
  | error fault => exact (handleFailure_local ..).anywhere

/-- Applying mutations touches their rows. -/
theorem applyGroup_local (registry : Registry) (source : String) (ps : List Prepared) :
    Local (places ps) (applyGroup registry source ps : Run MemoryStore _) := by
  induction ps with
  | nil => exact .pure _
  | cons p rest ih =>
    rw [applyGroup_cons]
    refine ((applyOne_local registry source p).mono ?_).bind fun _ => (ih.mono ?_).bind fun _ => .pure _
    · intro place hplace
      exact ⟨p, List.mem_cons_self, hplace.symm⟩
    · intro place hplace
      obtain ⟨q, hq, rfl⟩ := hplace
      exact ⟨q, List.mem_cons_of_mem p hq, rfl⟩

end Tributary
