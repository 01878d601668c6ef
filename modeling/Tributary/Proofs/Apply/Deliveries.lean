import Tributary.Apply.Startup
import Tributary.Proofs.Apply.Sequential
import Tributary.Proofs.Apply.Views

/-!
# An engine over its life

An engine is started once and is then given one batch after the other, from any source, each of which
succeeds or fails.

* `Session.afterAll`: the session behind a history of batches; what every batch keeps holds after all.
* `start_store`, `start_shape`: a started engine has read shapes of tables, and has changed nothing.
* `shape_afterAll`: no history changes a table.
-/

namespace Tributary

open Run

/-! ## Histories -/

/-- A batch that was received from a source, and the order in which its rows are taken. -/
structure Delivery where
  source : String
  clock : Clock
  batch : List Mutation
  arrangement : Arrangement

section

variable {σ : Type} [TargetStore σ]

/-- Processes what was received. -/
def Delivery.process (registry : Registry) (d : Delivery) : Run σ (List Outcome) :=
  processArranged registry d.clock d.source d.arrangement d.batch

/-- The session behind batches of which each has succeeded or failed. -/
def Session.afterAll (registry : Registry) (history : List Delivery) (s : Session σ) : Session σ :=
  history.foldl (fun s d => ((d.process registry).exec s).2) s

/-- What every batch keeps holds behind all of them. -/
theorem Session.afterAll_induction {registry : Registry} {P : Session σ → Prop}
    (hstep : ∀ s d, P s → P ((Delivery.process registry d).exec s).2) (history : List Delivery)
    {s : Session σ} (hs : P s) : P (s.afterAll registry history) := by
  induction history generalizing s with
  | nil => exact hs
  | cons d rest ih => exact ih (hstep s d hs)

end

/-- No history changes a table. -/
theorem sameTables_afterAll (registry : Registry) (history : List Delivery) (s : Session MemoryStore) :
    s.SameTables (s.afterAll registry history) := by
  refine Session.afterAll_induction (P := s.SameTables) (fun t d ht => ?_) history (.refl s)
  obtain ⟨letters, hfollows⟩ := (processArranged_local d.arrangement d.batch).follows t
  exact ht.trans hfollows.tables

/-! ## Startup -/

theorem Run.Keeps.mapM {σ α β γ : Type} {view : Session σ → γ} {f : α → Run σ β} (hf : ∀ a, Keeps view (f a))
    (as : List α) : Keeps view (as.mapM f) := by
  induction as with
  | nil => exact .pure _
  | cons a rest ih =>
    rw [List.mapM_cons]
    exact (hf a).bind fun _ => ih.bind fun _ => .pure _

/-- The store, and the shapes that the engine works with. -/
def Session.inUse (s : Session MemoryStore) : MemoryStore × (TableName → Option Schema) := (s.store, s.shape?)

theorem schemaOf_keeps_inUse (table : TableName) : Keeps Session.inUse (schemaOf table) := by
  refine ⟨fun s => ?_⟩
  obtain ⟨-, hstore, hsame⟩ := schemaOf_exec table s
  exact Prod.ext hstore (funext fun other => (hsame.shape other).symm)

theorem tableFaults_keeps (table : TableName) (config : TableConfig) :
    Keeps Session.inUse (tableFaults table config) := by
  refine (schemaOf_keeps_inUse table).attempt.bind fun result => ?_
  cases result <;> exact .pure _

theorem startupFaults_keeps (registry : Registry) : Keeps Session.inUse (startupFaults registry) := by
  have htable (e : TableName × TableConfig) : Keeps Session.inUse (tableFaults e.1 e.2) :=
    tableFaults_keeps e.1 e.2
  have hsource (e : String × SourceConfig) : Keeps Session.inUse (sourceFaults e.2) := by
    unfold sourceFaults
    split
    · exact .pure _
    · refine (schemaOf_keeps_inUse _).attempt.bind fun result => ?_
      cases result <;> exact .pure _
  have htables : Keeps Session.inUse (registry.tables.entries.mapM fun e => tableFaults e.1 e.2) :=
    Keeps.mapM htable registry.tables.entries
  have hsources : Keeps Session.inUse (registry.sources.entries.mapM fun e => sourceFaults e.2) :=
    Keeps.mapM hsource registry.sources.entries
  unfold startupFaults
  exact htables.bind fun _ => hsources.bind fun _ => .pure _

variable {registry : Registry} {store : MemoryStore} {s : Session MemoryStore}

/-- A session that was started is what the search for faults left, and there were none. -/
theorem exec_of_start (h : start registry store = .ok s) :
    (startupFaults registry).exec (.ofStore store) = (.ok [], s) := by
  unfold start at h
  split at h
  · cases h
  · split at h
    · cases h
    · next hexec =>
      cases h
      exact hexec
    · cases h

theorem start_inUse (h : start registry store = .ok s) : s.inUse = (Session.ofStore store).inUse := by
  have hkept := (startupFaults_keeps registry).kept (.ofStore store)
  rw [exec_of_start h] at hkept
  exact hkept

theorem start_store (h : start registry store = .ok s) : s.store = store :=
  congrArg Prod.fst (start_inUse h)

theorem start_shape (h : start registry store = .ok s) (table : TableName) :
    s.shape? table = store.schemas.get? table :=
  congrFun (congrArg Prod.snd (start_inUse h)) table

end Tributary
