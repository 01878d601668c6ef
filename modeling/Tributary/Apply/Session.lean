import Tributary.Script.Registry
import Tributary.Store.Basic

/-!
# Sessions

A session is what the engine works on: the store, the shapes of tables that it has read, and the
record of calls and counts. A step that fails keeps what it did before it failed.

* `Run`: a step on a session; `Run.exec` runs it, and one law for each operation says how.
* `Run.attempt`: the result of a step as a value.
* `schemaOf`: the shape of a table, which is read from the store once.
-/

namespace Tributary

/-- What the engine works on. -/
structure Session (σ : Type) where
  store : σ
  /-- The shapes of tables that were read. -/
  schemas : Keyed TableName Schema
  trace : Trace

/-- A step on a session. -/
abbrev Run (σ α : Type) := ExceptT Fault (StateM (Session σ)) α

namespace Session

/-- A session with a store of which nothing is known. -/
def ofStore {σ : Type} (store : σ) : Session σ := ⟨store, .empty, .empty⟩

end Session

namespace Run

variable {σ α β : Type}

/-- Runs a step on a session. -/
def exec (step : Run σ α) (s : Session σ) : Result α × Session σ := StateT.run (ExceptT.run step) s

/-- The step that a function on sessions is. -/
def ofFunction (f : Session σ → Result α × Session σ) : Run σ α := ExceptT.mk f

/-- An operation on the store. -/
def store (action : StoreAction σ α) : Run σ α :=
  ofFunction fun s => ((action s.store).1, { s with store := (action s.store).2 })

/-- A computation that records calls and counts. -/
def logged (x : Logged α) : Run σ α :=
  ofFunction fun s => (.ok x.value, { s with trace := s.trace ++ x.trace })

/-- A computation that records calls and counts and may fail. -/
def fallible (x : Logged.Fallible α) : Run σ α :=
  ofFunction fun s => (x.attempt.value, { s with trace := s.trace ++ x.attempt.trace })

/-- The result of a step, as a value. -/
def attempt (step : Run σ α) : Run σ (Result α) :=
  ofFunction fun s => (.ok (step.exec s).1, (step.exec s).2)

/-- The shape of a table that was read before. -/
def known? (table : TableName) : Run σ (Option Schema) :=
  ofFunction fun s => (.ok (s.schemas.get? table), s)

/-- Keeps the shape of a table. -/
def remember (table : TableName) (schema : Schema) : Run σ Unit :=
  ofFunction fun s => (.ok (), { s with schemas := s.schemas.put table schema })

/-! ## Laws -/

@[simp] theorem exec_pure (a : α) (s : Session σ) : (pure a : Run σ α).exec s = (.ok a, s) := rfl

@[simp] theorem exec_throw (fault : Fault) (s : Session σ) :
    (throw fault : Run σ α).exec s = (.error fault, s) := rfl

@[simp] theorem exec_ofFunction (f : Session σ → Result α × Session σ) (s : Session σ) :
    (ofFunction f).exec s = f s := rfl

@[simp] theorem exec_liftM (r : Result α) (s : Session σ) :
    (liftM r : Run σ α).exec s = (r, s) := by
  cases r <;> rfl

@[simp] theorem exec_attempt (step : Run σ α) (s : Session σ) :
    step.attempt.exec s = (.ok (step.exec s).1, (step.exec s).2) := rfl

/-- What follows a failed step is left out. -/
theorem exec_bind (step : Run σ α) (next : α → Run σ β) (s : Session σ) :
    (step >>= next).exec s =
      match step.exec s with
      | (.ok a, s) => (next a).exec s
      | (.error fault, s) => (.error fault, s) := by
  simp only [exec, ExceptT.run_bind, StateT.run_bind]
  simp only [bind]
  generalize StateT.run (ExceptT.run step) s = r
  obtain ⟨r, s⟩ := r
  cases r <;> rfl

end Run

/-- The shape of a table. -/
def schemaOf {σ : Type} [TargetStore σ] (table : TableName) : Run σ Schema := do
  match ← Run.known? table with
  | some schema => return schema
  | none =>
    match ← Run.store (TargetStore.tableSchema table) with
    | none => throw (.noDestinationTable table.text)
    | some schema =>
      Run.remember table schema
      return schema

end Tributary
