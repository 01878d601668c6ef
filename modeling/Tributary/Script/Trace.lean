import Tributary.Metric
import Tributary.Script.Function

/-!
# Records

Computations that call user functions record the calls and what is counted.

* `Trace`: what was recorded, in order. Traces form a monoid.
* `Logged`: a value with a trace; `value_bind` and `trace_bind` say what sequences do to either.
* `Logged.Fallible`: a recording computation that may fail, and then keeps its trace;
  `attempt_bind` says what sequences do.
-/

namespace Tributary

/-- What was recorded, in order. -/
structure Trace where
  calls : List Call
  metrics : List Metric
  deriving DecidableEq, Repr

namespace Trace

/-- Nothing recorded. -/
def empty : Trace := ⟨[], []⟩

instance : Inhabited Trace := ⟨empty⟩

/-- One trace after another. -/
def append (a b : Trace) : Trace := ⟨a.calls ++ b.calls, a.metrics ++ b.metrics⟩

instance : Append Trace := ⟨append⟩

@[simp] theorem calls_append (a b : Trace) : (a ++ b).calls = a.calls ++ b.calls := rfl

@[simp] theorem metrics_append (a b : Trace) : (a ++ b).metrics = a.metrics ++ b.metrics := rfl

@[simp] theorem empty_append (t : Trace) : empty ++ t = t := rfl

@[simp] theorem append_empty (t : Trace) : t ++ empty = t := by
  obtain ⟨calls, metrics⟩ := t
  show append _ _ = _
  simp [append, empty]

theorem append_assoc (a b c : Trace) : a ++ b ++ c = a ++ (b ++ c) := by
  show append (append a b) c = append a (append b c)
  simp [append]

end Trace

/-- A computation that records calls and counts. -/
structure Logged (α : Type) where
  value : α
  trace : Trace
  deriving Repr

namespace Logged

variable {α β : Type}

instance : Monad Logged where
  pure a := ⟨a, .empty⟩
  bind x f := ⟨(f x.value).value, x.trace ++ (f x.value).trace⟩

@[simp] theorem value_pure (a : α) : (pure a : Logged α).value = a := rfl

@[simp] theorem trace_pure (a : α) : (pure a : Logged α).trace = .empty := rfl

@[simp] theorem value_bind (x : Logged α) (f : α → Logged β) :
    (x >>= f).value = (f x.value).value := rfl

@[simp] theorem trace_bind (x : Logged α) (f : α → Logged β) :
    (x >>= f).trace = x.trace ++ (f x.value).trace := rfl

/-- Records a call. -/
def call (c : Call) : Logged Unit := ⟨(), ⟨[c], []⟩⟩

/-- Records a count. -/
def count (m : Metric) : Logged Unit := ⟨(), ⟨[], [m]⟩⟩

/-- A recording computation that may fail; what it recorded before it failed stays. -/
abbrev Fallible := ExceptT Fault Logged

namespace Fallible

/-- The result of a fallible computation, as a value. -/
def attempt (x : Fallible α) : Logged (Result α) := x.run

@[simp] theorem attempt_pure (a : α) : (pure a : Fallible α).attempt = pure (.ok a) := rfl

@[simp] theorem attempt_throw (fault : Fault) :
    (throw fault : Fallible α).attempt = pure (.error fault) := rfl

@[simp] theorem attempt_result (r : Result α) : (liftM r : Fallible α).attempt = pure r := by
  cases r <;> rfl

theorem attempt_logged (x : Logged α) : (liftM x : Fallible α).attempt = ⟨.ok x.value, x.trace⟩ := by
  show Logged.mk _ (x.trace ++ Trace.empty) = _
  rw [Trace.append_empty]
  rfl

/-- What follows a failure is left out, and its trace with it. -/
theorem attempt_bind (x : Fallible α) (next : α → Fallible β) :
    (x >>= next).attempt =
      match x.attempt with
      | ⟨.ok a, t⟩ => ⟨(next a).attempt.value, t ++ (next a).attempt.trace⟩
      | ⟨.error fault, t⟩ => ⟨.error fault, t⟩ := by
  unfold attempt
  rw [ExceptT.run_bind]
  generalize ExceptT.run x = r
  obtain ⟨r, t⟩ := r
  cases r
  · show Logged.mk _ (t ++ Trace.empty) = _
    rw [Trace.append_empty]
    rfl
  · rfl

end Fallible

end Logged

end Tributary
