import Tributary.Outcome

/-!
# Metrics

The counters that processing keeps. Each count carries labels.

* `Metric`: one count of a counter.
* `Metric.text`: the counter and its labels in braces, ascending by label.
* `Metric.ofOutcome`: what is counted for an outcome.
-/

namespace Tributary

/-- The counters. -/
inductive Counter where
  | applied
  | deleted
  | parked
  | dropped
  | conflicts
  | functionFailures
  deriving DecidableEq, Repr

namespace Counter

/-- All counters. -/
def all : List Counter := [applied, deleted, parked, dropped, conflicts, functionFailures]

/-- The name of a counter. -/
def name : Counter → String
  | applied => "sink_mutations_applied_total"
  | deleted => "sink_mutations_deleted_total"
  | parked => "sink_mutations_dlq_total"
  | dropped => "sink_mutations_dropped_total"
  | conflicts => "sink_merge_conflicts_total"
  | functionFailures => "sink_user_function_failures_total"

/-- What a counter counts. -/
def description : Counter → String
  | applied => "Total number of mutations written to destination tables"
  | deleted => "Total number of deletes applied to destination tables"
  | parked => "Total number of mutations sent to a dead-letter queue"
  | dropped => "Total number of mutations discarded, labelled by reason"
  | conflicts => "Total number of compare-and-set conflicts"
  | functionFailures =>
    "Total number of failed user function invocations, labelled by function"

end Counter

/-- One count of a counter under labels. -/
structure Metric where
  counter : Counter
  labels : List (String × String)
  deriving DecidableEq, Repr

namespace Metric

/-- The counter and its labels. -/
def text (m : Metric) : String :=
  let labels := m.labels.map fun l =>
    let label := l.1
    let value := l.2
    s!"{label}={value}"
  m.counter.name ++ "\x7b" ++ ",".intercalate labels ++ "\x7d"

/-- The text of a table that may be unknown. -/
def tableLabel (table : Option TableName) : String := (table.map TableName.text).getD ""

/-- What is counted for the disposition of a change to a table. -/
def ofDisposition (table : Option TableName) : Disposition → Metric
  | .applied => ⟨.applied, [("table_name", tableLabel table)]⟩
  | .deleted => ⟨.deleted, [("table_name", tableLabel table)]⟩
  | .parked queue => ⟨.parked, [("queue", queue), ("table_name", tableLabel table)]⟩
  | .dropped reason => ⟨.dropped, [("reason", reason.name), ("table_name", tableLabel table)]⟩

/-- What is counted for an outcome. -/
def ofOutcome (o : Outcome) : Metric := ofDisposition o.table o.disposition

/-- A conflict on a table. -/
def conflict (table : TableName) : Metric := ⟨.conflicts, [("table_name", table.text)]⟩

end Metric

end Tributary
