import Tributary.Merge.Order
import Tributary.Script.Registry

/-!
# Conflict resolution

What happens to a proposed row, given the stored one.

* `resolve`: without a stored row, or without a conflict, the proposed row is applied. A conflict is
  counted and left to the merge of the table; without one the proposed row is dropped as stale.
-/

namespace Tributary

/-- A proposed row and what a merge needs to know about it. -/
structure Proposal where
  table : TableName
  proposed : Document
  before : Option Document
  origin : Document
  deriving DecidableEq, Repr

/-- The decision about a proposed row. -/
inductive Resolution where
  /-- Write the document. -/
  | apply (document : Document)
  /-- Park the change in a dead-letter queue. -/
  | park (queue : String) (operation : MergeOperation)
  /-- Discard the change. -/
  | drop (reason : DropReason) (operation : MergeOperation)
  /-- The merge failed. -/
  | failed (fault : Fault) (operation : MergeOperation)
  deriving Repr

/-- The operation of a conflict. -/
def Proposal.operation (p : Proposal) (target : Document) : MergeOperation :=
  ⟨p.before, p.origin, p.proposed, target, []⟩

/-- The decision that the result of a merge stands for. -/
def Resolution.ofResult (op : MergeOperation) : Result MergeResult → Resolution
  | .ok (.apply document) => .apply document
  | .ok (.park queue) => .park queue op
  | .ok .drop => .drop .mergeDropped op
  | .error fault => .failed fault op

/-- The result of a merge strategy. -/
def MergeStrategy.run (strategy : MergeStrategy) (timeout : Span) (op : MergeOperation) :
    Logged.Fallible MergeResult :=
  match strategy with
  | .standard fallback => runStandard timeout fallback op
  | .custom merge => runMerge timeout merge op

/-- The decision about a conflict. -/
def resolveConflict (config : TableConfig) (timeout : Span) (op : MergeOperation) :
    Logged Resolution :=
  match config.merge with
  | none => return .drop .stale op
  | some strategy => do
    let result ← (strategy.run timeout op).attempt
    return .ofResult op result

/-- The decision about a proposed row. -/
def resolve (config : TableConfig) (timeout : Span) (p : Proposal) (target : Option Document) :
    Logged Resolution :=
  match target with
  | none => return .apply p.proposed
  | some target =>
    if conflicts config.cas p.proposed target then do
      Logged.count (.conflict p.table)
      resolveConflict config timeout (p.operation target)
    else return .apply p.proposed

end Tributary
