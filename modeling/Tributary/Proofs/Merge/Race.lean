import Mathlib.Logic.Function.Basic
import Tributary.Merge.Resolve
import Tributary.Proofs.Merge.ValueOrder
import Tributary.Proofs.Store.Versions

/-!
# Upserts that race for a row

Any number of clients upsert rows of one store. Each client reads its row, resolves its proposal against
what it has read, and later writes under the demand that the row is still what was read. Reading and
writing are separate moves, nothing is locked, and anybody may do anything else to the store in between.

* `Race.step`: the moves. A client that has resolved its proposal holds the write that it will do; after
  a write, successful or not, it may read again.
* `Race.Sound`: the invariant. What a client holds is what its proposal comes to against a row that was
  read from an earlier state of the same store. Every move keeps it, so it holds along every run.
* `written_row_is_not_older`: on a table without a merge no write makes the columns that order the
  versions of a row older, under whatever interleaving of the moves.
-/

namespace Tributary

/-! ## Resolution without a merge -/

/-- On a table without a merge a proposal is applied as it is, or dropped as stale if it conflicts. -/
theorem resolve_of_merge_eq_none {config : TableConfig} (hmerge : config.merge = none)
    (timeout : Span) (p : Proposal) (target : Option Document) :
    (resolve config timeout p target).value =
      match target with
      | none => .apply p.proposed
      | some target =>
        if conflicts config.cas p.proposed target then .drop .stale (p.operation target)
        else .apply p.proposed := by
  cases target with
  | none => rfl
  | some target =>
    by_cases hconflict : conflicts config.cas p.proposed target = true
    · simp [resolve, resolveConflict, hconflict, hmerge]
    · simp [resolve, hconflict]

/-! ## Clients -/

/-- An upsert that a client carries out. -/
structure Task where
  row : RowId
  proposed : Document
  before : Option Document
  origin : Document
  exprs : List (String × String)

/-- A write that a client will do, and what it found when it read the row. -/
structure Held where
  found : Option StoredRow
  data : Document

/-- The configuration of the table of a task. -/
def Task.config (registry : Registry) (task : Task) : TableConfig := registry.table task.row.table

/-- The write that a proposal comes to against what was found, if it comes to one. -/
def Task.decide (registry : Registry) (task : Task) (found : Option StoredRow) : Option Held :=
  let proposal : Proposal := ⟨task.row.table, task.proposed, task.before, task.origin⟩
  match (resolve (task.config registry) registry.options.functionTimeout proposal
    (found.map StoredRow.data)).value with
  | .apply data => some ⟨found, data⟩
  | _ => none

/-- A store and what the clients that work on it hold. -/
structure Race (ι : Type) where
  store : MemoryStore
  held : ι → Option Held

namespace Race

/-- A move of a client, or an operation of somebody else. -/
inductive Move (ι : Type) where
  | read (client : ι)
  | write (client : ι)
  | other (op : StoreOp)

variable {ι : Type}

/-- The conditional write of a client that holds one. -/
def attempt (task : ι → Task) (s : Race ι) (client : ι) (h : Held) :
    Result WriteOutcome × MemoryStore :=
  TargetStore.writeRow (task client).row ⟨h.data, (task client).exprs⟩ (.of h.found) s.store

/-- One move. -/
def step [DecidableEq ι] (registry : Registry) (task : ι → Task) (s : Race ι) : Move ι → Race ι
  | .read client =>
    let found := s.store.stored? (task client).row
    { s with held := Function.update s.held client ((task client).decide registry found) }
  | .write client =>
    match s.held client with
    | none => s
    | some h => ⟨(s.attempt task client h).2, Function.update s.held client none⟩
  | .other op => { s with store := op.run s.store }

/-- One move after another. -/
def runAll [DecidableEq ι] (registry : Registry) (task : ι → Task) (moves : List (Move ι))
    (s : Race ι) : Race ι :=
  moves.foldl (step registry task) s

/-! ## The invariant -/

/-- What a client holds was decided on a row that it read from an earlier state of the store. -/
def Decided (registry : Registry) (task : Task) (store : MemoryStore) (h : Held) : Prop :=
  ∃ before ops, Reachable before ∧ store = StoreOp.runAll ops before ∧
    task.decide registry (before.stored? task.row) = some h ∧ before.stored? task.row = h.found

/-- The store comes about from an empty one, and every client holds what it decided. -/
structure Sound (registry : Registry) (task : ι → Task) (s : Race ι) : Prop where
  reachable : Reachable s.store
  decided : ∀ client h, s.held client = some h → Decided registry (task client) s.store h

theorem Decided.runAll {registry : Registry} {task : Task} {store : MemoryStore} {h : Held}
    (hd : Decided registry task store h) (ops : List StoreOp) :
    Decided registry task (StoreOp.runAll ops store) h := by
  obtain ⟨before, earlier, hreach, rfl, hdecide, hfound⟩ := hd
  exact ⟨before, earlier ++ ops, hreach, (StoreOp.runAll_append earlier ops before).symm, hdecide, hfound⟩

theorem found_of_decide {registry : Registry} {task : Task} {found : Option StoredRow} {h : Held}
    (hdecide : task.decide registry found = some h) : h.found = found := by
  unfold Task.decide at hdecide
  dsimp only at hdecide
  split at hdecide
  · cases hdecide
    rfl
  · cases hdecide

/-- Whatever is done to the store, and whatever writes are given up, the invariant stays. -/
theorem Sound.runAll_store {registry : Registry} {task : ι → Task} {s : Race ι}
    (hs : Sound registry task s) (ops : List StoreOp) {held : ι → Option Held}
    (hheld : ∀ client h, held client = some h → s.held client = some h) :
    Sound registry task ⟨StoreOp.runAll ops s.store, held⟩ where
  reachable := hs.reachable.runAll ops
  decided client h hc := (hs.decided client h (hheld client h hc)).runAll ops

variable [DecidableEq ι]

theorem Sound.step {registry : Registry} {task : ι → Task} {s : Race ι}
    (hs : Sound registry task s) (move : Move ι) : Sound registry task (s.step registry task move) := by
  cases move with
  | read client =>
    refine ⟨hs.reachable, fun other h hother => ?_⟩
    simp only [Race.step] at hother ⊢
    by_cases he : other = client
    · subst he
      rw [Function.update_self] at hother
      exact ⟨s.store, [], hs.reachable, rfl, hother, (found_of_decide hother).symm⟩
    · rw [Function.update_of_ne he] at hother
      exact hs.decided other h hother
  | write client =>
    cases hclient : s.held client with
    | none => simpa only [Race.step, hclient] using hs
    | some held =>
      simp only [Race.step, hclient]
      refine hs.runAll_store [.write (task client).row ⟨held.data, (task client).exprs⟩ (.of held.found)]
        fun other h hother => ?_
      by_cases he : other = client
      · subst he
        rw [Function.update_self] at hother
        cases hother
      · rwa [Function.update_of_ne he] at hother
  | other op => exact hs.runAll_store [op] fun _ _ h => h

theorem Sound.runAll {registry : Registry} {task : ι → Task} {s : Race ι}
    (hs : Sound registry task s) (moves : List (Move ι)) :
    Sound registry task (s.runAll registry task moves) := by
  induction moves generalizing s with
  | nil => exact hs
  | cons move moves ih => exact ih (hs.step move)

/-! ## Writes over a row -/

omit [DecidableEq ι] in
/-- Without a merge, a client that read a row holds its proposal, which does not conflict with it. -/
theorem data_of_decide {registry : Registry} {task : Task}
    (hmerge : (task.config registry).merge = none) {old : StoredRow} {h : Held}
    (hdecide : task.decide registry (some old) = some h) :
    h.data = task.proposed ∧ conflicts (task.config registry).cas task.proposed old.data = false := by
  unfold Task.decide at hdecide
  simp only [resolve_of_merge_eq_none hmerge, Option.map_some] at hdecide
  by_cases hconflict : conflicts (task.config registry).cas task.proposed old.data = true
  · simp [hconflict] at hdecide
  · simp only [hconflict, if_false, Option.some.injEq, Bool.false_eq_true] at hdecide
    exact ⟨hdecide ▸ rfl, Bool.eq_false_iff.2 hconflict⟩

/-- A write that succeeds over a row lays the proposal over exactly the row that the client read. -/
theorem Sound.stored?_write {registry : Registry} {task : ι → Task} {s : Race ι}
    (hs : Sound registry task s) {client : ι} (hmerge : ((task client).config registry).merge = none)
    {h : Held} (hheld : s.held client = some h) {old : StoredRow}
    (hold : s.store.stored? (task client).row = some old)
    (hwritten : (s.attempt task client h).1 = .ok .written) :
    conflicts ((task client).config registry).cas (task client).proposed old.data = false ∧
      ((s.step registry task (.write client)).store.stored? (task client).row).map StoredRow.data =
        some (old.data.overlay (task client).proposed) := by
  obtain ⟨before, ops, hreach, hstore, hdecide, hfound⟩ := hs.decided client h hheld
  have hsame : s.store.stored? (task client).row = h.found := by
    rw [Race.attempt, hstore, ← hfound] at hwritten
    rw [hstore, ← hfound]
    exact ((writeRow_of_eq_written_iff hreach.versionsUsed _ ops _).1 hwritten).2
  rw [hfound, ← hsame, hold] at hdecide
  obtain ⟨hdata, hconflict⟩ := data_of_decide hmerge hdecide
  refine ⟨hconflict, ?_⟩
  have hstep : (s.step registry task (.write client)).store = (s.attempt task client h).2 := by
    simp only [Race.step, hheld]
  rcases MemoryStore.writeRow_cases (task client).row ⟨h.data, (task client).exprs⟩ (.of h.found)
    s.store with ⟨-, -, -, hrows⟩ | ⟨-, -, hw⟩ | ⟨-, hw⟩
  · rw [hstep]
    have hnew := hrows (task client).row
    rw [if_pos rfl] at hnew
    refine (congrArg (Option.map StoredRow.data) hnew).trans ?_
    simp [MemoryStore.row?, hold, hdata]
  · have habsurd := (congrArg Prod.fst hw).symm.trans hwritten
    cases habsurd
  · have habsurd := (congrArg Prod.fst hw).symm.trans hwritten
    cases habsurd

end Race

/-- From any store on, in every interleaving of reads, writes and whatever else is done to the store: a
client's write that succeeds over a row of a table without a merge leaves a row that is not older than
the one it replaced, if the columns that tell have plain values. -/
theorem written_row_is_not_older {ι : Type} [DecidableEq ι] (registry : Registry) (task : ι → Task)
    {start : Race ι} (hreach : Reachable start.store) (hidle : ∀ client, start.held client = none)
    (moves : List (Race.Move ι)) {client : ι} (hmerge : ((task client).config registry).merge = none) :
    let s := start.runAll registry task moves
    let columns := ((task client).config registry).cas
    ∀ h old, s.held client = some h → s.store.stored? (task client).row = some old →
      PlainColumns columns (task client).proposed → PlainColumns columns old.data →
      (s.attempt task client h).1 = .ok .written →
      ∃ new, (s.step registry task (.write client)).store.stored? (task client).row = some new ∧
        casOrder columns new.data old.data ≠ .lt := by
  intro s columns h old hheld hold hproposed holdPlain hwritten
  have hstart : Race.Sound registry task start :=
    ⟨hreach, fun c h hc => absurd ((hidle c).symm.trans hc) (by simp)⟩
  obtain ⟨hconflict, hnew⟩ := (hstart.runAll moves).stored?_write hmerge hheld hold hwritten
  obtain ⟨new, hstored, hdata⟩ := Option.map_eq_some_iff.1 hnew
  exact ⟨new, hstored, hdata ▸ casOrder_overlay_ne_lt hproposed holdPlain hconflict⟩

namespace Example

/-- A registry in which one column of a table tells which version of a row is newer. -/
def registry : Registry :=
  ⟨.default, .empty, Keyed.empty.put orders.name { TableConfig.plain with cas := ["paid"] }⟩

/-- Two clients that propose different values. -/
def rivals (paid : Bool) : Task := ⟨order, content paid, none, .empty, []⟩

/-- Both read the row while its column is missing, and both write; the second write fails, so its client
reads again. -/
def contest : List (Race.Move Bool) :=
  [.read false, .read true, .write false, .write true, .read true]

/-- The race before its first move. -/
def lineup : Race Bool :=
  ⟨StoreOp.runAll [.createTable orders, .insert order .empty] .empty, fun _ => none⟩

end Example

theorem contested_row_is_not_older :
    let s := Example.lineup.runAll Example.registry Example.rivals Example.contest
    s.held true = some ⟨some ⟨Example.content false, 2⟩, Example.content true⟩ ∧
      s.store.stored? Example.order = some ⟨Example.content false, 2⟩ ∧
      ∃ new, (s.step Example.registry Example.rivals (.write true)).store.stored? Example.order
        = some new ∧ casOrder ["paid"] new.data (Example.content false) ≠ .lt := by
  have hplain (paid : Bool) : PlainColumns ["paid"] (Example.content paid) := by
    intro column hcolumn v hv
    cases List.mem_singleton.1 hcolumn
    cases hv
    trivial
  exact ⟨rfl, rfl, written_row_is_not_older Example.registry Example.rivals ⟨_, rfl⟩ (fun _ => rfl)
    Example.contest rfl ⟨some ⟨Example.content false, 2⟩, Example.content true⟩
    ⟨Example.content false, 2⟩ rfl rfl (hplain true) (hplain false) rfl⟩

end Tributary
