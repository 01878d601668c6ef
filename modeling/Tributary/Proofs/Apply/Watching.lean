import Tributary.Proofs.Apply.MergeRecord
import Tributary.Proofs.Row.Extras

/-!
# What is handed to a store

Any store can be watched: all operations go to the store within, and the writes are noted, whatever becomes of them.
Up to the rows, a batch hands over nothing. What it hands over then comes from the upserts that are ready, which carry
the expressions for the columns of their rows.

* `WatchedStore`: a store with the writes that were handed to it.
* `WriteProperty`: what can be said of a write and the calls that were made around it.
* `Run.HandsOver`: a step of which all writes have a property. `prepare_mapped` says that mutations that are ready
  carry the expressions of their rows.
* `processArranged_hands`: what holds of all writes of such upserts holds of all writes of a batch.
-/

namespace Tributary

open Run

/-! ## Watched stores -/

/-- A store with the writes that were handed to it, whatever became of them. -/
structure WatchedStore (σ : Type) where
  inner : σ
  handed : List (RowId × RowWrite)

namespace WatchedStore

variable {σ α : Type}

/-- Runs an operation of the store within. -/
def within (action : StoreAction σ α) : StoreAction (WatchedStore σ) α := fun s =>
  ((action s.inner).1, { s with inner := (action s.inner).2 })

instance [TargetStore σ] : TargetStore (WatchedStore σ) where
  tableSchema table := within (TargetStore.tableSchema table)
  readRow id := within (TargetStore.readRow id)
  writeRow id write expected s :=
    within (TargetStore.writeRow id write expected) { s with handed := s.handed ++ [(id, write)] }
  deleteRow id := within (TargetStore.deleteRow id)
  park letter := within (TargetStore.park letter)

end WatchedStore

/-- The session with its store watched from now on. -/
def Session.watched {σ : Type} (s : Session σ) : Session (WatchedStore σ) := ⟨⟨s.store, []⟩, s.schemas, s.trace⟩

/-- The writes that were handed to the store. -/
def Session.handed {σ : Type} (s : Session (WatchedStore σ)) : List (RowId × RowWrite) := s.store.handed

/-- A property of a write to a row, given the calls around it. Further calls do not take it away. -/
structure WriteProperty where
  Holds : List Call → RowId → RowWrite → Prop
  grow : ∀ {calls more id w}, calls ⊆ more → Holds calls id w → Holds more id w

/-! ## Steps that hand over writes -/

namespace Run

variable {σ α β : Type} {Q : WriteProperty} {P : α → Prop} {R : β → Prop}

/-- All writes that a step hands over have a property, whether or not it fails, and so does its result. -/
abbrev HandsOver (Q : WriteProperty) (P : α → Prop) (x : Run (WatchedStore σ) α) : Prop :=
  Leaves WatchedStore.handed
    (fun r calls more => (∀ e ∈ more, Q.Holds calls e.1 e.2) ∧ r.Within (fun _ => True) P) x

/-- A step that hands over nothing. -/
theorem HandsOver.of_exec {x : Run (WatchedStore σ) α} (h : ∀ s, (x.exec s).2.store.handed = s.store.handed ∧
    (∃ calls, (x.exec s).2.trace.calls = s.trace.calls ++ calls) ∧ (x.exec s).1.Within (fun _ => True) P) :
    HandsOver Q P x := by
  refine Leaves.of_exec fun s => ?_
  obtain ⟨hhanded, ⟨calls, hcalls⟩, hresult⟩ := h s
  exact ⟨hhanded, calls, hcalls, fun _ he => absurd he List.not_mem_nil, hresult⟩

theorem HandsOver.pure {a : α} (h : P a) : HandsOver Q P (pure a : Run (WatchedStore σ) α) :=
  .of_exec fun _ => ⟨rfl, ⟨[], (List.append_nil _).symm⟩, h⟩

theorem HandsOver.throw (fault : Fault) : HandsOver Q P (throw fault : Run (WatchedStore σ) α) :=
  .of_exec fun _ => ⟨rfl, ⟨[], (List.append_nil _).symm⟩, trivial⟩

theorem HandsOver.liftM (r : Result α) : HandsOver Q (fun _ => True) (liftM r : Run (WatchedStore σ) α) := by
  refine .of_exec fun s => ?_
  rw [exec_liftM]
  exact ⟨rfl, ⟨[], (List.append_nil _).symm⟩, .trivially r⟩

theorem HandsOver.logged (x : Logged α) :
    HandsOver Q (fun _ => True) (Run.logged x : Run (WatchedStore σ) α) :=
  .of_exec fun _ => ⟨rfl, ⟨_, rfl⟩, trivial⟩

theorem HandsOver.fallible {x : Logged.Fallible α} (hx : x.Within (fun _ => True) P) :
    HandsOver Q P (Run.fallible x : Run (WatchedStore σ) α) :=
  .of_exec fun _ => ⟨rfl, ⟨_, rfl⟩, hx.result⟩

theorem Quiet.handsOver {x : Run (WatchedStore σ) α} (hx : Quiet WatchedStore.handed x) :
    HandsOver Q (fun _ => True) x := by
  refine Leaves.mono hx fun r calls more h => ⟨?_, .trivially r⟩
  rw [h.2]
  exact fun _ he => absurd he List.not_mem_nil

theorem HandsOver.bind {x : Run (WatchedStore σ) α} {f : α → Run (WatchedStore σ) β} (hx : HandsOver Q P x)
    (hf : ∀ a, P a → HandsOver Q R (f a)) : HandsOver Q R (x >>= f) := by
  refine Leaves.bind hx (fun _ _ _ h => ⟨h.1, trivial⟩) fun a calls more h => ?_
  refine (hf a h.2).mono fun r later rest h' => ⟨List.forall_mem_append.2 ⟨fun e he => ?_, fun e he => ?_⟩, h'.2⟩
  · exact Q.grow (List.subset_append_left calls later) (h.1 e he)
  · exact Q.grow (List.subset_append_right calls later) (h'.1 e he)

theorem HandsOver.attempt {x : Run (WatchedStore σ) α} (hx : HandsOver Q P x) :
    HandsOver Q (Result.Within (fun _ => True) P) x.attempt := by
  refine (Leaves.attempt hx).mono fun r calls more h => ?_
  obtain ⟨result, rfl, hwrites, hresult⟩ := h
  exact ⟨hwrites, hresult⟩

end Run

/-! ## Up to the rows -/

theorem mapRow_exprs (config : TableConfig) (schema : Schema) (timeout : Span) (doc origin : Document) :
    Logged.Fallible.Within (fun _ => True) (fun mapped => ∀ row ∈ mapped, row.exprs = rowExprs config row.row)
      (mapRow config schema timeout doc origin) := by
  unfold mapRow
  refine Logged.Fallible.Within.bind ⟨.trivially _⟩ fun source _ => ?_
  cases source with
  | none => exact .pure fun _ hrow => by cases hrow
  | some source =>
    refine (Logged.Fallible.Within.liftM (Result.Within.trivially _).exact).bind fun mapped hclean => .pure ?_
    rintro row ⟨rfl⟩
    exact (cleanRow_eq_ok hclean).2

section

variable {σ : Type} [TargetStore σ] {registry : Registry} {clock : Clock} {source : String} {Q : WriteProperty}

omit [TargetStore σ] in
theorem report_hands (index : Nat) (table : Option TableName) (key : Option RowKey) (disposition : Disposition) :
    HandsOver Q (fun _ => True) (report index table key disposition : Run (WatchedStore σ) _) :=
  (HandsOver.logged _).bind fun _ _ => .pure trivial

theorem handleFailure_quiet (options : Options) (table : Option TableName) (m : Mutation)
    (operation : Option MergeOperation) (fault : Fault) :
    Quiet WatchedStore.handed
      (handleFailure options source table m operation fault : Run (WatchedStore σ) _) := by
  unfold handleFailure
  split
  · exact .throw
  · exact .pure
  · exact (Quiet.store fun _ => rfl).bind fun _ => .pure

omit [TargetStore σ] in
theorem routeAll_hands (config : SourceConfig) (options : Options) (index : Nat) (batch : List Mutation) :
    HandsOver Q (fun _ => True) (routeAll config options index batch : Run (WatchedStore σ) _) := by
  induction batch generalizing index with
  | nil => exact .pure trivial
  | cons m rest ih =>
    unfold routeAll
    exact (HandsOver.logged _).bind fun _ _ => (ih (index + 1)).bind fun _ _ => .pure trivial

theorem settleRouted_hands (options : Options) (number : Nat) (routed : List RoutedSource) :
    HandsOver Q (fun _ => True) (settleRouted options source number routed : Run (WatchedStore σ) _) := by
  induction routed generalizing number with
  | nil => exact .pure trivial
  | cons head rest ih =>
    unfold settleRouted
    split
    · exact (report_hands ..).bind fun _ _ => (ih _).bind fun _ _ => .pure trivial
    · exact (ih _).bind fun _ _ => .pure trivial
    · refine (handleFailure_quiet ..).handsOver.bind fun _ _ => (report_hands ..).bind fun _ _ => ?_
      exact (ih _).bind fun _ _ => .pure trivial

/-- An upsert carries the expressions for the columns of its row. -/
def Prepared.Mapped (registry : Registry) (p : Prepared) : Prop :=
  ∀ row, p.action = .upsert row → row.exprs = rowExprs (registry.table p.row.table) row.row

/-- Whatever preparation makes ready carries the expressions of its row. -/
def Preparation.Mapped (registry : Registry) (preparation : Preparation) : Prop :=
  ∀ p, preparation = .ready p → p.Mapped registry

theorem prepare_mapped (placed : Placed) :
    HandsOver Q (Preparation.Mapped registry) (prepare registry clock placed : Run (WatchedStore σ) _) := by
  unfold prepare
  split
  · refine (schemaOf_quiet (fun _ _ => rfl) _).handsOver.bind fun schema _ => ?_
    refine (HandsOver.fallible (mapRow_exprs ..)).bind fun mapped hmapped => ?_
    cases mapped with
    | none => exact .pure fun _ hp => by cases hp
    | some row =>
      refine (HandsOver.liftM _).bind fun expired _ => ?_
      cases expired with
      | some _ => exact .pure fun _ hp => by cases hp
      | none =>
        refine (HandsOver.liftM _).bind fun key _ => .pure fun p hp => ?_
        cases hp
        intro other haction
        cases haction
        exact hmapped row rfl
  · split
    · exact .throw _
    · refine .pure fun p hp => ?_
      cases hp
      exact fun _ haction => by cases haction

theorem prepareAll_mapped (placed : List Placed) :
    HandsOver Q (fun prepared => ∀ x ∈ prepared, x.result.Within (fun _ => True) (Preparation.Mapped registry))
      (prepareAll registry clock placed : Run (WatchedStore σ) _) := by
  induction placed with
  | nil => exact .pure fun _ h => absurd h List.not_mem_nil
  | cons p rest ih =>
    unfold prepareAll
    refine (prepare_mapped p).attempt.bind fun result hresult => ih.bind fun others hothers => .pure ?_
    exact List.forall_mem_cons.2 ⟨hresult, hothers⟩

theorem settlePrepared_mapped (options : Options) {prepared : List PreparedSource}
    (h : ∀ x ∈ prepared, x.result.Within (fun _ => True) (Preparation.Mapped registry)) :
    HandsOver Q (fun ready => ∀ p ∈ ready.2, p.Mapped registry)
      (settlePrepared options source prepared : Run (WatchedStore σ) _) := by
  induction prepared with
  | nil => exact .pure fun _ h => absurd h List.not_mem_nil
  | cons head rest ih =>
    obtain ⟨placed, result⟩ := head
    obtain ⟨hhead, hrest⟩ := List.forall_mem_cons.1 h
    unfold settlePrepared
    split
    · next p =>
      refine (ih hrest).bind fun others hothers => .pure ?_
      exact List.forall_mem_cons.2 ⟨hhead p rfl, hothers⟩
    · exact (report_hands ..).bind fun _ _ => (ih hrest).bind fun others hothers => .pure hothers
    · refine (handleFailure_quiet ..).handsOver.bind fun _ _ => (report_hands ..).bind fun _ _ => ?_
      exact (ih hrest).bind fun others hothers => .pure hothers

theorem planFrom_mapped (config : SourceConfig) (number index : Nat) (batch : List Mutation) :
    HandsOver Q (fun plan => ∀ p ∈ plan.2, p.Mapped registry)
      (planFrom registry clock config number index batch : Run (WatchedStore σ) _) := by
  refine (routeAll_hands ..).bind fun routed _ => (settleRouted_hands ..).bind fun pending _ => ?_
  refine HandsOver.bind ?_ fun rest hrest => .pure hrest
  exact (prepareAll_mapped pending.2).bind fun prepared hprepared => settlePrepared_mapped _ hprepared

/-! ## Rows -/

/-- All writes of upserts that carry the expressions of their rows have a property. -/
def AllUpserts (σ : Type) [TargetStore σ] (registry : Registry) (Q : WriteProperty) : Prop :=
  ∀ (source : String) (p : Prepared) (row : MappedRow), row.exprs = rowExprs (registry.table p.row.table) row.row →
    HandsOver Q (fun _ => True) (applyUpsert registry source p row : Run (WatchedStore σ) Disposition)

variable (h : AllUpserts σ registry Q)

include h

theorem applyPrepared_hands {p : Prepared} (hp : p.Mapped registry) :
    HandsOver Q (fun _ => True) (applyPrepared registry source p : Run (WatchedStore σ) _) := by
  unfold applyPrepared
  split
  · next row haction => exact h source p row (hp row haction)
  · exact (Quiet.store fun _ => rfl).handsOver.bind fun _ _ => .pure trivial

theorem applyGroup_hands {ps : List Prepared} (hps : ∀ p ∈ ps, p.Mapped registry) :
    HandsOver Q (fun _ => True) (applyGroup registry source ps : Run (WatchedStore σ) _) := by
  induction ps with
  | nil => exact .pure trivial
  | cons p rest ih =>
    obtain ⟨hp, hrest⟩ := List.forall_mem_cons.1 hps
    have hone : HandsOver Q (fun _ => True) (applyOne registry source p : Run (WatchedStore σ) _) := by
      refine (applyPrepared_hands h hp).attempt.bind fun result _ => ?_
      refine HandsOver.bind (P := fun _ => True) ?_ fun _ _ => (report_hands ..).bind fun _ _ => .pure trivial
      cases result with
      | ok disposition => exact .pure trivial
      | error fault => exact (handleFailure_quiet ..).handsOver
    rw [applyGroup_cons]
    exact hone.bind fun _ _ => (ih hrest).bind fun _ _ => .pure trivial

/-- What holds of all writes of upserts that carry the expressions of their rows holds of all writes that a batch
hands to the store, in any order of its rows, whether or not it is stopped. -/
theorem processArranged_hands (clock : Clock) (source : String) (arrangement : Arrangement) (batch : List Mutation)
    (s : Session σ) : ∀ e ∈ ((processArranged registry clock source arrangement batch).exec s.watched).2.handed,
      Q.Holds (((processArranged registry clock source arrangement batch).exec s.watched).2.trace.calls.drop
        s.trace.calls.length) e.1 e.2 := by
  have hbatch : HandsOver Q (fun _ => True)
      (processArranged registry clock source arrangement batch : Run (WatchedStore σ) _) := by
    unfold processArranged
    refine (HandsOver.liftM _).bind fun config _ => ?_
    rw [planBatch_eq, bind_assoc]
    refine (planFrom_mapped ..).bind fun plan hplan => ?_
    rw [pure_bind, applyGroups_eq_flatten]
    refine (applyGroup_hands h fun p hp => ?_).bind fun _ _ => .pure trivial
    exact hplan p ((arrangement.flatten_perm plan.2).mem_iff.1 hp)
  obtain ⟨calls, more, hcalls, hmore, hwrites, -⟩ := hbatch.left s.watched
  rw [Session.handed, hmore, hcalls]
  show ∀ e ∈ more, Q.Holds ((s.trace.calls ++ calls).drop s.trace.calls.length) e.1 e.2
  rw [List.drop_left]
  exact hwrites

end

end Tributary
