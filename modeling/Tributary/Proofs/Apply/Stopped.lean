import Tributary.Proofs.Apply.Readiness
import Tributary.Proofs.Apply.Sequential

/-!
# Batches that stop before rows are touched

The failures of a batch in routing and in preparation are handled one after another. The first one that stops the
batch ends it, with the dead letters of those before it and nothing else in the store.

* `handled`: what handling some failures in a row comes to.
* `Handles`: a step that handles failures and does nothing else to the store; its rules follow the sequence of steps.
* `failures`: the failures of a batch, in the order in which they are handled.
* `planBatch_handles`: the stages before rows are touched handle these.
* `stopped_batch_touches_no_row`: what is left of a batch with a failure that stops it.
-/

namespace Tributary

open Run

/-! ## Failures in a row -/

/-- A mutation that failed to be routed or prepared. -/
structure Failure where
  entry : Entry
  fault : Fault

/-- The dead letter of a failure, if its mutation is parked. -/
def Failure.letter? (options : Options) (name : String) (f : Failure) : Option DeadLetter :=
  match f.fault.action with
  | .park => some ⟨options.defaultDlq, name, f.entry.table, f.entry.mutation, none, some f.fault.text⟩
  | .stop | .drop => none

/-- The dead letters of failures up to the first one that stops the batch, and the fault of that one. -/
def handled (options : Options) (name : String) : List Failure → List DeadLetter × Option Fault
  | [] => ([], none)
  | f :: rest =>
    if f.fault.action = .stop then ([], some f.fault)
    else ((f.letter? options name).toList ++ (handled options name rest).1, (handled options name rest).2)

variable {options : Options} {name : String}

/-- Nothing is handled behind a failure that stops the batch. -/
theorem handled_append (fs gs : List Failure) :
    handled options name (fs ++ gs) =
      match (handled options name fs).2 with
      | some fault => ((handled options name fs).1, some fault)
      | none => ((handled options name fs).1 ++ (handled options name gs).1, (handled options name gs).2) := by
  induction fs with
  | nil => rfl
  | cons f fs ih =>
    rw [List.cons_append, handled, handled, ih]
    split
    · rfl
    · cases (handled options name fs).2 with
      | some fault => rfl
      | none => simp only [List.append_assoc]

/-- If a failure stops the batch, the first such failure does. -/
theorem handled_of_stop (options : Options) (name : String) {fs : List Failure}
    (h : ∃ f ∈ fs, f.fault.action = .stop) :
    ∃ front f back, fs = front ++ f :: back ∧ f.fault.action = .stop ∧ (∀ g ∈ front, g.fault.action ≠ .stop) ∧
      handled options name fs = (front.filterMap (Failure.letter? options name), some f.fault) := by
  induction fs with
  | nil =>
    obtain ⟨f, hf, -⟩ := h
    cases hf
  | cons g fs ih =>
    by_cases hg : g.fault.action = .stop
    · exact ⟨[], g, fs, rfl, hg, fun _ hin => absurd hin List.not_mem_nil, by rw [handled, if_pos hg]; rfl⟩
    · obtain ⟨f, hf, hstop⟩ := h
      have hin : f ∈ fs := by
        rcases List.mem_cons.1 hf with rfl | hin
        · exact absurd hstop hg
        · exact hin
      obtain ⟨front, first, back, rfl, hfirst, hfront, hhandled⟩ := ih ⟨f, hin, hstop⟩
      refine ⟨g :: front, first, back, rfl, hfirst, List.forall_mem_cons.2 ⟨hg, hfront⟩, ?_⟩
      rw [handled, if_neg hg, hhandled, List.filterMap_cons]
      cases g.letter? options name <;> rfl

/-! ## Steps that handle failures -/

/-- A store with more dead letters. -/
def MemoryStore.filed (s : MemoryStore) (letters : List DeadLetter) : MemoryStore :=
  { s with letters := s.letters ++ letters }

theorem MemoryStore.filed_nil (s : MemoryStore) : s.filed [] = s := by
  unfold filed
  rw [List.append_nil]

theorem MemoryStore.filed_filed (s : MemoryStore) (first second : List DeadLetter) :
    (s.filed first).filed second = s.filed (first ++ second) := by
  unfold filed
  rw [List.append_assoc]

variable {α β : Type} {start : Session MemoryStore}

/-- Wherever the same tables are shown as at the start, a step handles failures, of which nothing is left in the
store but letters. It fails if one of them stops the batch, and else its result has a property. -/
structure Handles (options : Options) (name : String) (start : Session MemoryStore) (fs : List Failure)
    (P : α → Prop) (x : Run MemoryStore α) : Prop where
  handles : ∀ s, start.SameTables s → start.SameTables (x.exec s).2 ∧
    (x.exec s).2.store = s.store.filed (handled options name fs).1 ∧
    match (handled options name fs).2 with
    | some fault => (x.exec s).1 = .error fault
    | none => ∃ a, (x.exec s).1 = .ok a ∧ P a

namespace Handles

variable {P : α → Prop} {Q : β → Prop} {fs gs : List Failure} {x : Run MemoryStore α} {f : α → Run MemoryStore β}

/-- A step that leaves the store as it is. -/
theorem of_exec (h : ∀ s, start.SameTables s → ∃ a s', x.exec s = (.ok a, s') ∧ P a ∧ s'.store = s.store ∧
    start.SameTables s') : Handles options name start [] P x := by
  refine ⟨fun s hs => ?_⟩
  obtain ⟨a, s', hx, ha, hstore, htables⟩ := h s hs
  rw [hx]
  exact ⟨htables, hstore.trans (MemoryStore.filed_nil _).symm, a, rfl, ha⟩

theorem pure {a : α} (h : P a) : Handles options name start [] P (pure a) :=
  .of_exec fun s hs => ⟨a, s, rfl, h, rfl, hs⟩

theorem bind (hx : Handles options name start fs P x) (hf : ∀ a, P a → Handles options name start gs Q (f a)) :
    Handles options name start (fs ++ gs) Q (x >>= f) := by
  refine ⟨fun s hs => ?_⟩
  obtain ⟨htables, hstore, hresult⟩ := hx.handles s hs
  rw [exec_bind, handled_append]
  generalize x.exec s = r at htables hstore hresult
  obtain ⟨result, s'⟩ := r
  generalize (handled options name fs).2 = stopped at hresult
  cases stopped with
  | some fault =>
    obtain rfl : result = .error fault := hresult
    exact ⟨htables, hstore, rfl⟩
  | none =>
    obtain ⟨a, rfl, ha⟩ := hresult
    obtain ⟨htables', hstore', hresult'⟩ := (hf a ha).handles s' htables
    refine ⟨htables', hstore'.trans ?_, hresult'⟩
    have hstore : s'.store = s.store.filed (handled options name fs).1 := hstore
    rw [hstore, MemoryStore.filed_filed]

end Handles

theorem report_handles (index : Nat) (table : Option TableName) (key : Option RowKey) (disposition : Disposition) :
    Handles options name start [] (fun _ => True) (report index table key disposition) :=
  .of_exec fun _ hs => ⟨_, _, rfl, trivial, rfl, hs.trans ⟨fun _ => rfl, fun _ => rfl⟩⟩

theorem handleFailure_handles (e : Entry) (fault : Fault) :
    Handles options name start [⟨e, fault⟩] (fun _ => True)
      (handleFailure options name e.table e.mutation none fault) := by
  refine ⟨fun s hs => ?_⟩
  rw [handled, handled, Failure.letter?]
  unfold handleFailure
  cases fault.action with
  | stop => exact ⟨hs, (MemoryStore.filed_nil _).symm, rfl⟩
  | drop => exact ⟨hs, (MemoryStore.filed_nil _).symm, _, rfl, trivial⟩
  | park => exact ⟨hs.trans ⟨fun _ => rfl, fun _ => rfl⟩, rfl, _, rfl, trivial⟩

/-! ## Stages -/

/-- The failure of a source mutation that was not routed. -/
def RoutedSource.failure? (r : RoutedSource) : Option Failure :=
  match r.result with
  | .error fault => some ⟨r.alone, fault⟩
  | .ok _ => none

/-- The failure of a routed mutation that was not prepared. -/
def PreparedSource.failure? (x : PreparedSource) : Option Failure :=
  match x.result with
  | .error fault => some ⟨x.placed.entry.1, fault⟩
  | .ok _ => none

/-- What waits for preparation, from a number on. -/
def waitingFrom : Nat → List RoutedSource → List Placed
  | _, [] => []
  | number, r :: rest =>
    (match r.result with
      | .ok routed => place number r.index routed
      | .error _ => []) ++ waitingFrom (number + r.outcomes) rest

theorem routeAll_handles (source : SourceConfig) (index : Nat) (batch : List Mutation) :
    Handles options name start [] (fun routed => routed = routedFrom source options index batch)
      (routeAll source options index batch) := by
  refine .of_exec fun s hs => ?_
  obtain ⟨trace, hexec⟩ := routeAll_exec index batch s
  exact ⟨_, _, hexec, rfl, rfl, hs.trans ⟨fun _ => rfl, fun _ => rfl⟩⟩

theorem settleRouted_handles (number : Nat) (routed : List RoutedSource) :
    Handles options name start (routed.filterMap RoutedSource.failure?)
      (fun pending => pending.2 = waitingFrom number routed) (settleRouted options name number routed) := by
  induction routed generalizing number with
  | nil => exact .pure rfl
  | cons head rest ih =>
    obtain ⟨index, m, result⟩ := head
    unfold settleRouted
    cases result with
    | error fault =>
      refine (handleFailure_handles ⟨index, none, m⟩ fault).bind fun disposition _ => ?_
      refine (report_handles ..).bind fun outcome _ => ?_
      rw [← List.append_nil (List.filterMap RoutedSource.failure? rest)]
      refine (ih (number + 1)).bind fun others hothers => .pure ?_
      exact hothers
    | ok routed =>
      have hfailures : List.filterMap RoutedSource.failure? (⟨index, m, .ok routed⟩ :: rest) =
          rest.filterMap RoutedSource.failure? ++ [] := (List.append_nil _).symm
      rw [hfailures]
      cases routed with
      | nil =>
        refine (report_handles ..).bind fun outcome _ => (ih (number + 1)).bind fun others hothers => .pure ?_
        exact hothers
      | cons r rs =>
        refine (ih _).bind fun others hothers => .pure ?_
        exact congrArg (place number index (r :: rs) ++ ·) hothers

theorem prepareAll_handles (registry : Registry) (clock : Clock) (placed : List Placed) :
    Handles options name start []
      (fun prepared => prepared = placed.map fun p => ⟨p, ((prepare registry clock p).exec start).1⟩)
      (prepareAll registry clock placed) := by
  have hsteady : Steady fun s : Session MemoryStore => s.store :=
    ⟨fun _ => ⟨fun _ => rfl⟩, fun _ _ => ⟨fun _ => rfl⟩, fun _ _ _ => rfl⟩
  refine .of_exec fun s hs => ?_
  obtain ⟨t, hexec, htables⟩ := @prepareAll_exec registry clock start s hs placed
  have hstore := (prepareAll_keeps hsteady registry clock placed).kept s
  rw [hexec] at hstore
  exact ⟨_, t, hexec, rfl, hstore, htables⟩

theorem settlePrepared_handles (prepared : List PreparedSource) :
    Handles options name start (prepared.filterMap PreparedSource.failure?) (fun _ => True)
      (settlePrepared options name prepared) := by
  induction prepared with
  | nil => exact .pure trivial
  | cons head rest ih =>
    obtain ⟨placed, result⟩ := head
    unfold settlePrepared
    cases result with
    | error fault =>
      refine (handleFailure_handles placed.entry.1 fault).bind fun disposition _ => ?_
      refine (report_handles ..).bind fun outcome _ => ?_
      rw [← List.append_nil (List.filterMap PreparedSource.failure? rest)]
      exact ih.bind fun others _ => .pure trivial
    | ok preparation =>
      have hfailures : List.filterMap PreparedSource.failure? (⟨placed, .ok preparation⟩ :: rest) =
          rest.filterMap PreparedSource.failure? ++ [] := (List.append_nil _).symm
      rw [hfailures]
      cases preparation with
      | ready p => exact ih.bind fun others _ => .pure trivial
      | dropped reason => exact (report_handles ..).bind fun outcome _ => ih.bind fun others _ => .pure trivial

/-! ## Batches -/

section

variable {registry : Registry} {clock : Clock} {source : SourceConfig} {batch : List Mutation}

/-- The failures of a batch that starts in a session: all those in routing, and then those in preparation. -/
def failures (registry : Registry) (clock : Clock) (source : SourceConfig) (start : Session MemoryStore)
    (batch : List Mutation) : List Failure :=
  let routed := routedFrom source registry.options 0 batch
  let prepared : List PreparedSource :=
    (waitingFrom 0 routed).map fun p => ⟨p, ((prepare registry clock p).exec start).1⟩
  routed.filterMap RoutedSource.failure? ++ prepared.filterMap PreparedSource.failure?

theorem planBatch_handles (registry : Registry) (clock : Clock) (source : SourceConfig) (batch : List Mutation) :
    Handles registry.options source.name start (failures registry clock source start batch) (fun _ => True)
      (planBatch registry clock source batch) := by
  unfold planBatch failures
  refine (routeAll_handles source 0 batch).bind fun routed hrouted => ?_
  subst hrouted
  refine (settleRouted_handles 0 _).bind fun pending hpending => ?_
  refine (prepareAll_handles registry clock pending.2).bind fun prepared hprepared => ?_
  subst hprepared
  rw [hpending]
  rw [← List.append_nil (List.filterMap PreparedSource.failure? _)]
  exact (settlePrepared_handles _).bind fun ready _ => .pure trivial

/-- A mutation of the batch fails to be routed, or one that waits to be prepared fails in that, with a fault that stops
the batch. -/
def HasFatal (registry : Registry) (clock : Clock) (source : SourceConfig) (start : Session MemoryStore)
    (batch : List Mutation) : Prop :=
  (∃ m ∈ batch, ∃ fault, (route source registry.options.functionTimeout registry.options.maxDepth m).attempt.value =
      .error fault ∧ fault.action = .stop) ∨
    ∃ p ∈ waitingFrom 0 (routedFrom source registry.options 0 batch), ∃ fault,
      ((prepare registry clock p).exec start).1 = .error fault ∧ fault.action = .stop

theorem HasFatal.exists_failure (h : HasFatal registry clock source start batch) :
    ∃ f ∈ failures registry clock source start batch, f.fault.action = .stop := by
  rcases h with ⟨m, hm, fault, hfault, hstop⟩ | ⟨p, hp, fault, hfault, hstop⟩
  · obtain ⟨i, hi⟩ := List.mem_iff_getElem?.1 hm
    have hr : ⟨i, m, .error fault⟩ ∈ routedFrom source registry.options 0 batch :=
      List.mem_map.2 ⟨(m, i), List.mem_zipIdx_iff_getElem?.2 hi, by rw [hfault]⟩
    exact ⟨_, List.mem_append_left _ (List.mem_filterMap.2 ⟨_, hr, rfl⟩), hstop⟩
  · refine ⟨⟨p.entry.1, fault⟩, List.mem_append_right _ (List.mem_filterMap.2 ⟨_, List.mem_map_of_mem hp, ?_⟩),
      hstop⟩
    rw [PreparedSource.failure?, hfault]

/-- A batch with a failure that stops it fails with the first such failure, wherever that stands. All that it leaves
in the store are the letters of the failures before that one. -/
theorem stopped_batch_touches_no_row {name : String} (hsource : registry.source name = .ok source)
    (hfatal : HasFatal registry clock source start batch) (arrangement : Arrangement) :
    ∃ front f back, failures registry clock source start batch = front ++ f :: back ∧ f.fault.action = .stop ∧
      (∀ g ∈ front, g.fault.action ≠ .stop) ∧
      ((processArranged registry clock name arrangement batch).exec start).1 = .error f.fault ∧
      ((processArranged registry clock name arrangement batch).exec start).2.store =
        start.store.filed (front.filterMap (Failure.letter? registry.options source.name)) ∧
      ∀ id, ((processArranged registry clock name arrangement batch).exec start).2.store.stored? id =
          start.store.stored? id ∧
        ((processArranged registry clock name arrangement batch).exec start).2.store.rowExprs id =
          start.store.rowExprs id := by
  obtain ⟨front, f, back, hfailures, hstop, hfront, hhandled⟩ :=
    handled_of_stop registry.options source.name hfatal.exists_failure
  obtain ⟨-, hstore, hresult⟩ := (planBatch_handles registry clock source batch).handles start (.refl start)
  rw [hhandled] at hstore hresult
  refine ⟨front, f, back, hfailures, hstop, hfront, ?_⟩
  -- the batch ends with its plan
  have hends : (processArranged registry clock name arrangement batch).exec start =
      (.error f.fault, ((planBatch registry clock source batch).exec start).2) := by
    have hconfig : (liftM (registry.source name) : Run MemoryStore _).exec start = (.ok source, start) := by
      rw [exec_liftM, hsource]
    rw [processArranged, exec_bind_of_ok hconfig, exec_bind, exec_of_fst hresult]
  rw [hends]
  refine ⟨rfl, hstore, fun id => ?_⟩
  dsimp only
  rw [hstore]
  exact ⟨rfl, rfl⟩

end

namespace Example

/-- A registry whose map function panics over some documents. -/
def touchy : Registry :=
  let map : RowFunction := fun doc _ =>
    if doc.contains "poison" then ⟨0, .panic "poison"⟩ else ⟨0, .value doc.toValue⟩
  ⟨.default, Keyed.empty.put "orders" feed,
    Keyed.empty.put orders.name { TableConfig.plain with map := some map }⟩

/-- An upsert with one property. -/
def mention (name : String) : Mutation :=
  ⟨none, some (.ofList [(name, .bool true)]), [.bool true], default, .empty⟩

/-- A document that the map function does not stand, a change that could be applied, and a property that is no
column of the table. -/
def misfits : List Mutation := [mention "poison", change true true, mention "color"]

end Example

set_option maxRecDepth 4000 in
/-- The property that is no column stops the batch. The change was not applied, and the letter of the document that
the map function did not stand is all that is new. -/
theorem misfits_touch_no_row :
    let run := (processArranged Example.touchy default "orders" .asFound Example.misfits).exec
      (.ofStore Example.filled)
    (∃ fault, run.1 = .error fault ∧ fault.action = .stop) ∧
      run.2.store.stored? Example.order = Example.filled.stored? Example.order ∧
      run.2.store.lastVersion = Example.filled.lastVersion ∧
      run.2.store.letters.map DeadLetter.mutation = [Example.mention "poison"] := by
  intro run
  have hfatal : HasFatal Example.touchy default Example.feed (.ofStore Example.filled) Example.misfits := by
    refine .inr ⟨⟨2, 2, Example.orders.name, Example.mention "color"⟩, ?_, .unknownColumns ["orders.color"],
      by rfl, by rfl⟩
    exact List.mem_cons_of_mem _ (List.mem_cons_of_mem _ List.mem_cons_self)
  have hsource : Example.touchy.source "orders" = .ok Example.feed := rfl
  obtain ⟨front, f, back, -, hstop, -, herror, hstore, hrows⟩ :=
    stopped_batch_touches_no_row hsource hfatal .asFound
  have hversion : run.2.store.lastVersion = Example.filled.lastVersion := by
    rw [hstore]
    rfl
  exact ⟨⟨f.fault, herror, hstop⟩, (hrows Example.order).1, hversion, by rfl⟩

end Tributary
