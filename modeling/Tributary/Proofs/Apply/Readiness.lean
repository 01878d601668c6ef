import Tributary.Proofs.Apply.Entries

/-!
# What is ready

On a store in memory, preparation neither changes rows nor depends on them, so that every mutation of a batch
is prepared as it would be at the start of the batch. What is ready for its rows is therefore a function of
the routed mutations and of the shapes of tables.

* `settleRouted_waiting`: the entries with a table wait for preparation, in their order.
* `readyAt`: what becomes of one of them, if it is ready.
* `planFrom_ready`, `readyAt_of_plan`: what a plan has ready for its rows.
-/

namespace Tributary

open Run

/-! ## Waiting mutations -/

/-- Numbered entries that were routed to a table. -/
def routedEntries (entries : List (Entry × Nat)) : List (Entry × Nat) :=
  entries.filter fun e => e.1.table.isSome

theorem routedEntries_append (xs ys : List (Entry × Nat)) :
    routedEntries (xs ++ ys) = routedEntries xs ++ routedEntries ys := List.filter_append ..

theorem settleRouted_waiting {σ : Type} [TargetStore σ] (options : Options) (name : String) (number : Nat)
    (routed : List RoutedSource) :
    Ensures (fun r => r.2.map Placed.entry =
        routedEntries ((routed.flatMap RoutedSource.entries).zipIdx number))
      (settleRouted options name number routed : Run σ _) := by
  have hpieces : Piecewise fun given (_ : Numbered) (waiting : List Placed) (_ : List Empty) =>
      waiting.map Placed.entry = routedEntries given := by
    refine ⟨rfl, fun first second => ?_⟩
    rw [List.map_append, routedEntries_append, first, second]
  have halone (r : RoutedSource) (number : Nat) : [] = routedEntries [(r.alone, number)] := by
    simp [routedEntries, RoutedSource.alone]
  refine ensures_iff_adds.2 (settleRouted_adds hpieces (fun r _ fault number _ => ?_)
    (fun r _ number _ => ?_) (fun p => rfl) number)
  · exact ensures_iff_adds.1 ((Ensures.true _).mono fun _ _ => halone r number)
  · exact ensures_iff_adds.1 ((Ensures.true _).mono fun _ _ => halone r number)

/-! ## Preparation -/

variable {registry : Registry} {clock : Clock} {s t t' : Session MemoryStore}

/-- What preparation made of a mutation, if it is ready. -/
def PreparedSource.ready? (x : PreparedSource) : Option Prepared :=
  match x.result with
  | .ok (.ready p) => some p
  | _ => none

/-- What preparation makes of a mutation in a session, if it is ready then. -/
def readyAt (registry : Registry) (clock : Clock) (s : Session MemoryStore) (placed : Placed) :
    Option Prepared :=
  PreparedSource.ready? ⟨placed, ((prepare registry clock placed).exec s).1⟩

theorem readyAt_eq_some_iff {placed : Placed} {p : Prepared} :
    readyAt registry clock s placed = some p ↔
      ((prepare registry clock placed).exec s).1 = .ok (.ready p) := by
  unfold readyAt PreparedSource.ready?
  generalize ((prepare registry clock placed).exec s).1 = result
  cases result with
  | error fault => simp
  | ok preparation => cases preparation <;> simp

theorem placed_of_readyAt {placed : Placed} {p : Prepared}
    (h : readyAt registry clock s placed = some p) : p.placed = placed :=
  (prepare_ensures placed).result s _ _ (exec_of_fst (readyAt_eq_some_iff.1 h)) p rfl

/-- Where the table has a shape, preparing an upsert comes down to mapping its document, checking the row that this
makes, and finding the key of that row. -/
theorem prepareUpsert_value {placed : Placed} {schema : Schema} (hshape : s.shape? placed.routed.table = some schema)
    (now : Instant) (data : Document) :
    ((prepareUpsert registry now placed data).exec s).1 =
      match (mapRow (registry.table placed.routed.table) schema registry.options.functionTimeout data
          placed.routed.mutation.origin).attempt.value with
      | .error fault => .error fault
      | .ok none => .ok (.dropped .discarded)
      | .ok (some row) =>
        match Deadline.check row.row now (registry.table placed.routed.table).deadlines with
        | .error fault => .error fault
        | .ok (some _) => .ok (.dropped .deadline)
        | .ok none =>
          (rowKey schema row.row placed.routed.mutation).map fun key => .ready ⟨placed, key, .upsert row⟩ := by
  have hschema := (schemaOf_exec placed.routed.table s).1
  rw [hshape] at hschema
  unfold prepareUpsert
  rw [exec_bind_of_ok (exec_of_fst hschema), exec_bind, Run.fallible, exec_ofFunction]
  cases (mapRow (registry.table placed.routed.table) schema registry.options.functionTimeout data
    placed.routed.mutation.origin).attempt.value with
  | error fault => rfl
  | ok mapped =>
    cases mapped with
    | none => rfl
    | some row =>
      dsimp only
      rw [exec_bind, exec_liftM]
      cases Deadline.check row.row now (registry.table placed.routed.table).deadlines with
      | error fault => rfl
      | ok expired =>
        cases expired with
        | some _ => rfl
        | none =>
          dsimp only
          rw [exec_bind, exec_liftM]
          cases rowKey schema row.row placed.routed.mutation <;> rfl

/-- The row of an upsert that is ready is what mapping makes of its document. -/
theorem mapRow_of_readyAt {placed : Placed} {p : Prepared} {row : MappedRow}
    (h : readyAt registry clock s placed = some p) (haction : p.action = .upsert row) :
    ∃ data schema, placed.routed.mutation.data = some data ∧
      s.shape? placed.routed.table = some schema ∧
      (mapRow (registry.table placed.routed.table) schema registry.options.functionTimeout data
        placed.routed.mutation.origin).attempt.value = .ok (some row) := by
  have hrun := readyAt_eq_some_iff.1 h
  unfold prepare at hrun
  split at hrun
  · next data hdata =>
    cases hshape : s.shape? placed.routed.table with
    | none =>
      have hschema := (schemaOf_exec placed.routed.table s).1
      rw [hshape] at hschema
      rw [prepareUpsert, exec_bind, exec_of_fst hschema] at hrun
      cases hrun
    | some schema =>
      refine ⟨data, schema, hdata, rfl, ?_⟩
      rw [prepareUpsert_value hshape] at hrun
      split at hrun
      · cases hrun
      · cases hrun
      · next mapped hmapped =>
        split at hrun
        · cases hrun
        · cases hrun
        · cases hkey : rowKey schema mapped.row placed.routed.mutation with
          | error fault =>
            rw [hkey] at hrun
            cases hrun
          | ok key =>
            rw [hkey] at hrun
            cases hrun
            cases haction
            exact hmapped
  · split at hrun
    · cases hrun
    · cases hrun
      cases haction

/-- Preparation comes to the same in all sessions that show the same tables. -/
theorem prepare_exec_eq (h : s.SameTables t) (placed : Placed) :
    ((prepare registry clock placed).exec t).1 = ((prepare registry clock placed).exec s).1 := by
  obtain ⟨letters, hresult, -⟩ := (prepare_local registry clock placed).alike s t
    ⟨h, fun _ hplace => absurd hplace (Set.notMem_empty _)⟩
  exact hresult.symm

theorem prepareAll_exec (h : s.SameTables t) (placed : List Placed) :
    ∃ t', (prepareAll registry clock placed).exec t =
        (.ok (placed.map fun p => ⟨p, ((prepare registry clock p).exec s).1⟩), t') ∧ s.SameTables t' := by
  induction placed generalizing t with
  | nil => exact ⟨t, rfl, h⟩
  | cons p rest ih =>
    have hfirst : (prepare registry clock p).attempt.exec t =
        (.ok ((prepare registry clock p).exec s).1, ((prepare registry clock p).exec t).2) := by
      rw [exec_attempt, prepare_exec_eq h]
    obtain ⟨letters, hfollows⟩ := (prepare_local registry clock p).follows t
    obtain ⟨t', hrest, htables⟩ := ih (h.trans hfollows.tables)
    refine ⟨t', ?_, htables⟩
    rw [prepareAll, exec_bind_of_ok hfirst, exec_bind_of_ok hrest]
    rfl

theorem settlePrepared_waiting {σ : Type} [TargetStore σ] (options : Options) (name : String)
    (prepared : List PreparedSource) :
    Ensures (fun r => r.2 = prepared.filterMap PreparedSource.ready?)
      (settlePrepared options name prepared : Run σ _) := by
  have hpieces : Piecewise fun given (_ : Numbered) waiting (_ : List Empty) =>
      waiting = given.filterMap PreparedSource.ready? := by
    refine ⟨rfl, fun first second => ?_⟩
    rw [List.filterMap_append, ← first, ← second]
  refine ensures_iff_adds.2 (settlePrepared_adds hpieces (fun x _ fault hx => ?_)
    (fun x _ reason hx => ?_) fun x _ p hx => ?_)
  · exact ensures_iff_adds.1 ((Ensures.true _).mono fun _ _ => by simp [PreparedSource.ready?, hx])
  · exact ensures_iff_adds.1 ((Ensures.true _).mono fun _ _ => by simp [PreparedSource.ready?, hx])
  · simp [PreparedSource.ready?, hx]

section

variable {source : SourceConfig} {number index : Nat} {batch : List Mutation}
  {plan : Numbered × List Prepared}

/-- The stages of a plan. -/
theorem planFrom_run (hrun : (planFrom registry clock source number index batch).exec s = (.ok plan, t')) :
    ∃ trace pending s₂ prepared,
      (settleRouted registry.options source.name number
        (routedFrom source registry.options index batch)).exec { s with trace := trace } =
          (.ok pending, s₂) ∧
      (settlePrepared registry.options source.name
        (pending.2.map fun p => ⟨p, ((prepare registry clock p).exec s).1⟩)).exec
          ((prepareAll registry clock pending.2).exec s₂).2 = (.ok prepared, t') ∧
      plan = (pending.1 ++ prepared.1, prepared.2) := by
  obtain ⟨routed, s₁, hrouted, hsettle⟩ := exec_bind_ok hrun
  obtain ⟨trace, hroute⟩ := routeAll_exec index batch s
  cases hroute.symm.trans hrouted
  obtain ⟨pending, s₂, hpending, hready⟩ := exec_bind_ok hsettle
  obtain ⟨prepared, s₃, hprepared, hdone⟩ := exec_bind_ok hready
  cases hdone
  obtain ⟨letters, hfollows⟩ := (settleRouted_local registry.options source.name number _).follows
    { s with trace := trace }
  rw [hpending] at hfollows
  have htables : s.SameTables s₂ := ⟨hfollows.tables.shape, hfollows.tables.hasTable⟩
  obtain ⟨results, s₄, hresults, hsettled⟩ := exec_bind_ok hprepared
  obtain ⟨s₅, hprepare, -⟩ := prepareAll_exec htables pending.2
  cases hprepare.symm.trans hresults
  refine ⟨trace, pending, s₂, prepared, hpending, ?_, rfl⟩
  rw [hprepare]
  exact hsettled

/-- What a plan has ready is what preparation makes of the routed entries at the start. -/
theorem planFrom_ready
    (hrun : (planFrom registry clock source number index batch).exec s = (.ok plan, t')) :
    ∃ placed : List Placed, placed.map Placed.entry = routedEntries
        (((routedFrom source registry.options index batch).flatMap RoutedSource.entries).zipIdx number) ∧
      plan.2 = placed.filterMap (readyAt registry clock s) := by
  obtain ⟨trace, pending, s₂, prepared, hpending, hprepared, rfl⟩ := planFrom_run hrun
  refine ⟨pending.2, (settleRouted_waiting ..).result _ _ _ hpending, ?_⟩
  have hwaiting := (settlePrepared_waiting ..).result _ _ _ hprepared
  rw [List.filterMap_map] at hwaiting
  exact hwaiting

/-- A mutation that is ready was made ready from an entry of the batch. -/
theorem readyAt_of_plan {p : Prepared}
    (hplan : (planFrom registry clock source 0 0 batch).exec s = (.ok plan, t')) (hp : p ∈ plan.2) :
    p.placed.entry.1 ∈ entries registry source batch ∧ readyAt registry clock s p.placed = some p := by
  obtain ⟨placed, hplaced, hready⟩ := planFrom_ready hplan
  rw [hready] at hp
  obtain ⟨q, hq, hfound⟩ := List.mem_filterMap.1 hp
  have hentry : q.entry ∈ placed.map Placed.entry := List.mem_map_of_mem hq
  rw [hplaced] at hentry
  rw [placed_of_readyAt hfound]
  exact ⟨List.fst_mem_of_mem_zipIdx (List.mem_filter.1 hentry).1, hfound⟩

end

end Tributary
