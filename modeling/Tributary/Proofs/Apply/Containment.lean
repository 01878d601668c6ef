import Tributary.Proofs.Apply.Deliveries
import Tributary.Proofs.Fault.Containment
import Tributary.Proofs.Store.Shared

/-!
# A mutation cannot stop its batch

On a store that serves a table, whatever goes wrong with a mutation that is bound for the table is handled by
parking or dropping the mutation, stage by stage.

* `Run.Within`: a step that keeps an invariant of the session, and ends in a result with a property or in a
  fault of a sort; a step without any sort of faults succeeds.
* `Mutation.Maps`: a mutation whose document, and its row before the change, are mapped without stopping the batch.
* `Serves.processArranged_succeeds_of_maps`: a batch of such mutations succeeds.
-/

namespace Tributary

namespace Run

variable {σ α β : Type} {I : Session σ → Prop} {F G : Fault → Prop} {P : α → Prop} {Q : β → Prop}

/-- A step that keeps an invariant, and ends in a result with the property or in a fault of the sort. -/
structure Within (I : Session σ → Prop) (F : Fault → Prop) (P : α → Prop) (x : Run σ α) : Prop where
  run : ∀ s, I s → I (x.exec s).2 ∧ Result.Within F P (x.exec s).1

/-- A step that succeeds. -/
abbrev Succeeds (I : Session σ → Prop) (P : α → Prop) (x : Run σ α) : Prop := Within I (fun _ => False) P x

theorem Within.pure {a : α} (h : P a) : Within I F P (pure a) := ⟨fun _ hs => ⟨hs, h⟩⟩

theorem Within.throw {fault : Fault} (h : F fault) : Within I F P (throw fault) := ⟨fun _ hs => ⟨hs, h⟩⟩

theorem Within.liftM {r : Result α} (h : Result.Within F P r) : Within I F P (liftM r) := by
  refine ⟨fun s hs => ?_⟩
  rw [exec_liftM]
  exact ⟨hs, h⟩

/-- A step that succeeds has no fault of any sort. -/
theorem Within.of_succeeds {x : Run σ α} (hx : Succeeds I P x) : Within I F P x := by
  refine ⟨fun s hs => ?_⟩
  obtain ⟨hafter, hresult⟩ := hx.run s hs
  refine ⟨hafter, ?_⟩
  cases hr : (x.exec s).1 with
  | ok a =>
    rw [hr] at hresult
    exact hresult
  | error fault =>
    rw [hr] at hresult
    exact hresult.elim

theorem Within.bind {x : Run σ α} {f : α → Run σ β} (hx : Within I F P x)
    (hf : ∀ a, P a → Within I F Q (f a)) : Within I F Q (x >>= f) := by
  refine ⟨fun s hs => ?_⟩
  obtain ⟨hafter, hresult⟩ := hx.run s hs
  rw [exec_bind]
  generalize x.exec s = r at hafter hresult
  obtain ⟨result, s'⟩ := r
  cases result with
  | ok a => exact (hf a hresult).run s' hafter
  | error fault => exact ⟨hafter, hresult⟩

/-- The result of a step is a value, which is within the same bounds. -/
theorem Within.attempt {x : Run σ α} (hx : Within I F P x) : Succeeds I (Result.Within F P) x.attempt :=
  ⟨fun s hs => hx.run s hs⟩

theorem Succeeds.exists_ok {x : Run σ α} (hx : Succeeds I P x) {s : Session σ} (hs : I s) :
    ∃ a, (x.exec s).1 = .ok a ∧ P a := by
  have hresult := (hx.run s hs).2
  cases hr : (x.exec s).1 with
  | ok a =>
    rw [hr] at hresult
    exact ⟨a, rfl, hresult⟩
  | error fault =>
    rw [hr] at hresult
    exact hresult.elim

end Run

open Run

/-! ## Sessions that serve a table -/

theorem mem_place {number index : Nat} {routed : List Routed} {p : Placed}
    (hp : p ∈ place number index routed) :
    p.routed ∈ routed := by
  obtain ⟨e, he, rfl⟩ := List.mem_map.1 hp
  exact List.fst_mem_of_mem_zipIdx he

variable {σ : Type} [TargetStore σ] {registry : Registry} {clock : Clock} {table : TableName}
  {schema : Schema} {I : Session σ → Prop}

/-- As long as the invariant holds, the engine works with the shape of the table, and no operation on the rows
of the table fails. -/
structure Serves (table : TableName) (schema : Schema) (I : Session σ → Prop) : Prop where
  recorded : ∀ s trace, I s → I { s with trace := trace }
  shape : Succeeds I (· = schema) (schemaOf table)
  readRow : ∀ id, id.table = table → Succeeds I (fun _ => True) (Run.store (TargetStore.readRow id))
  writeRow : ∀ id w expected, id.table = table →
    Succeeds I (fun _ => True) (Run.store (TargetStore.writeRow id w expected))
  deleteRow : ∀ id, id.table = table → Succeeds I (fun _ => True) (Run.store (TargetStore.deleteRow id))
  park : ∀ letter, Succeeds I (fun _ => True) (Run.store (TargetStore.park letter))

/-! ## Mutations that can be mapped -/

/-- A mutation becomes a row, for which no deadline has passed. -/
def Mutation.Becomes (registry : Registry) (now : Instant) (table : TableName) (schema : Schema) (m : Mutation)
    (row : MappedRow) : Prop :=
  ∃ data, m.data = some data ∧
    (mapRow (registry.table table) schema registry.options.functionTimeout data m.origin).attempt.value =
      .ok (some row) ∧
    Deadline.check row.row now (registry.table table).deadlines = .ok none

/-- Mapping the document of a mutation stops no batch, and neither does mapping the row before the change, where an
attempt to write can have a merge that needs it. -/
structure Mutation.Maps (registry : Registry) (now : Instant) (table : TableName) (schema : Schema) (m : Mutation) :
    Prop where
  data : ∀ data, m.data = some data → Logged.Fallible.Within Fault.Contained (fun _ => True)
    (mapRow (registry.table table) schema registry.options.functionTimeout data m.origin)
  before : registry.options.attempts ≠ 0 → ∀ row before, m.Becomes registry now table schema row → row.row ≠ .empty →
    m.before = some before → Logged.Fallible.Within Fault.Contained (fun _ => True)
      (mapRow (registry.table table) schema registry.options.functionTimeout before m.origin)

theorem Mutation.Maps.of_hasRoom (hroom : HasRoom (registry.table table) schema) (now : Instant)
    (m : Mutation) : m.Maps registry now table schema :=
  ⟨fun _ _ => mapRow_within hroom _ _, fun _ _ _ _ _ _ => mapRow_within hroom _ _⟩

/-- A mutation that can be mapped into rows of the table for which it is bound, whatever the clock shows. -/
structure Routed.Maps (registry : Registry) (clock : Clock) (table : TableName) (schema : Schema) (r : Routed) :
    Prop where
  bound : r.table = table
  mutation : ∀ number, r.mutation.Maps registry (clock.time number) table schema

/-- What a mutation that can be mapped becomes when it is ready. -/
structure Prepared.Maps (registry : Registry) (clock : Clock) (table : TableName) (schema : Schema) (p : Prepared) :
    Prop where
  bound : p.row.table = table
  mutation : p.mutation.Maps registry (clock.time p.placed.number) table schema
  becomes : ∀ row, p.action = .upsert row →
    p.mutation.Becomes registry (clock.time p.placed.number) table schema row

/-- An empty row never conflicts. -/
theorem ne_empty_of_needsBefore {config : TableConfig} {proposed : Document} {target : Option Document}
    (h : needsBefore config proposed target = true) : proposed ≠ .empty := by
  rintro rfl
  have hnone (target : Document) : conflicts config.cas .empty target = false := rfl
  cases target <;> simp [needsBefore, hnone] at h

section

variable (hI : Serves table schema I)

include hI

theorem Serves.logged {α : Type} (x : Logged α) : Succeeds I (fun a => a = x.value) (Run.logged x) :=
  ⟨fun s hs => ⟨hI.recorded s _ hs, rfl⟩⟩

theorem Serves.fallible {α : Type} {F : Fault → Prop} {P : α → Prop} {x : Logged.Fallible α}
    (hx : Logged.Fallible.Within F P x) : Within I F P (Run.fallible x) :=
  ⟨fun s hs => ⟨hI.recorded s _ hs, hx.result⟩⟩

theorem Serves.report_succeeds (index : Nat) (bound : Option TableName) (key : Option RowKey)
    (disposition : Disposition) :
    Succeeds I (fun _ => True) (report index bound key disposition : Run σ _) :=
  (hI.logged _).bind fun _ _ => .pure trivial

/-- A mutation that met a contained fault is disposed of. -/
theorem Serves.handleFailure_succeeds {fault : Fault} (h : fault.Contained) (options : Options)
    (source : String) (bound : Option TableName) (m : Mutation) (operation : Option MergeOperation) :
    Succeeds I (fun _ => True)
      (handleFailure options source bound m operation fault : Run σ _) := by
  unfold handleFailure
  split
  · next hstop => exact absurd hstop h
  · exact .pure trivial
  · exact (hI.park _).bind fun _ _ => .pure trivial

/-! ## Planning -/

theorem Serves.routeAll_succeeds {P : Routed → Prop} {source : SourceConfig} {options : Options} (index : Nat)
    {batch : List Mutation} (hbatch : ∀ m ∈ batch, Logged.Fallible.Within Fault.Contained (∀ r ∈ ·, P r)
      (route source options.functionTimeout options.maxDepth m)) :
    Succeeds I (fun routed => ∀ r ∈ routed, Result.Within Fault.Contained (∀ r ∈ ·, P r) r.result)
      (routeAll source options index batch : Run σ _) := by
  induction batch generalizing index with
  | nil => exact .pure fun _ h => absurd h List.not_mem_nil
  | cons m rest ih =>
    obtain ⟨hm, hrest⟩ := List.forall_mem_cons.1 hbatch
    unfold routeAll
    refine (hI.logged _).bind fun result hresult => (ih (index + 1) hrest).bind fun others hothers => .pure ?_
    exact List.forall_mem_cons.2 ⟨hresult ▸ hm.result, hothers⟩

theorem Serves.settleRouted_succeeds {P : Routed → Prop} (options : Options) (source : String) (number : Nat)
    {routed : List RoutedSource}
    (hrouted : ∀ r ∈ routed, Result.Within Fault.Contained (∀ r ∈ ·, P r) r.result) :
    Succeeds I (fun pending => ∀ p ∈ pending.2, P p.routed)
      (settleRouted options source number routed : Run σ _) := by
  induction routed generalizing number with
  | nil => exact .pure fun _ h => absurd h List.not_mem_nil
  | cons head rest ih =>
    obtain ⟨index, m, result⟩ := head
    obtain ⟨hhead, hrest⟩ := List.forall_mem_cons.1 hrouted
    unfold settleRouted
    split
    · refine (hI.report_succeeds ..).bind fun _ _ => (ih _ hrest).bind fun others hothers => .pure hothers
    · refine (ih _ hrest).bind fun others hothers => .pure ?_
      exact List.forall_mem_append.2 ⟨fun p hp => hhead _ (mem_place hp), hothers⟩
    · refine (hI.handleFailure_succeeds hhead ..).bind fun _ _ => (hI.report_succeeds ..).bind fun _ _ => ?_
      exact (ih _ hrest).bind fun others hothers => .pure hothers

/-- What a preparation makes ready can still be mapped. -/
def ReadyFor (registry : Registry) (clock : Clock) (table : TableName) (schema : Schema)
    (preparation : Preparation) : Prop :=
  ∀ p, preparation = .ready p → p.Maps registry clock table schema

theorem Serves.prepare_within {placed : Placed} (hplaced : placed.routed.Maps registry clock table schema) :
    Within I Fault.Contained (ReadyFor registry clock table schema) (prepare registry clock placed : Run σ _) := by
  unfold prepare
  split
  · next data hdata =>
    unfold prepareUpsert
    dsimp only
    rw [hplaced.bound]
    refine (Within.of_succeeds hI.shape).bind fun shape hshape => ?_
    subst hshape
    have hmaps := (hplaced.mutation placed.number).data data hdata
    refine (hI.fallible ⟨hmaps.result.exact⟩).bind fun mapped hmapped => ?_
    cases mapped with
    | none => exact .pure fun p hp => by cases hp
    | some row =>
      refine (Within.liftM (check_within ..).exact).bind fun expired hexpired => ?_
      cases expired with
      | some _ => exact .pure fun p hp => by cases hp
      | none =>
        refine (Within.liftM (rowKey_within ..)).bind fun key _ => .pure fun p hp => ?_
        cases hp
        refine ⟨hplaced.bound, hplaced.mutation placed.number, fun other haction => ?_⟩
        cases haction
        exact ⟨data, hdata, hmapped, hexpired⟩
  · split
    · exact .throw fun h => nomatch h
    · refine .pure fun p hp => ?_
      cases hp
      exact ⟨hplaced.bound, hplaced.mutation placed.number, fun _ haction => by cases haction⟩

theorem Serves.prepareAll_succeeds {placed : List Placed}
    (hplaced : ∀ p ∈ placed, p.routed.Maps registry clock table schema) :
    Succeeds I
      (fun prepared => ∀ x ∈ prepared, Result.Within Fault.Contained (ReadyFor registry clock table schema) x.result)
      (prepareAll registry clock placed : Run σ _) := by
  induction placed with
  | nil => exact .pure fun _ h => absurd h List.not_mem_nil
  | cons p rest ih =>
    obtain ⟨hp, hrest⟩ := List.forall_mem_cons.1 hplaced
    unfold prepareAll
    refine (hI.prepare_within hp).attempt.bind fun result hresult => ?_
    exact (ih hrest).bind fun others hothers => .pure (List.forall_mem_cons.2 ⟨hresult, hothers⟩)

theorem Serves.settlePrepared_succeeds (options : Options) (source : String) {prepared : List PreparedSource}
    (hprepared : ∀ x ∈ prepared, Result.Within Fault.Contained (ReadyFor registry clock table schema) x.result) :
    Succeeds I (fun ready => ∀ p ∈ ready.2, p.Maps registry clock table schema)
      (settlePrepared options source prepared : Run σ _) := by
  induction prepared with
  | nil => exact .pure fun _ h => absurd h List.not_mem_nil
  | cons head rest ih =>
    obtain ⟨placed, result⟩ := head
    obtain ⟨hhead, hrest⟩ := List.forall_mem_cons.1 hprepared
    unfold settlePrepared
    dsimp only
    split
    · next p =>
      refine (ih hrest).bind fun others hothers => .pure ?_
      exact List.forall_mem_cons.2 ⟨hhead p rfl, hothers⟩
    · exact (hI.report_succeeds ..).bind fun _ _ => (ih hrest).bind fun others hothers => .pure hothers
    · refine (hI.handleFailure_succeeds hhead ..).bind fun _ _ => (hI.report_succeeds ..).bind fun _ _ => ?_
      exact (ih hrest).bind fun others hothers => .pure hothers

theorem Serves.planFrom_succeeds {source : SourceConfig} (number index : Nat) {batch : List Mutation}
    (hbatch : ∀ m ∈ batch, Logged.Fallible.Within Fault.Contained (∀ r ∈ ·, r.Maps registry clock table schema)
      (route source registry.options.functionTimeout registry.options.maxDepth m)) :
    Succeeds I (fun plan => ∀ p ∈ plan.2, p.Maps registry clock table schema)
      (planFrom registry clock source number index batch : Run σ _) := by
  refine (hI.routeAll_succeeds index hbatch).bind fun routed hrouted => ?_
  refine (hI.settleRouted_succeeds _ _ _ hrouted).bind fun pending hpending => ?_
  refine Within.bind ?_ fun ready hready => .pure hready
  exact (hI.prepareAll_succeeds hpending).bind fun prepared hprepared =>
    hI.settlePrepared_succeeds _ _ hprepared

/-! ## Rows -/

theorem Serves.refreshBefore_within (hattempts : registry.options.attempts ≠ 0) {p : Prepared}
    (hp : p.Maps registry clock table schema) {row : MappedRow}
    (hrow : p.mutation.Becomes registry (clock.time p.placed.number) table schema row)
    (target : Option Document) (known : MappedBefore) :
    Within I Fault.Contained (fun _ => True)
      (refreshBefore registry p row.row target known : Run σ _) := by
  unfold refreshBefore
  split
  · next before hbefore =>
    split
    · next hneeded =>
      refine Within.bind (P := fun _ => True) ?_ fun _ _ => .pure trivial
      unfold mapBefore
      dsimp only
      rw [hp.bound]
      refine (Within.of_succeeds hI.shape).bind fun shape hshape => ?_
      subst hshape
      have hmaps := hp.mutation.before hattempts row before hrow (ne_empty_of_needsBefore hneeded) hbefore
      exact (hI.fallible hmaps).bind fun _ _ => .pure trivial
    · exact .pure trivial
  · exact .pure trivial

theorem Serves.decideResolution_succeeds (source : String) (p : Prepared) (current : Option StoredRow)
    {resolution : Resolution} (h : ∀ fault op, resolution = .failed fault op → fault.Contained) :
    Succeeds I (fun _ => True)
      (decideResolution registry source p current resolution : Run σ _) := by
  cases resolution with
  | apply data => exact .pure trivial
  | park queue operation => exact (hI.park _).bind fun _ _ => .pure trivial
  | drop reason operation => exact .pure trivial
  | failed fault operation =>
    exact (hI.handleFailure_succeeds (h fault operation rfl) ..).bind fun _ _ => .pure trivial

theorem Serves.decideWrite_within (hattempts : registry.options.attempts ≠ 0) (source : String) {p : Prepared}
    (hp : p.Maps registry clock table schema)
    {row : MappedRow} (hrow : p.mutation.Becomes registry (clock.time p.placed.number) table schema row)
    (known : MappedBefore) :
    Within I Fault.Contained (fun _ => True)
      (decideWrite registry source p row.row known : Run σ _) := by
  unfold decideWrite
  split
  · unfold decideCas
    dsimp only
    refine (Within.of_succeeds (hI.readRow _ hp.bound)).bind fun current _ => ?_
    refine (hI.refreshBefore_within hattempts hp hrow ..).bind fun before _ => ?_
    refine (Within.of_succeeds (hI.logged _)).bind fun resolution hresolution => ?_
    subst hresolution
    refine (Within.of_succeeds (hI.decideResolution_succeeds source p current ?_)).bind
      fun _ _ => .pure trivial
    exact fun fault op hfailed => (resolve_parked hfailed).contained
  · exact .pure trivial

/-- When all attempts are used up, the mutation has failed with a fault that stops no batch. -/
theorem Serves.upsertWithin_within (source : String) {p : Prepared} (hp : p.Maps registry clock table schema)
    {row : MappedRow} (hrow : p.mutation.Becomes registry (clock.time p.placed.number) table schema row)
    (total : Nat) {attempts : Nat} (hattempts : attempts ≤ registry.options.attempts) (known : MappedBefore) :
    Within I Fault.Contained (fun _ => True)
      (upsertWithin registry source p row total attempts known : Run σ _) := by
  induction attempts generalizing known with
  | zero => exact .throw fun h => nomatch h
  | succ attempts ih =>
    unfold upsertWithin
    refine (hI.decideWrite_within (by omega) source hp hrow known).bind fun decided _ => ?_
    obtain ⟨decision, known⟩ := decided
    cases decision with
    | settled disposition => exact .pure trivial
    | write data expected =>
      refine (Within.of_succeeds (hI.writeRow _ _ _ hp.bound)).bind fun outcome _ => ?_
      cases outcome with
      | written => exact .pure trivial
      | versionMismatch => exact ih (by omega) known

theorem Serves.applyPrepared_within (source : String) {p : Prepared} (hp : p.Maps registry clock table schema) :
    Within I Fault.Contained (fun _ => True)
      (applyPrepared registry source p : Run σ _) := by
  unfold applyPrepared
  split
  · next row haction => exact hI.upsertWithin_within source hp (hp.becomes row haction) _ le_rfl none
  · exact (Within.of_succeeds (hI.deleteRow _ hp.bound)).bind fun _ _ => .pure trivial

theorem Serves.applyOne_succeeds (source : String) {p : Prepared} (hp : p.Maps registry clock table schema) :
    Succeeds I (fun _ => True) (applyOne registry source p : Run σ _) := by
  refine (hI.applyPrepared_within source hp).attempt.bind fun result hresult => ?_
  refine Within.bind (P := fun _ => True) ?_ fun _ _ => (hI.report_succeeds ..).bind fun _ _ => .pure trivial
  cases result with
  | ok disposition => exact .pure trivial
  | error fault => exact hI.handleFailure_succeeds hresult ..

theorem Serves.applyGroup_succeeds (source : String) {ps : List Prepared}
    (hps : ∀ p ∈ ps, p.Maps registry clock table schema) :
    Succeeds I (fun _ => True) (applyGroup registry source ps : Run σ _) := by
  induction ps with
  | nil => exact .pure trivial
  | cons p rest ih =>
    obtain ⟨hp, hrest⟩ := List.forall_mem_cons.1 hps
    rw [applyGroup_cons]
    exact (hI.applyOne_succeeds source hp).bind fun _ _ => (ih hrest).bind fun _ _ => .pure trivial

/-- A batch succeeds, in any order of its rows, if all of it is routed to a served table and can be mapped. -/
theorem Serves.processArranged_succeeds_of_maps {source : String} {config : SourceConfig}
    (hconfig : registry.source source = .ok config) (arrangement : Arrangement) {batch : List Mutation}
    (hbatch : ∀ m ∈ batch, Logged.Fallible.Within Fault.Contained (∀ r ∈ ·, r.Maps registry clock table schema)
      (route config registry.options.functionTimeout registry.options.maxDepth m)) :
    Succeeds I (fun _ => True)
      (processArranged registry clock source arrangement batch : Run σ _) := by
  have hplanned : Succeeds I
      (fun plan => ∀ group ∈ plan.groups, ∀ p ∈ group, p.Maps registry clock table schema)
      (planBatch registry clock config batch : Run σ _) := by
    rw [planBatch_eq]
    refine (hI.planFrom_succeeds 0 0 hbatch).bind fun plan hplan => .pure fun group hgroup p hp => ?_
    exact hplan p ((flatten_groupRows_perm plan.2).mem_iff.1 (List.mem_flatten.2 ⟨group, hgroup, hp⟩))
  unfold processArranged
  rw [hconfig]
  refine hplanned.bind fun plan hplan => ?_
  refine Within.bind (P := fun _ => True) ?_ fun _ _ => .pure trivial
  have hmaps : ∀ p ∈ (arrangement.arrange plan.groups).flatten, p.Maps registry clock table schema := by
    intro p hp
    obtain ⟨group, hgroup, hin⟩ := List.mem_flatten.1 hp
    exact hplan group ((arrangement.perm plan.groups).mem_iff.1 hgroup) p hin
  rw [applyGroups_eq_flatten]
  exact hI.applyGroup_succeeds config.name hmaps

/-- A batch of a source that passes its documents to a served table succeeds, if that has room for every property. -/
theorem Serves.processArranged_succeeds {source : String} {config : SourceConfig}
    (hconfig : registry.source source = .ok config) (hsource : config.destination = .target table)
    (hroom : HasRoom (registry.table table) schema) (arrangement : Arrangement)
    (batch : List Mutation) :
    Succeeds I (fun _ => True)
      (processArranged registry clock source arrangement batch : Run σ _) := by
  refine hI.processArranged_succeeds_of_maps hconfig arrangement fun m _ => ⟨?_⟩
  exact (route_within hsource _ _ m).result.mono fun routed hrouted r hr =>
    ⟨hrouted r hr, fun _ => .of_hasRoom hroom _ _⟩

end

/-! ## Stores in memory -/

/-- The engine works with the shape of a table that exists. -/
def Session.Shows (table : TableName) (schema : Schema) (s : Session MemoryStore) : Prop :=
  s.shape? table = some schema ∧ s.store.hasTable table = true

theorem Session.Shows.of_sameTables {s t : Session MemoryStore} (h : s.Shows table schema)
    (hsame : s.SameTables t) : t.Shows table schema :=
  ⟨(hsame.shape table).symm.trans h.1, (hsame.hasTable table).symm.trans h.2⟩

theorem Session.Shows.of_schemas {s t : Session MemoryStore} (h : s.Shows table schema)
    (hknown : t.schemas = s.schemas) (hstored : t.store.schemas = s.store.schemas) :
    t.Shows table schema := by
  refine h.of_sameTables ⟨fun other => ?_, fun other => ?_⟩
  · rw [Session.shape?, Session.shape?, hknown, hstored]
  · exact (MemoryStore.hasTable_of_schemas hstored other).symm

/-- A store in memory serves every table that exists. -/
theorem MemoryStore.serves (table : TableName) (schema : Schema) :
    Serves (σ := MemoryStore) table schema (Session.Shows table schema) where
  recorded s trace hs := hs
  shape := by
    refine ⟨fun s hs => ?_⟩
    obtain ⟨hresult, -, hsame⟩ := schemaOf_exec table s
    rw [hs.1] at hresult
    rw [hresult]
    exact ⟨hs.of_sameTables hsame, rfl⟩
  readRow id _ := ⟨fun s hs => ⟨hs, trivial⟩⟩
  writeRow id w expected hid := by
    refine ⟨fun s hs => ⟨hs.of_schemas rfl (schemas_writeRow id w expected s.store), ?_⟩⟩
    have htable : s.store.hasTable id.table = true := hid ▸ hs.2
    obtain ⟨outcome, hw⟩ := writeRow_ok htable w expected
    show Result.Within _ _ (writeRow id w expected s.store).1
    rw [hw]
    trivial
  deleteRow id hid := by
    refine ⟨fun s hs => ⟨hs.of_schemas rfl (schemas_deleteRow id s.store), ?_⟩⟩
    have htable : s.store.hasTable id.table = true := hid ▸ hs.2
    show Result.Within _ _ (MemoryStore.deleteRow id s.store).1
    rw [deleteRow_ok htable]
    trivial
  park letter := ⟨fun s hs => ⟨hs.of_schemas rfl rfl, trivial⟩⟩

/-- The session with the store as it is between two turns of the others. -/
def Session.inner (s : Session SharedStore) : Session MemoryStore := ⟨s.store.inner, s.schemas, s.trace⟩

/-- The engine works with the shape of a table that exists, and the others leave tables alone. -/
def Session.ShowsAll (table : TableName) (schema : Schema) (s : Session SharedStore) : Prop :=
  s.inner.Shows table schema ∧ s.store.OnRows

/-- An operation that succeeds does so behind a turn of the others. -/
theorem succeeds_inTurn {α : Type} {P : α → Prop} {action : StoreAction MemoryStore α}
    (h : Succeeds (Session.Shows table schema) P (Run.store action)) :
    Succeeds (Session.ShowsAll table schema) P (Run.store (SharedStore.inTurn action)) := by
  refine ⟨fun s hs => ?_⟩
  have hturned : Session.Shows table schema ⟨s.store.turned, s.schemas, s.trace⟩ :=
    hs.1.of_schemas rfl hs.2.schemas_turned
  obtain ⟨hafter, hresult⟩ := h.run _ hturned
  exact ⟨⟨hafter.of_schemas rfl rfl, hs.2.inTurn action⟩, hresult⟩

theorem schemaOf_shared :
    Succeeds (Session.ShowsAll table schema) (· = schema) (schemaOf table : Run SharedStore _) := by
  refine ⟨fun s hs => ?_⟩
  have hshape : (s.schemas.get? table).or (s.store.inner.schemas.get? table) = some schema := hs.1.1
  -- a shape that the engine does not know yet is read behind a turn of the others
  cases hknown : s.schemas.get? table with
  | some other =>
    have hexec : (schemaOf table).exec s = (.ok other, s) := by
      simp [schemaOf, exec_bind, known?, hknown]
    rw [hknown, Option.some_or] at hshape
    rw [hexec]
    exact ⟨hs, Option.some.inj hshape⟩
  | none =>
    rw [hknown, Option.none_or] at hshape
    have hstored : s.store.turned.schemas.get? table = some schema := by
      rw [hs.2.schemas_turned]
      exact hshape
    have hexec : (schemaOf table).exec s =
        (.ok schema, ⟨⟨s.store.turned, s.store.turns.tail⟩, s.schemas.put table schema, s.trace⟩) := by
      simp [schemaOf, exec_bind, known?, hknown, Run.store, TargetStore.tableSchema, SharedStore.inTurn, hstored,
        remember, -bind_pure_comp]
    rw [hexec]
    refine ⟨⟨⟨?_, ?_⟩, hs.2.inTurn (TargetStore.tableSchema table)⟩, rfl⟩
    · show ((s.schemas.put table schema).get? table).or _ = _
      rw [Keyed.get?_put, if_pos rfl, Option.some_or]
    · exact (MemoryStore.hasTable_of_schemas hs.2.schemas_turned table).trans hs.1.2

/-- Whatever the others do to rows, every table that exists is served. -/
theorem SharedStore.serves (table : TableName) (schema : Schema) :
    Serves (σ := SharedStore) table schema (Session.ShowsAll table schema) :=
  have inner := MemoryStore.serves table schema
  { recorded := fun _ _ hs => hs
    shape := schemaOf_shared
    readRow := fun id hid => succeeds_inTurn (inner.readRow id hid)
    writeRow := fun id w expected hid => succeeds_inTurn (inner.writeRow id w expected hid)
    deleteRow := fun id hid => succeeds_inTurn (inner.deleteRow id hid)
    park := fun letter => succeeds_inTurn (inner.park letter) }

/-! ## The whole statement -/

/-- The session on a store that others use from now on. -/
def Session.shared (s : Session MemoryStore) (turns : List (List StoreOp)) : Session SharedStore :=
  ⟨⟨s.store, turns⟩, s.schemas, s.trace⟩

/-- A batch of a source that passes its documents to an existing table succeeds, if the table is open or
collects what matches no column: whatever was processed before, whatever the mutations hold, whatever the
functions of the table do, in every order of its rows, and whatever others do to rows at the same time. This holds
for all options: where they leave upserts no attempt (`Options.attempts`), upserts are parked. -/
theorem no_mutation_stops_its_batch {registry : Registry} {store : MemoryStore} {fresh : Session MemoryStore}
    (hstart : start registry store = .ok fresh) (history : List Delivery) {source : String}
    {config : SourceConfig} (hsource : registry.source source = .ok config) {table : TableName}
    (htarget : config.destination = .target table) {schema : Schema}
    (htable : store.schemas.get? table = some schema)
    (hextras : schema.isOpen = true ∨ (registry.table table).extras.isSome = true) (clock : Clock)
    (batch : List Mutation) (arrangement : Arrangement) :
    let s := fresh.afterAll registry history
    (∃ outcomes, ((processArranged registry clock source arrangement batch).exec s).1 = .ok outcomes) ∧
      ∀ turns, (∀ turn ∈ turns, ∀ op ∈ turn, StoreOp.KeepsTables op) →
        ∃ outcomes, ((processArranged registry clock source arrangement batch).exec (s.shared turns)).1 =
          .ok outcomes := by
  intro s
  have hfresh : fresh.Shows table schema := by
    refine ⟨(start_shape hstart table).trans htable, ?_⟩
    rw [start_store hstart, MemoryStore.hasTable, Keyed.contains, htable]
    rfl
  have hs : s.Shows table schema := hfresh.of_sameTables (sameTables_afterAll registry history fresh)
  constructor
  · have hrun : Succeeds (Session.Shows table schema) (fun _ => True)
        (processArranged registry clock source arrangement batch) :=
      (MemoryStore.serves table schema).processArranged_succeeds hsource htarget hextras arrangement batch
    exact (hrun.exists_ok hs).imp fun _ h => h.1
  · intro turns hturns
    have hrun : Succeeds (Session.ShowsAll table schema) (fun _ => True)
        (processArranged registry clock source arrangement batch) :=
      (SharedStore.serves table schema).processArranged_succeeds hsource htarget hextras arrangement batch
    have hshared : (s.shared turns).ShowsAll table schema := ⟨hs, hturns⟩
    exact (hrun.exists_ok hshared).imp fun _ h => h.1

namespace Example

/-- The example table, open to any property. -/
def ledger : Schema := { orders with isOpen := true }

/-- A registry whose map function panics over some documents, and whose merge answers with null. -/
def hostile : Registry :=
  let map : RowFunction := fun doc _ =>
    if doc.contains "poison" then ⟨0, .panic "poison"⟩ else ⟨0, .value doc.toValue⟩
  ⟨.default, Keyed.empty.put "orders" feed, Keyed.empty.put orders.name
    { TableConfig.plain with cas := ["paid"], map := some map, merge := some (.custom fun _ => ⟨0, .value .null⟩) }⟩

/-- A deletion without a key, a document that the map function does not stand, and a change. -/
def poisoned : List Mutation :=
  [⟨none, none, [], default, .empty⟩,
    ⟨none, some (.ofList [("poison", .bool true)]), [.bool true], default, .empty⟩, change true false]

/-- Somebody who deletes the row and makes it again. -/
def rival : List StoreOp := [.delete order, .insert order (content false)]

end Example

/-- A poisoned batch succeeds, also while somebody else makes its row anew before each access to the store. -/
theorem poisoned_batch_succeeds :
    ∃ fresh, start Example.hostile (MemoryStore.createTable .empty Example.ledger) = .ok fresh ∧
      (∃ outcomes, ((processArranged Example.hostile default "orders" .asFound Example.poisoned).exec
        (fresh.afterAll Example.hostile [⟨"orders", default, Example.poisoned, .asFound⟩])).1 = .ok outcomes) ∧
      ∃ outcomes, ((processArranged Example.hostile default "orders" .asFound Example.poisoned).exec
        ((fresh.afterAll Example.hostile []).shared (List.replicate 20 Example.rival))).1 = .ok outcomes := by
  obtain ⟨fresh, hstart⟩ :
      ∃ fresh, start Example.hostile (MemoryStore.createTable .empty Example.ledger) = .ok fresh :=
    ⟨_, rfl⟩
  have hledger : (MemoryStore.createTable .empty Example.ledger).schemas.get? Example.orders.name =
      some Example.ledger := rfl
  refine ⟨fresh, hstart, ?_, ?_⟩
  · exact (no_mutation_stops_its_batch hstart [⟨"orders", default, Example.poisoned, .asFound⟩] rfl rfl hledger
      (.inl rfl) default Example.poisoned .asFound).1
  · refine (no_mutation_stops_its_batch hstart [] rfl rfl hledger (.inl rfl) default Example.poisoned
      .asFound).2 _ fun turn hturn op hop => ?_
    rw [List.eq_of_mem_replicate hturn] at hop
    intro schema hschema
    rw [hschema] at hop
    simp [Example.rival] at hop

end Tributary
