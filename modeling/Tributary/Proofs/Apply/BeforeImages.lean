import Tributary.Proofs.Apply.Containment
import Tributary.Proofs.Apply.Stopped
import Tributary.Proofs.Merge.ValueOrder
import Tributary.Proofs.Routing.Levels
import Tributary.Proofs.Row.NormalForm

/-!
# Rows before the change, when nested documents are detached

A source that recurses detaches nested documents from the row of a mutation, but not from the row before the change.
That one is mapped only if the row meets a stored row with which it conflicts, and then the nested properties have to
match columns like all others.

* `Detaching`: a recursing source into a table that refuses what matches no column.
* `Mutation.Exposed`: an upsert that is attempted, whose row can meet a conflict, and whose row before the change has a
  nested property that matches no column.
* `route_within_maps`: what an upsert that is not exposed is routed as can be mapped, before a conflict and after it.
* `processBatch_of_exposed`: a stored row with which an exposed upsert stops its batch.
* `before_images_usable_unless_exposed`: the two together.
-/

namespace Tributary

open Run

/-! ## Tables that refuse what matches no column -/

/-- A table that has neither a map function nor an extras column, and is closed. -/
structure Strict (config : TableConfig) (schema : Schema) : Prop where
  map : config.map = none
  extras : config.extras = none
  closed : schema.isOpen = false

namespace Strict

variable {config : TableConfig} {schema : Schema} {timeout : Span} {doc origin : Document}

theorem mapRow_of_inside (h : Strict config schema) (hdoc : (removeIgnored config doc).Inside schema) :
    (mapRow config schema timeout doc origin).attempt.value =
      .ok (some ⟨removeIgnored config doc, rowExprs config (removeIgnored config doc)⟩) := by
  rw [mapRow_of_source (mapDocument_of_no_map h.map), cleanRow, collectExtras_of_inside hdoc]
  rfl

theorem mapRow_of_outside (h : Strict config schema) (hdoc : ¬ (removeIgnored config doc).Inside schema) :
    ∃ names, (mapRow config schema timeout doc origin).attempt.value = .error (.unknownColumns names) := by
  have hcollected : ∃ names, collectExtras config schema (removeIgnored config doc) =
      .error (.unknownColumns names) := by
    unfold collectExtras
    rw [h.extras, h.closed, if_neg (Document.no_unknown_iff.not.2 hdoc)]
    exact ⟨_, rfl⟩
  obtain ⟨names, hnames⟩ := hcollected
  refine ⟨names, ?_⟩
  rw [mapRow_of_source (mapDocument_of_no_map h.map), cleanRow, hnames]
  rfl

theorem inside_of_mapRow (h : Strict config schema) {mapped : Option MappedRow}
    (hmapped : (mapRow config schema timeout doc origin).attempt.value = .ok mapped) :
    (removeIgnored config doc).Inside schema := by
  by_contra hdoc
  obtain ⟨names, hnames⟩ : ∃ names, (mapRow config schema timeout doc origin).attempt.value =
      .error (.unknownColumns names) := h.mapRow_of_outside hdoc
  cases hmapped.symm.trans hnames

end Strict

/-! ## Detached documents -/

/-- A source that recurses and passes all documents to a table with compare-and-set columns and the standard merge,
which takes documents as they are and refuses properties that match no column. -/
structure Detaching (registry : Registry) (source : SourceConfig) (table : TableName) (schema : Schema) : Prop where
  target : source.destination = .target table
  recurses : source.recurse = true
  cas : (registry.table table).isCas = true
  merges : ∃ fallback, (registry.table table).merge = some (.standard fallback)
  strict : Strict (registry.table table) schema

/-- The row before a change has the properties of the row, and the same ones are nested. -/
def Mutation.Mirrored (m : Mutation) : Prop :=
  ∃ data before, m.data = some data ∧ m.before = some before ∧ before.names = data.names ∧
    ∀ name v w, data.get? name = some v → before.get? name = some w → v.isNested = w.isNested

/-- A mutation is routed, and all that it is routed as can be prepared at a time. -/
def Mutation.Prepares (registry : Registry) (now : Instant) (source : SourceConfig) (start : Session MemoryStore)
    (m : Mutation) : Prop :=
  ∃ routed, (route source registry.options.functionTimeout registry.options.maxDepth m).attempt.value = .ok routed ∧
    ∀ r ∈ routed, ∃ preparation, ((prepare registry now ⟨0, 0, r⟩).exec start).1 = .ok preparation

/-- The options leave an attempt. What is left of an upsert without its nested documents is a row that is not empty, and
the row before the change has a nested property that is not ignored and matches no column. -/
structure Mutation.Exposed (registry : Registry) (now : Instant) (table : TableName) (schema : Schema)
    (m : Mutation) : Prop where
  attempted : registry.options.attempts ≠ 0
  row : ∃ row, m.flat.Becomes registry now table schema row ∧ row.row ≠ .empty
  stray : ∃ before name v, m.before = some before ∧ before.get? name = some v ∧ v.isNested = true ∧
    name ∉ (registry.table table).ignore ∧ schema.hasColumn name = false

variable {registry : Registry} {clock : Clock} {now : Instant} {source : SourceConfig} {table : TableName}
  {schema : Schema} {start : Session MemoryStore} {m : Mutation}

/-- Nested documents have no row before the change. -/
theorem before_of_mem_levels {limit : Nat} {c : Mutation} (hupsert : m.data.isSome = true)
    (h : c ∈ levels limit [m]) : c = m ∨ c.before = none := by
  obtain ⟨data, hdata⟩ := Option.isSome_iff_exists.1 hupsert
  obtain ⟨n, -, hc⟩ := List.mem_flatMap.1 h
  cases n with
  | zero => exact .inl (List.mem_singleton.1 hc)
  | succ n =>
    rw [level_eq_map hdata] at hc
    obtain ⟨piece, -, rfl⟩ := List.mem_map.1 hc
    exact .inr rfl

/-- Whatever can be prepared has been mapped. -/
theorem mapRow_of_prepare (hshows : start.Shows table schema) {data : Document} (hdata : m.data = some data)
    {preparation : Preparation}
    (h : ((prepare registry now ⟨0, 0, table, m⟩).exec start).1 = .ok preparation) :
    ∃ mapped, (mapRow (registry.table table) schema registry.options.functionTimeout data m.origin).attempt.value =
      .ok mapped := by
  have hprepare : (prepare registry now ⟨0, 0, table, m⟩ : Run MemoryStore _) =
      prepareUpsert registry now ⟨0, 0, table, m⟩ data := by
    unfold prepare
    simp only [hdata]
    rfl
  rw [hprepare, prepareUpsert_value hshows.1] at h
  split at h
  · cases h
  · next hmapped => exact ⟨_, hmapped⟩
  · next hmapped => exact ⟨_, hmapped⟩

/-- A mutation that can be prepared is ready if it becomes a row. -/
theorem ready_of_becomes (hshows : start.Shows table schema) {row : MappedRow}
    (hrow : m.Becomes registry now table schema row) {preparation : Preparation}
    (h : ((prepare registry now ⟨0, 0, table, m⟩).exec start).1 = .ok preparation) :
    ∃ key, readyAt registry now start ⟨0, 0, table, m⟩ = some ⟨⟨0, 0, table, m⟩, key, .upsert row⟩ := by
  obtain ⟨data, hdata, hmapped, hcheck⟩ := hrow
  have hprepare : (prepare registry now ⟨0, 0, table, m⟩ : Run MemoryStore _) =
      prepareUpsert registry now ⟨0, 0, table, m⟩ data := by
    unfold prepare
    simp only [hdata]
    rfl
  have hvalue := h
  rw [hprepare, prepareUpsert_value hshows.1, hmapped] at hvalue
  dsimp only at hvalue
  rw [hcheck] at hvalue
  dsimp only at hvalue
  cases hkey : rowKey schema row.row m with
  | error fault =>
    rw [hkey] at hvalue
    cases hvalue
  | ok key =>
    rw [hkey] at hvalue
    cases hvalue
    exact ⟨key, readyAt_eq_some_iff.2 h⟩

/-! ## Upserts that are not exposed -/

theorem removeIgnored_inside_iff {config : TableConfig} {doc : Document} :
    (removeIgnored config doc).Inside schema ↔
      ∀ name v, doc.get? name = some v → name ∉ config.ignore → schema.hasColumn name = true := by
  rw [Document.inside_iff]
  refine forall₂_congr fun name v => ?_
  rw [get?_removeIgnored]
  split <;> simp_all

theorem Mutation.get?_flat {data : Document} {name : String} {v : Value} (hname : data.get? name = some v)
    (hflat : v.isNested = false) : (data.filter fun _ v => !v.isNested).get? name = some v := by
  rw [Document.get?_filter, hname, Option.filter_some, if_pos (by simp [hflat])]

/-- The row before the change can be mapped whenever the row becomes one, unless the upsert is exposed. -/
theorem Detaching.before_inside (hdetach : Detaching registry source table schema)
    (hattempts : registry.options.attempts ≠ 0) (hmirrored : m.Mirrored)
    (hcovered : ¬ m.Exposed registry now table schema) {row : MappedRow}
    (hrow : m.flat.Becomes registry now table schema row) (hfull : row.row ≠ .empty) {before : Document}
    (hbefore : m.before = some before) : (removeIgnored (registry.table table) before).Inside schema := by
  obtain ⟨data, image, hdata, himage, hnames, hnested⟩ := hmirrored
  cases himage.symm.trans hbefore
  obtain ⟨flat, hflat, hmapped, -⟩ := id hrow
  have hknown := hdetach.strict.inside_of_mapRow hmapped
  rw [removeIgnored_inside_iff] at hknown ⊢
  intro name w hname hheeded
  cases hnest : w.isNested with
  | true =>
    by_contra hunknown
    exact hcovered
      ⟨hattempts, ⟨row, hrow, hfull⟩, before, name, w, hbefore, hname, hnest, hheeded, by simpa using hunknown⟩
  | false =>
    -- the row has a value for the name, which is not nested either
    have hcontains : before.contains name = true := by rw [Document.contains, hname]; rfl
    rw [Document.contains_iff_mem_names, hnames, ← Document.contains_iff_mem_names, Document.contains,
      Option.isSome_iff_exists] at hcontains
    obtain ⟨v, hv⟩ := hcontains
    have hfield : (data.filter fun _ v => !v.isNested).get? name = some v :=
      Mutation.get?_flat hv ((hnested name v w hv hname).trans hnest)
    rw [Mutation.flat, hdata] at hflat
    cases hflat
    exact hknown name v hfield hheeded

theorem route_within_maps (hdetach : Detaching registry source table schema) (hshows : start.Shows table schema)
    (hmirrored : m.Mirrored) (hprepares : ∀ number, m.Prepares registry (clock.time number) source start)
    (hcovered : ∀ number, ¬ m.Exposed registry (clock.time number) table schema) :
    Logged.Fallible.Within Fault.Contained (∀ r ∈ ·, r.Maps registry clock table schema)
      (route source registry.options.functionTimeout registry.options.maxDepth m) := by
  have hupsert : m.data.isSome = true := by
    obtain ⟨data, -, hdata, -⟩ := hmirrored
    rw [hdata]
    rfl
  obtain ⟨routed, hrouted, -⟩ := hprepares 0
  have hprepare (number : Nat) : ∀ r ∈ routed, ∃ preparation,
      ((prepare registry (clock.time number) ⟨0, 0, r⟩).exec start).1 = .ok preparation := by
    obtain ⟨routed', hrouted', hprepare⟩ := hprepares number
    cases hrouted.symm.trans hrouted'
    exact hprepare
  refine ⟨?_⟩
  rw [hrouted]
  intro r hr
  rw [route_value hdetach.target hdetach.recurses _ hupsert] at hrouted
  split at hrouted
  · cases hrouted
    obtain ⟨c, hc, rfl⟩ := List.mem_map.1 hr
    refine ⟨rfl, fun number => ⟨fun data hdata => ⟨?_⟩, fun hattempts row before hrow hfull hbefore => ⟨?_⟩⟩⟩
    · obtain ⟨preparation, hready⟩ := hprepare number _ hr
      obtain ⟨mapped, hmapped⟩ := mapRow_of_prepare hshows hdata hready
      rw [hmapped]
      trivial
    · rcases before_of_mem_levels hupsert hc with rfl | hnone
      · have hinside := hdetach.before_inside hattempts hmirrored (hcovered number) hrow hfull hbefore
        rw [hdetach.strict.mapRow_of_inside hinside]
        trivial
      · cases hnone.symm.trans hbefore
  · cases hrouted

/-! ## Upserts that are exposed -/

/-- A row conflicts with one in which a document stands in the place of another value. -/
theorem conflicts_insert_document (columns : List String) {row : Document} {name : String} {v : Value}
    (hname : row.get? name = some v) (hflat : v.isNested = false) :
    conflicts columns row (row.insert name (.document [])) = true := by
  have hsame : v.same (.document []) = false := by
    cases v with
    | document fields => cases hflat
    | _ => rfl
  have hless : v.order (.document []) = .lt := by
    cases v with
    | document fields => cases hflat
    | _ => rfl
  have hnewer : casOrder columns row (row.insert name (.document [])) ≠ .gt := by
    induction columns with
    | nil => exact Ordering.noConfusion
    | cons column rest ih =>
      rw [casOrder, Document.get?_insert]
      by_cases hcolumn : column = name
      · rw [if_pos hcolumn, hcolumn, hname, valueOrder, Option.getD_some, Option.getD_some, hless]
        exact Ordering.noConfusion
      · rw [if_neg hcolumn, valueOrder_self]
        exact ih
  have hrepeats : row.subsetOf (row.insert name (.document [])) = false := by
    refine List.all_eq_false.2 ⟨(name, v), (row.mem_fields_iff name v).2 hname, ?_⟩
    rw [Document.get?_insert_self, Option.any_some, hsame]
    exact Bool.false_ne_true
  rw [conflicts, hrepeats]
  simpa using hnewer

section

variable {name : String} {p : Prepared} {row : MappedRow} {before : Document} {s : Session MemoryStore} {fault : Fault}

/-- An upsert fails if it meets a conflict and its row before the change cannot be mapped. -/
theorem applyPrepared_of_unmapped_before (hattempts : registry.options.attempts ≠ 0)
    (hshows : s.Shows p.row.table schema)
    (hcas : (registry.table p.row.table).isCas = true) (haction : p.action = .upsert row) {stored : StoredRow}
    (hstored : s.store.stored? p.row = some stored)
    (hneeded : needsBefore (registry.table p.row.table) row.row (some stored.data) = true)
    (hbefore : p.mutation.before = some before)
    (hfails : (mapRow (registry.table p.row.table) schema registry.options.functionTimeout before
      p.mutation.origin).attempt.value = .error fault) :
    ((applyPrepared registry name p).exec s).1 = .error fault := by
  have hmap : ((mapBefore registry p before).exec s).1 = .error fault := by
    have hschema := (schemaOf_exec p.row.table s).1
    rw [hshows.1] at hschema
    unfold mapBefore
    dsimp only
    rw [exec_bind_of_ok (exec_of_fst hschema)]
    exact exec_bind_of_error hfails
  have hrefresh : ((refreshBefore registry p row.row (some stored.data) none).exec s).1 = .error fault := by
    unfold refreshBefore
    simp only [hbefore, hneeded, if_true]
    exact exec_bind_of_error hmap
  have hread : (Run.store (TargetStore.readRow p.row)).exec s = (.ok (some stored), s) := by
    show (Except.ok (s.store.stored? p.row), s) = _
    rw [hstored]
  have hdecide : ((decideWrite registry name p row.row none).exec s).1 = .error fault := by
    unfold decideWrite decideCas
    rw [if_pos hcas, exec_bind_of_ok hread]
    exact exec_bind_of_error hrefresh
  obtain ⟨attempts, htotal⟩ := Nat.exists_eq_succ_of_ne_zero hattempts
  unfold applyPrepared applyUpsert
  rw [haction, htotal]
  exact exec_bind_of_error hdecide

/-- The groups of a plan start with the first mutation that is ready. -/
theorem groupRows_cons (p : Prepared) (ps : List Prepared) :
    ∃ later groups, groupRows (p :: ps) = (p :: later) :: groups := by
  induction ps using List.reverseRecOn with
  | nil => exact ⟨[], [], rfl⟩
  | append_singleton ps q ih =>
    obtain ⟨later, groups, hgroups⟩ := ih
    rw [← List.cons_append, groupRows_snoc, hgroups, addToGroups]
    split
    · exact ⟨later ++ [q], groups, rfl⟩
    · exact ⟨later, addToGroups q groups, rfl⟩

/-- A fault that stops the batch does so where it is met first. -/
theorem applyGroups_of_stop {later : List Prepared} {groups : List (List Prepared)}
    (hfails : ((applyPrepared registry name p).exec s).1 = .error fault) (hstop : fault.action = .stop) :
    ((applyGroups registry name ((p :: later) :: groups)).exec s).1 = .error fault := by
  have hattempt : (applyPrepared registry name p).attempt.exec s =
      (.ok (.error fault), ((applyPrepared registry name p).exec s).2) := by
    rw [exec_attempt, hfails]
  have hdispose (t : Session MemoryStore) : ((disposeOf registry name p (.error fault)).exec t).1 = .error fault := by
    simp only [disposeOf, handleFailure, hstop]
    rfl
  have hone : ((applyOne registry name p).exec s).1 = .error fault := by
    rw [applyOne, exec_bind_of_ok hattempt]
    exact exec_bind_of_error (hdispose _)
  rw [applyGroups, applyGroup_cons]
  exact exec_bind_of_error (exec_bind_of_error hone)

end

/-! ## Batches -/

theorem levels_eq_append (n : Nat) (ms : List Mutation) : ∃ below, levels n ms = ms ++ below := by
  cases n with
  | zero => exact ⟨[], by rw [List.append_nil]; exact List.flatMap_singleton ..⟩
  | succ n => exact ⟨_, levels_succ n ms⟩

/-- A mutation that prepares fails in no stage before its row. -/
theorem failures_of_prepares (h : ∀ number, m.Prepares registry (clock.time number) source start) :
    failures registry clock source start [m] = [] := by
  obtain ⟨routed, hrouted, -⟩ := h 0
  have hroute : routedFrom source registry.options 0 [m] = [⟨0, m, .ok routed⟩] := by
    rw [← hrouted]
    rfl
  have hwaiting : waitingFrom 0 [⟨0, m, .ok routed⟩] = place 0 0 routed := List.append_nil _
  unfold failures
  dsimp only
  rw [hroute, hwaiting]
  refine List.append_eq_nil_iff.2 ⟨rfl, List.filterMap_eq_nil_iff.2 fun x hx => ?_⟩
  obtain ⟨p, hp, rfl⟩ := List.mem_map.1 hx
  obtain ⟨routed', hrouted', hprepare⟩ := h p.number
  cases hrouted.symm.trans hrouted'
  obtain ⟨preparation, hready⟩ := hprepare p.routed (mem_place hp)
  rw [PreparedSource.failure?, prepare_eq_shift, exec_map, hready]
  rfl

/-- The groups of a plan start with what a mutation is routed as first, if that is ready. -/
theorem plan_of_ready {s t : Session MemoryStore} {plan : Plan} {first : Routed} {routed : List Routed}
    (hrouted : (route source registry.options.functionTimeout registry.options.maxDepth m).attempt.value =
      .ok (first :: routed)) {p : Prepared} (hready : readyAt registry clock s ⟨0, 0, first⟩ = some p)
    (hplan : (planBatch registry clock source [m]).exec s = (.ok plan, t)) :
    ∃ later groups, plan.groups = (p :: later) :: groups := by
  rw [planBatch_eq] at hplan
  obtain ⟨found, u, hfound, hdone⟩ := exec_bind_ok hplan
  cases hdone
  obtain ⟨placed, hplaced, hwaiting⟩ := planFrom_ready hfound
  have hroute : routedFrom source registry.options 0 [m] = [⟨0, m, .ok (first :: routed)⟩] := by
    rw [← hrouted]
    rfl
  rw [hroute] at hplaced
  cases placed with
  | nil => cases hplaced
  | cons q rest =>
    have hfirst : q.entry = (first.entry 0, 0) := (List.cons.inj hplaced).1
    obtain ⟨number, index, target⟩ := q
    obtain ⟨table, mutation⟩ := first
    cases hfirst
    rw [hwaiting, List.filterMap_cons, hready]
    exact groupRows_cons ..

/-- Planning a mutation that prepares leaves all rows alone, whatever rows there are. -/
theorem plan_of_prepares {s : Session MemoryStore} (hsame : start.SameTables s)
    (hprepares : ∀ number, m.Prepares registry (clock.time number) source start) {first : Routed}
    {routed : List Routed}
    (hrouted : (route source registry.options.functionTimeout registry.options.maxDepth m).attempt.value =
      .ok (first :: routed)) {p : Prepared} (hready : readyAt registry clock start ⟨0, 0, first⟩ = some p) :
    ∃ plan t later groups, (planBatch registry clock source [m]).exec s = (.ok plan, t) ∧ t.store = s.store ∧
      start.SameTables t ∧ plan.groups = (p :: later) :: groups := by
  obtain ⟨htables, hstore, hplanned⟩ := (planBatch_handles registry clock source [m]).handles s hsame
  rw [failures_of_prepares hprepares] at hstore hplanned
  rw [handled, MemoryStore.filed_nil] at hstore
  obtain ⟨plan, hplan, -⟩ := hplanned
  have hreadyNow : readyAt registry clock s ⟨0, 0, first⟩ = some p := by
    rw [readyAt_eq_some_iff, prepare_exec_eq hsame]
    exact readyAt_eq_some_iff.1 hready
  obtain ⟨later, groups, hgroups⟩ := plan_of_ready hrouted hreadyNow (exec_of_fst hplan)
  exact ⟨plan, _, later, groups, exec_of_fst hplan, hstore, htables, hgroups⟩

/-- What is left of a row without its nested documents holds no nested value. -/
theorem Strict.flat_of_becomes (h : Strict (registry.table table) schema) {row : MappedRow}
    (hrow : m.flat.Becomes registry now table schema row) {name : String} {v : Value}
    (hname : row.row.get? name = some v) : v.isNested = false := by
  obtain ⟨flat, hflat, hmapped, -⟩ := hrow
  rw [h.mapRow_of_inside (h.inside_of_mapRow hmapped)] at hmapped
  cases hmapped
  obtain ⟨data, -, rfl⟩ := Option.map_eq_some_iff.1 hflat
  rw [get?_removeIgnored] at hname
  split at hname
  · cases hname
  · rw [Document.get?_filter, Option.filter_eq_some_iff] at hname
    simpa using hname.2

/-- What stands in the way of a row that is not empty: a row in which a document takes the place of a value. -/
theorem Detaching.exists_conflict (hdetach : Detaching registry source table schema) {row : MappedRow}
    (hrow : m.flat.Becomes registry now table schema row) (hfull : row.row ≠ .empty) :
    ∃ target, needsBefore (registry.table table) row.row (some target) = true := by
  obtain ⟨⟨column, v⟩, hfield⟩ := List.exists_mem_of_ne_nil row.row.fields fun hnone =>
    hfull (Document.ext_get? fun key => by rw [Document.get?, hnone]; rfl)
  have hcolumn := (row.row.mem_fields_iff column v).1 hfield
  have hconflict := conflicts_insert_document (registry.table table).cas hcolumn
    (hdetach.strict.flat_of_becomes hrow hcolumn)
  obtain ⟨fallback, hmerge⟩ := hdetach.merges
  refine ⟨row.row.insert column (.document []), ?_⟩
  rw [needsBefore, hmerge, Option.any_some, hconflict]
  rfl

theorem Detaching.route_starts (hdetach : Detaching registry source table schema) (hupsert : m.data.isSome = true)
    {routed : List Routed}
    (hrouted : (route source registry.options.functionTimeout registry.options.maxDepth m).attempt.value =
      .ok routed) :
    ∃ others, routed = ⟨table, m.flat⟩ :: others := by
  rw [route_value hdetach.target hdetach.recurses _ hupsert] at hrouted
  obtain ⟨below, hbelow⟩ := levels_eq_append registry.options.maxDepth [m]
  split at hrouted
  · cases hrouted
    rw [hbelow]
    exact ⟨_, rfl⟩
  · cases hrouted

/-- An upsert that is exposed stops its batch over some stored row. -/
theorem processBatch_of_exposed {name : String} (hsource : registry.source name = .ok source)
    (hdetach : Detaching registry source table schema) (hshows : start.Shows table schema)
    (hupsert : m.data.isSome = true) (hprepares : ∀ number, m.Prepares registry (clock.time number) source start)
    (hexposed : m.Exposed registry (clock.time 0) table schema) :
    ∃ s, start.SameTables s ∧
      ∃ names, ((processBatch registry clock name [m]).exec s).1 = .error (.unknownColumns names) := by
  obtain ⟨hattempts, ⟨row, hrow, hfull⟩, before, stray, w, hbefore, hstray, -, hheeded, hunknown⟩ := hexposed
  obtain ⟨routed, hrouted, hprepare⟩ := hprepares 0
  obtain ⟨others, rfl⟩ := hdetach.route_starts hupsert hrouted
  obtain ⟨preparation, hprepared⟩ := hprepare _ List.mem_cons_self
  obtain ⟨key, hready⟩ := ready_of_becomes hshows hrow hprepared
  obtain ⟨target, hneeded⟩ := hdetach.exists_conflict hrow hfull
  generalize hs : ({ start with store := start.store.putRow ⟨table, key⟩ target } : Session MemoryStore) = s
  have hsame : start.SameTables s := by
    subst hs
    exact ⟨fun _ => rfl, fun _ => rfl⟩
  refine ⟨s, hsame, ?_⟩
  obtain ⟨plan, t, later, groups, hplan, hstore, htables, hgroups⟩ :=
    plan_of_prepares hsame hprepares hrouted hready
  have hstored : t.store.stored? ⟨table, key⟩ = some ⟨target, start.store.lastVersion⟩ := by
    rw [hstore, ← hs, MemoryStore.stored?_putRow, if_pos rfl]
  have hstrays : ¬ (removeIgnored (registry.table table) before).Inside schema := by
    intro hinside
    rw [removeIgnored_inside_iff.1 hinside stray w hstray hheeded] at hunknown
    cases hunknown
  obtain ⟨names, hfails⟩ : ∃ names, (mapRow (registry.table table) schema registry.options.functionTimeout before
      m.origin).attempt.value = .error (.unknownColumns names) := hdetach.strict.mapRow_of_outside hstrays
  have happly : ((applyPrepared registry source.name ⟨⟨0, 0, table, m.flat⟩, key, .upsert row⟩).exec t).1 =
      .error (.unknownColumns names) :=
    applyPrepared_of_unmapped_before hattempts (hshows.of_sameTables htables) hdetach.cas rfl hstored hneeded hbefore
      hfails
  have hconfig : (liftM (registry.source name) : Run MemoryStore _).exec s = (.ok source, s) := by
    rw [exec_liftM, hsource]
  refine ⟨names, ?_⟩
  rw [processBatch, exec_bind_of_ok hconfig, exec_bind_of_ok hplan, hgroups]
  exact exec_bind_of_error (applyGroups_of_stop happly rfl)

/-- Upserts that are not exposed, whatever the clock shows, never stop their batch, whatever rows are stored, in every
order of the rows, and whatever others do to rows at the same time. An upsert that is exposed does so over some stored
row. -/
theorem before_images_usable_unless_exposed {name : String} (hsource : registry.source name = .ok source)
    (hdetach : Detaching registry source table schema) (hshows : start.Shows table schema) (clock : Clock) :
    (∀ batch : List Mutation, (∀ m ∈ batch, m.Mirrored ∧ ∀ number,
          m.Prepares registry (clock.time number) source start ∧
            ¬ m.Exposed registry (clock.time number) table schema) →
        ∀ s, start.SameTables s → ∀ arrangement : Arrangement,
          (∃ outcomes, ((processArranged registry clock name arrangement batch).exec s).1 = .ok outcomes) ∧
            ∀ turns, (∀ turn ∈ turns, ∀ op ∈ turn, StoreOp.KeepsTables op) →
              ∃ outcomes, ((processArranged registry clock name arrangement batch).exec (s.shared turns)).1 =
                .ok outcomes) ∧
      ∀ m : Mutation, m.Mirrored → (∀ number, m.Prepares registry (clock.time number) source start) →
        m.Exposed registry (clock.time 0) table schema →
        ∃ s, start.SameTables s ∧
          ∃ names, ((processBatch registry clock name [m]).exec s).1 = .error (.unknownColumns names) := by
  constructor
  · intro batch hbatch s hsame arrangement
    have hs : s.Shows table schema := hshows.of_sameTables hsame
    have hroutes : ∀ m ∈ batch, Logged.Fallible.Within Fault.Contained (∀ r ∈ ·, r.Maps registry clock table schema)
        (route source registry.options.functionTimeout registry.options.maxDepth m) := by
      intro m hm
      obtain ⟨hmirrored, hready⟩ := hbatch m hm
      exact route_within_maps hdetach hshows hmirrored (fun number => (hready number).1) fun number => (hready number).2
    constructor
    · have hrun := (MemoryStore.serves table schema).processArranged_succeeds_of_maps hsource arrangement hroutes
      exact (hrun.exists_ok hs).imp fun _ h => h.1
    · intro turns hturns
      have hshared : (s.shared turns).ShowsAll table schema := ⟨hs, hturns⟩
      have hrun := (SharedStore.serves table schema).processArranged_succeeds_of_maps hsource arrangement hroutes
      exact (hrun.exists_ok hshared).imp fun _ h => h.1
  · intro m hmirrored hprepares hexposed
    obtain ⟨data, -, hdata, -⟩ := hmirrored
    exact processBatch_of_exposed hsource hdetach hshows (by rw [hdata]; rfl) hprepares hexposed

namespace Example

/-- The example table with a key, and with a column for one of two properties that may be nested. -/
def parcels : Schema := { orders with columns := [⟨"id", true⟩, ⟨"paid", false⟩, ⟨"gift", false⟩] }

/-- A source that recurses into that table, in which conflicts are merged. -/
def unpacking : SourceConfig := ⟨"orders", .target orders.name, true⟩

def unpacked : Registry :=
  ⟨.default, Keyed.empty.put "orders" unpacking,
    Keyed.empty.put orders.name { TableConfig.plain with cas := ["paid"], merge := some (.standard none) }⟩

/-- A row with a nested document. -/
def parcel (paid : Bool) (nested : String) : Document :=
  .ofList [("id", .bool true), ("paid", .bool paid), (nested, .document [("id", .bool false)])]

/-- An upsert that leaves the nested document as it is. -/
def repacked (nested : String) : Mutation :=
  ⟨some (parcel true nested), some (parcel false nested), [.bool true], default, .empty⟩

/-- A session in which the row is paid, unlike the one of the upsert. -/
def paidParcel : Session MemoryStore :=
  .ofStore (StoreOp.runAll [.createTable parcels, .insert order (content true)] .empty)

theorem unpacking_detaches : Detaching unpacked unpacking orders.name parcels :=
  ⟨rfl, rfl, rfl, ⟨none, rfl⟩, rfl, rfl, rfl⟩

theorem repacked_mirrored {nested : String} (h : nested = "gift" ∨ nested = "part") : (repacked nested).Mirrored := by
  refine ⟨parcel false nested, parcel true nested, rfl, rfl, ?_, fun name v w hv hw => ?_⟩
  · rcases h with rfl | rfl <;> rfl
  · have hfield := ((parcel false nested).mem_fields_iff name v).2 hv
    rcases h with rfl | rfl <;> rcases hfield with _ | ⟨_, _ | ⟨_, _ | ⟨_, _ | _⟩⟩⟩ <;> cases hw <;> rfl

theorem repacked_prepares {nested : String} (h : nested = "gift" ∨ nested = "part") :
    (repacked nested).Prepares unpacked default unpacking paidParcel := by
  rcases h with rfl | rfl
  all_goals
    refine ⟨_, rfl, fun r hr => ?_⟩
    rcases hr with _ | ⟨_, _ | ⟨_, _ | _⟩⟩ <;> exact ⟨_, rfl⟩

end Example

/-- The gift has a column, so that the row before the change can be mapped. The part has none. -/
theorem gift_is_usable_part_is_not :
    (∃ outcomes, ((processArranged Example.unpacked default "orders" .asFound [Example.repacked "gift"]).exec
        Example.paidParcel).1 = .ok outcomes) ∧
      ∃ s, Example.paidParcel.SameTables s ∧ ∃ names,
        ((processBatch Example.unpacked default "orders" [Example.repacked "part"]).exec s).1 =
          .error (.unknownColumns names) := by
  have hsource : Example.unpacked.source "orders" = .ok Example.unpacking := rfl
  have hshows : Example.paidParcel.Shows Example.orders.name Example.parcels := ⟨rfl, rfl⟩
  obtain ⟨hcovered, hexposed⟩ :=
    before_images_usable_unless_exposed hsource Example.unpacking_detaches hshows default
  have hgift : ¬ (Example.repacked "gift").Exposed Example.unpacked default Example.orders.name Example.parcels := by
    rintro ⟨-, -, before, name, v, hbefore, hname, -, -, hunknown⟩
    cases hbefore
    have hfield := (Document.mem_fields_iff _ name v).2 hname
    rcases hfield with _ | ⟨_, _ | ⟨_, _ | ⟨_, _ | _⟩⟩⟩ <;> cases hunknown
  have hpart : (Example.repacked "part").Exposed Example.unpacked default Example.orders.name Example.parcels := by
    refine ⟨by decide, ⟨⟨(Example.content false).insert "id" (.bool true), []⟩, ⟨_, rfl, rfl, rfl⟩, by decide⟩, ?_⟩
    exact ⟨_, "part", _, rfl, rfl, rfl, List.not_mem_nil, rfl⟩
  refine ⟨(hcovered [Example.repacked "gift"] ?_ _ (.refl _) .asFound).1, ?_⟩
  · rintro m (_ | ⟨_, _ | _⟩)
    exact ⟨Example.repacked_mirrored (.inl rfl), fun _ => ⟨Example.repacked_prepares (.inl rfl), hgift⟩⟩
  · exact hexposed _ (Example.repacked_mirrored (.inr rfl)) (fun _ => Example.repacked_prepares (.inr rfl)) hpart

/-- The part is taken out of the row, which could be merged, but not out of the row before the change. -/
theorem part_stops_batch :
    Detaching Example.unpacked Example.unpacking Example.orders.name Example.parcels ∧
      (Example.repacked "part").Mirrored ∧
      (Example.repacked "part").Prepares Example.unpacked default Example.unpacking Example.paidParcel ∧
      ((processBatch Example.unpacked default "orders" [Example.repacked "part"]).exec Example.paidParcel).1 =
        .error (.unknownColumns ["orders.part"]) :=
  ⟨Example.unpacking_detaches, Example.repacked_mirrored (.inr rfl), Example.repacked_prepares (.inr rfl), rfl⟩

end Tributary
