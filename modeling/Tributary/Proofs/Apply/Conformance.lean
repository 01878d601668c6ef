import Tributary.Proofs.Apply.Containment
import Tributary.Proofs.Apply.Readiness
import Tributary.Proofs.Row.Conformance

/-!
# Stored rows conform to their table and key

Whatever an engine was given since it was started on a store without rows, and however far it has come with a
batch, every row that is stored in a closed table with a primary key has columns of the table only, and is
stored under the key that its own columns make up.

* `start_collectsInside`: an engine that starts collects extras in columns that exist.
* `Session.RowsConform`: the invariant. `writeRow_conforms` says that a conforming write keeps it, and
  `upsertWithin_conforms` that an upsert brings no other, however often it is tried.
* `Session.Reached`: the sessions of an engine, behind batches and within them.
* `stored_rows_conform`: the statement above.
-/

namespace Tributary

open Run

/-! ## Startup -/

theorem exec_of_mem_mapM {σ α β γ : Type} {view : Session σ → γ} {f : α → Run σ β}
    (hf : ∀ a, Keeps view (f a)) {as : List α} {bs : List β} {s s' : Session σ}
    (hrun : (as.mapM f).exec s = (.ok bs, s')) {a : α} (ha : a ∈ as) :
    ∃ t t' b, view t = view s ∧ (f a).exec t = (.ok b, t') ∧ b ∈ bs := by
  induction as generalizing bs s with
  | nil => cases ha
  | cons first rest ih =>
    rw [List.mapM_cons] at hrun
    obtain ⟨b, s₁, hfirst, hothers⟩ := exec_bind_ok hrun
    obtain ⟨more, s₂, hrest, hdone⟩ := exec_bind_ok hothers
    cases hdone
    rcases List.mem_cons.1 ha with rfl | hin
    · exact ⟨s, s₁, b, rfl, hfirst, List.mem_cons_self⟩
    · obtain ⟨t, t', other, hview, hexec, hother⟩ := ih hrest hin
      have hkept := (hf first).kept s
      rw [hfirst] at hkept
      exact ⟨t, t', other, hview.trans hkept, hexec, List.mem_cons_of_mem b hother⟩

variable {registry : Registry} {store : MemoryStore} {table : TableName} {schema : Schema}

/-- An engine that starts names no column of a configured table that the table does not have. -/
theorem start_referenced {fresh : Session MemoryStore} (hstart : start registry store = .ok fresh)
    (hschema : store.schemas.get? table = some schema) :
    ∀ column ∈ (registry.table table).referenced, schema.hasColumn column = true := by
  unfold Registry.table
  cases hconfig : registry.tables.get? table with
  | none => exact fun column hcolumn => absurd hcolumn List.not_mem_nil
  | some config =>
    obtain ⟨e, hentry, rfl⟩ := Option.map_eq_some_iff.1 hconfig
    have hmem := List.mem_of_find?_eq_some hentry
    have hkey : e.1 = table := by simpa using List.find?_some hentry
    obtain ⟨faults, s₁, htables, hrest⟩ := exec_bind_ok (exec_of_start hstart)
    obtain ⟨others, s₂, hsources, hdone⟩ := exec_bind_ok hrest
    have hkeeps (e : TableName × TableConfig) : Keeps Session.inUse (tableFaults e.1 e.2) :=
      tableFaults_keeps e.1 e.2
    obtain ⟨t, t', none, hview, hexec, hnone⟩ := exec_of_mem_mapM hkeeps htables hmem
    have hall : faults.flatten ++ others.flatten = [] := Except.ok.inj (congrArg Prod.fst hdone)
    have hempty : none = [] := List.flatten_eq_nil_iff.1 (List.append_eq_nil_iff.1 hall).1 none hnone
    subst hempty
    have hshape : t.shape? e.1 = some schema :=
      (congrFun (congrArg Prod.snd hview) e.1).trans (hkey ▸ hschema)
    have hread : (schemaOf e.1).attempt.exec t = (.ok (.ok schema), ((schemaOf e.1).exec t).2) := by
      obtain ⟨hresult, -⟩ := schemaOf_exec e.1 t
      rw [hshape] at hresult
      rw [exec_attempt, hresult]
    rw [tableFaults, exec_bind_of_ok hread] at hexec
    have hmissing := Except.ok.inj (congrArg Prod.fst hexec)
    intro column hcolumn
    have hnot := List.filter_eq_nil_iff.1 (List.map_eq_nil_iff.1 hmissing) column hcolumn
    simpa using hnot

/-- So the extras of a table are collected in one of its columns. -/
theorem start_collectsInside {fresh : Session MemoryStore} (hstart : start registry store = .ok fresh)
    (hschema : store.schemas.get? table = some schema) : CollectsInside (registry.table table) schema := by
  intro column hcolumn
  refine start_referenced hstart hschema column ?_
  rw [TableConfig.referenced, hcolumn]
  exact List.mem_append_right _ (List.mem_singleton_self column)

/-! ## The invariant -/

/-- The engine works with the shape of a table, and all rows of the table conform to it and to their keys. -/
structure Session.RowsConform (table : TableName) (schema : Schema) (s : Session MemoryStore) : Prop where
  shows : s.Shows table schema
  rows : ∀ id row, id.table = table → s.store.row? id = some row → row.Conforms schema id.key

/-- A step behind which the rows of the table still conform, whether or not it fails. -/
abbrev Run.KeepsConforming {α : Type} (table : TableName) (schema : Schema) (P : α → Prop)
    (x : Run MemoryStore α) : Prop :=
  Within (Session.RowsConform table schema) (fun _ => True) P x

theorem Session.RowsConform.of_follows {s t : Session MemoryStore} {places : Set RowAddress}
    {letters : List DeadLetter} (hs : s.RowsConform table schema) (h : Session.Follows places letters s t)
    (hother : ∀ place ∈ places, place.table ≠ table) : t.RowsConform table schema where
  shows := hs.shows.of_sameTables h.tables
  rows id row hid hrow := by
    have hstored := h.stored id.address fun hplace => hother _ hplace hid
    refine hs.rows id row hid ?_
    rw [← hrow, MemoryStore.row?, MemoryStore.row?, MemoryStore.stored?, MemoryStore.stored?, hstored]

/-- A step that touches no row of the table. -/
theorem Run.Local.keepsConforming {α : Type} {places : Set RowAddress} {x : Run MemoryStore α}
    (hx : Local places x) (hother : ∀ place ∈ places, place.table ≠ table) :
    KeepsConforming table schema (fun _ => True) x := by
  refine ⟨fun s hs => ?_⟩
  obtain ⟨letters, hfollows⟩ := hx.follows s
  exact ⟨hs.of_follows hfollows hother, .trivially _⟩

theorem Run.Local.keepsConforming_of_empty {α : Type} {x : Run MemoryStore α} (hx : Local ∅ x) :
    KeepsConforming table schema (fun _ => True) x :=
  hx.keepsConforming fun place hplace => absurd hplace (Set.notMem_empty place)

theorem readRow_conforms {id : RowId} (hid : id.table = table) :
    KeepsConforming table schema
      (fun current => ∀ stored, current.map StoredRow.data = some stored → stored.Conforms schema id.key)
      (Run.store (TargetStore.readRow id)) :=
  ⟨fun _ hs => ⟨hs, fun stored hstored => hs.rows id stored hid hstored⟩⟩

/-- A conforming row laid over the stored one conforms. -/
theorem writeRow_conforms {id : RowId} (hid : id.table = table) {w : RowWrite}
    (hw : w.data.Conforms schema id.key) (expected : ExpectedVersion) :
    KeepsConforming table schema (fun _ => True) (Run.store (TargetStore.writeRow id w expected)) := by
  refine ⟨fun s hs => ⟨⟨?_, fun other row hother hrow => ?_⟩, .trivially _⟩⟩
  · exact hs.shows.of_schemas rfl (MemoryStore.schemas_writeRow id w expected s.store)
  · have hrow : (MemoryStore.writeRow id w expected s.store).2.row? other = some row := hrow
    obtain ⟨found, hfound, rfl⟩ := Option.map_eq_some_iff.1 hrow
    rcases MemoryStore.writeRow_cases id w expected s.store with
      ⟨-, -, -, hstored⟩ | ⟨-, -, hkept⟩ | ⟨-, hkept⟩
    · rw [hstored other] at hfound
      split at hfound
      · next haddress =>
        cases hfound
        -- the row may be asked for under another spelling of the key it is written under
        have hsame : id.key.same other.key = true :=
          beq_iff_eq.2 (congrArg RowAddress.key haddress).symm
        refine Document.Conforms.congr ?_ hsame
        cases hold : s.store.row? id with
        | none =>
          rw [Option.getD_none, Document.empty_overlay]
          exact hw
        | some old => exact (hs.rows id old hid hold).mix hw (Document.Mixes.overlay old w.data)
      · exact hs.rows other _ hother (congrArg (Option.map StoredRow.data) hfound)
    · rw [hkept] at hfound
      exact hs.rows other _ hother (congrArg (Option.map StoredRow.data) hfound)
    · rw [hkept] at hfound
      exact hs.rows other _ hother (congrArg (Option.map StoredRow.data) hfound)

theorem deleteRow_conforms (id : RowId) :
    KeepsConforming table schema (fun _ => True)
      (Run.store (TargetStore.deleteRow id : StoreAction MemoryStore Unit)) := by
  refine ⟨fun s hs => ⟨⟨?_, fun other row hother hrow => ?_⟩, .trivially _⟩⟩
  · exact hs.shows.of_schemas rfl (MemoryStore.schemas_deleteRow id s.store)
  · have hrow : (MemoryStore.deleteRow id s.store).2.row? other = some row := hrow
    obtain ⟨found, hfound, rfl⟩ := Option.map_eq_some_iff.1 hrow
    rw [MemoryStore.stored?_deleteRow] at hfound
    split at hfound
    · cases hfound
    · exact hs.rows other _ hother (congrArg (Option.map StoredRow.data) hfound)

/-! ## Preparation -/

/-- If a mutation is bound for the table, its row conforms to the key under which it is to be written. -/
def Prepared.Conforms (table : TableName) (schema : Schema) (p : Prepared) : Prop :=
  p.row.table = table → ∀ row, p.action = .upsert row → row.row.Conforms schema p.key

variable {clock : Clock}

theorem prepareUpsert_conforms (hkey : schema.primaryKey ≠ []) (hclosed : schema.isOpen = false)
    (hextras : CollectsInside (registry.table table) schema) {placed : Placed}
    (hplaced : placed.routed.table = table) (now : Instant) (data : Document) :
    Within (Session.Shows table schema) (fun _ => True)
      (fun preparation => ∀ p, preparation = .ready p → p.Conforms table schema)
      (prepareUpsert registry now placed data) := by
  have hI : Serves table schema (Session.Shows table schema) := MemoryStore.serves table schema
  unfold prepareUpsert
  dsimp only
  rw [hplaced]
  refine (Within.of_succeeds hI.shape).bind fun shape hshape => ?_
  subst hshape
  refine (hI.fallible (mapRow_inside hclosed hextras _ _ _)).bind fun mapped hmapped => ?_
  cases mapped with
  | none => exact .pure fun p hp => by cases hp
  | some row =>
    refine (Within.liftM (.trivially _)).bind fun expired _ => ?_
    cases expired with
    | some _ => exact .pure fun p hp => by cases hp
    | none =>
      have hkeyed : Result.Within (fun _ => True) (fun key => row.row.HoldsKey shape key)
          (rowKey shape row.row placed.routed.mutation) := by
        cases hrow : rowKey shape row.row placed.routed.mutation with
        | error fault => trivial
        | ok key => exact rowKey_holds hkey hrow
      refine (Within.liftM hkeyed).bind fun key hholds => .pure fun p hp => ?_
      cases hp
      intro _ other haction
      cases haction
      exact ⟨hmapped row rfl, hholds⟩

theorem conforms_of_readyAt (hkey : schema.primaryKey ≠ []) (hclosed : schema.isOpen = false)
    (hextras : CollectsInside (registry.table table) schema) {s : Session MemoryStore}
    (hs : s.Shows table schema) {placed : Placed} {p : Prepared}
    (h : readyAt registry clock s placed = some p) : p.Conforms table schema := by
  intro htable row haction
  have hplaced := placed_of_readyAt h
  have hrouted : placed.routed.table = table := hplaced ▸ htable
  have hrun := readyAt_eq_some_iff.1 h
  unfold prepare at hrun
  split at hrun
  · next data _ =>
    have hupsert : Within (Session.Shows table schema) (fun _ => True)
        (fun preparation => ∀ p, preparation = .ready p → p.Conforms table schema)
        (prepareUpsert registry (clock.time placed.number) placed data) :=
      prepareUpsert_conforms hkey hclosed hextras hrouted _ data
    have hresult := (hupsert.run s hs).2
    rw [hrun] at hresult
    exact hresult p rfl htable row haction
  · split at hrun
    · cases hrun
    · cases hrun
      cases haction

theorem planBatch_conforms (hkey : schema.primaryKey ≠ []) (hclosed : schema.isOpen = false)
    (hextras : CollectsInside (registry.table table) schema) (config : SourceConfig) (batch : List Mutation) :
    KeepsConforming table schema (fun plan => ∀ p ∈ plan.groups.flatten, p.Conforms table schema)
      (planBatch registry clock config batch) := by
  have hplan : KeepsConforming table schema (fun plan => ∀ p ∈ plan.2, p.Conforms table schema)
      (planFrom registry clock config 0 0 batch) := by
    refine ⟨fun s hs => ⟨((planFrom_local 0 0 batch).keepsConforming_of_empty.run s hs).1, ?_⟩⟩
    cases hrun : (planFrom registry clock config 0 0 batch).exec s with
    | mk result s' =>
      cases result with
      | error fault => trivial
      | ok plan =>
        intro p hp
        exact conforms_of_readyAt hkey hclosed hextras hs.shows (readyAt_of_plan hrun hp).2
  rw [planBatch_eq]
  refine hplan.bind fun plan hconform => .pure fun p hp => ?_
  exact hconform p ((flatten_groupRows_perm plan.2).mem_iff.1 hp)

/-! ## Rows -/

theorem decideResolution_conforms (name : String) (p : Prepared) (current : Option StoredRow)
    {resolution : Resolution} (h : ∀ row, resolution = .apply row → row.Conforms schema p.key) :
    KeepsConforming table schema
      (fun decision => ∀ data expected, decision = .write data expected → data.Conforms schema p.key)
      (decideResolution registry name p current resolution) := by
  cases resolution with
  | apply row =>
    refine .pure fun data expected hdata => ?_
    cases hdata
    exact h row rfl
  | park queue operation =>
    exact (park_local _).keepsConforming_of_empty.bind fun _ _ => .pure fun _ _ h => by cases h
  | drop reason operation => exact .pure fun _ _ h => by cases h
  | failed fault operation =>
    refine (handleFailure_local ..).keepsConforming_of_empty.bind fun _ _ => .pure fun _ _ h => ?_
    cases h

theorem decideWrite_conforms (hmerge : (registry.table table).Selects) (name : String) {p : Prepared}
    (hp : p.row.table = table) {proposed : Document} (hproposed : proposed.Conforms schema p.key)
    (known : MappedBefore) :
    KeepsConforming table schema
      (fun decided => ∀ data expected, decided.1 = .write data expected → data.Conforms schema p.key)
      (decideWrite registry name p proposed known) := by
  unfold decideWrite
  split
  · unfold decideCas
    dsimp only
    refine (readRow_conforms hp).bind fun current hcurrent => ?_
    refine (refreshBefore_local ..).keepsConforming_of_empty.bind fun before _ => ?_
    have hresolved : KeepsConforming table schema
        (fun resolution => ∀ row, resolution = .apply row → row.Conforms schema p.key)
        (Run.logged (resolve (registry.table p.row.table) registry.options.functionTimeout
          ⟨p.row.table, proposed, before.join, p.mutation.origin⟩ (current.map StoredRow.data))) := by
      refine ⟨fun s hs => ⟨⟨hs.shows, hs.rows⟩, fun row hrow => ?_⟩⟩
      rw [hp] at hrow
      exact resolve_conforms hmerge hproposed hcurrent hrow
    refine hresolved.bind fun resolution hresolution => ?_
    exact (decideResolution_conforms name p current hresolution).bind fun _ hdecision => .pure hdecision
  · refine .pure fun data expected h => ?_
    cases h
    exact hproposed

theorem upsertWithin_conforms (hmerge : (registry.table table).Selects) (name : String) {p : Prepared}
    (hp : p.row.table = table) {row : MappedRow} (hrow : row.row.Conforms schema p.key) (total attempts : Nat)
    (known : MappedBefore) :
    KeepsConforming table schema (fun _ => True)
      (upsertWithin registry name p row total attempts known) := by
  induction attempts generalizing known with
  | zero => exact .throw trivial
  | succ attempts ih =>
    unfold upsertWithin
    refine (decideWrite_conforms hmerge name hp hrow known).bind fun decided hdecided => ?_
    obtain ⟨decision, known⟩ := decided
    cases decision with
    | settled disposition => exact .pure trivial
    | write data expected =>
      refine (writeRow_conforms hp (hdecided data expected rfl) expected).bind fun outcome _ => ?_
      cases outcome with
      | written => exact .pure trivial
      | versionMismatch => exact ih known

theorem applyPrepared_conforms (hmerge : (registry.table table).Selects) (name : String) {p : Prepared}
    (hp : p.Conforms table schema) :
    KeepsConforming table schema (fun _ => True) (applyPrepared registry name p) := by
  by_cases htable : p.row.table = table
  · unfold applyPrepared
    split
    · next row haction =>
      exact upsertWithin_conforms hmerge name htable (hp htable row haction) ..
    · exact (deleteRow_conforms p.row).bind fun _ _ => .pure trivial
  · -- rows of other tables need not conform, but to write them touches none of this table
    refine (applyPrepared_local registry name p).keepsConforming fun place hplace => ?_
    cases hplace
    exact htable

theorem applyOne_conforms (hmerge : (registry.table table).Selects) (name : String) {p : Prepared}
    (hp : p.Conforms table schema) :
    KeepsConforming table schema (fun _ => True) (applyOne registry name p) := by
  refine (applyPrepared_conforms hmerge name hp).attempt.of_succeeds.bind fun result _ => ?_
  refine Within.bind (P := fun _ => True) ?_ fun disposition _ =>
    (report_local ..).keepsConforming_of_empty.bind fun _ _ => .pure trivial
  cases result with
  | ok disposition => exact .pure trivial
  | error fault => exact (handleFailure_local ..).keepsConforming_of_empty

theorem applyGroup_conforms (hmerge : (registry.table table).Selects) (name : String) {ps : List Prepared}
    (hps : ∀ p ∈ ps, p.Conforms table schema) :
    KeepsConforming table schema (fun _ => True) (applyGroup registry name ps) := by
  induction ps with
  | nil => exact .pure trivial
  | cons p rest ih =>
    obtain ⟨hp, hrest⟩ := List.forall_mem_cons.1 hps
    rw [applyGroup_cons]
    exact (applyOne_conforms hmerge name hp).bind fun _ _ => (ih hrest).bind fun _ _ => .pure trivial

/-! ## Reached sessions -/

/-- The sessions of an engine that was started on a store: behind batches that have succeeded or failed, and
within a batch that is planned, when any of its mutations have come to their rows in any order. -/
inductive Session.Reached (registry : Registry) (store : MemoryStore) : Session MemoryStore → Prop
  | started {s} (hstart : start registry store = .ok s) : Reached registry store s
  | processed {s} (d : Delivery) (hs : Reached registry store s) :
    Reached registry store ((d.process registry).exec s).2
  | within {s s'} {clock : Clock} {source : String} {config : SourceConfig} {batch : List Mutation}
      {plan : Plan}
    (hs : Reached registry store s) (hsource : registry.source source = .ok config)
    (hplan : (planBatch registry clock config batch).exec s = (.ok plan, s')) (taken : List Prepared)
    (htaken : taken ⊆ plan.groups.flatten) :
    Reached registry store ((applyGroup registry config.name taken).exec s').2

theorem Session.Reached.afterAll {s : Session MemoryStore} (hs : s.Reached registry store)
    (history : List Delivery) : (s.afterAll registry history).Reached registry store :=
  Session.afterAll_induction (fun _ d h => .processed d h) history hs

theorem process_conforms (hkey : schema.primaryKey ≠ []) (hclosed : schema.isOpen = false)
    (hextras : CollectsInside (registry.table table) schema) (hmerge : (registry.table table).Selects)
    (d : Delivery) : KeepsConforming table schema (fun _ => True) (d.process registry) := by
  refine (Within.liftM (.trivially _)).bind fun config _ => ?_
  refine (planBatch_conforms hkey hclosed hextras config d.batch).bind fun plan hplan => ?_
  refine Within.bind (P := fun _ => True) ?_ fun _ _ => .pure trivial
  rw [applyGroups_eq_flatten]
  refine applyGroup_conforms hmerge config.name fun p hp => hplan p ?_
  exact ((d.arrangement.perm plan.groups).flatten).mem_iff.1 hp

/-- Whatever step leads to a session, the rows of the table conform behind it. -/
theorem Session.Reached.rowsConform (hempty : ∀ id, store.row? id = none)
    (hschema : store.schemas.get? table = some schema) (hkey : schema.primaryKey ≠ [])
    (hclosed : schema.isOpen = false) (hmerge : (registry.table table).Selects) {s : Session MemoryStore}
    (hs : s.Reached registry store) :
    s.RowsConform table schema ∧ CollectsInside (registry.table table) schema := by
  induction hs with
  | @started s hstart =>
    have htable : s.store.hasTable table = true := by
      rw [start_store hstart, MemoryStore.hasTable, Keyed.contains, hschema]
      rfl
    refine ⟨⟨⟨(start_shape hstart table).trans hschema, htable⟩, fun id row _ hrow => ?_⟩,
      start_collectsInside hstart hschema⟩
    rw [start_store hstart, hempty id] at hrow
    cases hrow
  | @processed s d _ ih =>
    obtain ⟨hconform, hextras⟩ := ih
    exact ⟨((process_conforms hkey hclosed hextras hmerge d).run s hconform).1, hextras⟩
  | @within s s' clock source config batch plan _ _ hplan taken htaken ih =>
    obtain ⟨hconform, hextras⟩ := ih
    have hplanned : KeepsConforming table schema
        (fun plan => ∀ p ∈ plan.groups.flatten, p.Conforms table schema)
        (planBatch registry clock config batch) := planBatch_conforms hkey hclosed hextras config batch
    obtain ⟨hafter, hready⟩ := hplanned.run s hconform
    rw [hplan] at hafter hready
    have happlied : KeepsConforming table schema (fun _ => True) (applyGroup registry config.name taken) :=
      applyGroup_conforms hmerge config.name fun p hp => hready p (htaken hp)
    exact ⟨(happlied.run s' hafter).1, hextras⟩

/-- In every session that an engine reaches, if it was started on a store without rows: whatever is stored in
a closed table with a primary key holds columns of the table only, holds a value in each primary key column,
and these values in the order of the table are the key under which it is stored. This holds if conflicts of
the table are not merged, or merged by the standard merge, whose fallback is none or prefers the stored row. -/
theorem stored_rows_conform {registry : Registry} {store : MemoryStore}
    (hempty : ∀ id, store.row? id = none) {table : TableName} {schema : Schema}
    (hschema : store.schemas.get? table = some schema) (hkey : schema.primaryKey ≠ [])
    (hclosed : schema.isOpen = false) (hmerge : (registry.table table).Selects) {s : Session MemoryStore}
    (hs : s.Reached registry store) (key : RowKey) (row : Document)
    (hrow : s.store.row? ⟨table, key⟩ = some row) :
    (∀ name ∈ row.names, schema.hasColumn name = true) ∧
      ∃ values, schema.primaryKey.mapM row.get? = some values ∧ .null ∉ values ∧
        (RowKey.mk values).same key = true := by
  obtain ⟨hconform, -⟩ := hs.rowsConform hempty hschema hkey hclosed hmerge
  obtain ⟨hcolumns, hkeyed⟩ := hconform.rows ⟨table, key⟩ row rfl hrow
  exact ⟨hcolumns, hkeyed⟩

namespace Example

/-- The example table with a primary key. -/
def numbered : Schema := { orders with columns := [⟨"id", true⟩, ⟨"paid", false⟩] }

/-- A registry in which conflicts of the table are merged, and what cannot be merged stays as it is stored. -/
def preferring : Registry :=
  ⟨.default, Keyed.empty.put "orders" feed, Keyed.empty.put orders.name
    { TableConfig.plain with cas := ["paid"], merge := some (.standard (some preferTarget)) }⟩

/-- The number one, as an integer and as a float. -/
def one : Value := .number (.integer 1 (by decide))
def floatOne : Value := .number (.float ⟨false, 4607182418800017408, by decide⟩)

/-- A batch that brings one row. -/
def bill (id : Value) (paid : Bool) : Delivery :=
  ⟨"orders", default, [⟨none, some (.ofList [("id", id), ("paid", .bool paid)]), [], default, .empty⟩],
    .asFound⟩

end Example

/-- A conflict over the row `1` that is merged into `1.0`, under the same key. -/
theorem merged_row_keeps_its_key :
    let store := MemoryStore.createTable .empty Example.numbered
    let merged := Document.ofList [("id", Example.floatOne), ("paid", .bool true)]
    ∃ fresh, start Example.preferring store = .ok fresh ∧
      (fresh.afterAll Example.preferring [Example.bill Example.one true,
        Example.bill Example.floatOne false]).store.row? ⟨Example.orders.name, ⟨[Example.one]⟩⟩ = some merged ∧
      (∀ name ∈ merged.names, Example.numbered.hasColumn name = true) ∧
      ∃ values, Example.numbered.primaryKey.mapM merged.get? = some values ∧ .null ∉ values ∧
        (RowKey.mk values).same ⟨[Example.one]⟩ = true := by
  intro store merged
  obtain ⟨fresh, hstart, hrow⟩ : ∃ fresh, start Example.preferring store = .ok fresh ∧
      (fresh.afterAll Example.preferring [Example.bill Example.one true,
        Example.bill Example.floatOne false]).store.row? ⟨Example.orders.name, ⟨[Example.one]⟩⟩ = some merged :=
    ⟨_, rfl, by decide +kernel⟩
  have hreached := (Session.Reached.started hstart).afterAll
    [Example.bill Example.one true, Example.bill Example.floatOne false]
  have hschema : store.schemas.get? Example.orders.name = some Example.numbered := rfl
  exact ⟨fresh, hstart, hrow, stored_rows_conform (fun _ => rfl) hschema (by decide) rfl (.inr (.inr rfl))
    hreached ⟨[Example.one]⟩ merged hrow⟩

end Tributary
