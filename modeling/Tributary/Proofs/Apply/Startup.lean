import Tributary.Proofs.Apply.Deletions
import Tributary.Proofs.Script.Registration

/-!
# What startup reports

An engine starts exactly if its configuration fits the store. Otherwise the fault gathers all that does not fit, each
once. Behind a start, the sources that name a table for their deletions delete whatever has a key.

* `Registry.Fits`: what is asked of the tables, columns and sources of a configuration.
* `MemoryStore.missing`, `MemoryStore.unknown`: the faults of tables and of columns that the store does not have.
* `Registry.report`: the faults in the order in which they are found. `startupFaults_finds` says that they are, through
  a session that keeps the shapes that it reads, and `report_perm` sorts them by kind.
* `startup_validation_is_exact`: the statement above.
-/

namespace Tributary

open Run

/-! ## What a configuration asks of a store -/

/-- The configuration of a table names a column. -/
def TableConfig.Names (config : TableConfig) (column : String) : Prop :=
  column ∈ config.cas ∨ (∃ age, (column, age) ∈ config.deadlines) ∨ (∃ expr, (column, expr) ∈ config.exprs) ∨
    config.extras = some column

theorem TableConfig.mem_referenced {config : TableConfig} {column : String} :
    column ∈ config.referenced ↔ config.Names column := by
  simp [referenced, Names]

/-- Every configured table exists and has the columns that its configuration names, and every table that a configured
source names for all documents or for deletions exists. -/
structure Registry.Fits (r : Registry) (store : MemoryStore) : Prop where
  tables : ∀ table config, (table, config) ∈ r.tables.entries →
    ∃ schema, store.schemas.get? table = some schema ∧ ∀ column, config.Names column → schema.hasColumn column = true
  sources : ∀ name source table, (name, source) ∈ r.sources.entries → source.namedTable? = some table →
    ∃ schema, store.schemas.get? table = some schema

namespace Registry

/-- The configured tables, each once, since they are the keys of a map. -/
def configured (r : Registry) : List TableName := r.tables.entries.map Prod.fst

/-- The columns that configurations of tables name, each with its table and as often as it is named. -/
def references (r : Registry) : List (TableName × String) :=
  r.tables.entries.flatMap fun e => e.2.referenced.map fun column => (e.1, column)

/-- The tables that configurations of sources name, once for each source. -/
def destinations (r : Registry) : List TableName := r.sources.entries.flatMap fun e => e.2.namedTable?.toList

end Registry

namespace MemoryStore

/-- The table exists, and the column does not. -/
def lacks (store : MemoryStore) (reference : TableName × String) : Bool :=
  (store.schemas.get? reference.1).any fun schema => !schema.hasColumn reference.2

/-- The faults of tables that do not exist. -/
def missing (store : MemoryStore) (tables : List TableName) : List Fault :=
  (tables.filter fun table => !store.hasTable table).map fun table => .noDestinationTable table.text

/-- The faults of columns that tables do not have. -/
def unknown (store : MemoryStore) (references : List (TableName × String)) : List Fault :=
  (references.filter store.lacks).map fun reference => .unknownReference reference.1.text reference.2

variable {store : MemoryStore}

theorem missing_flatMap {α : Type} (as : List α) (f : α → List TableName) :
    store.missing (as.flatMap f) = as.flatMap fun a => store.missing (f a) := by
  simp only [missing, List.filter_flatMap, List.map_flatMap]

theorem unknown_flatMap {α : Type} (as : List α) (f : α → List (TableName × String)) :
    store.unknown (as.flatMap f) = as.flatMap fun a => store.unknown (f a) := by
  simp only [unknown, List.filter_flatMap, List.map_flatMap]

theorem isSingle_of_mem_missing {tables : List TableName} {fault : Fault} (h : fault ∈ store.missing tables) :
    fault.isSingle = true := by
  obtain ⟨table, -, rfl⟩ := List.mem_map.1 h
  rfl

theorem isSingle_of_mem_unknown {references : List (TableName × String)} {fault : Fault}
    (h : fault ∈ store.unknown references) : fault.isSingle = true := by
  obtain ⟨reference, -, rfl⟩ := List.mem_map.1 h
  rfl

theorem missing_eq_nil_iff {tables : List TableName} :
    store.missing tables = [] ↔ ∀ table ∈ tables, ∃ schema, store.schemas.get? table = some schema := by
  rw [missing, List.map_eq_nil_iff, List.filter_eq_nil_iff]
  refine forall₂_congr fun table _ => ?_
  rw [hasTable, Keyed.contains]
  cases store.schemas.get? table <;> simp

theorem unknown_eq_nil_iff {references : List (TableName × String)} :
    store.unknown references = [] ↔ ∀ table column, (table, column) ∈ references →
      ∀ schema, store.schemas.get? table = some schema → schema.hasColumn column = true := by
  rw [unknown, List.map_eq_nil_iff, List.filter_eq_nil_iff, Prod.forall]
  refine forall₃_congr fun table column _ => ?_
  rw [lacks]
  cases store.schemas.get? table <;> simp

/-- Of a table that does not exist the table itself is missing, and of one that exists the columns that it lacks. -/
theorem faults_of_none {table : TableName} (h : store.schemas.get? table = none) (columns : List String) :
    store.missing [table] = [.noDestinationTable table.text] ∧
      store.unknown (columns.map fun column => (table, column)) = [] := by
  have hlacks (column : String) : store.lacks (table, column) = false := by rw [lacks, h]; rfl
  constructor
  · simp [missing, hasTable, Keyed.contains, h]
  · simp [unknown, hlacks]

theorem faults_of_some {table : TableName} {schema : Schema} (h : store.schemas.get? table = some schema)
    (columns : List String) :
    store.missing [table] = [] ∧
      store.unknown (columns.map fun column => (table, column)) =
        (columns.filter fun column => !schema.hasColumn column).map (.unknownReference table.text ·) := by
  have hlacks (column : String) : store.lacks (table, column) = !schema.hasColumn column := by rw [lacks, h]; rfl
  constructor
  · simp [missing, hasTable, Keyed.contains, h]
  · rw [unknown, List.filter_map, List.map_map]
    simp only [Function.comp_def, hlacks]

end MemoryStore

namespace Registry
variable {r : Registry} {store : MemoryStore}

theorem mem_references {table : TableName} {column : String} :
    (table, column) ∈ r.references ↔ ∃ config, (table, config) ∈ r.tables.entries ∧ config.Names column := by
  simp only [references, List.mem_flatMap, List.mem_map, Prod.exists, Prod.mk.injEq, TableConfig.mem_referenced]
  constructor
  · rintro ⟨_, config, hentry, _, hnames, rfl, rfl⟩
    exact ⟨config, hentry, hnames⟩
  · rintro ⟨config, hentry, hnames⟩
    exact ⟨table, config, hentry, column, hnames, rfl, rfl⟩

/-- A configuration fits a store that lacks none of its tables and columns. -/
theorem fits_iff :
    r.Fits store ↔
      store.missing r.configured = [] ∧ store.unknown r.references = [] ∧ store.missing r.destinations = [] := by
  rw [MemoryStore.missing_eq_nil_iff, MemoryStore.unknown_eq_nil_iff, MemoryStore.missing_eq_nil_iff]
  constructor
  · intro h
    refine ⟨fun table htable => ?_, fun table column hnamed schema hschema => ?_, fun table htable => ?_⟩
    · obtain ⟨e, hentry, rfl⟩ := List.mem_map.1 htable
      obtain ⟨schema, hschema, -⟩ := h.tables e.1 e.2 hentry
      exact ⟨schema, hschema⟩
    · obtain ⟨config, hentry, hnames⟩ := mem_references.1 hnamed
      obtain ⟨other, hother, hcolumns⟩ := h.tables table config hentry
      rw [hschema] at hother
      cases hother
      exact hcolumns column hnames
    · obtain ⟨e, hentry, hnamed⟩ := List.mem_flatMap.1 htable
      exact h.sources e.1 e.2 table hentry (Option.mem_toList.1 hnamed)
  · rintro ⟨htables, hcolumns, hsources⟩
    refine ⟨fun table config hentry => ?_, fun name source table hentry hnamed => ?_⟩
    · obtain ⟨schema, hschema⟩ := htables table (List.mem_map.2 ⟨(table, config), hentry, rfl⟩)
      exact ⟨schema, hschema, fun column hnames =>
        hcolumns table column (mem_references.2 ⟨config, hentry, hnames⟩) schema hschema⟩
    · exact hsources table (List.mem_flatMap.2 ⟨(name, source), hentry, Option.mem_toList.2 hnamed⟩)

end Registry

/-! ## What startup finds -/

/-- The session works with the shapes that the store has. -/
def Session.Knows (store : MemoryStore) (s : Session MemoryStore) : Prop := s.inUse = (Session.ofStore store).inUse

variable {store : MemoryStore}

theorem Session.Knows.shape {s : Session MemoryStore} (h : s.Knows store) (table : TableName) :
    s.shape? table = store.schemas.get? table := congrFun (congrArg Prod.snd h) table

/-- Asking for a shape finds the one that the store has, however many shapes were asked for before. -/
theorem schemaOf_finds (table : TableName) :
    Succeeds (Session.Knows store)
      (· = match store.schemas.get? table with
        | some schema => .ok schema
        | none => .error (.noDestinationTable table.text))
      (schemaOf table).attempt := by
  refine ⟨fun s hs => ?_⟩
  obtain ⟨hresult, -⟩ := schemaOf_exec table s
  rw [hs.shape table] at hresult
  exact ⟨((schemaOf_keeps_inUse table).kept s).trans hs, hresult⟩

variable (store) in
/-- The faults of the configuration of a table. -/
theorem tableFaults_finds (table : TableName) (config : TableConfig) :
    Succeeds (Session.Knows store)
      (· = store.missing [table] ++ store.unknown (config.referenced.map fun column => (table, column)))
      (tableFaults table config) := by
  refine (schemaOf_finds table).bind fun found hfound => ?_
  subst hfound
  cases hschema : store.schemas.get? table with
  | none =>
    obtain ⟨hmissing, hunknown⟩ := MemoryStore.faults_of_none hschema config.referenced
    rw [hmissing, hunknown]
    exact .pure rfl
  | some schema =>
    obtain ⟨hmissing, hunknown⟩ := MemoryStore.faults_of_some hschema config.referenced
    rw [hmissing, hunknown]
    exact .pure rfl

variable (store) in
/-- The faults of the configuration of a source. -/
theorem sourceFaults_finds (source : SourceConfig) :
    Succeeds (Session.Knows store) (· = store.missing source.namedTable?.toList) (sourceFaults source) := by
  unfold sourceFaults
  split
  · next hnone =>
    rw [hnone]
    exact .pure rfl
  · next table htable =>
    rw [htable]
    refine (schemaOf_finds table).bind fun found hfound => ?_
    subst hfound
    rw [Option.toList_some]
    cases hschema : store.schemas.get? table with
    | none =>
      rw [(MemoryStore.faults_of_none hschema []).1]
      exact .pure rfl
    | some schema =>
      rw [(MemoryStore.faults_of_some hschema []).1]
      exact .pure rfl

/-- Going through a list finds what is found for each of its members. -/
theorem Run.Succeeds.mapM {σ α β : Type} {I : Session σ → Prop} {f : α → Run σ β} {g : α → β}
    (hf : ∀ a, Succeeds I (· = g a) (f a)) (as : List α) : Succeeds I (· = as.map g) (as.mapM f) := by
  induction as with
  | nil => exact .pure rfl
  | cons a rest ih =>
    rw [List.mapM_cons]
    refine (hf a).bind fun first hfirst => ih.bind fun others hothers => .pure ?_
    rw [hfirst, hothers]
    rfl

namespace Registry

/-- The faults of a configuration: those of each table with its columns, and then those of the sources. -/
def report (r : Registry) (store : MemoryStore) : List Fault :=
  (r.tables.entries.flatMap fun e =>
    store.missing [e.1] ++ store.unknown (e.2.referenced.map fun column => (e.1, column))) ++
    store.missing r.destinations

variable {r : Registry}

theorem startupFaults_finds : Succeeds (Session.Knows store) (· = r.report store) (startupFaults r) := by
  have htables := Run.Succeeds.mapM (fun e : TableName × TableConfig => tableFaults_finds store e.1 e.2)
    r.tables.entries
  have hsources := Run.Succeeds.mapM (fun e : String × SourceConfig => sourceFaults_finds store e.2)
    r.sources.entries
  refine htables.bind fun found hfound => hsources.bind fun others hothers => .pure ?_
  rw [hfound, hothers, report, destinations, MemoryStore.missing_flatMap, List.flatMap_def, List.flatMap_def]

/-- The faults are those of all missing tables, of all unknown columns and of all missing destinations. -/
theorem report_perm (r : Registry) (store : MemoryStore) :
    (r.report store).Perm
      (store.missing r.configured ++ store.unknown r.references ++ store.missing r.destinations) := by
  refine List.Perm.append_right _ ?_
  rw [configured, List.map_eq_flatMap, MemoryStore.missing_flatMap, references, MemoryStore.unknown_flatMap]
  exact (List.flatMap_append_perm ..).symm

theorem isSingle_of_mem_report {fault : Fault} (h : fault ∈ r.report store) : fault.isSingle = true := by
  have hmem := (r.report_perm store).mem_iff.1 h
  rw [List.mem_append, List.mem_append] at hmem
  rcases hmem with (hmissing | hunknown) | hmissing
  · exact MemoryStore.isSingle_of_mem_missing hmissing
  · exact MemoryStore.isSingle_of_mem_unknown hunknown
  · exact MemoryStore.isSingle_of_mem_missing hmissing

theorem report_eq_nil_iff : r.report store = [] ↔ r.Fits store := by
  have hnil : r.report store = [] ↔
      store.missing r.configured ++ store.unknown r.references ++ store.missing r.destinations = [] :=
    ⟨fun h => List.perm_nil.1 (h ▸ (r.report_perm store).symm), fun h => List.perm_nil.1 (h ▸ r.report_perm store)⟩
  rw [hnil, fits_iff, List.append_eq_nil_iff, List.append_eq_nil_iff, and_assoc]

/-- With valid options, an engine starts on the store if there is nothing to report, and else fails with the report. -/
theorem start_cases (hvalid : r.options.validate = .ok ()) (store : MemoryStore) :
    (r.report store = [] ∧ ∃ s, start r store = .ok s) ∨
      (r.report store ≠ [] ∧ start r store = .error (.gather (r.report store))) := by
  obtain ⟨found, hrun, hfound⟩ := (startupFaults_finds (r := r)).exists_ok (rfl : Session.Knows store (.ofStore store))
  subst hfound
  have hexec := exec_of_fst hrun
  unfold start
  rw [hvalid]
  dsimp only
  rw [hexec]
  cases hreport : r.report store with
  | nil => exact .inl ⟨rfl, _, rfl⟩
  | cons fault rest => exact .inr ⟨List.cons_ne_nil _ _, rfl⟩

theorem exists_start_iff (hvalid : r.options.validate = .ok ()) (store : MemoryStore) :
    (∃ s, start r store = .ok s) ↔ r.Fits store := by
  rw [← report_eq_nil_iff]
  rcases start_cases hvalid store with ⟨hnil, hstart⟩ | ⟨hne, herror⟩
  · exact ⟨fun _ => hnil, fun _ => hstart⟩
  · refine ⟨fun ⟨s, hstart⟩ => ?_, fun hnil => absurd hnil hne⟩
    rw [herror] at hstart
    cases hstart

theorem parts_of_start_error (hvalid : r.options.validate = .ok ()) {fault : Fault}
    (hfault : start r store = .error fault) :
    fault.parts.Perm
      (store.missing r.configured ++ store.unknown r.references ++ store.missing r.destinations) := by
  rcases start_cases hvalid store with ⟨-, s, hstart⟩ | ⟨-, herror⟩
  · rw [hstart] at hfault
    cases hfault
  · rw [herror] at hfault
    cases hfault
    rw [Fault.parts_gather fun _ h => isSingle_of_mem_report h]
    exact r.report_perm store

end Registry

/-! ## Behind a start -/

/-- A table that exists at the start is shown behind every history. -/
theorem shows_afterAll {registry : Registry} {fresh : Session MemoryStore} (hstart : start registry store = .ok fresh)
    {table : TableName} {schema : Schema} (htable : store.schemas.get? table = some schema)
    (history : List Delivery) : (fresh.afterAll registry history).Shows table schema := by
  have hfresh : fresh.Shows table schema := by
    refine ⟨(start_shape hstart table).trans htable, ?_⟩
    rw [start_store hstart, MemoryStore.hasTable, Keyed.contains, htable]
    rfl
  exact hfresh.of_sameTables (sameTables_afterAll registry history fresh)

/-- With valid options, an engine starts on a store exactly if every configured table exists and has the columns that
its configuration names, and every table that a source names for its documents or its deletions exists. Otherwise the
fault gathers one fault for each configured table that is missing, one for each time that an existing table's
configuration names a column that it does not have, and one for each source whose table is missing. Once the engine has
started, a batch of deletions with keys from a source that names a table deletes every one of them: whatever was
processed before, in every order of the rows, and whatever others do to rows at the same time. -/
theorem startup_validation_is_exact {registry : Registry} (hvalid : registry.options.validate = .ok ())
    (store : MemoryStore) :
    ((∃ s, start registry store = .ok s) ↔ registry.Fits store) ∧
    (∀ fault, start registry store = .error fault → fault.parts.Perm
      (store.missing registry.configured ++ store.unknown registry.references ++
        store.missing registry.destinations)) ∧
    ∀ fresh, start registry store = .ok fresh → ∀ name source table, registry.sources.get? name = some source →
      source.namedTable? = some table → ∀ batch, (∀ m ∈ batch, Mutation.Deletes m) → ∀ history clock arrangement,
        let s := fresh.afterAll registry history
        let outcomes := batch.zipIdx.map fun e => ⟨e.2, some table, some ⟨e.1.key⟩, .deleted⟩
        ((processArranged registry clock name arrangement batch).exec s).1 = .ok outcomes ∧
          ∀ turns, (∀ turn ∈ turns, ∀ op ∈ turn, StoreOp.KeepsTables op) →
            ((processArranged registry clock name arrangement batch).exec (s.shared turns)).1 = .ok outcomes := by
  refine ⟨registry.exists_start_iff hvalid store, fun fault => registry.parts_of_start_error hvalid, ?deletions⟩
  case deletions =>
    intro fresh hstart name source table hsource htable batch hbatch history clock arrangement s outcomes
    have hfits : registry.Fits store := (registry.exists_start_iff hvalid store).1 ⟨fresh, hstart⟩
    obtain ⟨schema, hschema⟩ := hfits.sources name source table (Keyed.get?_eq_some_iff.1 hsource) htable
    have hs : s.Shows table schema := shows_afterAll hstart hschema history
    have hnamed : registry.source name = .ok source := by rw [Registry.source, hsource]
    have htarget := deleteTarget_of_namedTable? htable
    constructor
    · have hrun := (MemoryStore.serves table schema).processArranged_of_deletes clock hnamed htarget arrangement hbatch
      obtain ⟨found, hok, rfl⟩ := hrun.exists_ok hs
      exact hok
    · intro turns hturns
      have hrun := (SharedStore.serves table schema).processArranged_of_deletes clock hnamed htarget arrangement hbatch
      have hshared : (s.shared turns).ShowsAll table schema := ⟨hs, hturns⟩
      obtain ⟨found, hok, rfl⟩ := hrun.exists_ok hshared
      exact hok

namespace Example

/-- A table that does not exist. -/
def vanished : TableName := ⟨["vanished"], by decide, by decide, by decide⟩

/-- A store with the example table. -/
def stocked : MemoryStore := MemoryStore.createTable .empty orders

/-- A source that dispatches its documents nowhere, and sends its deletions to a table. -/
def pruning (table : TableName) : SourceConfig :=
  ⟨"prune", .dispatch (fun _ _ => ⟨0, .value .null⟩) (some table), false⟩

/-- A registry with a table that does not exist, one that lacks two columns of its configuration, and a source whose
deletions would go to the former. -/
def misfit : Registry :=
  ⟨.default, Keyed.empty.put "prune" (pruning vanished), (Keyed.empty.put vanished TableConfig.plain).put orders.name
    { TableConfig.plain with cas := ["paid", "version"], exprs := [("version", "$0 + 1")] }⟩

/-- A registry that fits the store. -/
def fitting : Registry :=
  ⟨.default, Keyed.empty.put "prune" (pruning orders.name), Keyed.empty.put orders.name
    { TableConfig.plain with cas := ["paid"] }⟩

end Example

open Example in
/-- A registry is refused for two missing tables and for a column that is named twice. With another one the engine
starts, and deletes a row that is not there. -/
theorem misfit_is_refused_and_pruning_deletes :
    (∃ fault, start misfit stocked = .error fault ∧ fault.parts.Perm
      [.noDestinationTable "vanished", .unknownReference "orders" "version", .unknownReference "orders" "version",
        .noDestinationTable "vanished"]) ∧
    ∃ fresh, start fitting stocked = .ok fresh ∧
      ((processArranged fitting default "prune" .asFound [⟨none, none, [.bool true], default, .empty⟩]).exec
        (fresh.afterAll fitting [])).1 = .ok [⟨0, some orders.name, some ⟨[.bool true]⟩, .deleted⟩] := by
  have hmisfit : misfit.options.validate = .ok () := by decide
  have hfitting : fitting.options.validate = .ok () := by decide
  constructor
  · obtain ⟨-, hreport, -⟩ := startup_validation_is_exact hmisfit stocked
    obtain ⟨fault, herror⟩ : ∃ fault, start misfit stocked = .error fault := ⟨_, rfl⟩
    exact ⟨fault, herror, hreport fault herror⟩
  · obtain ⟨-, -, hdeletes⟩ := startup_validation_is_exact hfitting stocked
    obtain ⟨fresh, hstart⟩ : ∃ fresh, start fitting stocked = .ok fresh := ⟨_, rfl⟩
    refine ⟨fresh, hstart, ?_⟩
    have hbatch : ∀ m ∈ [(⟨none, none, [.bool true], default, .empty⟩ : Mutation)], Mutation.Deletes m :=
      List.forall_mem_singleton.2 ⟨rfl, by simp⟩
    exact (hdeletes fresh hstart "prune" (pruning orders.name) orders.name rfl rfl _ hbatch [] default .asFound).1

end Tributary
