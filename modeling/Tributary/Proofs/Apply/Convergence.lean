import Mathlib.Data.List.Basic
import Mathlib.Data.List.Nodup
import Tributary.Proofs.Apply.Redelivery

/-!
# Convergence of upserts

Upserts of one row that have the same columns and differ in their compare-and-set columns, all of which are
integers, leave the newest of them, in whatever order they come and however they are cut into batches. The
one exception are options that leave no attempt at a write.

* `casTuple`: the integers by which rows are ordered, lexicographically (`casOrder_eq_gt_iff`).
* `RowAction.onAll_newest`: of proposals one after another the newest stays. A stale one can neither repeat
  a part of the row, since the integers differ, nor leave columns of its own behind.
* `RowUpsert`: a mutation that proposes a row; `processBatch_upserts` says what a batch of these does.
* `upserts_converge`: the statement above, with the exception.
-/

namespace Tributary

open Run

/-! ## Integers in columns -/

/-- The integer that a value is, if it is one. -/
def Value.integer? : Value → Option Int
  | .number (.integer n _) => some n
  | _ => none

/-- Each of the columns holds an integer. -/
def IntegerColumns (columns : List String) (row : Document) : Prop :=
  ∀ column ∈ columns, ∃ n h, row.get? column = some (.number (.integer n h))

/-- The integers that a row has in some columns, in the order of the columns. -/
def casTuple (columns : List String) (row : Document) : List Int :=
  columns.filterMap fun column => (row.get? column).bind Value.integer?

section

variable {columns : List String} {a b : Document}

theorem IntegerColumns.tail {column : String} (h : IntegerColumns (column :: columns) a) :
    IntegerColumns columns a := fun other hother => h other (List.mem_cons_of_mem column hother)

/-- Where all columns are integers, rows are ordered as the tuples of these are, lexicographically. -/
theorem casOrder_eq_gt_iff (ha : IntegerColumns columns a) (hb : IntegerColumns columns b) :
    casOrder columns a b = .gt ↔ casTuple columns b < casTuple columns a := by
  induction columns with
  | nil => simp [casOrder, casTuple]
  | cons column rest ih =>
    obtain ⟨n, hn, hleft⟩ := ha column List.mem_cons_self
    obtain ⟨m, hm, hright⟩ := hb column List.mem_cons_self
    have hleftTuple : casTuple (column :: rest) a = n :: casTuple rest a := by
      simp [casTuple, hleft, Value.integer?]
    have hrightTuple : casTuple (column :: rest) b = m :: casTuple rest b := by
      simp [casTuple, hright, Value.integer?]
    have hhead : valueOrder (a.get? column) (b.get? column) = compare n m := by
      rw [hleft, hright]
      rfl
    rw [casOrder, hhead, hleftTuple, hrightTuple, List.cons_lt_cons_iff, ← ih ha.tail hb.tail,
      Ordering.then_eq_gt, Int.compare_eq_gt, Int.compare_eq_eq]
    exact or_congr_right (and_congr_left' eq_comm)

/-- A row that repeats a part of another one has the same integers. -/
theorem casTuple_eq_of_subsetOf (ha : IntegerColumns columns a) (hb : IntegerColumns columns b)
    (h : a.subsetOf b = true) : casTuple columns a = casTuple columns b := by
  refine List.filterMap_congr fun column hcolumn => ?_
  obtain ⟨n, hn, hleft⟩ := ha column hcolumn
  obtain ⟨m, hm, hright⟩ := hb column hcolumn
  obtain ⟨w, hw, hsame⟩ := Document.same_of_subsetOf h hleft
  cases hright.symm.trans hw
  have heq : n = m := by simpa [Value.same, Number.same] using hsame
  rw [hleft, hright]
  simp [Value.integer?, heq]

end

namespace RowAction

variable {config : TableConfig}

/-! ## Proposals with the same columns -/

/-- A row with given columns, in which all compare-and-set columns are integers. -/
structure Ranked (columns names : List String) (row : Document) : Prop where
  names : row.names = names
  integers : IntegerColumns columns row

/-- Of a row and a proposal with the same columns the newer one stays as it is. -/
theorem on_upsert_of_ranked (hcas : config.isCas = true) {names : List String} {row : Document}
    {proposed : MappedRow} (hrow : Ranked config.cas names row)
    (hproposed : Ranked config.cas names proposed.row)
    (hne : casTuple config.cas proposed.row ≠ casTuple config.cas row) :
    on config (some row) (.upsert proposed) =
      some (if casTuple config.cas row < casTuple config.cas proposed.row then proposed.row else row) := by
  have hsubset : proposed.row.subsetOf row = false :=
    Bool.eq_false_iff.2 fun h => hne (casTuple_eq_of_subsetOf hproposed.integers hrow.integers h)
  have hoverlay : row.overlay proposed.row = proposed.row :=
    Document.overlay_eq_of_names (hrow.names.trans hproposed.names.symm)
  have hnewer := casOrder_eq_gt_iff hproposed.integers hrow.integers
  by_cases hlt : casTuple config.cas row < casTuple config.cas proposed.row
  · have hconflict : conflicts config.cas proposed.row row = false := by
      simp [conflicts, hnewer.2 hlt]
    simp [on, hconflict, hlt, hoverlay]
  · have hconflict : conflicts config.cas proposed.row row = true := by
      simp only [conflicts, hsubset, Bool.not_false, Bool.true_and, bne_iff_ne]
      exact fun h => hlt (hnewer.1 h)
    simp [on, hcas, hconflict, hlt]

/-- A row that was proposed gives way to newer proposals only, so that in the end the newest is there. -/
theorem onAll_some_newest (hcas : config.isCas = true) {names : List String} {first : MappedRow}
    {rest : List MappedRow} (hranked : ∀ p ∈ first :: rest, Ranked config.cas names p.row)
    (hdistinct : (first :: rest).Pairwise fun p q => casTuple config.cas p.row ≠ casTuple config.cas q.row) :
    ∃ last ∈ first :: rest, onAll config (some first.row) (rest.map .upsert) = some last.row ∧
      ∀ p ∈ first :: rest, ¬ casTuple config.cas last.row < casTuple config.cas p.row := by
  induction rest generalizing first with
  | nil =>
    refine ⟨first, List.mem_cons_self, rfl, fun p hp => ?_⟩
    cases List.mem_singleton.1 hp
    exact List.lt_irrefl _
  | cons next rest ih =>
    obtain ⟨hfirst, hrest⟩ := List.pairwise_cons.1 hdistinct
    obtain ⟨hnext, hlater⟩ := List.pairwise_cons.1 hrest
    have hnextMem : next ∈ first :: next :: rest := List.mem_cons_of_mem _ List.mem_cons_self
    have hstep := on_upsert_of_ranked hcas (hranked first List.mem_cons_self) (hranked next hnextMem)
      (hfirst next List.mem_cons_self).symm
    rw [List.map_cons, onAll, List.foldl_cons, hstep]
    by_cases hlt : casTuple config.cas first.row < casTuple config.cas next.row
    · obtain ⟨last, hlast, hrow, hmax⟩ := ih (fun p hp => hranked p (List.mem_cons_of_mem _ hp)) hrest
      rw [if_pos hlt]
      refine ⟨last, List.mem_cons_of_mem _ hlast, hrow, fun p hp => ?_⟩
      rcases List.mem_cons.1 hp with rfl | hp
      · exact fun h => hmax next List.mem_cons_self (List.lt_trans h hlt)
      · exact hmax p hp
    · have hsub : first :: rest ⊆ first :: next :: rest :=
        List.cons_subset_cons _ (List.subset_cons_self _ _)
      obtain ⟨last, hlast, hrow, hmax⟩ := ih (fun p hp => hranked p (hsub hp))
        (List.pairwise_cons.2 ⟨fun p hp => hfirst p (List.mem_cons_of_mem _ hp), hlater⟩)
      rw [if_neg hlt]
      refine ⟨last, hsub hlast, hrow, fun p hp => ?_⟩
      rcases List.mem_cons.1 hp with rfl | hp
      · exact hmax p List.mem_cons_self
      rcases List.mem_cons.1 hp with rfl | hp
      · -- the proposal that was dropped is older than the row that it met
        have hle := Decidable.byContradiction fun h => hfirst p List.mem_cons_self (List.le_antisymm h hlt)
        exact fun h => hmax first List.mem_cons_self (List.lt_trans h hle)
      · exact hmax p (List.mem_cons_of_mem _ hp)

/-- Of proposals that differ in their compare-and-set columns the newest stays, in whatever order they come. -/
theorem onAll_newest (hcas : config.isCas = true) {proposals : List MappedRow}
    (hnames : ∀ p ∈ proposals, ∀ q ∈ proposals, p.row.names = q.row.names)
    (hintegers : ∀ p ∈ proposals, IntegerColumns config.cas p.row)
    (hdistinct : proposals.Pairwise fun p q => casTuple config.cas p.row ≠ casTuple config.cas q.row)
    {newest : MappedRow} (hnewest : newest ∈ proposals)
    (hgreatest : ∀ p ∈ proposals, ¬ casTuple config.cas newest.row < casTuple config.cas p.row) :
    onAll config none (proposals.map .upsert) = some newest.row := by
  cases proposals with
  | nil => cases hnewest
  | cons first rest =>
    have hranked : ∀ p ∈ first :: rest, Ranked config.cas first.row.names p.row :=
      fun p hp => ⟨hnames p hp first List.mem_cons_self, hintegers p hp⟩
    obtain ⟨last, hlast, hrow, hmax⟩ := onAll_some_newest hcas hranked hdistinct
    have hsame : casTuple config.cas last.row = casTuple config.cas newest.row :=
      List.le_antisymm (hgreatest last hlast) (hmax newest hnewest)
    have hnodup : ((first :: rest).map fun p => casTuple config.cas p.row).Nodup :=
      List.pairwise_map.2 hdistinct
    cases List.inj_on_of_nodup_map hnodup hlast hnewest hsame
    exact hrow

end RowAction

/-! ## Upserts of one row -/

/-- A mutation of a source that is routed to the table of a row alone, and there proposes that row. -/
structure RowUpsert (registry : Registry) (config : SourceConfig) (schema : Schema) (id : RowId) where
  mutation : Mutation
  routed : Mutation
  document : Document
  /-- The row that is proposed. -/
  proposed : MappedRow
  key : RowKey
  routes : (route config registry.options.functionTimeout registry.options.maxDepth
    mutation).attempt.value = .ok [⟨id.table, routed⟩]
  carries : routed.data = some document
  cleans : cleanRow (registry.table id.table) schema document = .ok proposed
  keyed : rowKey schema proposed.row routed = .ok key
  same : (RowId.mk id.table key).address = id.address

/-- A table with compare-and-set columns, which neither merges nor maps rows and has no deadlines. -/
structure TableConfig.CasOnly (config : TableConfig) : Prop where
  isCas : config.isCas = true
  merge : config.merge = none
  map : config.map = none
  deadlines : config.deadlines = []

variable {registry : Registry} {config : SourceConfig} {schema : Schema} {id : RowId} {clock : Clock}
  {s s₁ s' : Session MemoryStore}

theorem Logged.Fallible.value_bind_of_ok {α β : Type} {x : Fallible α} {f : α → Fallible β} {a : α}
    (h : x.attempt.value = .ok a) : (x >>= f).attempt.value = (f a).attempt.value := by
  rw [attempt_bind]
  generalize x.attempt = r at h
  obtain ⟨result, trace⟩ := r
  cases h
  rfl

namespace RowUpsert

/-- The mutation with the number of its outcome, which is its position as well. -/
def placed (number : Nat) (u : RowUpsert registry config schema id) : Placed :=
  ⟨number, number, ⟨id.table, u.routed⟩⟩

def prepared (number : Nat) (u : RowUpsert registry config schema id) : Prepared :=
  ⟨u.placed number, u.key, .upsert u.proposed⟩

theorem address_prepared (number : Nat) (u : RowUpsert registry config schema id) :
    (u.prepared number).row.address = id.address := u.same

theorem mapRow_document (hmap : (registry.table id.table).map = none)
    (u : RowUpsert registry config schema id) (timeout : Span) (origin : Document) :
    (mapRow (registry.table id.table) schema timeout u.document origin).attempt.value =
      .ok (some u.proposed) := by
  have hdocument : (mapDocument (registry.table id.table) timeout u.document origin).attempt.value =
      .ok (some u.document) := by
    unfold mapDocument
    rw [hmap]
    rfl
  have hcleaned : (liftM (cleanRow (registry.table id.table) schema u.document) :
      Logged.Fallible MappedRow).attempt.value = .ok u.proposed := by
    rw [Logged.Fallible.attempt_result, u.cleans]
    rfl
  rw [mapRow, Logged.Fallible.value_bind_of_ok hdocument, Logged.Fallible.value_bind_of_ok hcleaned]
  rfl

theorem readyAt_placed (clock : Clock) (hconfig : (registry.table id.table).CasOnly)
    (hshape : s.shape? id.table = some schema) (number : Nat) (u : RowUpsert registry config schema id) :
    readyAt registry clock s (u.placed number) = some (u.prepared number) := by
  obtain ⟨hschema, -, -⟩ := schemaOf_exec id.table s
  rw [hshape] at hschema
  have hmapped (t : Session MemoryStore) : ∃ t', (Run.fallible (mapRow (registry.table id.table) schema
      registry.options.functionTimeout u.document u.routed.origin)).exec t = (.ok (some u.proposed), t') :=
    ⟨_, exec_of_fst (u.mapRow_document hconfig.map ..)⟩
  obtain ⟨t, hmap⟩ := hmapped ((schemaOf id.table).exec s).2
  have hcheck : Deadline.check u.proposed.row (clock.time number) (registry.table id.table).deadlines =
      .ok none := by
    rw [hconfig.deadlines]
    rfl
  refine readyAt_eq_some_iff.2 ?_
  have hprepare : (prepare registry clock (u.placed number) : Run MemoryStore _) =
      prepareUpsert registry (clock.time number) (u.placed number) u.document := by
    unfold prepare
    have hdata : (u.placed number).routed.mutation.data = some u.document := u.carries
    rw [hdata]
    rfl
  rw [hprepare, prepareUpsert]
  dsimp only [placed]
  rw [exec_bind_of_ok (exec_of_fst hschema), exec_bind_of_ok hmap]
  dsimp only
  rw [hcheck, u.keyed]
  rfl

/-- What routing makes of upserts, each of which has the number at which it stands. -/
def routedAll (us : List (RowUpsert registry config schema id)) (number : Nat) : List RoutedSource :=
  (us.zipIdx number).map fun e => ⟨e.2, e.1.mutation, .ok [⟨id.table, e.1.routed⟩]⟩

def placedAll (us : List (RowUpsert registry config schema id)) (number : Nat) : List Placed :=
  (us.zipIdx number).map fun e => e.1.placed e.2

def preparedAll (us : List (RowUpsert registry config schema id)) (number : Nat) : List Prepared :=
  (us.zipIdx number).map fun e => e.1.prepared e.2

variable (us : List (RowUpsert registry config schema id))

theorem routedFrom_mutations (number : Nat) :
    routedFrom config registry.options number (us.map mutation) = routedAll us number := by
  rw [routedFrom, List.zipIdx_map, List.map_map, routedAll]
  refine List.map_congr_left fun e _ => ?_
  simp [e.1.routes]

theorem settleRouted_routedAll {σ : Type} [TargetStore σ] (options : Options) (name : String)
    (number : Nat) :
    (settleRouted options name number (routedAll us number) : Run σ _) =
      pure ([], placedAll us number) := by
  induction us generalizing number with
  | nil => rfl
  | cons u rest ih =>
    have hrouted : routedAll (u :: rest) number =
        ⟨number, u.mutation, .ok [⟨id.table, u.routed⟩]⟩ :: routedAll rest (number + 1) := rfl
    rw [hrouted]
    unfold settleRouted
    have hrest : (settleRouted options name (number + [Routed.mk id.table u.routed].length)
        (routedAll rest (number + 1)) : Run σ _) = pure ([], placedAll rest (number + 1)) := ih (number + 1)
    dsimp only
    rw [hrest, pure_bind]
    rfl

theorem settlePrepared_of_ready {σ : Type} [TargetStore σ] (options : Options) (name : String)
    (ps : List Prepared) :
    (settlePrepared options name (ps.map fun p => ⟨p.placed, .ok (.ready p)⟩) : Run σ _) =
      pure ([], ps) := by
  induction ps with
  | nil => rfl
  | cons p rest ih =>
    rw [List.map_cons]
    unfold settlePrepared
    dsimp only
    rw [ih, pure_bind]

/-- A batch of upserts has all of them ready, in their order. -/
theorem planFrom_mutations (clock : Clock) (hconfig : (registry.table id.table).CasOnly)
    (hshape : s.shape? id.table = some schema) :
    ∃ s₁, (planFrom registry clock config 0 0 (us.map mutation)).exec s =
      (.ok ([], preparedAll us 0), s₁) := by
  obtain ⟨trace, hroute⟩ := routeAll_exec 0 (us.map mutation) s
  have hsettle := settleRouted_routedAll (σ := MemoryStore) us registry.options config.name 0
  have htables : s.SameTables { s with trace := trace } := ⟨fun _ => rfl, fun _ => rfl⟩
  obtain ⟨s₁, hprepare, -⟩ : ∃ s₁, (prepareAll registry clock (placedAll us 0)).exec
      { s with trace := trace } = (.ok ((placedAll us 0).map fun p =>
        ⟨p, ((prepare registry clock p).exec s).1⟩), s₁) ∧ s.SameTables s₁ :=
    prepareAll_exec htables (placedAll us 0)
  have hready : ((placedAll us 0).map fun p => PreparedSource.mk p ((prepare registry clock p).exec s).1) =
      (preparedAll us 0).map fun p => ⟨p.placed, .ok (.ready p)⟩ := by
    rw [placedAll, preparedAll, List.map_map, List.map_map]
    refine List.map_congr_left fun e _ => ?_
    have hplaced := readyAt_eq_some_iff.1 (e.1.readyAt_placed clock hconfig hshape e.2)
    exact congrArg (PreparedSource.mk _) hplaced
  refine ⟨s₁, ?_⟩
  rw [planFrom, exec_bind_of_ok hroute, routedFrom_mutations, settleFrom, hsettle, pure_bind, exec_bind,
    ready, exec_bind_of_ok hprepare, hready, settlePrepared_of_ready]
  rfl

theorem ofRow_preparedAll (number : Nat) :
    (ofRow id.address (preparedAll us number)).map Prepared.action =
      us.map fun u => .upsert u.proposed := by
  have hall : ofRow id.address (preparedAll us number) = preparedAll us number := by
    refine List.filter_eq_self.2 fun p hp => ?_
    obtain ⟨e, -, rfl⟩ := List.mem_map.1 hp
    exact decide_eq_true (e.1.address_prepared e.2)
  rw [hall, preparedAll, List.map_map]
  have hzip : us.map (fun u => RowAction.upsert u.proposed) =
      ((us.zipIdx number).map Prod.fst).map fun u => .upsert u.proposed := by
    rw [List.zipIdx_map_fst]
  rw [hzip, List.map_map]
  rfl

/-- The upserts propose their rows, if there is an attempt at this. -/
theorem actionsOn_preparedAll (number : Nat) :
    actionsOn registry id (preparedAll us number) =
      if registry.options.attempts = 0 then [] else us.map fun u => .upsert u.proposed := by
  rw [actionsOn, ofRow_preparedAll]
  split
  · rename_i hnone
    refine List.filter_eq_nil_iff.2 fun action haction => ?_
    obtain ⟨u, -, rfl⟩ := List.mem_map.1 haction
    simp [RowAction.reaches, hnone]
  · rename_i hattempts
    exact List.filter_eq_self.2 fun action _ => RowAction.reaches_of_attempts hattempts action

end RowUpsert

/-- A batch of upserts of one row succeeds, and proposes the rows of the upserts one after another if the options
leave an attempt at this. Otherwise the row stays as it is. -/
theorem processBatch_upserts (clock : Clock) {source : String}
    (hsource : registry.source source = .ok config) (hconfig : (registry.table id.table).CasOnly)
    (us : List (RowUpsert registry config schema id))
    (hshape : s.shape? id.table = some schema) (htable : s.store.hasTable id.table = true) :
    ∃ outcomes s', (processBatch registry clock source (us.map RowUpsert.mutation)).exec s =
        (.ok outcomes, s') ∧ s.SameTables s' ∧
      s'.store.row? id = if registry.options.attempts = 0 then s.store.row? id
        else RowAction.onAll (registry.table id.table) (s.store.row? id)
          ((us.map RowUpsert.proposed).map .upsert) := by
  obtain ⟨s₁, hplan⟩ := RowUpsert.planFrom_mutations us clock hconfig hshape
  obtain ⟨hplanned, -⟩ := planFrom_follows hplan
  have htables : ∀ p ∈ RowUpsert.preparedAll us 0, p.row.table = id.table := by
    intro p hp
    obtain ⟨e, -, rfl⟩ := List.mem_map.1 hp
    rfl
  have hmerge : ∀ p ∈ RowUpsert.preparedAll us 0, (registry.table p.row.table).merge = none :=
    fun p hp => htables p hp ▸ hconfig.merge
  have hperm := Arrangement.asFound.flatten_perm (RowUpsert.preparedAll us 0)
  obtain ⟨applied, s', happlied⟩ := applyGroup_succeeds config.name (s := s₁)
    (fun p hp => hmerge p (hperm.mem_iff.1 hp)) fun p hp _ => by
      rw [htables p (hperm.mem_iff.1 hp), ← hplanned.hasTable]
      exact htable
  obtain ⟨letters, hfollows⟩ := (applyGroup_local registry config.name _).follows s₁
  rw [happlied] at hfollows
  have hrow := row_of_plan .asFound hplan hmerge happlied id
  refine ⟨_, s', processArranged_exec .asFound hsource hplan happlied,
    hplanned.trans hfollows.tables, ?_⟩
  rw [hrow, RowUpsert.actionsOn_preparedAll]
  split
  · rfl
  · rw [List.map_map]
    rfl

/-! ## Sequences of batches -/

/-- Processes batches one after another, each at its time. -/
def processBatches {σ : Type} [TargetStore σ] (registry : Registry) (source : String) :
    List (Clock × List Mutation) → Run σ (List (List Outcome))
  | [] => return []
  | (clock, batch) :: rest => do
    let first ← processBatch registry clock source batch
    let others ← processBatches registry source rest
    return first :: others

theorem processBatches_upserts {source : String} (hsource : registry.source source = .ok config)
    (hconfig : (registry.table id.table).CasOnly)
    (deliveries : List (Clock × List (RowUpsert registry config schema id)))
    (hshape : s.shape? id.table = some schema) (htable : s.store.hasTable id.table = true) :
    ∃ outcomes s', (processBatches registry source
        (deliveries.map fun d => (d.1, d.2.map RowUpsert.mutation))).exec s = (.ok outcomes, s') ∧
      s'.store.row? id = if registry.options.attempts = 0 then s.store.row? id
        else RowAction.onAll (registry.table id.table) (s.store.row? id)
          (((deliveries.flatMap Prod.snd).map RowUpsert.proposed).map .upsert) := by
  induction deliveries generalizing s with
  | nil => exact ⟨[], s, rfl, by simp [RowAction.onAll]⟩
  | cons delivery rest ih =>
    obtain ⟨clock, us⟩ := delivery
    obtain ⟨first, s₁, hfirst, htables, hrow⟩ :=
      processBatch_upserts clock hsource hconfig us hshape htable
    obtain ⟨others, s', hothers, hrows⟩ := ih (s := s₁) ((htables.shape _).symm.trans hshape)
      ((htables.hasTable _).symm.trans htable)
    refine ⟨first :: others, s', ?_, ?_⟩
    · rw [List.map_cons, processBatches, exec_bind_of_ok hfirst, exec_bind_of_ok hothers]
      rfl
    · rw [hrows, hrow, List.flatMap_cons, List.map_append, List.map_append, RowAction.onAll_append]
      split <;> rfl

/-- Upserts of a row that is absent at first have the same columns, of which the compare-and-set columns are
integers and differ from one upsert to another. If they are delivered in any order, in any batches one after
another, then all batches succeed, and the row is the one whose integers are the greatest. There is one
exception: with the greatest number of retries no attempt is made at all, and the row stays absent. -/
theorem upserts_converge {source : String} (hsource : registry.source source = .ok config)
    (hconfig : (registry.table id.table).CasOnly) (hshape : s.shape? id.table = some schema)
    (htable : s.store.hasTable id.table = true) (habsent : s.store.row? id = none)
    (upserts : List (RowUpsert registry config schema id))
    (hnames : ∀ u ∈ upserts, ∀ v ∈ upserts, u.proposed.row.names = v.proposed.row.names)
    (hintegers : ∀ u ∈ upserts, IntegerColumns (registry.table id.table).cas u.proposed.row)
    (hdistinct : upserts.Pairwise fun u v => casTuple (registry.table id.table).cas u.proposed.row ≠
      casTuple (registry.table id.table).cas v.proposed.row)
    {newest : RowUpsert registry config schema id} (hnewest : newest ∈ upserts)
    (hgreatest : ∀ u ∈ upserts, ¬ casTuple (registry.table id.table).cas newest.proposed.row <
      casTuple (registry.table id.table).cas u.proposed.row)
    (deliveries : List (Clock × List (RowUpsert registry config schema id)))
    (hdeliveries : (deliveries.flatMap Prod.snd).Perm upserts) :
    ∃ outcomes s', (processBatches registry source
        (deliveries.map fun d => (d.1, d.2.map RowUpsert.mutation))).exec s = (.ok outcomes, s') ∧
      s'.store.row? id =
        if registry.options.staleRetries = 4294967295 then none else some newest.proposed.row := by
  obtain ⟨outcomes, s', hrun, hrow⟩ := processBatches_upserts hsource hconfig deliveries hshape htable
  refine ⟨outcomes, s', hrun, ?_⟩
  rw [hrow, habsent]
  refine if_congr Options.attempts_eq_zero_iff rfl ?_
  have hdelivered : (deliveries.flatMap Prod.snd).Pairwise fun u v =>
      casTuple (registry.table id.table).cas u.proposed.row ≠
        casTuple (registry.table id.table).cas v.proposed.row :=
    hdeliveries.symm.pairwise hdistinct fun h => Ne.symm h
  refine RowAction.onAll_newest hconfig.isCas ?_ ?_ (List.pairwise_map.2 hdelivered)
    (List.mem_map_of_mem (hdeliveries.mem_iff.2 hnewest)) ?_
  · intro p hp q hq
    obtain ⟨u, hu, rfl⟩ := List.mem_map.1 hp
    obtain ⟨v, hv, rfl⟩ := List.mem_map.1 hq
    exact hnames u (hdeliveries.mem_iff.1 hu) v (hdeliveries.mem_iff.1 hv)
  · intro p hp
    obtain ⟨u, hu, rfl⟩ := List.mem_map.1 hp
    exact hintegers u (hdeliveries.mem_iff.1 hu)
  · intro p hp
    obtain ⟨u, hu, rfl⟩ := List.mem_map.1 hp
    exact hgreatest u (hdeliveries.mem_iff.1 hu)

namespace Example

/-- A payment as an upsert of the order. -/
def deposit (n : Fin 8) : RowUpsert ranked feed orders order where
  mutation := payment (some n) true
  routed := payment (some n) true
  document := amount n
  proposed := ⟨amount n, []⟩
  key := ⟨[.bool true]⟩
  routes := rfl
  carries := rfl
  cleans := rfl
  keyed := rfl
  same := rfl

theorem integerColumns_amount (n : Fin 8) : IntegerColumns ["paid"] (amount n) := by
  intro column hcolumn
  cases List.mem_singleton.1 hcolumn
  exact ⟨_, _, rfl⟩

theorem casTuple_amount (n : Fin 8) : casTuple ["paid"] (amount n) = [(n : Int)] := rfl

end Example

/-- Of two payments the higher one stays, also if the lower one comes later. -/
theorem lower_payment_comes_late :
    ∃ outcomes s', (processBatches Example.ranked "orders"
        [(default, [Example.payment (some 2) true]), (default, [Example.payment (some 1) true])]).exec
          (.ofStore (StoreOp.runAll [.createTable Example.orders] .empty)) = (.ok outcomes, s') ∧
      s'.store.row? Example.order = some (Example.amount 2) := by
  have hdeposit : ∀ u ∈ [Example.deposit 1, Example.deposit 2], ∃ n, u = Example.deposit n ∧ n ≤ 2 := by
    intro u hu
    simp only [List.mem_cons, List.not_mem_nil, or_false] at hu
    rcases hu with rfl | rfl
    · exact ⟨1, rfl, by decide⟩
    · exact ⟨2, rfl, by decide⟩
  have hdistinct : [Example.deposit 1, Example.deposit 2].Pairwise fun u v =>
      casTuple ["paid"] u.proposed.row ≠ casTuple ["paid"] v.proposed.row := by
    simp [Example.deposit, Example.casTuple_amount]
  have hnewest : Example.deposit 2 ∈ [Example.deposit 1, Example.deposit 2] := by simp
  refine upserts_converge rfl ⟨rfl, rfl, rfl, rfl⟩ rfl rfl rfl
    [Example.deposit 1, Example.deposit 2] (fun u hu v hv => ?_) (fun u hu => ?_) hdistinct
    hnewest (fun u hu => ?_)
    [(default, [Example.deposit 2]), (default, [Example.deposit 1])] (List.Perm.swap _ _ _)
  · obtain ⟨n, rfl, -⟩ := hdeposit u hu
    obtain ⟨m, rfl, -⟩ := hdeposit v hv
    rfl
  · obtain ⟨n, rfl, -⟩ := hdeposit u hu
    exact Example.integerColumns_amount n
  · obtain ⟨n, rfl, hn⟩ := hdeposit u hu
    show ¬ casTuple ["paid"] (Example.amount 2) < casTuple ["paid"] (Example.amount n)
    rw [Example.casTuple_amount, Example.casTuple_amount, List.cons_lt_cons_iff]
    rintro (h | ⟨-, h⟩)
    · omega
    · exact List.not_lt_nil [] h

namespace Example

/-- A registry for payments with the greatest number of retries. -/
def tireless : Registry := { ranked with options := { ranked.options with staleRetries := 4294967295 } }

end Example

/-- With the greatest number of retries the only payment of an order is parked, and no row is there. -/
theorem payment_is_never_attempted :
    let s : Session MemoryStore := .ofStore (StoreOp.runAll [.createTable Example.orders] .empty)
    let after := (processBatch Example.tireless default "orders" [Example.payment (some 1) true]).exec s
    (Example.tireless.table Example.orders.name).CasOnly ∧ s.store.row? Example.order = none ∧
      after.1.isOk = true ∧ after.2.store.row? Example.order = none ∧
      after.2.store.letters.map DeadLetter.queue = ["dlq"] :=
  ⟨⟨rfl, rfl, rfl, rfl⟩, rfl, rfl, rfl, rfl⟩

end Tributary
