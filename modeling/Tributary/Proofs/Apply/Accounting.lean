import Tributary.Proofs.Apply.Numbering
import Tributary.Proofs.Apply.Sequential
import Tributary.Proofs.Apply.Views

/-!
# No mutation is lost or reported twice

On every store, and for every order in which the groups of rows are applied: a batch that succeeds has one
outcome for each of its entries, in their order, and the counters of mutations grow by one for each outcome.

* `applyGroup_counts`, `settleRouted_counts`, `settlePrepared_counts`: each stage counts the outcomes that it
  reports, and nothing else that happens to mutations.
* `getElem?_inOrder`: what has all numbers of a range, each once, stands in order at its number.
* `every_entry_has_one_outcome`: the statement above.
-/

namespace Tributary

open Run

/-! ## Counts -/

section

variable {σ : Type}

/-- What was counted of what happened to mutations. -/
def mutationCounts (s : Session σ) : List Metric := s.trace.metrics.filter fun m => m.counter.ofMutations

/-- What is counted for outcomes. -/
def Numbered.metrics (outcomes : Numbered) : List Metric := outcomes.map fun e => Metric.ofOutcome e.2

theorem ofMutations_ofOutcome (o : Outcome) : (Metric.ofOutcome o).counter.ofMutations = true := by
  unfold Metric.ofOutcome
  cases o.disposition <;> rfl

theorem report_counts (index : Nat) (table : Option TableName) (key : Option RowKey)
    (disposition : Disposition) :
    Adds mutationCounts (fun o more => more = [Metric.ofOutcome o])
      (report index table key disposition : Run σ _) := by
  refine ⟨fun s => ⟨[Metric.ofDisposition table disposition], ?_, fun o ho => ?_⟩⟩
  · have hcounter := ofMutations_ofOutcome ⟨index, table, key, disposition⟩
    show List.filter _ (s.trace.metrics ++ [Metric.ofDisposition table disposition]) = _
    rw [List.filter_append, List.filter_singleton]
    simp only [Metric.ofOutcome] at hcounter
    simp [mutationCounts, hcounter]
  · cases ho
    rfl

theorem store_keeps_counts {α : Type} (action : StoreAction σ α) :
    Keeps mutationCounts (Run.store action) := ⟨fun _ => rfl⟩

variable [TargetStore σ]

theorem steady_mutationCounts : Steady (mutationCounts : Session σ → List Metric) where
  shape _ := ⟨fun _ => rfl⟩
  remember _ _ := ⟨fun _ => rfl⟩
  silent s trace h := by
    show List.filter _ (s.trace.metrics ++ trace.metrics) = _
    have hnone : trace.metrics.filter (fun m => m.counter.ofMutations) = [] :=
      List.filter_eq_nil_iff.2 fun m hm => by simp [h m hm]
    rw [List.filter_append, hnone, List.append_nil]
    rfl

variable {registry : Registry} {options : Options} {clock : Clock} {source : SourceConfig} {name : String}

theorem handleFailure_keeps_counts (table : Option TableName) (m : Mutation)
    (operation : Option MergeOperation) (fault : Fault) :
    Keeps mutationCounts (handleFailure options name table m operation fault : Run σ _) := by
  unfold handleFailure
  split
  · exact .throw fault
  · exact .pure _
  · exact (store_keeps_counts _).bind fun _ => .pure _

theorem Entry.fail_counts (e : Entry) (fault : Fault) :
    Adds mutationCounts (fun o more => more = [Metric.ofOutcome o]) (e.fail options name fault : Run σ _) :=
  (handleFailure_keeps_counts ..).bind_adds fun _ => report_counts ..

theorem Numbered.metrics_append (outcomes others : Numbered) :
    Numbered.metrics (outcomes ++ others) = Numbered.metrics outcomes ++ Numbered.metrics others :=
  List.map_append

theorem settleRouted_counts (number : Nat) (routed : List RoutedSource) :
    Adds mutationCounts (fun r more => more = Numbered.metrics r.1)
      (settleRouted options name number routed : Run σ _) := by
  have hpieces : Piecewise fun (_ : List (Entry × Nat)) settled (_ : List Placed) more =>
      more = Numbered.metrics settled :=
    ⟨rfl, fun first second => by rw [Numbered.metrics_append, first, second]⟩
  exact settleRouted_adds hpieces (fun r _ fault _ _ => r.alone.fail_counts fault)
    (fun r _ _ _ => report_counts ..) (fun _ => rfl) number

theorem settlePrepared_counts (prepared : List PreparedSource) :
    Adds mutationCounts (fun r more => more = Numbered.metrics r.1)
      (settlePrepared options name prepared : Run σ _) := by
  have hpieces : Piecewise fun (_ : List PreparedSource) settled (_ : List Prepared) more =>
      more = Numbered.metrics settled :=
    ⟨rfl, fun first second => by rw [Numbered.metrics_append, first, second]⟩
  exact settlePrepared_adds hpieces (fun x _ fault _ => x.placed.entry.1.fail_counts fault)
    (fun x _ reason _ => report_counts ..) fun _ _ _ _ => rfl

theorem planFrom_counts (number index : Nat) (batch : List Mutation) :
    Adds mutationCounts (fun r more => more = Numbered.metrics r.1)
      (planFrom registry clock source number index batch : Run σ _) := by
  refine (routeAll_keeps steady_mutationCounts ..).bind_adds fun routed => ?_
  refine (settleRouted_counts number routed).bind fun pending first hfirst => ?_
  have hready : Adds mutationCounts (fun r more => more = Numbered.metrics r.1)
      (ready registry clock source.name pending.2 : Run σ _) :=
    (prepareAll_keeps steady_mutationCounts ..).bind_adds fun prepared => settlePrepared_counts prepared
  refine hready.bind fun rest later hlater => .pure ?_
  simp [Numbered.metrics, hfirst, hlater]

/-! ## Rows -/

theorem decideCas_keeps_counts (p : Prepared) (proposed : Document) (known : MappedBefore) :
    Keeps mutationCounts (decideCas registry name p proposed known : Run σ _) := by
  refine (store_keeps_counts _).bind fun current => ?_
  refine (refreshBefore_keeps steady_mutationCounts ..).bind fun before => ?_
  refine (steady_mutationCounts.logged (resolve_silent ..)).bind fun resolution => ?_
  refine Keeps.bind ?_ fun _ => .pure _
  cases resolution with
  | apply data => exact .pure _
  | park queue operation => exact (store_keeps_counts _).bind fun _ => .pure _
  | drop reason operation => exact .pure _
  | failed fault operation => exact (handleFailure_keeps_counts ..).bind fun _ => .pure _

/-- However often an upsert is tried, it counts conflicts at most. -/
theorem upsertWithin_keeps_counts (p : Prepared) (row : MappedRow) (total attempts : Nat)
    (known : MappedBefore) :
    Keeps mutationCounts (upsertWithin registry name p row total attempts known : Run σ _) := by
  induction attempts generalizing known with
  | zero => exact .throw _
  | succ attempts ih =>
    have hdecide : Keeps mutationCounts (decideWrite registry name p row.row known : Run σ _) := by
      unfold decideWrite
      split
      · exact decideCas_keeps_counts ..
      · exact .pure _
    unfold upsertWithin
    refine hdecide.bind fun decided => ?_
    obtain ⟨decision, known⟩ := decided
    cases decision with
    | settled disposition => exact .pure _
    | write data expected =>
      refine (store_keeps_counts _).bind fun outcome => ?_
      cases outcome with
      | written => exact .pure _
      | versionMismatch => exact ih known

theorem applyPrepared_keeps_counts (p : Prepared) :
    Keeps mutationCounts (applyPrepared registry name p : Run σ _) := by
  unfold applyPrepared
  split
  · exact upsertWithin_keeps_counts ..
  · exact (store_keeps_counts _).bind fun _ => .pure _

theorem applyGroup_counts (ps : List Prepared) :
    Adds mutationCounts (fun r more => more = Numbered.metrics r)
      (applyGroup registry name ps : Run σ _) := by
  induction ps with
  | nil => exact .pure rfl
  | cons p rest ih =>
    have hone : Adds mutationCounts (fun e more => more = [Metric.ofOutcome e.2])
        (applyOne registry name p : Run σ _) := by
      refine (applyPrepared_keeps_counts p).attempt.bind_adds fun result => ?_
      refine Keeps.bind_adds ?_ fun disposition =>
        (report_counts ..).bind fun outcome more hmore => .pure (by simpa using hmore)
      cases result with
      | ok disposition => exact .pure _
      | error fault => exact handleFailure_keeps_counts ..
    rw [applyGroup_cons]
    refine hone.bind fun first more hmore => ih.bind fun others later hlater => .pure ?_
    simp [Numbered.metrics, hmore, hlater]

end

/-! ## Answers -/

/-- An outcome answers an entry if it has its position and its table, and if it has the key of the row to
whose group the entry has come, or no key if it has come to none. -/
structure Answers (groups : List (List Prepared)) (number : Nat) (entry : Entry) (o : Outcome) : Prop where
  index : o.index = entry.index
  table : o.table = entry.table
  key : ∀ key, o.key = some key ↔
    ∃ group ∈ groups, ∃ p ∈ group, p.placed.entry = (entry, number) ∧ p.key = key

section

variable {entries : List Entry} {settled applied : Numbered} {ready flat : List Prepared}

theorem map_fst_applied (hlabels : applied.map labelOf = flat.map Prepared.label) :
    applied.map Prod.fst = flat.map fun p => p.placed.number := by
  have hfirst := congrArg (List.map Prod.fst) hlabels
  simp only [List.map_map] at hfirst
  exact hfirst

/-- All numbers are those of the entries, each once. -/
theorem numbers_perm (haccounted : Accounted entries.zipIdx settled (ready.map Prepared.placed))
    (hlabels : applied.map labelOf = flat.map Prepared.label) (hflat : flat.Perm ready) :
    ((settled ++ applied).map Prod.fst).Perm (List.range entries.length) := by
  have hnumbers := haccounted.numbers
  rw [List.map_map, List.zipIdx_map_snd, ← List.range_eq_range'] at hnumbers
  rw [List.map_append, map_fst_applied hlabels]
  exact ((hflat.map _).append_left _).trans hnumbers

/-- Every outcome answers the entry of its number. -/
theorem answers_of_mem (haccounted : Accounted entries.zipIdx settled (ready.map Prepared.placed))
    (hlabels : applied.map labelOf = flat.map Prepared.label) (hflat : flat.Perm ready)
    {groups : List (List Prepared)} (hgroups : groups.flatten.Perm ready) {number : Nat} {o : Outcome}
    (ho : (number, o) ∈ settled ++ applied) :
    ∃ entry, entries[number]? = some entry ∧ Answers groups number entry o := by
  have hnodup : (settled.map Prod.fst ++ ready.map fun p => p.placed.number).Nodup := by
    have hnumbers := haccounted.numbers
    rw [List.map_map, List.zipIdx_map_snd] at hnumbers
    exact hnumbers.nodup_iff.2 List.nodup_range'
  obtain ⟨-, hready, hdisjoint⟩ := List.nodup_append.1 hnodup
  have hmember {entry : Entry} {key : RowKey} :
      (∃ group ∈ groups, ∃ p ∈ group, p.placed.entry = (entry, number) ∧ p.key = key) ↔
        ∃ p ∈ ready, p.placed.entry = (entry, number) ∧ p.key = key := by
    simp only [← hgroups.mem_iff, List.mem_flatten]
    constructor
    · exact fun ⟨g, hg, p, hp, h⟩ => ⟨p, ⟨g, hg, hp⟩, h⟩
    · exact fun ⟨p, ⟨g, hg, hp⟩, h⟩ => ⟨g, hg, p, hp, h⟩
  rcases List.mem_append.1 ho with hin | hin
  · obtain ⟨entry, hentry, hindex, htable, hkey⟩ := haccounted.settled _ hin
    refine ⟨entry, List.mem_zipIdx_iff_getElem?.1 hentry, hindex, htable, fun key => ?_⟩
    rw [hmember, hkey]
    refine ⟨fun h => (by cases h), fun ⟨p, hp, hplaced, _⟩ => ?_⟩
    -- a number that is settled is not the number of a mutation that is ready
    have hnumber : p.placed.number = number := congrArg Prod.snd hplaced
    exact absurd hnumber.symm
      (hdisjoint number (List.mem_map_of_mem hin) p.placed.number (List.mem_map_of_mem hp))
  · have hlabel : labelOf (number, o) ∈ flat.map Prepared.label := by
      rw [← hlabels]
      exact List.mem_map_of_mem hin
    obtain ⟨p, hp, hlabel⟩ := List.mem_map.1 hlabel
    simp only [Prepared.label, labelOf, Prod.mk.injEq] at hlabel
    obtain ⟨hnumber, hindex, htable, hkey⟩ := hlabel
    have hready' := hflat.mem_iff.1 hp
    have hwaiting := haccounted.waiting p.placed (List.mem_map_of_mem hready')
    have hentry : p.placed.entry = (p.placed.entry.1, number) := Prod.ext rfl hnumber
    rw [hentry] at hwaiting
    refine ⟨p.placed.entry.1, List.mem_zipIdx_iff_getElem?.1 hwaiting, hindex.symm, htable.symm,
      fun key => ?_⟩
    rw [hmember, ← hkey]
    refine ⟨fun h => ⟨p, hready', hentry, Option.some.inj h⟩, fun ⟨q, hq, hplaced, hqkey⟩ => ?_⟩
    have hsame : q.placed.number = p.placed.number := (congrArg Prod.snd hplaced).trans hnumber.symm
    rw [← List.inj_on_of_nodup_map hready hq hready' hsame, hqkey]

end

/-! ## Counters -/

section

variable {σ : Type}

/-- Between two sessions the count of a metric grew by the number of outcomes with a property. -/
def Session.Grew (before after : Session σ) (outcomes : List Outcome) (m : Metric)
    (P : Outcome → Prop) [DecidablePred P] : Prop :=
  after.trace.metrics.count m = before.trace.metrics.count m + outcomes.countP fun o => P o

theorem DropReason.name_injective : ∀ r r' : DropReason, r.name = r'.name → r = r'
  | r, r', h => by cases r <;> cases r' <;> simp [name] at h ⊢

variable {s s' : Session σ} {outcomes : List Outcome}

theorem grew_of_counts (h : ∃ added, mutationCounts s' = mutationCounts s ++ added ∧
      added.Perm (outcomes.map Metric.ofOutcome))
    {m : Metric} (hm : m.counter.ofMutations = true) {P : Outcome → Prop} [DecidablePred P]
    (hP : ∀ o, Metric.ofOutcome o = m ↔ P o) : s.Grew s' outcomes m P := by
  obtain ⟨added, hadded, hperm⟩ := h
  have hcount (t : Session σ) : t.trace.metrics.count m = (mutationCounts t).count m :=
    (List.count_filter (p := fun m : Metric => m.counter.ofMutations) hm).symm
  have hoccurs : (outcomes.map Metric.ofOutcome).count m = outcomes.countP fun o => P o := by
    rw [List.count, List.countP_map]
    refine List.countP_congr fun o _ => ?_
    simp [hP o]
  rw [Session.Grew, hcount, hcount, hadded, List.count_append, hperm.count_eq, hoccurs]

/-- Each counter of mutations grew, under each set of labels, by the number of outcomes that have the
labelled table, and the labelled queue or reason. Under other labels no such counter grew. -/
structure CountersGrew (before after : Session σ) (outcomes : List Outcome) : Prop where
  applied : ∀ table, before.Grew after outcomes ⟨.applied, [("table_name", table)]⟩
    fun o => o.disposition = .applied ∧ Metric.tableLabel o.table = table
  deleted : ∀ table, before.Grew after outcomes ⟨.deleted, [("table_name", table)]⟩
    fun o => o.disposition = .deleted ∧ Metric.tableLabel o.table = table
  parked : ∀ queue table, before.Grew after outcomes ⟨.parked, [("queue", queue), ("table_name", table)]⟩
    fun o => o.disposition = .parked queue ∧ Metric.tableLabel o.table = table
  dropped : ∀ reason table,
    before.Grew after outcomes ⟨.dropped, [("reason", DropReason.name reason), ("table_name", table)]⟩
      fun o => o.disposition = .dropped reason ∧ Metric.tableLabel o.table = table
  others : ∀ m, m.counter.ofMutations = true → (∀ o, Metric.ofOutcome o ≠ m) →
    after.trace.metrics.count m = before.trace.metrics.count m

theorem countersGrew_of_counts (h : ∃ added, mutationCounts s' = mutationCounts s ++ added ∧
      added.Perm (outcomes.map Metric.ofOutcome)) : CountersGrew s s' outcomes where
  applied table := grew_of_counts h rfl fun o => by
    cases hd : o.disposition <;> simp [Metric.ofOutcome, Metric.ofDisposition, hd]
  deleted table := grew_of_counts h rfl fun o => by
    cases hd : o.disposition <;> simp [Metric.ofOutcome, Metric.ofDisposition, hd]
  parked queue table := grew_of_counts h rfl fun o => by
    cases hd : o.disposition <;> simp [Metric.ofOutcome, Metric.ofDisposition, hd]
  dropped reason table := grew_of_counts h rfl fun o => by
    have hreason (r : DropReason) : r.name = reason.name ↔ r = reason :=
      ⟨DropReason.name_injective r reason, congrArg _⟩
    cases hd : o.disposition <;> simp [Metric.ofOutcome, Metric.ofDisposition, hd, hreason]
  others m hm hnone := by
    have hgrew : s.Grew s' outcomes m fun _ => False :=
      grew_of_counts h hm fun o => ⟨fun heq => hnone o heq, False.elim⟩
    simpa [Session.Grew] using hgrew

end

/-! ## The whole statement -/

/-- If a batch succeeds, whatever the store and whatever the order in which the groups of rows are applied:
there are as many outcomes as entries, the outcome at each place answers the entry at that place, and the
counters of mutations grew by exactly the outcomes. -/
theorem every_entry_has_one_outcome {σ : Type} [TargetStore σ] (registry : Registry) (clock : Clock)
    (source : String) (arrangement : Arrangement) (batch : List Mutation) {s s' : Session σ}
    {outcomes : List Outcome}
    (hrun : (processArranged registry clock source arrangement batch).exec s = (.ok outcomes, s')) :
    ∃ config plan s₁, registry.source source = .ok config ∧
      (planBatch registry clock config batch).exec s = (.ok plan, s₁) ∧
      outcomes.length = (entries registry config batch).length ∧
      (∀ number entry o, (entries registry config batch)[number]? = some entry →
        outcomes[number]? = some o → Answers plan.groups number entry o) ∧
      CountersGrew s s' outcomes := by
  obtain ⟨config, plan, s₁, applied, hsource, hplan, happlied, rfl⟩ := processArranged_run hrun
  have haccounted := (planFrom_accounted 0 0 batch).result s plan s₁ hplan
  have hlabels := (applyGroup_labels _).result s₁ applied s' happlied
  have hgroups := flatten_groupRows_perm plan.2
  have hflat := arrangement.flatten_perm plan.2
  have hnumbers := numbers_perm haccounted hlabels hflat
  refine ⟨config, _, s₁, hsource, planBatch_exec hplan, ?_, fun number entry o hentry ho => ?_, ?_⟩
  · have hlength := hnumbers.length_eq
    rw [List.length_map, List.length_range] at hlength
    rw [inOrder, List.length_map, List.length_mergeSort, hlength]
    rfl
  · have hin := (getElem?_inOrder hnumbers number o).1 ho
    obtain ⟨answered, hanswered, hanswers⟩ := answers_of_mem haccounted hlabels hflat hgroups hin
    cases hentry.symm.trans hanswered
    exact hanswers
  · obtain ⟨first, hfirst, hsettled⟩ := (planFrom_counts 0 0 batch).added s
    obtain ⟨later, hlater, hgrouped⟩ := (applyGroup_counts _).added s₁
    rw [hplan] at hfirst hsettled
    rw [happlied] at hlater hgrouped
    refine countersGrew_of_counts ⟨first ++ later, ?_, ?_⟩
    · rw [← List.append_assoc, ← hfirst, hlater]
    · rw [hsettled _ rfl, hgrouped _ rfl, Numbered.metrics, Numbered.metrics, ← List.map_append, inOrder,
        List.map_map]
      exact (List.mergeSort_perm _ _).symm.map _

namespace Example

/-- Changes of two rows, and between them a deletion that names no row. -/
def mixed : List Mutation :=
  [change true true, ⟨none, none, [], default, .empty⟩, change true false, change false true]

/-- The outcomes of these, the last of which is in conflict with the first. -/
def mixedOutcomes : List Outcome :=
  [outcome 0 true .applied, ⟨1, some orders.name, none, .dropped .invalid⟩, outcome 2 false .applied,
   outcome 3 true (.parked "review")]

set_option maxRecDepth 4000 in
/-- The deletion is settled first, and the group of the first row is applied last. -/
theorem applyArranged_mixed :
    ((applyArranged reviewed default feed backwards mixed).exec (.ofStore filled)).1 =
      .ok [(1, ⟨1, some orders.name, none, .dropped .invalid⟩), (2, outcome 2 false .applied),
        (0, outcome 0 true .applied), (3, outcome 3 true (.parked "review"))] := rfl

theorem processArranged_mixed :
    ∃ after, (processArranged reviewed default "orders" backwards mixed).exec (.ofStore filled) =
      (.ok mixedOutcomes, after) := by
  have hsource : reviewed.source "orders" = .ok feed := rfl
  have hsorted : inOrder _ = List.map Prod.snd [(0, outcome 0 true .applied),
      (1, ⟨1, some orders.name, none, .dropped .invalid⟩), (2, outcome 2 false .applied),
      (3, outcome 3 true (.parked "review"))] :=
    inOrder_of_sorted ((List.Perm.swap _ _ _).cons _ |>.trans (List.Perm.swap _ _ _)) (by decide) (by simp)
  refine ⟨_, exec_of_fst ?_⟩
  rw [processArranged_eq hsource, exec_map, applyArranged_mixed]
  exact congrArg Except.ok hsorted

end Example

/-- Every change of the mixed batch has its outcome, the deletion one without a key, and one change is
counted as parked for review. -/
theorem mixed_batch_is_accounted :
    ∃ after : Session MemoryStore,
      (processArranged Example.reviewed default "orders" Example.backwards Example.mixed).exec
          (.ofStore Example.filled) = (.ok Example.mixedOutcomes, after) ∧
        Example.mixedOutcomes.length = (entries Example.reviewed Example.feed Example.mixed).length ∧
        (∃ plan s₁, (planBatch Example.reviewed default Example.feed Example.mixed).exec
              (.ofStore Example.filled) = (.ok plan, s₁) ∧
            Answers plan.groups 1 ⟨1, some Example.orders.name, ⟨none, none, [], default, .empty⟩⟩
              ⟨1, some Example.orders.name, none, .dropped .invalid⟩) ∧
        after.trace.metrics.count ⟨.parked, [("queue", "review"), ("table_name", "orders")]⟩ = 1 := by
  obtain ⟨after, hrun⟩ := Example.processArranged_mixed
  obtain ⟨config, plan, s₁, hsource, hplan, hlength, hanswers, hgrew⟩ :=
    every_entry_has_one_outcome Example.reviewed default "orders" Example.backwards Example.mixed hrun
  cases hsource
  exact ⟨after, hrun, hlength, ⟨plan, s₁, hplan, hanswers 1 _ _ rfl rfl⟩, hgrew.parked "review" "orders"⟩

end Tributary
