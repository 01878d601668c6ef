import Tributary.Proofs.Apply.Numbering
import Tributary.Proofs.Apply.Panics
import Tributary.Proofs.Apply.Renumbering
import Tributary.Proofs.Store.Versions

/-!
# A batch as a sequence of batches of one mutation

A batch is routed, prepared and grouped as a whole, and the groups of its rows are applied in any order.
Nothing of this can be told from the result: if the batch succeeds, so it does in every other order of its
groups, and so do its mutations if they are sent one by one, each as a batch of its own. All ways leave the
same rows and expressions, give the same outcomes, and park the same dead letters; what they may differ in
is the order of the letters, what they report of panics, and the versions of rows.

* `processArranged`: a batch whose groups are applied in a given arrangement; `processBatch` takes them as
  they were found.
* `processSingly`: the mutations of a batch, each as a batch of its own.
* `applyFrom_agrees_singly`: the induction over the batch.
* `processArranged_matches`: whatever functions report of their panics, the outcomes are the same.
* `batch_in_any_order_is_its_mutations_one_by_one`: the statement above.
-/

namespace Tributary

open Run

/-! ## Arrangements -/

/-- An order in which to apply groups. -/
structure Arrangement where
  arrange : List (List Prepared) → List (List Prepared)
  perm : ∀ groups, (arrange groups).Perm groups

/-- Whatever the order of groups, the prepared mutations are all there. -/
theorem Arrangement.flatten_perm (arrangement : Arrangement) (ps : List Prepared) :
    (arrangement.arrange (groupRows ps)).flatten.Perm ps :=
  ((arrangement.perm (groupRows ps)).flatten).trans (flatten_groupRows_perm ps)

/-- Groups in the order in which they were found. -/
def Arrangement.asFound : Arrangement := ⟨id, fun groups => .refl groups⟩

section

variable {σ : Type} [TargetStore σ]

/-- Processes a batch with the groups of its rows in an arrangement. -/
def processArranged (registry : Registry) (clock : Clock) (source : String) (arrangement : Arrangement)
    (batch : List Mutation) : Run σ (List Outcome) := do
  let config ← registry.source source
  let plan ← planBatch registry clock config batch
  let applied ← applyGroups registry config.name (arrangement.arrange plan.groups)
  return inOrder (plan.settled ++ applied)

theorem processBatch_eq_processArranged (registry : Registry) (clock : Clock) (source : String)
    (batch : List Mutation) : (processBatch registry clock source batch : Run σ _) =
      processArranged registry clock source .asFound batch := rfl

/-- A batch that succeeds is planned, and then the mutations of its groups are applied one by one. -/
theorem processArranged_run {registry : Registry} {clock : Clock} {source : String}
    {arrangement : Arrangement} {batch : List Mutation} {s s' : Session σ} {outcomes : List Outcome}
    (hrun : (processArranged registry clock source arrangement batch).exec s = (.ok outcomes, s')) :
    ∃ config plan s₁ applied, registry.source source = .ok config ∧
      (planFrom registry clock config 0 0 batch).exec s = (.ok plan, s₁) ∧
      (applyGroup registry config.name (arrangement.arrange (groupRows plan.2)).flatten).exec s₁ =
        (.ok applied, s') ∧
      outcomes = inOrder (plan.1 ++ applied) := by
  obtain ⟨config, s₀, hconfig, hplanned⟩ := exec_bind_ok hrun
  rw [exec_liftM] at hconfig
  obtain ⟨hsource, rfl⟩ := Prod.mk.inj hconfig
  obtain ⟨plan, s₁, hplan, happly⟩ := exec_bind_ok hplanned
  rw [planBatch_eq] at hplan
  obtain ⟨found, s₂, hfound, hgrouped⟩ := exec_bind_ok hplan
  cases hgrouped
  obtain ⟨applied, s₃, happlied, hdone⟩ := exec_bind_ok happly
  cases hdone
  rw [applyGroups_eq_flatten] at happlied
  exact ⟨config, found, s₁, applied, hsource, hfound, happlied, rfl⟩

theorem processArranged_exec {registry : Registry} {clock : Clock} {source : String}
    (arrangement : Arrangement) {batch : List Mutation} {config : SourceConfig}
    {plan : Numbered × List Prepared} {applied : Numbered} {s s₁ s' : Session σ}
    (hsource : registry.source source = .ok config)
    (hplan : (planFrom registry clock config 0 0 batch).exec s = (.ok plan, s₁))
    (happlied : (applyGroup registry config.name (arrangement.arrange (groupRows plan.2)).flatten).exec s₁ =
      (.ok applied, s')) :
    (processArranged registry clock source arrangement batch).exec s =
      (.ok (inOrder (plan.1 ++ applied)), s') := by
  have hconfig : (liftM (registry.source source) : Run σ _).exec s = (.ok config, s) := by
    rw [exec_liftM, hsource]
  rw [← applyGroups_eq_flatten] at happlied
  rw [processArranged, exec_bind_of_ok hconfig, exec_bind_of_ok (planBatch_exec hplan),
    exec_bind_of_ok happlied]
  rfl

/-- Processes each mutation as a batch of its own, for which there is a registry of its own. The outcomes have the
positions of the mutations in the whole batch, in which the first of them stands at the given position. -/
def processSingly (alone : Nat → Registry) (clock : Clock) (source : String) :
    (index : Nat) → List Mutation → Run σ (List Outcome)
  | _, [] => return []
  | index, m :: rest => do
    let first ← processBatch (alone index) clock source [m]
    let others ← processSingly alone clock source (index + 1) rest
    return first.map (Outcome.shift index) ++ others

end

variable {registry : Registry} {clock : Clock} {source : String} {config : SourceConfig}

/-! ## Groups in any order -/

/-- All stages, with the groups of rows in an arrangement. -/
def applyArranged (registry : Registry) (clock : Clock) (config : SourceConfig)
    (arrangement : Arrangement) (batch : List Mutation) : Run MemoryStore Numbered := do
  let plan ← planFrom registry clock config 0 0 batch
  let applied ← applyGroups registry config.name (arrangement.arrange (groupRows plan.2))
  return plan.1 ++ applied

theorem processArranged_eq (hconfig : registry.source source = .ok config) (arrangement : Arrangement)
    (batch : List Mutation) :
    (processArranged registry clock source arrangement batch : Run MemoryStore _) =
      inOrder <$> applyArranged registry clock config arrangement batch := by
  have hlift : (liftM (Except.ok config : Result SourceConfig) : Run MemoryStore _) = pure config := rfl
  unfold processArranged applyArranged
  rw [hconfig, hlift, pure_bind, planBatch_eq]
  simp only [bind_assoc, map_bind, map_pure, pure_bind]

/-- No two outcomes have one number. -/
def Distinct (outcomes : Numbered) : Prop := (outcomes.map Prod.fst).Nodup

theorem applyFrom_distinct (number index : Nat) (batch : List Mutation) :
    Ensures Distinct (applyFrom registry clock config number index batch) :=
  (applyFrom_ensures ..).mono fun _ h => h.nodup_iff.2 List.nodup_range'

theorem applyArranged_refines (arrangement : Arrangement) (batch : List Mutation) :
    Refines List.Perm (applyArranged registry clock config arrangement batch)
      (applyFrom registry clock config 0 0 batch) := by
  refine (planFrom_local ..).refines_bind fun plan => ?_
  exact (applyGroups_refines (arrangement.perm _)).bind fun a b hab => .pure (hab.append_left _)

theorem applyFrom_refines_arranged (arrangement : Arrangement) (batch : List Mutation) :
    Refines List.Perm (applyFrom registry clock config 0 0 batch)
      (applyArranged registry clock config arrangement batch) := by
  refine (planFrom_local ..).refines_bind fun plan => ?_
  exact (applyGroup_refines_groups (arrangement.perm _)).bind fun a b hab => .pure (hab.append_left _)

/-- Outcomes that were found in another order are the same in the order of their numbers. -/
theorem inOrder_refines {x y : Run MemoryStore Numbered} (hxy : Refines List.Perm x y)
    (hx : Ensures Distinct x) : Refines Eq (inOrder <$> x) (inOrder <$> y) :=
  hxy.map_of_ensures hx fun _ _ => inOrder_of_perm

theorem processArranged_refines (hconfig : registry.source source = .ok config)
    (arrangement : Arrangement) (batch : List Mutation) :
    Refines Eq (processArranged registry clock source arrangement batch)
      (inOrder <$> applyFrom registry clock config 0 0 batch) := by
  have hrefines : Refines List.Perm (applyArranged registry clock config arrangement batch)
      (applyFrom registry clock config 0 0 batch) := applyArranged_refines arrangement batch
  rw [processArranged_eq hconfig]
  refine inOrder_refines hrefines (hrefines.ensures (applyFrom_distinct ..) ?_)
  exact fun a b hab hb => (hab.map Prod.fst).nodup_iff.2 hb

theorem refines_processArranged (hconfig : registry.source source = .ok config)
    (arrangement : Arrangement) (batch : List Mutation) :
    Refines Eq (inOrder <$> applyFrom registry clock config 0 0 batch)
      (processArranged registry clock source arrangement batch) := by
  rw [processArranged_eq hconfig]
  exact inOrder_refines (applyFrom_refines_arranged arrangement batch) (applyFrom_distinct ..)

theorem agrees_processArranged (hconfig : registry.source source = .ok config)
    (arrangement : Arrangement) (batch : List Mutation) :
    Agrees Eq (inOrder <$> applyFrom registry clock config 0 0 batch)
      (processArranged registry clock source arrangement batch) :=
  ⟨refines_processArranged hconfig arrangement batch,
    (processArranged_refines hconfig arrangement batch).mono fun _ _ => Eq.symm⟩

/-! ## Mutations one by one -/

theorem applyFrom_local (number index : Nat) (batch : List Mutation) :
    Local Set.univ (applyFrom registry clock config number index batch) := by
  refine (planFrom_local ..).anywhere.bind fun plan => ?_
  exact ((applyGroup_local ..).mono (Set.subset_univ _)).bind fun _ => .pure _

theorem inOrder_shift (d : Shift) (outcomes : Numbered) :
    inOrder (outcomes.map d.outcome) = (inOrder outcomes).map (Outcome.shift d.positions) := by
  have hsort : (outcomes.mergeSort fun a b => a.1 ≤ b.1).map d.outcome =
      (outcomes.map d.outcome).mergeSort fun a b => a.1 ≤ b.1 := by
    refine List.map_mergeSort fun a _ b _ => ?_
    simp [Shift.outcome]
  rw [inOrder, ← hsort, inOrder, List.map_map, List.map_map]
  rfl

/-- A mutation at any place of a batch has the outcomes that it has alone, at its own position. -/
theorem applyFrom_singleton_agrees (hconfig : registry.source source = .ok config)
    (now : Instant) (number index : Nat) (m : Mutation) :
    Agrees (fun placed alone => placed = alone.map (Outcome.shift index))
      (inOrder <$> applyFrom registry now config number index [m])
      (processBatch registry now source [m]) := by
  have hshift : applyFrom registry now config (0 + number) (0 + index) [m] =
      List.map (Shift.outcome ⟨number, index⟩) <$> applyFrom registry now config 0 0 [m] :=
    applyFrom_shift ⟨number, index⟩ 0 0 [m]
  have hcomp : (inOrder ∘ List.map (Shift.outcome ⟨number, index⟩)) =
      List.map (Outcome.shift index) ∘ inOrder := funext fun outcomes => inOrder_shift _ outcomes
  rw [Nat.zero_add, Nat.zero_add] at hshift
  rw [hshift, ← comp_map, hcomp, comp_map]
  exact (agrees_processArranged hconfig .asFound [m]).map_left fun a b hab => congrArg _ hab

theorem batchOutcomes_singleton (m : Mutation) :
    batchOutcomes registry config [m] = m.outcomes registry config := by
  simp [batchOutcomes]

/-- The outcomes of the first mutation come before those of the others. -/
theorem applyFrom_cons_inOrder_agrees (number index : Nat) (m : Mutation) (rest : List Mutation) :
    Agrees Eq (inOrder <$> applyFrom registry clock config number index (m :: rest))
      (do let first ← inOrder <$> applyFrom registry clock config number index [m]
          let others ← inOrder <$> applyFrom registry clock config
            (number + m.outcomes registry config) (index + 1) rest
          return first ++ others) := by
  have hsort : Agrees (fun found sorted => Distinct found ∧ inOrder found = sorted)
      (do let first ← applyFrom registry clock config number index [m]
          let others ← applyFrom registry clock config (number + m.outcomes registry config) (index + 1) rest
          return first ++ others)
      (do let first ← inOrder <$> applyFrom registry clock config number index [m]
          let others ← inOrder <$> applyFrom registry clock config
            (number + m.outcomes registry config) (index + 1) rest
          return first ++ others) := by
    simp only [bind_map_left]
    refine (applyFrom_local ..).agrees.bind_of_ensures (applyFrom_ensures ..) ?_
    rintro first _ rfl hfirst
    refine (applyFrom_local ..).agrees.bind_of_ensures (applyFrom_ensures ..) ?_
    rintro others _ rfl hothers
    rw [batchOutcomes_singleton] at hfirst
    have hnumbers := hfirst.append hothers
    rw [← List.map_append, List.range'_append_1] at hnumbers
    have hdistinct : Distinct (first ++ others) := hnumbers.nodup_iff.2 List.nodup_range'
    refine .pure ⟨hdistinct, inOrder_append hdistinct fun a ha b hb => ?_⟩
    have hbelow := hfirst.mem_iff.1 (List.mem_map_of_mem ha)
    have habove := hothers.mem_iff.1 (List.mem_map_of_mem hb)
    rw [List.mem_range'_1] at hbelow habove
    omega
  have hfound := (applyFrom_cons_agrees registry clock config number index m rest).trans hsort
    (U := fun found sorted => inOrder found = sorted) fun found appended sorted hperm hsorted => by
      have hdistinct := (hperm.map Prod.fst).nodup_iff.2 hsorted.1
      rw [inOrder_of_perm hperm hdistinct, hsorted.2]
  exact hfound.map_left fun _ _ h => h

/-- A batch does what its mutations do one by one. -/
theorem applyFrom_agrees_singly (hconfig : registry.source source = .ok config) (now : Instant)
    (number index : Nat) (batch : List Mutation) :
    Agrees Eq (inOrder <$> applyFrom registry now config number index batch)
      (processSingly (fun _ => registry) now source index batch) := by
  induction batch generalizing number index with
  | nil =>
    have hnil : inOrder <$> applyFrom registry now config number index [] = pure [] := by
      simp [applyFrom, planFrom, settleFrom, ready, routeAll, settleRouted, prepareAll, settlePrepared,
        applyGroup, inOrder]
    rw [hnil]
    exact .pure rfl
  | cons m rest ih =>
    -- the first mutation goes first; it then is a batch of its own, up to its number and its position
    refine (applyFrom_cons_inOrder_agrees number index m rest).eq_trans ?_
    refine (applyFrom_singleton_agrees hconfig now number index m).bind fun first alone hfirst => ?_
    refine (ih _ (index + 1)).bind fun others others' hothers => .pure ?_
    rw [hfirst, hothers]

theorem applyFrom_refines_singly (hconfig : registry.source source = .ok config) (now : Instant)
    (number index : Nat) (batch : List Mutation) :
    Refines Eq (inOrder <$> applyFrom registry now config number index batch)
      (processSingly (fun _ => registry) now source index batch) :=
  (applyFrom_agrees_singly hconfig now number index batch).forth

/-! ## Whole batches -/

theorem processArranged_local (arrangement : Arrangement) (batch : List Mutation) :
    Local Set.univ (processArranged registry clock source arrangement batch : Run MemoryStore _) := by
  refine (Local.liftM _).bind fun config => Local.bind ?_ fun plan => Local.bind ?_ fun _ => .pure _
  · rw [planBatch_eq]
    exact (planFrom_local ..).anywhere.bind fun _ => .pure _
  · rw [applyGroups_eq_flatten]
    exact (applyGroup_local ..).mono (Set.subset_univ _)

theorem processSingly_local (alone : Nat → Registry) (index : Nat) (batch : List Mutation) :
    Local Set.univ (processSingly alone clock source index batch : Run MemoryStore _) := by
  induction batch generalizing index with
  | nil => exact .pure _
  | cons m rest ih => exact (processArranged_local .asFound [m]).bind fun _ => (ih _).bind fun _ => .pure _

theorem source_of_exec_ok {arrangement : Arrangement} {batch : List Mutation} {s : Session MemoryStore}
    {outcomes : List Outcome}
    (hrun : ((processArranged registry clock source arrangement batch).exec s).1 = .ok outcomes) :
    ∃ config, registry.source source = .ok config := by
  cases hsource : registry.source source with
  | ok config => exact ⟨config, rfl⟩
  | error fault =>
    unfold processArranged at hrun
    rw [exec_bind, exec_liftM, hsource] at hrun
    cases hrun

/-! ## Reports of panics -/

section

variable {R : String → String → Prop} {registry' : Registry}

/-- Batches whose functions come to different reports of panics have the same outcomes. -/
theorem processArranged_matches (h : registry.Matches R registry') (arrangement : Arrangement)
    (batch : List Mutation) :
    Run.Matches R Eq (processArranged registry clock source arrangement batch)
      (processArranged registry' clock source arrangement batch) := by
  refine (Run.Matches.liftM (h.source source)).bind fun config config' hconfig => ?_
  rw [← hconfig.name]
  refine (planBatch_matches h hconfig clock batch).bind_eq fun plan => ?_
  exact (applyGroups_matches h config.name _).bind_eq fun applied => .pure rfl

theorem processSingly_matches {alone : Nat → Registry} (h : ∀ index, registry.Matches R (alone index)) (index : Nat)
    (batch : List Mutation) :
    Run.Matches R Eq (processSingly (fun _ => registry) clock source index batch)
      (processSingly alone clock source index batch) := by
  induction batch generalizing index with
  | nil => exact .pure rfl
  | cons m rest ih =>
    exact (processArranged_matches (h index) .asFound [m]).bind_eq fun first =>
      (ih (index + 1)).bind_eq fun others => .pure rfl

/-- Where letters are only added, those that are added match. -/
theorem added_of_matches {s t t' : Session MemoryStore} {letters letters' : List DeadLetter}
    (h : List.Forall₂ (DeadLetter.Matches R) t.store.letters t'.store.letters)
    (hletters : t.store.letters = s.store.letters ++ letters)
    (hletters' : t'.store.letters = s.store.letters ++ letters') :
    List.Forall₂ (DeadLetter.Matches R) letters letters' := by
  rw [hletters, hletters'] at h
  have hdropped := List.forall₂_drop_append _ _ _ h
  rwa [List.drop_left] at hdropped

end

/-! ## The whole statement -/

/-- If a batch succeeds with the groups of its rows in some order, it succeeds with them in every other
order, and its mutations succeed one by one. The outcomes are the same, each at the position of its
mutation in the batch; all rows and expressions are the same; and so are the new dead letters, up to their
order and to what is reported of panics, which may be something else in the other order and in each of the
batches of one mutation. -/
theorem batch_in_any_order_is_its_mutations_one_by_one {R : String → String → Prop} {registry registry' : Registry}
    (hreports : registry.Matches R registry') {alone : Nat → Registry}
    (halone : ∀ index, registry'.Matches R (alone index)) (now : Instant)
    (source : String) (batch : List Mutation) (s : Session MemoryStore) (first other : Arrangement)
    {outcomes : List Outcome}
    (hrun : ((processArranged registry now source first batch).exec s).1 = .ok outcomes) :
    let together := (processArranged registry' now source other batch).exec s
    let apart := (processSingly alone now source 0 batch).exec s
    together.1 = .ok outcomes ∧ apart.1 = .ok outcomes ∧
      (∀ id, together.2.store.row? id = apart.2.store.row? id ∧
        together.2.store.rowExprs id = apart.2.store.rowExprs id) ∧
      ∃ letters matched letters', together.2.store.letters = s.store.letters ++ letters ∧
        apart.2.store.letters = s.store.letters ++ letters' ∧ letters.Perm matched ∧
        List.Forall₂ (DeadLetter.Matches R) matched letters' := by
  intro together apart
  have hrun' := ((processArranged_matches hreports first batch).observations hrun).1
  obtain ⟨config, hconfig⟩ := source_of_exec_ok hrun'
  have hother : Refines Eq (processArranged registry' now source first batch)
      (processArranged registry' now source other batch) :=
    (processArranged_refines hconfig first batch).eq_trans
      (refines_processArranged hconfig other batch)
  have hsingly : Refines Eq (processArranged registry' now source other batch)
      (processSingly (fun _ => registry') now source 0 batch) :=
    (processArranged_refines hconfig other batch).eq_trans
      (applyFrom_refines_singly hconfig now 0 0 batch)
  have htogether := (hother.observations (processArranged_local first batch)
    (processArranged_local other batch) hrun').1
  obtain ⟨hone, hrows, letters, matched, hletters, hmatched, hperm⟩ :=
    hsingly.observations (processArranged_local other batch) (processSingly_local _ 0 batch) htogether
  -- one by one, the reports are those of the registries of the mutations
  obtain ⟨hapart, hrows', hall⟩ := (processSingly_matches halone 0 batch).observations hone
  obtain ⟨letters', hfollows⟩ := (processSingly_local alone 0 batch).follows s
  refine ⟨htogether, hapart, fun id => ?_, letters, matched, letters', hletters, hfollows.letters, hperm,
    added_of_matches hall hmatched hfollows.letters⟩
  exact ⟨(hrows id).1.trans (hrows' id).1, (hrows id).2.trans (hrows' id).2⟩

namespace Example

/-- The source of the example table. -/
def feed : SourceConfig := ⟨"orders", .target orders.name, false⟩

/-- A registry in which conflicts of the table are parked for review. -/
def reviewed : Registry :=
  let review : MergeFunction := fun _ => ⟨0, .value (Document.ofList [("dlq", .string "review")]).toValue⟩
  ⟨.default, Keyed.empty.put "orders" feed,
    Keyed.empty.put orders.name { TableConfig.plain with cas := ["paid"], merge := some (.custom review) }⟩

/-- What is reported of a panic. -/
def report (task : Nat) : String := s!"task {task} panicked"

/-- Reports of panics, each from a task of its own. -/
def Reports (a b : String) : Prop := ∃ task other, a = report task ∧ b = report other

/-- A registry in which the merge of conflicts of the table panics. -/
def panicking (task : Nat) : Registry :=
  ⟨.default, Keyed.empty.put "orders" feed, Keyed.empty.put orders.name
    { TableConfig.plain with cas := ["paid"], merge := some (.custom fun _ => ⟨0, .panic (report task)⟩) }⟩

theorem panicking_matches (task other : Nat) : (panicking task).Matches Reports (panicking other) where
  options := rfl
  sources name := by
    simp only [panicking, Keyed.get?_put, Keyed.get?_empty]
    split
    · exact .some ⟨rfl, .target _, rfl⟩
    · exact .none
  tables name := by
    simp only [panicking, Keyed.get?_put, Keyed.get?_empty]
    split
    · exact .some ⟨rfl, .none, .some (.custom fun _ => ⟨rfl, .panic ⟨task, other, rfl, rfl⟩⟩)⟩
    · exact .none

/-- A change of one of two rows. -/
def change (paid second : Bool) : Mutation :=
  ⟨none, some (content paid), [.bool second], default, .empty⟩

/-- Two changes of either row, of which the second is in conflict with the first. -/
def changes : List Mutation :=
  [change true true, change true false, change false true, change false false]

/-- Groups in the opposite order. -/
def backwards : Arrangement := ⟨List.reverse, List.reverse_perm⟩

/-- The outcome of one of the changes. -/
def outcome (index : Nat) (second : Bool) (disposition : Disposition) : Outcome :=
  ⟨index, some orders.name, some ⟨[.bool second]⟩, disposition⟩

/-- The outcomes of the changes where the merge of conflicts panics. -/
def outcomes : List Outcome :=
  [outcome 0 true .applied, outcome 1 false .applied, outcome 2 true (.parked "dlq"),
   outcome 3 false (.parked "dlq")]

set_option maxRecDepth 4000 in
/-- Row by row, the outcomes are found in another order. -/
theorem applyArranged_changes :
    ((applyArranged (panicking 0) (default : Instant) feed .asFound changes).exec (.ofStore filled)).1 =
      .ok [(0, outcome 0 true .applied), (2, outcome 2 true (.parked "dlq")),
        (1, outcome 1 false .applied), (3, outcome 3 false (.parked "dlq"))] := rfl

theorem processArranged_changes :
    ((processArranged (panicking 0) (default : Instant) "orders" .asFound changes).exec (.ofStore filled)).1 =
      .ok outcomes := by
  have hsource : (panicking 0).source "orders" = .ok feed := rfl
  rw [processArranged_eq hsource, exec_map, applyArranged_changes]
  refine congrArg Except.ok (inOrder_of_sorted (List.Perm.cons _ (List.Perm.swap _ _ _)) ?_ ?_)
  · decide
  · simp

end Example

/-- Changes of two rows, whose merges panic, leave the same rows with the groups of the rows backwards and one by one.
The merges run in other tasks each time, and the letters are the same but for the tasks. -/
theorem changes_of_two_rows_one_by_one :
    let s : Session MemoryStore := .ofStore Example.filled
    let together := (processArranged (Example.panicking 1) (default : Instant) "orders" Example.backwards
      Example.changes).exec s
    let apart := (processSingly (fun index => Example.panicking (index + 2)) (default : Instant) "orders" 0
      Example.changes).exec s
    together.1 = .ok Example.outcomes ∧ apart.1 = .ok Example.outcomes ∧
      (∀ id, together.2.store.row? id = apart.2.store.row? id) ∧
      ∃ matched, together.2.store.letters.Perm matched ∧
        List.Forall₂ (DeadLetter.Matches Example.Reports) matched apart.2.store.letters := by
  intro s
  obtain ⟨htogether, hapart, hrows, letters, matched, letters', hletters, hletters', hperm, hmatched⟩ :=
    batch_in_any_order_is_its_mutations_one_by_one (Example.panicking_matches 0 1)
      (fun index => Example.panicking_matches 1 (index + 2)) default "orders" Example.changes s .asFound
      Example.backwards Example.processArranged_changes
  have hnone : s.store.letters = [] := rfl
  rw [hnone, List.nil_append] at hletters hletters'
  dsimp only
  rw [hletters, hletters']
  exact ⟨htogether, hapart, fun id => (hrows id).1, matched, hperm, hmatched⟩

end Tributary
