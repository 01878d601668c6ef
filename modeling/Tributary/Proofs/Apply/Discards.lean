import Tributary.Proofs.Apply.Accounting
import Tributary.Proofs.Apply.MergeRecord
import Tributary.Proofs.Apply.Stopped

/-!
# Entries that are dropped before rows are touched

Routing and preparation drop an entry if a function discards it, if a deadline has passed, or if it fails with a fault
for which mutations are dropped. Such an entry has the outcome that says so.

* `labels_of_run`: the outcomes of a batch have the positions and tables of its entries.
* `RoutedSource.discard?`, `PreparedSource.discard?`, `Entry.discard?`: why an entry is dropped, if it is.
* `outcome_of_unrouted`, `outcome_of_discard`: the outcome of such an entry.
-/

namespace Tributary

open Run

/-! ## Outcomes and entries -/

section

variable {σ : Type} [TargetStore σ] {registry : Registry} {clock : Clock} {name : String} {config : SourceConfig}
  {arrangement : Arrangement} {batch : List Mutation} {s s' : Session σ} {outcomes : List Outcome}

/-- The parts of a run that succeeds. -/
theorem parts_of_run (hsource : registry.source name = .ok config)
    (hrun : (processArranged registry clock name arrangement batch).exec s = (.ok outcomes, s')) :
    ∃ plan s₁ applied, (planFrom registry clock config 0 0 batch).exec s = (.ok plan, s₁) ∧
      outcomes = inOrder (plan.1 ++ applied) ∧
      ((plan.1 ++ applied).map Prod.fst).Perm (List.range (entries registry config batch).length) ∧
      ∀ number o, (number, o) ∈ plan.1 ++ applied → ∃ entry, (entries registry config batch)[number]? = some entry ∧
        o.index = entry.index ∧ o.table = entry.table := by
  obtain ⟨config', plan, s₁, applied, hconfig, hplan, happlied, rfl⟩ := processArranged_run hrun
  cases hsource.symm.trans hconfig
  have haccounted := (planFrom_accounted 0 0 batch).result s plan s₁ hplan
  have hlabels := (applyGroup_labels _).result s₁ applied s' happlied
  have hflat := arrangement.flatten_perm plan.2
  refine ⟨plan, s₁, applied, hplan, rfl, numbers_perm haccounted hlabels hflat, fun number o ho => ?_⟩
  obtain ⟨entry, hentry, hanswers⟩ :=
    answers_of_mem haccounted hlabels hflat (flatten_groupRows_perm plan.2) ho
  exact ⟨entry, hentry, hanswers.index, hanswers.table⟩

/-- The outcomes of a batch have the positions and the tables of its entries, in their order. -/
theorem labels_of_run (hsource : registry.source name = .ok config)
    (hrun : (processArranged registry clock name arrangement batch).exec s = (.ok outcomes, s')) :
    (outcomes.map fun o => (o.index, o.table)) =
      (entries registry config batch).map fun e => (e.index, e.table) := by
  obtain ⟨plan, s₁, applied, -, rfl, hnumbers, hentries⟩ := parts_of_run hsource hrun
  have hlength : (inOrder (plan.1 ++ applied)).length = (entries registry config batch).length := by
    have hall := hnumbers.length_eq
    rw [List.length_map, List.length_range] at hall
    rw [inOrder, List.length_map, List.length_mergeSort, hall]
  refine List.ext_getElem? fun number => ?_
  rw [List.getElem?_map, List.getElem?_map]
  cases ho : (inOrder (plan.1 ++ applied))[number]? with
  | none =>
    rw [List.getElem?_eq_none_iff, hlength] at ho
    rw [List.getElem?_eq_none_iff.2 ho]
    rfl
  | some o =>
    obtain ⟨entry, hentry, hindex, htable⟩ := hentries number o ((getElem?_inOrder hnumbers number o).1 ho)
    rw [hentry, Option.map_some, Option.map_some, hindex, htable]

end

/-- What routing makes of a mutation at its position in a batch. -/
def routedAt (registry : Registry) (config : SourceConfig) (index : Nat) (m : Mutation) : RoutedSource :=
  ⟨index, m, (route config registry.options.functionTimeout registry.options.maxDepth m).attempt.value⟩

theorem entries_split (registry : Registry) (config : SourceConfig) (front : List Mutation) (m : Mutation)
    (back : List Mutation) :
    entries registry config (front ++ m :: back) = entries registry config front ++
      ((routedAt registry config front.length m).entries ++
        (routedFrom config registry.options (front.length + 1) back).flatMap RoutedSource.entries) := by
  unfold entries routedFrom
  rw [List.zipIdx_append, List.map_append, List.flatMap_append, List.zipIdx_cons, List.map_cons, List.flatMap_cons,
    Nat.zero_add]
  rfl

/-- The entries at a position of a batch are those of the mutation at that position. -/
theorem entries_at (registry : Registry) (config : SourceConfig) (front : List Mutation) (m : Mutation)
    (back : List Mutation) :
    ((entries registry config (front ++ m :: back)).filter fun e => e.index = front.length) =
      (routedAt registry config front.length m).entries := by
  have hothers (first : Nat) (batch : List Mutation)
      (h : ∀ i, first ≤ i → i < first + batch.length → i ≠ front.length) :
      ((routedFrom config registry.options first batch).flatMap RoutedSource.entries).filter
        (fun e => e.index = front.length) = [] := by
    refine List.filter_eq_nil_iff.2 fun e he => ?_
    obtain ⟨r, hr, he⟩ := List.mem_flatMap.1 he
    obtain ⟨x, hx, rfl⟩ := List.mem_map.1 hr
    obtain ⟨hleast, hmost, -⟩ := List.mem_zipIdx hx
    simpa [RoutedSource.index_of_mem_entries he] using h x.2 hleast hmost
  have hown : (routedAt registry config front.length m).entries.filter (fun e => e.index = front.length) =
      (routedAt registry config front.length m).entries :=
    List.filter_eq_self.2 fun e he => decide_eq_true (RoutedSource.index_of_mem_entries he)
  have hfront : (entries registry config front).filter (fun e => e.index = front.length) = [] :=
    hothers 0 front fun i _ hi => by omega
  have hback := hothers (front.length + 1) back fun i hi _ => by omega
  rw [entries_split, List.filter_append, List.filter_append, hfront, hown, hback, List.nil_append, List.append_nil]

/-! ## Drops -/

/-- Why a mutation that failed is dropped, if it is. -/
def Fault.discard? (fault : Fault) : Option DropReason :=
  match fault.action with
  | .drop => some .invalid
  | .park | .stop => none

/-- Why routing drops a source mutation, if it does. -/
def RoutedSource.discard? (r : RoutedSource) : Option DropReason :=
  match r.result with
  | .error fault => fault.discard?
  | .ok [] => some .discarded
  | .ok (_ :: _) => none

/-- Why routing drops the source mutation of an entry, if it does. -/
def Entry.unrouted? (registry : Registry) (config : SourceConfig) (e : Entry) : Option DropReason :=
  (routedAt registry config e.index e.mutation).discard?

/-- Why preparation drops a mutation, if it does. -/
def PreparedSource.discard? (x : PreparedSource) : Option DropReason :=
  match x.result with
  | .error fault => fault.discard?
  | .ok (.dropped reason) => some reason
  | .ok (.ready _) => none

/-- The outcome of an entry that is dropped before rows are touched. -/
def Entry.dropped (e : Entry) (reason : DropReason) : Outcome := ⟨e.index, e.table, none, .dropped reason⟩

/-- Every entry waits for the next stage, or is settled as dropped if there is a reason for it. -/
def Discarded (why : Entry × Nat → Option DropReason) (given : List (Entry × Nat)) (settled : Numbered)
    (waiting : List Placed) : Prop :=
  ∀ x ∈ given, (∃ p ∈ waiting, p.entry = x) ∨ ∀ reason, why x = some reason → (x.2, x.1.dropped reason) ∈ settled

namespace Discarded

variable {why : Entry × Nat → Option DropReason} {given others : List (Entry × Nat)} {settled more : Numbered}
  {waiting rest : List Placed}

theorem nil : Discarded why [] [] [] := fun _ h => absurd h List.not_mem_nil

theorem append (h : Discarded why given settled waiting) (h' : Discarded why others more rest) :
    Discarded why (given ++ others) (settled ++ more) (waiting ++ rest) := by
  intro x hx
  rcases List.mem_append.1 hx with hx | hx
  · rcases h x hx with ⟨p, hp, hentry⟩ | hsettled
    · exact .inl ⟨p, List.mem_append_left rest hp, hentry⟩
    · exact .inr fun reason hreason => List.mem_append_left more (hsettled reason hreason)
  · rcases h' x hx with ⟨p, hp, hentry⟩ | hsettled
    · exact .inl ⟨p, List.mem_append_right waiting hp, hentry⟩
    · exact .inr fun reason hreason => List.mem_append_right settled (hsettled reason hreason)

/-- What waits after one stage is what the next stage is given. -/
theorem trans (h : Discarded why given settled waiting) (h' : Discarded why (waiting.map Placed.entry) more rest) :
    Discarded why given (settled ++ more) rest := by
  intro x hx
  rcases h x hx with ⟨p, hp, rfl⟩ | hsettled
  · rcases h' p.entry (List.mem_map_of_mem hp) with hwaits | hsettled
    · exact .inl hwaits
    · exact .inr fun reason hreason => List.mem_append_right settled (hsettled reason hreason)
  · exact .inr fun reason hreason => List.mem_append_left more (hsettled reason hreason)

theorem wait (p : Placed) : Discarded why [p.entry] [] [p] :=
  fun _ hx => .inl ⟨p, List.mem_singleton_self p, (List.mem_singleton.1 hx).symm⟩

theorem settle {x : Entry × Nat} {o : Outcome} (h : ∀ reason, why x = some reason → o = x.1.dropped reason) :
    Discarded why [x] [(x.2, o)] [] := by
  intro y hy
  cases List.mem_singleton.1 hy
  refine .inr fun reason hreason => ?_
  rw [h reason hreason]
  exact List.mem_singleton_self _

end Discarded

section

variable {σ : Type} [TargetStore σ] {options : Options} {name : String}

/-- An entry that fails with a fault for which mutations are dropped is dropped. -/
theorem Entry.fail_dropped (e : Entry) (fault : Fault) :
    Ensures (fun o => ∀ reason, fault.discard? = some reason → o = e.dropped reason)
      (e.fail options name fault : Run σ _) := by
  unfold Entry.fail handleFailure Fault.discard?
  cases fault.action with
  | stop => exact (Ensures.true _).bind fun _ _ => (Ensures.true _).mono fun _ _ _ h => by cases h
  | park => exact (Ensures.true _).bind fun _ _ => (Ensures.true _).mono fun _ _ _ h => by cases h
  | drop =>
    rw [pure_bind]
    refine (report_ensures ..).mono fun o ho reason hreason => ?_
    cases hreason
    exact ho

theorem settleRouted_discards (why : Entry × Nat → Option DropReason) {routed : List RoutedSource}
    (h : ∀ r ∈ routed, ∀ number, why (r.alone, number) = r.discard?) (number : Nat) :
    Ensures (fun r => Discarded why ((routed.flatMap RoutedSource.entries).zipIdx number) r.1 r.2)
      (settleRouted options name number routed : Run σ _) := by
  have hpieces : Piecewise fun given settled waiting (_ : List Empty) => Discarded why given settled waiting :=
    ⟨.nil, .append⟩
  refine ensures_iff_adds.2 (settleRouted_adds hpieces (fun r hr fault number hresult => ?_)
    (fun r hr number hresult => ?_) (fun p => .wait p) number)
  · refine ensures_iff_adds.1 ((r.alone.fail_dropped fault).mono fun o ho => ?_)
    refine Discarded.settle (x := (r.alone, number)) fun reason hreason => ho reason ?_
    rw [h r hr, RoutedSource.discard?, hresult] at hreason
    exact hreason
  · refine ensures_iff_adds.1 ((report_ensures ..).mono fun o ho => ?_)
    refine Discarded.settle (x := (r.alone, number)) fun reason hreason => ?_
    rw [h r hr, RoutedSource.discard?, hresult] at hreason
    cases hreason
    exact ho

theorem settlePrepared_discards (why : Entry × Nat → Option DropReason) {prepared : List PreparedSource}
    (h : ∀ x ∈ prepared, why x.placed.entry = x.discard?) (hfaithful : ∀ x ∈ prepared, x.Faithful) :
    Ensures (fun r => Discarded why (prepared.map fun x => x.placed.entry) r.1 (r.2.map Prepared.placed))
      (settlePrepared options name prepared : Run σ _) := by
  have hpieces : Piecewise fun (given : List PreparedSource) settled (waiting : List Prepared) (_ : List Empty) =>
      Discarded why (given.map fun x => x.placed.entry) settled (waiting.map Prepared.placed) := by
    refine ⟨.nil, fun first second => ?_⟩
    simp only [List.map_append]
    exact first.append second
  refine ensures_iff_adds.2 (settlePrepared_adds hpieces (fun x hx fault hresult => ?_)
    (fun x hx reason hresult => ?_) fun x hx p hresult => ?_)
  · refine ensures_iff_adds.1 ((x.placed.entry.1.fail_dropped fault).mono fun o ho => ?_)
    refine Discarded.settle (x := x.placed.entry) fun reason hreason => ho reason ?_
    rw [h x hx, PreparedSource.discard?, hresult] at hreason
    exact hreason
  · refine ensures_iff_adds.1 ((report_ensures ..).mono fun o ho => ?_)
    refine Discarded.settle (x := x.placed.entry) fun reason' hreason => ?_
    rw [h x hx, PreparedSource.discard?, hresult] at hreason
    cases hreason
    exact ho
  · have hplaced : p.placed = x.placed := hfaithful x hx _ hresult p rfl
    show Discarded why [x.placed.entry] [] [p.placed]
    rw [hplaced]
    exact .wait x.placed

end

theorem unrouted?_alone {registry : Registry} {config : SourceConfig} {batch : List Mutation} {r : RoutedSource}
    (hr : r ∈ routedFrom config registry.options 0 batch) : r.alone.unrouted? registry config = r.discard? := by
  unfold Entry.unrouted? RoutedSource.discard?
  rw [routedFrom_result hr]
  rfl

/-- A source mutation that routing drops has the outcome that says so, whatever the store is. -/
theorem outcome_of_unrouted {σ : Type} [TargetStore σ] {registry : Registry} {clock : Clock} {name : String}
    {config : SourceConfig} {arrangement : Arrangement} {batch : List Mutation} {s s' : Session σ}
    {outcomes : List Outcome} (hsource : registry.source name = .ok config)
    (hrun : (processArranged registry clock name arrangement batch).exec s = (.ok outcomes, s')) {number : Nat}
    {e : Entry} (he : (entries registry config batch)[number]? = some e) (htable : e.table = none)
    {reason : DropReason} (hreason : e.unrouted? registry config = some reason) :
    outcomes[number]? = some (e.dropped reason) := by
  obtain ⟨plan, s₁, applied, hplan, rfl, hnumbers, -⟩ := parts_of_run hsource hrun
  rw [getElem?_inOrder hnumbers]
  obtain ⟨routed, s₂, hrouted, hrest⟩ := exec_bind_ok hplan
  obtain ⟨trace, hroute⟩ := routeAll_exec 0 batch s
  cases hroute.symm.trans hrouted
  obtain ⟨pending, s₃, hpending, hready⟩ := exec_bind_ok hrest
  obtain ⟨prepared, s₄, hprepared, hdone⟩ := exec_bind_ok hready
  cases hdone
  have hdiscards := (settleRouted_discards (fun x => x.1.unrouted? registry config)
    (fun r hr _ => unrouted?_alone hr) 0).result _ _ _ hpending
  rcases hdiscards (e, number) (List.mem_zipIdx_iff_getElem?.2 he) with ⟨p, -, hentry⟩ | hsettled
  · -- only entries with a table wait
    have htables := congrArg (fun x => x.1.table) hentry
    exact absurd (htables.trans htable) (Option.some_ne_none _)
  · exact List.mem_append_left _ (List.mem_append_left _ (hsettled reason hreason))

/-! ## Preparation -/

section

variable {registry : Registry} {clock : Clock} {name : String} {config : SourceConfig} {arrangement : Arrangement}
  {batch : List Mutation} {s s' : Session MemoryStore} {plan : Numbered × List Prepared} {outcomes : List Outcome}

/-- What preparation makes of a mutation in a session. -/
def preparedAt (registry : Registry) (clock : Clock) (s : Session MemoryStore) (placed : Placed) : PreparedSource :=
  ⟨placed, ((prepare registry clock placed).exec s).1⟩

/-- Why an entry of a batch that starts in a session is dropped before rows are touched, if it is. -/
def Entry.discard? (registry : Registry) (clock : Clock) (config : SourceConfig) (s : Session MemoryStore)
    (number : Nat) (e : Entry) : Option DropReason :=
  match e.table with
  | none => e.unrouted? registry config
  | some table => (preparedAt registry clock s ⟨number, e.index, ⟨table, e.mutation⟩⟩).discard?

theorem planFrom_discards (hplan : (planFrom registry clock config 0 0 batch).exec s = (.ok plan, s')) :
    Discarded (fun x => x.1.discard? registry clock config s x.2) (entries registry config batch).zipIdx plan.1
      (plan.2.map Prepared.placed) := by
  obtain ⟨trace, pending, s₂, prepared, hpending, hprepared, rfl⟩ := planFrom_run hplan
  have hfirst := (settleRouted_discards (fun x => x.1.discard? registry clock config s x.2)
    (fun r hr _ => unrouted?_alone hr) 0).result _ _ _ hpending
  have hfaithful : ∀ x ∈ pending.2.map (preparedAt registry clock s), x.Faithful := by
    intro x hx preparation hresult
    obtain ⟨p, -, rfl⟩ := List.mem_map.1 hx
    exact (prepare_ensures p).result s _ _ (exec_of_fst hresult)
  have hwhy : ∀ x ∈ pending.2.map (preparedAt registry clock s),
      x.placed.entry.1.discard? registry clock config s x.placed.entry.2 = x.discard? := by
    intro x hx
    obtain ⟨p, -, rfl⟩ := List.mem_map.1 hx
    rfl
  have hsecond := (settlePrepared_discards (fun x => x.1.discard? registry clock config s x.2) hwhy
    hfaithful).result _ _ _ hprepared
  rw [List.map_map] at hsecond
  exact hfirst.trans hsecond

/-- What is ready is not dropped. -/
theorem discard?_of_readyAt (config : SourceConfig) {placed : Placed} {p : Prepared}
    (h : readyAt registry clock s placed = some p) :
    placed.entry.1.discard? registry clock config s placed.number = none := by
  show (preparedAt registry clock s placed).discard? = none
  rw [preparedAt, PreparedSource.discard?, readyAt_eq_some_iff.1 h]

/-- An entry that is dropped before rows are touched has the outcome that says so. -/
theorem outcome_of_discard (hsource : registry.source name = .ok config)
    (hrun : (processArranged registry clock name arrangement batch).exec s = (.ok outcomes, s')) {number : Nat}
    {e : Entry} (he : (entries registry config batch)[number]? = some e) {reason : DropReason}
    (hreason : e.discard? registry clock config s number = some reason) :
    outcomes[number]? = some (e.dropped reason) := by
  obtain ⟨plan, s₁, applied, hplan, rfl, hnumbers, -⟩ := parts_of_run hsource hrun
  rw [getElem?_inOrder hnumbers]
  have hin : (e, number) ∈ (entries registry config batch).zipIdx := List.mem_zipIdx_iff_getElem?.2 he
  rcases planFrom_discards hplan (e, number) hin with ⟨placed, hwaits, hentry⟩ | hsettled
  · obtain ⟨p, hp, rfl⟩ := List.mem_map.1 hwaits
    have hnone := discard?_of_readyAt config (readyAt_of_plan hplan hp).2
    rw [show p.placed.entry.1 = e from congrArg Prod.fst hentry,
      show p.placed.number = number from congrArg Prod.snd hentry, hreason] at hnone
    cases hnone
  · exact List.mem_append_left _ (hsettled reason hreason)

end

end Tributary
