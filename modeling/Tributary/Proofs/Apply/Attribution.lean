import Tributary.Proofs.Apply.Discards

/-!
# What a batch leaves, entry by entry

On a store in memory, every letter that a batch adds and every row that it changes is due to an entry of the batch
which is not dropped before rows are touched, whether or not the batch succeeds.

* `Run.Files`: a step of which all new letters have a property, however it ends. `applyGroup_files` says that the
  letters of prepared mutations hold these mutations.
* `letters_of_plan`: the letters of the stages before rows are touched are of entries that failed there.
* `LeftNothing`: all that a batch leaves is due to other entries than one.
* `discarded_leaves_nothing`: so it is for an entry that is dropped before rows are touched.
-/

namespace Tributary

open Run

/-! ## Letters of steps -/

namespace Run

variable {α β : Type} {P : DeadLetter → Prop}

/-- All letters that a step adds have a property, whether or not it fails. -/
abbrev Files (P : DeadLetter → Prop) (x : Run MemoryStore α) : Prop :=
  Leaves MemoryStore.letters (fun _ _ more => ∀ letter ∈ more, P letter) x

theorem Quiet.files {x : Run MemoryStore α} (hx : Quiet MemoryStore.letters x) : Files P x := by
  refine Leaves.mono hx fun _ _ more h => ?_
  rw [h.2]
  exact fun _ hin => absurd hin List.not_mem_nil

theorem Files.pure {a : α} : Files P (pure a) := Quiet.pure.files

theorem Files.throw {fault : Fault} : Files P (throw fault : Run MemoryStore α) := Quiet.throw.files

theorem Files.logged (x : Logged α) : Files P (Run.logged x) :=
  (Leaves.logged x).mono fun _ _ more h => by
    rw [h.2.2]
    exact fun _ hin => absurd hin List.not_mem_nil

theorem Files.bind {x : Run MemoryStore α} {f : α → Run MemoryStore β} (hx : Files P x) (hf : ∀ a, Files P (f a)) :
    Files P (x >>= f) := by
  refine Leaves.bind hx (fun _ _ _ h => h) fun a _ more hmore => (hf a).mono fun _ _ rest hrest => ?_
  exact List.forall_mem_append.2 ⟨hmore, hrest⟩

theorem Files.attempt {x : Run MemoryStore α} (hx : Files P x) : Files P x.attempt :=
  (Leaves.attempt hx).mono fun _ _ _ ⟨_, _, h⟩ => h

theorem Files.mono {P' : DeadLetter → Prop} {x : Run MemoryStore α} (hx : Files P x)
    (h : ∀ letter, P letter → P' letter) : Files P' x :=
  Leaves.mono hx fun _ _ _ hmore letter hin => h letter (hmore letter hin)

end Run

/-- The letter is of a mutation that is bound for a table, if it is bound for one. -/
def DeadLetter.IsOf (letter : DeadLetter) (table : Option TableName) (m : Mutation) : Prop :=
  letter.table = table ∧ letter.mutation = m

section

variable {registry : Registry} {source : String} {p : Prepared}

theorem park_files {P : DeadLetter → Prop} {letter : DeadLetter} (h : P letter) : Files P (park letter) := by
  refine (park_leaves MemoryStore.keepsLetters letter).mono fun _ _ more hmore => ?_
  rw [hmore.2.2]
  exact List.forall_mem_singleton.2 h

theorem handleFailure_files (options : Options) (table : Option TableName) (m : Mutation)
    (operation : Option MergeOperation) (fault : Fault) :
    Files (fun letter => letter.IsOf table m) (handleFailure options source table m operation fault) := by
  unfold handleFailure
  split
  · exact .throw
  · exact .pure
  · exact (park_files ⟨rfl, rfl⟩).bind fun _ => .pure

theorem report_files {P : DeadLetter → Prop} (index : Nat) (table : Option TableName) (key : Option RowKey)
    (disposition : Disposition) : Files P (report index table key disposition) :=
  (Files.logged _).bind fun _ => .pure

theorem decideCas_files (proposed : Document) (known : MappedBefore) :
    Files (fun letter => letter.IsOf (some p.row.table) p.mutation) (decideCas registry source p proposed known) := by
  refine (Quiet.store fun _ => rfl).files.bind fun current => ?_
  refine (refreshBefore_quiet (fun _ _ => rfl) ..).files.bind fun before => ?_
  refine (Files.logged _).bind fun resolution => Files.bind ?_ fun _ => .pure
  cases resolution with
  | apply data => exact .pure
  | park queue operation => exact (park_files ⟨rfl, rfl⟩).bind fun _ => .pure
  | drop reason operation => exact .pure
  | failed fault operation => exact (handleFailure_files ..).bind fun _ => .pure

/-- However often an upsert is tried, its letters hold its mutation. -/
theorem upsertWithin_files (row : MappedRow) (total attempts : Nat) (known : MappedBefore) :
    Files (fun letter => letter.IsOf (some p.row.table) p.mutation)
      (upsertWithin registry source p row total attempts known) := by
  induction attempts generalizing known with
  | zero => exact .throw
  | succ attempts ih =>
    have hdecide : Files (fun letter => letter.IsOf (some p.row.table) p.mutation)
        (decideWrite registry source p row.row known) := by
      unfold decideWrite
      split
      · exact decideCas_files ..
      · exact .pure
    unfold upsertWithin
    refine hdecide.bind fun decided => ?_
    obtain ⟨decision, known⟩ := decided
    cases decision with
    | settled disposition => exact .pure
    | write data expected =>
      refine (Quiet.store fun s => MemoryStore.letters_writeRow p.row _ expected s).files.bind fun outcome => ?_
      cases outcome with
      | written => exact .pure
      | versionMismatch => exact ih known

theorem applyPrepared_files :
    Files (fun letter => letter.IsOf (some p.row.table) p.mutation) (applyPrepared registry source p) := by
  unfold applyPrepared
  split
  · exact upsertWithin_files ..
  · refine (Quiet.store fun s => ?_).files.bind fun _ => .pure
    show (MemoryStore.deleteRow p.row s).2.letters = s.letters
    unfold MemoryStore.deleteRow
    split <;> rfl

theorem applyOne_files :
    Files (fun letter => letter.IsOf (some p.row.table) p.mutation) (applyOne registry source p) := by
  refine applyPrepared_files.attempt.bind fun result => Files.bind ?_ fun _ => (report_files ..).bind fun _ => .pure
  cases result with
  | ok disposition => exact .pure
  | error fault => exact handleFailure_files ..

/-- The letters of prepared mutations hold these mutations. -/
theorem applyGroup_files (registry : Registry) (source : String) (ps : List Prepared) :
    Files (fun letter => ∃ p ∈ ps, letter.IsOf (some p.row.table) p.mutation) (applyGroup registry source ps) := by
  induction ps with
  | nil => exact .pure
  | cons p rest ih =>
    rw [applyGroup_cons]
    refine (applyOne_files.mono fun _ h => ⟨p, List.mem_cons_self, h⟩).bind fun _ => Files.bind ?_ fun _ => .pure
    exact ih.mono fun _ ⟨q, hq, h⟩ => ⟨q, List.mem_cons_of_mem p hq, h⟩

end

/-! ## Planning -/

section

variable {registry : Registry} {clock : Clock} {config : SourceConfig} {batch : List Mutation}
  {s s' : Session MemoryStore} {plan : Numbered × List Prepared}

theorem exists_failure_of_handled {options : Options} {name : String} {fs : List Failure} {letter : DeadLetter}
    (h : letter ∈ (handled options name fs).1) : ∃ f ∈ fs, f.letter? options name = some letter := by
  induction fs with
  | nil => cases h
  | cons f fs ih =>
    rw [handled] at h
    split at h
    · cases h
    · rcases List.mem_append.1 h with hfirst | hrest
      · exact ⟨f, List.mem_cons_self, Option.mem_toList.1 hfirst⟩
      · obtain ⟨g, hg, hletter⟩ := ih hrest
        exact ⟨g, List.mem_cons_of_mem f hg, hletter⟩

/-- A failure with a letter is not dropped. -/
theorem discard?_of_letter? {options : Options} {name : String} {f : Failure} {letter : DeadLetter}
    (h : f.letter? options name = some letter) :
    f.fault.discard? = none ∧ letter.IsOf f.entry.table f.entry.mutation := by
  unfold Failure.letter? at h
  unfold Fault.discard?
  split at h
  · next hpark =>
    cases h
    rw [hpark]
    exact ⟨rfl, rfl, rfl⟩
  · cases h
  · cases h

/-- What waits for preparation is what routing made of the source mutations, with consecutive numbers. -/
theorem entry_of_waitingFrom {number : Nat} {routed : List RoutedSource} {p : Placed}
    (h : p ∈ waitingFrom number routed) : p.entry ∈ (routed.flatMap RoutedSource.entries).zipIdx number := by
  induction routed generalizing number with
  | nil => cases h
  | cons r rest ih =>
    obtain ⟨index, m, result⟩ := r
    rw [List.flatMap_cons, List.zipIdx_append, RoutedSource.length_entries]
    rcases List.mem_append.1 h with hown | hrest
    · refine List.mem_append_left _ ?_
      cases result with
      | error fault => cases hown
      | ok targets =>
        cases targets with
        | nil => cases hown
        | cons target targets =>
          have hentry : p.entry ∈ (place number index (target :: targets)).map Placed.entry := List.mem_map_of_mem hown
          rw [map_entry_place] at hentry
          exact hentry
    · exact List.mem_append_right _ (ih hrest)

theorem entry_of_unrouted {number : Nat} {routed : List RoutedSource} {r : RoutedSource} (hr : r ∈ routed)
    {fault : Fault} (hresult : r.result = .error fault) :
    ∃ n, (r.alone, n) ∈ (routed.flatMap RoutedSource.entries).zipIdx number := by
  have hentries : r.entries = [r.alone] := by
    unfold RoutedSource.entries
    rw [hresult]
    rfl
  have hin : r.alone ∈ routed.flatMap RoutedSource.entries :=
    List.mem_flatMap.2 ⟨r, hr, hentries ▸ List.mem_singleton_self _⟩
  obtain ⟨i, hi⟩ := List.mem_iff_getElem?.1 hin
  exact ⟨number + i, List.mk_add_mem_zipIdx_iff_getElem?.2 hi⟩

/-- The letters of the stages before rows are touched are of entries of the batch that failed there. -/
theorem letters_of_plan (registry : Registry) (clock : Clock) (config : SourceConfig) (batch : List Mutation)
    (s : Session MemoryStore) :
    ∃ more, s.Follows ∅ more ((planFrom registry clock config 0 0 batch).exec s).2 ∧
      ∀ letter ∈ more, ∃ (n : Nat) (e : Entry), (entries registry config batch)[n]? = some e ∧
        e.discard? registry clock config s n = none ∧ letter.IsOf e.table e.mutation := by
  obtain ⟨htables, hstore, -⟩ := (planBatch_handles registry clock config batch).handles s (.refl s)
  have hends : ((planBatch registry clock config batch).exec s).2 =
      ((planFrom registry clock config 0 0 batch).exec s).2 := by
    rw [planBatch_eq, ← map_eq_pure_bind, exec_map]
  rw [hends] at htables hstore
  have hfollows : s.Follows ∅ (handled registry.options config.name (failures registry clock config s batch)).1
      ((planFrom registry clock config 0 0 batch).exec s).2 := by
    refine ⟨htables, fun _ _ => ?_, fun _ _ => ?_, ?_⟩
    all_goals
      rw [hstore]
      rfl
  refine ⟨_, hfollows, fun letter hletter => ?_⟩
  obtain ⟨f, hf, hfailed⟩ := exists_failure_of_handled hletter
  obtain ⟨hkept, hof⟩ := discard?_of_letter? hfailed
  rcases List.mem_append.1 hf with hf | hf
  · obtain ⟨r, hr, hfailure⟩ := List.mem_filterMap.1 hf
    unfold RoutedSource.failure? at hfailure
    split at hfailure
    · next fault hresult =>
      cases hfailure
      obtain ⟨n, hn⟩ := entry_of_unrouted hr hresult
      refine ⟨n, r.alone, List.mem_zipIdx_iff_getElem?.1 hn, ?_, hof⟩
      show r.alone.unrouted? registry config = none
      rw [unrouted?_alone hr, RoutedSource.discard?, hresult]
      exact hkept
    · cases hfailure
  · obtain ⟨x, hx, hfailure⟩ := List.mem_filterMap.1 hf
    obtain ⟨placed, hplaced, rfl⟩ := List.mem_map.1 hx
    unfold PreparedSource.failure? at hfailure
    split at hfailure
    · next fault hresult =>
      cases hfailure
      refine ⟨placed.number, placed.entry.1, List.mem_zipIdx_iff_getElem?.1 (entry_of_waitingFrom hplaced), ?_, hof⟩
      show (preparedAt registry clock s placed).discard? = none
      rw [PreparedSource.discard?, preparedAt, hresult]
      exact hkept
    · cases hfailure

/-- A mutation that is ready was made ready from the entry of its number. -/
theorem entry_of_plan {p : Prepared} (hplan : (planFrom registry clock config 0 0 batch).exec s = (.ok plan, s'))
    (hp : p ∈ plan.2) : (entries registry config batch)[p.placed.number]? = some p.placed.entry.1 :=
  List.mem_zipIdx_iff_getElem?.1
    (((planFrom_accounted 0 0 batch).result s plan s' hplan).waiting p.placed (List.mem_map_of_mem hp))

end

/-! ## Batches -/

section

variable {registry : Registry} {clock : Clock} {name : String} {config : SourceConfig} {s : Session MemoryStore}

/-- The place of the row that an entry of a batch is made ready for, if it is, when the batch starts in a session. -/
def Entry.place? (registry : Registry) (clock : Clock) (s : Session MemoryStore) (number : Nat) (e : Entry) :
    Option RowAddress :=
  match e.table with
  | none => none
  | some table => (readyAt registry clock s ⟨number, e.index, ⟨table, e.mutation⟩⟩).map fun p => p.row.address

/-- What a batch leaves: letters of entries that are not dropped before rows are touched, and changes of rows that
entries are made ready for. -/
theorem processArranged_leaves (clock : Clock) (hsource : registry.source name = .ok config)
    (arrangement : Arrangement) (batch : List Mutation) (s : Session MemoryStore) :
    ∃ more, s.Follows { place | ∃ (n : Nat) (e : Entry), (entries registry config batch)[n]? = some e ∧
          e.place? registry clock s n = some place } more
        ((processArranged registry clock name arrangement batch).exec s).2 ∧
      ∀ letter ∈ more, ∃ (n : Nat) (e : Entry), (entries registry config batch)[n]? = some e ∧
        e.discard? registry clock config s n = none ∧ letter.IsOf e.table e.mutation := by
  obtain ⟨first, hfollows, hfirst⟩ := letters_of_plan registry clock config batch s
  have hconfig : (liftM (registry.source name) : Run MemoryStore _).exec s = (.ok config, s) := by
    rw [exec_liftM, hsource]
  rw [processArranged, exec_bind_of_ok hconfig, planBatch_eq, bind_assoc, exec_bind]
  cases hplan : (planFrom registry clock config 0 0 batch).exec s with
  | mk result s₁ =>
    rw [hplan] at hfollows
    cases result with
    | error fault => exact ⟨first, hfollows.mono (Set.empty_subset _), hfirst⟩
    | ok plan =>
      dsimp only
      let flat := (arrangement.arrange (groupRows plan.2)).flatten
      have hends : ((pure ⟨plan.1, groupRows plan.2⟩ >>= fun plan : Plan => do
          let applied ← applyGroups registry config.name (arrangement.arrange plan.groups)
          return inOrder (plan.settled ++ applied) : Run MemoryStore _).exec s₁).2 =
            ((applyGroup registry config.name flat).exec s₁).2 := by
        rw [pure_bind, applyGroups_eq_flatten, ← map_eq_pure_bind, exec_map]
      rw [hends]
      obtain ⟨letters, hlater⟩ := (applyGroup_local registry config.name flat).follows s₁
      obtain ⟨-, more, -, hmore, hof⟩ := (applyGroup_files registry config.name flat).left s₁
      obtain rfl : letters = more := List.append_cancel_left (hlater.letters.symm.trans hmore)
      have hready (p : Prepared) (hp : p ∈ flat) : p ∈ plan.2 := (arrangement.flatten_perm plan.2).mem_iff.1 hp
      refine ⟨first ++ letters, (hfollows.mono (Set.empty_subset _)).trans (hlater.mono ?_), ?_⟩
      · rintro place ⟨p, hp, rfl⟩
        refine ⟨_, _, entry_of_plan hplan (hready p hp), ?_⟩
        show (readyAt registry clock s p.placed).map (fun p => p.row.address) = _
        rw [(readyAt_of_plan hplan (hready p hp)).2]
        rfl
      · refine List.forall_mem_append.2 ⟨hfirst, fun letter hletter => ?_⟩
        obtain ⟨p, hp, hpof⟩ := hof letter hletter
        exact ⟨_, _, entry_of_plan hplan (hready p hp),
          discard?_of_readyAt config (readyAt_of_plan hplan (hready p hp)).2, hpof⟩

/-- Between two sessions an entry of a batch, which is known by its number, leaves nothing: each letter that was added
is of another entry, one that is not dropped before rows are touched, and each row that no other entry is made ready
for is as it was. -/
structure LeftNothing (registry : Registry) (clock : Clock) (config : SourceConfig) (batch : List Mutation)
    (s s' : Session MemoryStore) (number : Nat) : Prop where
  letters : ∃ more, s'.store.letters = s.store.letters ++ more ∧ ∀ letter ∈ more, ∃ (n : Nat) (e : Entry), n ≠ number ∧
    (entries registry config batch)[n]? = some e ∧ e.discard? registry clock config s n = none ∧
      letter.IsOf e.table e.mutation
  rows : ∀ id : RowId, (∀ n e, n ≠ number → (entries registry config batch)[n]? = some e →
      e.place? registry clock s n ≠ some id.address) →
    s'.store.stored? id = s.store.stored? id ∧ s'.store.rowExprs id = s.store.rowExprs id

/-- An entry that is dropped before rows are touched leaves nothing, whether or not its batch succeeds. -/
theorem discarded_leaves_nothing (hsource : registry.source name = .ok config) (arrangement : Arrangement)
    {batch : List Mutation} {number : Nat} {e : Entry} (he : (entries registry config batch)[number]? = some e)
    {reason : DropReason} (hreason : e.discard? registry clock config s number = some reason) :
    LeftNothing registry clock config batch s ((processArranged registry clock name arrangement batch).exec s).2
      number := by
  obtain ⟨more, hfollows, hof⟩ := processArranged_leaves clock hsource arrangement batch s
  refine ⟨⟨more, hfollows.letters, fun letter hletter => ?_⟩, fun id hothers => ?_⟩
  · obtain ⟨n, entry, hentry, hkept, hletterOf⟩ := hof letter hletter
    refine ⟨n, entry, ?_, hentry, hkept, hletterOf⟩
    rintro rfl
    cases he.symm.trans hentry
    rw [hreason] at hkept
    cases hkept
  · have hplace : id.address ∉ { place | ∃ (n : Nat) (e : Entry), (entries registry config batch)[n]? = some e ∧
        e.place? registry clock s n = some place } := by
      rintro ⟨n, entry, hentry, hplace⟩
      refine hothers n entry ?_ hentry hplace
      rintro rfl
      cases he.symm.trans hentry
      -- what is dropped is not made ready
      unfold Entry.place? at hplace
      split at hplace
      · cases hplace
      · next table htable =>
        obtain ⟨p, hready, -⟩ := Option.map_eq_some_iff.1 hplace
        have hnone := discard?_of_readyAt config hready
        rw [Entry.discard?, htable] at hreason
        exact absurd (hnone.symm.trans hreason) (Option.some_ne_none reason).symm
    exact ⟨hfollows.stored _ hplace, congrArg Cell.exprs (hfollows.cell hplace)⟩

end

end Tributary
