import Mathlib.Data.List.ReduceOption
import Tributary.Proofs.Apply.Accounting
import Tributary.Proofs.Apply.Readiness

/-!
# Dead letters

On a store in memory, the letters that a batch adds are exactly those of its parked mutations, one each.

* `Fate`: whether a mutation fails, and with what, or whether a merge decides to park it. `Prepared.fate` says
  it of a mutation at the moment at which it comes to its row, and `Entry.fate` of every entry of a batch.
* `LetterFor`: the letter that suits a fate and an outcome, or that there is none.
* `applyOne_letters`: applying a mutation adds the letter for it, whichever of the nested ways of handling a
  failure is taken. So does each stage for all of its mutations.
* `parked_mutations_have_their_letters`: so does a batch, in whatever order the groups of rows are applied.
-/

namespace Tributary

open Run

/-! ## Fates -/

/-- What decides whether a mutation needs a dead letter. -/
inductive Fate where
  /-- It neither fails nor does a merge decide to park it. -/
  | settled
  | failed (fault : Fault)
  /-- A merge decides to park it. -/
  | parked (queue : String) (operation : MergeOperation)

/-- What a resolution means to the mutation that is resolved. -/
def Fate.ofResolution : Result Resolution → Fate
  | .error fault | .ok (.failed fault _) => .failed fault
  | .ok (.park queue operation) => .parked queue operation
  | .ok (.apply _) | .ok (.drop _ _) => .settled

/-- What a proposal comes to against a row. The row before the change is mapped if that is needed. -/
def resolveOn (registry : Registry) (p : Prepared) (proposed : Document) (target : Option Document) :
    Run MemoryStore Resolution := do
  let before ← refreshBefore registry p proposed target none
  Run.logged
    (resolve (registry.table p.row.table) registry.options.functionTimeout
      ⟨p.row.table, proposed, before.join, p.mutation.origin⟩ target)

/-- The fate of a mutation that comes to its row in a session. Upserts fail if there is no attempt at them. With
attempts, only upserts to tables with compare-and-set columns look at the row, and only they can fail. -/
def Prepared.fate (registry : Registry) (p : Prepared) (s : Session MemoryStore) : Fate :=
  match p.action with
  | .delete => .settled
  | .upsert row =>
    if registry.options.attempts = 0 then .failed p.unattempted
    else if (registry.table p.row.table).isCas then
      .ofResolution ((resolveOn registry p row.row (s.store.row? p.row)).exec s).1
    else .settled

/-- The fate of an entry of a batch that starts in the session `s`: its source mutation fails to be routed, or
it fails to be prepared, or its fate is that of the mutation that it is prepared as. That one comes to its row
behind all mutations that are earlier in the order in which the prepared mutations are applied, from the
session `s₁` on. -/
def Entry.fate (registry : Registry) (clock : Clock) (config : SourceConfig) (s s₁ : Session MemoryStore)
    (order : List Prepared) (number : Nat) (e : Entry) : Fate :=
  match e.table with
  | none =>
    match (route config registry.options.functionTimeout registry.options.maxDepth
      e.mutation).attempt.value with
    | .error fault => .failed fault
    | .ok _ => .settled
  | some table =>
    match ((prepare registry clock ⟨number, e.index, ⟨table, e.mutation⟩⟩).exec s).1 with
    | .error fault => .failed fault
    | .ok (.dropped _) => .settled
    | .ok (.ready p) =>
      let earlier := order.takeWhile fun q => q.placed.number != number
      p.fate registry ((applyGroup registry config.name earlier).exec s₁).2

/-- The dead letter for a mutation to a table, whose fate and disposition are known. Where the mutation was
not parked there is none. Else the letter is in the queue of the disposition and has the mutation as it is,
and the text of the fault if the mutation failed, and only then. -/
inductive LetterFor (source : String) (fate : Fate) (m : Mutation) (table : Option TableName) :
    Disposition → Option DeadLetter → Prop
  | none {disposition : Disposition} (h : ∀ queue, disposition ≠ .parked queue) :
    LetterFor source fate m table disposition none
  | failed {queue : String} {fault : Fault} {operation : Option MergeOperation}
    (hfate : fate = .failed fault) :
    LetterFor source fate m table (.parked queue)
      (some ⟨queue, source, table, m, operation, some fault.text⟩)
  | parked {queue : String} {operation : MergeOperation} (hfate : fate = .parked queue operation) :
    LetterFor source fate m table (.parked queue)
      (some ⟨queue, source, table, m, some operation, Option.none⟩)

/-! ## One mutation -/

/-- The dead letters of a session. -/
def lettersOf (s : Session MemoryStore) : List DeadLetter := s.store.letters

theorem steady_lettersOf : Steady lettersOf where
  shape _ := ⟨fun _ => rfl⟩
  remember _ _ := ⟨fun _ => rfl⟩
  silent _ _ _ := rfl

theorem report_letters (index : Nat) (table : Option TableName) (key : Option RowKey)
    (disposition : Disposition) :
    Adds lettersOf (fun o more => more = [] ∧ o = ⟨index, table, key, disposition⟩)
      (report index table key disposition) := by
  refine ⟨fun s => ⟨[], (List.append_nil _).symm, fun o ho => ⟨rfl, ?_⟩⟩⟩
  cases ho
  rfl

theorem park_adds (letter : DeadLetter) :
    Adds lettersOf (fun _ more => more = [letter]) (park letter) :=
  ⟨fun _ => ⟨[letter], rfl, fun _ _ => rfl⟩⟩

variable {registry : Registry} {name : String}

theorem handleFailure_letters (options : Options) (table : Option TableName) (m : Mutation)
    (operation : Option MergeOperation) (fault : Fault) :
    Adds lettersOf (fun disposition more => ∃ letter, more = letter.toList ∧
        LetterFor name (.failed fault) m table disposition letter)
      (handleFailure options name table m operation fault) := by
  unfold handleFailure
  split
  · exact .throw fault
  · exact .pure ⟨none, rfl, .none fun _ h => by cases h⟩
  · exact (park_adds _).bind fun _ more hmore => .pure ⟨some _, by simpa using hmore, .failed rfl⟩

/-- What was added suits what a mutation came to. Where the mutation failed nothing was added yet, unless the
batch has to stop. -/
def Suits (name : String) (fate : Fate) (p : Prepared) : Result Disposition → List DeadLetter → Prop
  | .ok disposition, more => ∃ letter, more = letter.toList ∧
    LetterFor name fate p.mutation (some p.row.table) disposition letter
  | .error fault, more => fault.action = .stop ∨ more = [] ∧ fate = .failed fault

/-- A step that leaves what suits a mutation. -/
def Accounts (name : String) (fate : Fate) (p : Prepared) (x : Run MemoryStore Disposition)
    (s : Session MemoryStore) : Prop :=
  ∃ more, lettersOf (x.exec s).2 = lettersOf s ++ more ∧ Suits name fate p (x.exec s).1 more

theorem overwriteRow_accounts (fate : Fate) (p : Prepared) (w : RowWrite) (s : Session MemoryStore) :
    Accounts name fate p (overwriteRow p.row w >>= fun _ => pure .applied) s := by
  unfold Accounts
  rw [exec_bind, overwriteRow_exec]
  cases s.store.hasTable p.row.table with
  | true =>
    refine ⟨[], ?_, none, rfl, .none fun _ h => by cases h⟩
    exact (MemoryStore.letters_overwritten ..).trans (List.append_nil _).symm
  | false => exact ⟨[], (List.append_nil _).symm, .inl rfl⟩

/-- Only a fault that stops the batch comes out of the handling of a failure. -/
theorem stop_of_handleFailure {options : Options} {table : Option TableName} {m : Mutation}
    {operation : Option MergeOperation} {fault other : Fault} {s : Session MemoryStore}
    (h : ((handleFailure options name table m operation fault).exec s).1 = .error other) :
    other.action = .stop := by
  unfold handleFailure at h
  split at h
  · rename_i hstop
    cases h
    exact hstop
  · cases h
  · cases h

theorem handleFailure_accounts (p : Prepared) (operation : Option MergeOperation) (fault : Fault)
    (s : Session MemoryStore) :
    Accounts name (.failed fault) p
      (handleFailure registry.options name (some p.row.table) p.mutation operation fault) s := by
  obtain ⟨more, hmore, hresult⟩ :=
    (handleFailure_letters registry.options (some p.row.table) p.mutation operation fault).added s
  refine ⟨more, hmore, ?_⟩
  cases hexec : ((handleFailure registry.options name (some p.row.table) p.mutation operation
    fault).exec s).1 with
  | ok disposition => exact hresult disposition hexec
  | error other => exact .inl (stop_of_handleFailure hexec)

/-- What is done with the decision on an upsert. -/
def carryOut (p : Prepared) (row : MappedRow) (decision : Decision) : Run MemoryStore Disposition :=
  match decision with
  | .settled disposition => return disposition
  | .write data _ => overwriteRow p.row ⟨data, row.exprs⟩ >>= fun _ => return .applied

theorem overwriting_eq (p : Prepared) (row : MappedRow)
    (hcas : (registry.table p.row.table).isCas = true) :
    overwriting registry name p row = (do
      let target ← readData p.row
      let resolution ← resolveOn registry p row.row target
      let decision ← decideResolution registry name p none resolution
      carryOut p row decision) := by
  unfold overwriting
  refine bind_congr fun target => ?_
  simp only [decideData, hcas, if_true, decideOn, resolveOn, map_bind, map_pure, bind_assoc]
  rfl

theorem decideResolution_accounts (p : Prepared) (row : MappedRow) (resolution : Resolution)
    (s : Session MemoryStore) :
    Accounts name (.ofResolution (.ok resolution)) p (do
      let decision ← decideResolution registry name p none resolution
      carryOut p row decision) s := by
  cases resolution with
  | apply data => exact overwriteRow_accounts _ p _ s
  | drop reason operation =>
    exact ⟨[], (List.append_nil _).symm, none, rfl, .none fun _ h => by cases h⟩
  | park queue operation =>
    let letter : DeadLetter := ⟨queue, name, some p.row.table, p.mutation, some operation, none⟩
    exact ⟨[letter], rfl, some letter, rfl, .parked rfl⟩
  | failed fault operation =>
    have heq : (do
        let decision ← decideResolution registry name p none (.failed fault operation)
        carryOut p row decision) =
        handleFailure registry.options name (some p.row.table) p.mutation (some operation) fault := by
      simp [decideResolution, carryOut]
    rw [heq]
    exact handleFailure_accounts p (some operation) fault s

theorem overwriting_accounts (p : Prepared) {row : MappedRow} (haction : p.action = .upsert row)
    (hattempts : registry.options.attempts ≠ 0) (s : Session MemoryStore) :
    Accounts name (p.fate registry s) p (overwriting registry name p row) s := by
  cases hcas : (registry.table p.row.table).isCas with
  | false =>
    have hplain : overwriting registry name p row = (do
        let _ ← readData p.row
        overwriteRow p.row ⟨row.row, row.exprs⟩ >>= fun _ => pure .applied) := by
      simp [overwriting, decideData, hcas]
    rw [hplain]
    exact overwriteRow_accounts _ p _ s
  | true =>
    have hfate : p.fate registry s =
        .ofResolution ((resolveOn registry p row.row (s.store.row? p.row)).exec s).1 := by
      simp [Prepared.fate, haction, hattempts, hcas]
    have hkeeps : Keeps lettersOf (resolveOn registry p row.row (s.store.row? p.row)) :=
      (refreshBefore_keeps steady_lettersOf ..).bind fun _ =>
        steady_lettersOf.logged (resolve_silent ..)
    have hkept := hkeeps.kept s
    unfold Accounts
    rw [hfate, overwriting_eq p row hcas, exec_bind_of_ok (readData_exec p.row s), exec_bind]
    generalize (resolveOn registry p row.row (s.store.row? p.row)).exec s = resolved at hkept
    obtain ⟨result, t⟩ := resolved
    cases result with
    | error fault => exact ⟨[], hkept.trans (List.append_nil _).symm, .inr ⟨rfl, rfl⟩⟩
    | ok resolution =>
      obtain ⟨more, hmore, hsuits⟩ := decideResolution_accounts p row resolution t
      exact ⟨more, hmore.trans (congrArg (· ++ more) hkept), hsuits⟩

theorem applyPrepared_accounts (p : Prepared) (s : Session MemoryStore) :
    Accounts name (p.fate registry s) p (applyPrepared registry name p) s := by
  unfold applyPrepared
  cases haction : p.action with
  | upsert row =>
    dsimp only
    rw [applyUpsert_eq]
    split
    · rename_i hnone
      exact ⟨[], (List.append_nil _).symm, .inr ⟨rfl, by simp [Prepared.fate, haction, hnone]⟩⟩
    · rename_i hattempts
      exact overwriting_accounts p haction hattempts s
  | delete =>
    have hdelete : (Run.store (TargetStore.deleteRow p.row)).exec s =
        ((MemoryStore.deleteRow p.row s.store).1,
          { s with store := (MemoryStore.deleteRow p.row s.store).2 }) := rfl
    unfold Accounts
    rw [exec_bind, hdelete]
    unfold MemoryStore.deleteRow
    cases s.store.hasTable p.row.table with
    | true => exact ⟨[], (List.append_nil _).symm, none, rfl, .none fun _ h => by cases h⟩
    | false => exact ⟨[], (List.append_nil _).symm, .inl rfl⟩

/-- A mutation that is applied without stopping the batch adds the letter for it, if there is one. -/
theorem applyOne_letters (p : Prepared) {s s' : Session MemoryStore} {e : Nat × Outcome}
    (hrun : (applyOne registry name p).exec s = (.ok e, s')) :
    ∃ letter : Option DeadLetter, lettersOf s' = lettersOf s ++ letter.toList ∧
      LetterFor name (p.fate registry s) p.mutation e.2.table e.2.disposition letter := by
  obtain ⟨more, hmore, hsuits⟩ : Accounts name (p.fate registry s) p (applyPrepared registry name p) s :=
    applyPrepared_accounts p s
  obtain ⟨result, s₁, happly, hdisposed⟩ := exec_bind_ok hrun
  rw [exec_attempt] at happly
  cases happly
  obtain ⟨disposition, s₂, hdispose, hreported⟩ := exec_bind_ok hdisposed
  obtain ⟨outcome, s₃, hreport, hdone⟩ := exec_bind_ok hreported
  cases hdone
  obtain ⟨none, hkept, hresult⟩ :=
    (report_letters p.placed.index (some p.row.table) (some p.key) disposition).added s₂
  rw [hreport] at hkept hresult
  obtain ⟨rfl, rfl⟩ := hresult _ rfl
  rw [List.append_nil] at hkept
  generalize (applyPrepared registry name p).exec s = applied at hmore hsuits hdispose
  obtain ⟨result, s₁⟩ := applied
  cases result with
  | ok disposition' =>
    cases hdispose
    obtain ⟨letter, rfl, hletter⟩ := hsuits
    exact ⟨letter, hkept.trans hmore, hletter⟩
  | error fault =>
    rcases hsuits with hstop | ⟨rfl, hfate⟩
    · -- handling the failure would have stopped the batch
      have hthrow : disposeOf registry name p (.error fault) = (throw fault : Run MemoryStore _) :=
        handleFailure_of_stop hstop
      rw [hthrow] at hdispose
      cases hdispose
    · rw [List.append_nil] at hmore
      obtain ⟨later, hlater, hresult⟩ := (handleFailure_letters registry.options (some p.row.table)
        p.mutation none fault).added s₁
      have hexec : (handleFailure registry.options name (some p.row.table) p.mutation none fault).exec s₁ =
        (.ok disposition, s₂) := hdispose
      rw [hexec] at hlater hresult
      obtain ⟨letter, rfl, hletter⟩ := hresult disposition rfl
      rw [hfate]
      exact ⟨letter, hkept.trans (hlater.trans (congrArg (· ++ letter.toList) hmore)), hletter⟩

/-! ## Stages -/

/-- Every outcome has the letter that suits the fate of its entry, or none if it needs none, and these letters
were added. -/
def Lettered (name : String) (fate : Nat → Entry → Fate) (entries : List (Entry × Nat))
    (outcomes : Numbered) (more : List DeadLetter) : Prop :=
  ∃ letters : List (Option DeadLetter), more = letters.reduceOption ∧
    List.Forall₂ (fun e letter => ∃ entry, (entry, e.1) ∈ entries ∧
      LetterFor name (fate e.1 entry) entry.mutation e.2.table e.2.disposition letter) outcomes letters

namespace Lettered

variable {fate : Nat → Entry → Fate} {entries others : List (Entry × Nat)} {outcomes later : Numbered}
  {more rest : List DeadLetter}

theorem nil : Lettered name fate entries [] [] := ⟨[], rfl, .nil⟩

theorem mono (h : Lettered name fate entries outcomes more) (hsub : entries ⊆ others) :
    Lettered name fate others outcomes more := by
  obtain ⟨letters, hmore, hletters⟩ := h
  refine ⟨letters, hmore, hletters.imp fun e letter he => ?_⟩
  obtain ⟨entry, hentry, hletter⟩ := he
  exact ⟨entry, hsub hentry, hletter⟩

theorem append (h : Lettered name fate entries outcomes more)
    (h' : Lettered name fate others later rest) :
    Lettered name fate (entries ++ others) (outcomes ++ later) (more ++ rest) := by
  obtain ⟨letters, rfl, hletters⟩ := h.mono (List.subset_append_left entries others)
  obtain ⟨letters', rfl, hletters'⟩ := h'.mono (List.subset_append_right entries others)
  exact ⟨letters ++ letters', (List.reduceOption_append _ _).symm, List.rel_append hletters hletters'⟩

theorem single {entry : Entry} {number : Nat} {o : Outcome} {letter : Option DeadLetter}
    (hletter : LetterFor name (fate number entry) entry.mutation o.table o.disposition letter) :
    Lettered name fate [(entry, number)] [(number, o)] letter.toList :=
  ⟨[letter], (List.reduceOption_singleton letter).symm,
    .cons ⟨entry, List.mem_singleton_self _, hletter⟩ .nil⟩

end Lettered

theorem Entry.drop_letters {fate : Nat → Entry → Fate} (e : Entry) (number : Nat) (reason : DropReason) :
    Adds lettersOf (fun o more => Lettered name fate [(e, number)] [(number, o)] more) (e.drop reason) := by
  refine (report_letters ..).mono fun o more hmore => ?_
  obtain ⟨rfl, rfl⟩ := hmore
  exact .single (.none fun _ h => by cases h)

theorem Entry.fail_letters {fate : Nat → Entry → Fate} (e : Entry) (number : Nat) {fault : Fault}
    (hfate : fate number e = .failed fault) :
    Adds lettersOf (fun o more => Lettered name fate [(e, number)] [(number, o)] more)
      (e.fail registry.options name fault) := by
  refine (handleFailure_letters registry.options e.table e.mutation none fault).bind
    fun disposition more hmore => (report_letters ..).mono fun o none hnone => ?_
  obtain ⟨letter, rfl, hletter⟩ := hmore
  obtain ⟨rfl, rfl⟩ := hnone
  rw [List.append_nil]
  exact .single (hfate ▸ hletter)

section

variable (clock : Clock) {config : SourceConfig} (s s₁ : Session MemoryStore) (order : List Prepared)

theorem settleRouted_letters (number : Nat) {routed : List RoutedSource}
    (h : ∀ r ∈ routed, r.result = (route config registry.options.functionTimeout
      registry.options.maxDepth r.mutation).attempt.value) :
    Adds lettersOf (fun r more => Lettered config.name (Entry.fate registry clock config s s₁ order)
        ((routed.flatMap RoutedSource.entries).zipIdx number) r.1 more)
      (settleRouted registry.options config.name number routed) := by
  have hpieces : Piecewise fun given settled (_ : List Placed) more =>
      Lettered config.name (Entry.fate registry clock config s s₁ order) given settled more :=
    ⟨.nil, .append⟩
  refine settleRouted_adds hpieces (fun r hr fault number hresult => ?_)
    (fun r _ number _ => r.alone.drop_letters number .discarded) (fun p => .nil) number
  refine r.alone.fail_letters number ?_
  rw [h r hr] at hresult
  simp [Entry.fate, RoutedSource.alone, hresult]

/-- The fate of a mutation that was routed and cannot be prepared. -/
theorem fate_of_unprepared {p : Placed} {fault : Fault}
    (h : ((prepare registry clock p).exec s).1 = .error fault) :
    Entry.fate registry clock config s s₁ order p.number p.entry.1 = .failed fault := by
  show (match ((prepare registry clock p).exec s).1 with
    | .error fault => _
    | .ok (.dropped _) => _
    | .ok (.ready p) => _) = _
  rw [h]

theorem settlePrepared_letters (placed : List Placed) :
    Adds lettersOf (fun r more => Lettered config.name (Entry.fate registry clock config s s₁ order)
        (placed.map Placed.entry) r.1 more)
      (settlePrepared registry.options config.name
        (placed.map fun p => ⟨p, ((prepare registry clock p).exec s).1⟩)) := by
  have hpieces : Piecewise fun (given : List PreparedSource) settled (_ : List Prepared) more =>
      Lettered config.name (Entry.fate registry clock config s s₁ order)
        (given.map fun x => x.placed.entry) settled more := by
    refine ⟨.nil, fun first second => ?_⟩
    rw [List.map_append]
    exact first.append second
  have hsettled : Adds lettersOf (fun r more => Lettered config.name
      (Entry.fate registry clock config s s₁ order)
        ((placed.map fun p => PreparedSource.mk p ((prepare registry clock p).exec s).1).map
          fun x => x.placed.entry) r.1 more)
      (settlePrepared registry.options config.name
        (placed.map fun p => ⟨p, ((prepare registry clock p).exec s).1⟩)) := by
    refine settlePrepared_adds hpieces (fun x hx fault hresult => ?_)
      (fun x _ reason _ => x.placed.entry.1.drop_letters x.placed.number reason) fun x _ p _ => .nil
    obtain ⟨p, -, rfl⟩ := List.mem_map.1 hx
    exact p.entry.1.fail_letters p.number (fate_of_unprepared clock s s₁ order hresult)
  rw [List.map_map] at hsettled
  exact hsettled

theorem planFrom_letters {batch : List Mutation} {plan : Numbered × List Prepared}
    (hplan : (planFrom registry clock config 0 0 batch).exec s = (.ok plan, s₁)) :
    ∃ more, lettersOf s₁ = lettersOf s ++ more ∧
      Lettered config.name (Entry.fate registry clock config s s₁ order)
        (entries registry config batch).zipIdx plan.1 more := by
  obtain ⟨trace, pending, s₂, prepared, hpending, hprepared, rfl⟩ := planFrom_run hplan
  have hwaiting := (settleRouted_waiting registry.options config.name 0 _).result _ _ _ hpending
  obtain ⟨first, hfirst, hrouted⟩ :=
    (settleRouted_letters clock s s₁ order 0 fun _ => routedFrom_result).added { s with trace := trace }
  rw [hpending] at hfirst hrouted
  have hkept := (prepareAll_keeps steady_lettersOf registry clock pending.2).kept s₂
  have hsettled : Adds lettersOf (fun r more => Lettered config.name
        (Entry.fate registry clock config s s₁ order) (pending.2.map Placed.entry) r.1 more)
      (settlePrepared registry.options config.name
        (pending.2.map fun p => ⟨p, ((prepare registry clock p).exec s).1⟩)) :=
    settlePrepared_letters clock s s₁ order pending.2
  obtain ⟨later, hlater, hready⟩ := hsettled.added ((prepareAll registry clock pending.2).exec s₂).2
  rw [hprepared] at hlater hready
  have hwithin : pending.2.map Placed.entry ⊆ (entries registry config batch).zipIdx := by
    rw [hwaiting]
    exact List.filter_sublist.subset
  have hboth := (hrouted pending rfl).append (hready prepared rfl)
  refine ⟨first ++ later, ?_, hboth.mono (List.append_subset.2 ⟨List.Subset.refl _, hwithin⟩)⟩
  rw [hlater, hkept, hfirst, List.append_assoc]
  rfl

/-- The fate of a mutation that is ready is what it comes to behind the mutations before it. -/
theorem fate_of_ready {front rest : List Prepared} {p : Prepared}
    (hready : readyAt registry clock s p.placed = some p)
    (hnodup : ((front ++ p :: rest).map fun q => q.placed.number).Nodup) :
    Entry.fate registry clock config s s₁ (front ++ p :: rest) p.placed.number p.placed.entry.1 =
      p.fate registry ((applyGroup registry config.name front).exec s₁).2 := by
  have hfront : (front ++ p :: rest).takeWhile (fun q => q.placed.number != p.placed.number) = front := by
    rw [List.map_append, List.nodup_append] at hnodup
    rw [List.takeWhile_append_of_pos, List.takeWhile_cons_of_neg (by simp), List.append_nil]
    intro q hq
    exact bne_iff_ne.2 (hnodup.2.2 _ (List.mem_map_of_mem hq) _ List.mem_cons_self)
  show (match ((prepare registry clock p.placed).exec s).1 with
    | .error fault => _
    | .ok (.dropped _) => _
    | .ok (.ready p) => _) = _
  rw [readyAt_eq_some_iff.1 hready]
  simp only [hfront]

theorem applyGroup_letters (front : List Prepared) {rest : List Prepared} {before applied : Numbered}
    {t s' : Session MemoryStore} (hready : ∀ p ∈ rest, readyAt registry clock s p.placed = some p)
    (hnodup : ((front ++ rest).map fun q => q.placed.number).Nodup)
    (hfront : (applyGroup registry config.name front).exec s₁ = (.ok before, t))
    (hrun : (applyGroup registry config.name rest).exec t = (.ok applied, s')) :
    ∃ more, lettersOf s' = lettersOf t ++ more ∧
      Lettered config.name (Entry.fate registry clock config s s₁ (front ++ rest))
        (rest.map fun p => p.placed.entry) applied more := by
  -- fates look back at what was applied before, so that the induction has to know it
  induction rest generalizing front before applied t with
  | nil =>
    cases hrun
    exact ⟨[], (List.append_nil _).symm, .nil⟩
  | cons p rest ih =>
    rw [applyGroup_cons] at hrun
    obtain ⟨e, t', hone, hrest⟩ := exec_bind_ok hrun
    obtain ⟨others, t'', hothers, hdone⟩ := exec_bind_ok hrest
    cases hdone
    obtain ⟨letter, hfirst, hletter⟩ := applyOne_letters p hone
    have hfate : Entry.fate registry clock config s s₁ (front ++ p :: rest) p.placed.number
          p.placed.entry.1 = p.fate registry t := by
      rw [fate_of_ready clock s s₁ (hready p List.mem_cons_self) hnodup, hfront]
    have hnumber : e.1 = p.placed.number := congrArg Prod.fst ((applyOne_label p).result t e t' hone)
    have hsnoc : (applyGroup registry config.name (front ++ [p])).exec s₁ = (.ok (before ++ [e]), t') := by
      rw [applyGroup_append, exec_bind_of_ok hfront, applyGroup_cons, bind_assoc, exec_bind_of_ok hone]
      rfl
    obtain ⟨more, hmore, hlater⟩ := ih (front ++ [p]) (fun q hq => hready q (List.mem_cons_of_mem _ hq))
      (by simpa using hnodup) hsnoc hothers
    rw [List.append_assoc, List.singleton_append] at hlater
    refine ⟨letter.toList ++ more, by rw [hmore, hfirst, List.append_assoc], ?_⟩
    have hsingle : Lettered config.name (Entry.fate registry clock config s s₁ (front ++ p :: rest))
        [p.placed.entry] [(p.placed.number, e.2)] letter.toList := .single (hfate ▸ hletter)
    rw [← hnumber] at hsingle
    exact hsingle.append hlater

end

/-! ## The whole statement -/

/-- When outcomes are put in order, their letters can be put beside them. -/
theorem Lettered.exists_inOrder {fate : Nat → Entry → Fate} {entries : List Entry} {outcomes : Numbered}
    {more : List DeadLetter} {count : Nat} (h : Lettered name fate entries.zipIdx outcomes more)
    (hnumbers : (outcomes.map Prod.fst).Perm (List.range count)) :
    ∃ letters : List (Option DeadLetter), more.Perm letters.reduceOption ∧
      letters.length = (inOrder outcomes).length ∧
      ∀ (number : Nat) (o : Outcome), (inOrder outcomes)[number]? = some o →
        ∃ entry letter, entries[number]? = some entry ∧ letters[number]? = some letter ∧
          LetterFor name (fate number entry) entry.mutation o.table o.disposition letter := by
  obtain ⟨found, rfl, hfound⟩ := h
  obtain ⟨letters, hletters, hperm⟩ := List.perm_comp_forall₂
    (List.mergeSort_perm outcomes fun a b => a.1 ≤ b.1) hfound
  refine ⟨letters, (hperm.filterMap id).symm, ?_, fun number o ho => ?_⟩
  · rw [inOrder, List.length_map]
    exact hletters.length_eq.symm
  · rw [inOrder, List.getElem?_map, Option.map_eq_some_iff] at ho
    obtain ⟨e, he, rfl⟩ := ho
    have hplace := place_of_sorted hnumbers he
    obtain ⟨hn, hget⟩ := List.getElem?_eq_some_iff.1 he
    have hn' : number < letters.length := hletters.length_eq ▸ hn
    obtain ⟨entry, hentry, hletter⟩ := hletters.get hn hn'
    rw [List.get_eq_getElem, hget] at hentry hletter
    rw [← hplace] at hentry hletter
    exact ⟨entry, _, List.mem_zipIdx_iff_getElem?.1 hentry, List.getElem?_eq_getElem hn', hletter⟩

/-- If a batch succeeds on a store in memory, in whatever order the groups of rows are applied: there is a
letter or none for each outcome, as suits the fate of the entry that the outcome stands for, and the batch
added these letters and no others, in some order. -/
theorem parked_mutations_have_their_letters (registry : Registry) (clock : Clock) (source : String)
    (arrangement : Arrangement) (batch : List Mutation) {s s' : Session MemoryStore}
    {outcomes : List Outcome}
    (hrun : (processArranged registry clock source arrangement batch).exec s = (.ok outcomes, s')) :
    ∃ config plan s₁ added letters, registry.source source = .ok config ∧
      (planBatch registry clock config batch).exec s = (.ok plan, s₁) ∧
      s'.store.letters = s.store.letters ++ added ∧ added.Perm (List.reduceOption letters) ∧
      letters.length = outcomes.length ∧
      ∀ (number : Nat) (o : Outcome), outcomes[number]? = some o →
        ∃ entry letter, (entries registry config batch)[number]? = some entry ∧
          letters[number]? = some letter ∧
          LetterFor config.name
            (entry.fate registry clock config s s₁ (arrangement.arrange plan.groups).flatten number)
            entry.mutation o.table o.disposition letter := by
  obtain ⟨config, plan, s₁, applied, hsource, hplan, happlied, rfl⟩ := processArranged_run hrun
  have haccounted := (planFrom_accounted 0 0 batch).result s plan s₁ hplan
  have hlabels := (applyGroup_labels _).result s₁ applied s' happlied
  have hflat := arrangement.flatten_perm plan.2
  have hnumbers := numbers_perm haccounted hlabels hflat
  have hready : ∀ p ∈ (arrangement.arrange (groupRows plan.2)).flatten,
      readyAt registry clock s p.placed = some p :=
    fun p hp => (readyAt_of_plan hplan (hflat.mem_iff.1 hp)).2
  have hnodup : ((arrangement.arrange (groupRows plan.2)).flatten.map fun p => p.placed.number).Nodup := by
    have hall := hnumbers.nodup_iff.2 List.nodup_range
    rw [List.map_append, map_fst_applied hlabels] at hall
    exact (List.nodup_append.1 hall).2.1
  have hwithin : ((arrangement.arrange (groupRows plan.2)).flatten.map fun p => p.placed.entry) ⊆
      (entries registry config batch).zipIdx := by
    intro e he
    obtain ⟨p, hp, rfl⟩ := List.mem_map.1 he
    exact haccounted.waiting p.placed (List.mem_map_of_mem (hflat.mem_iff.1 hp))
  obtain ⟨first, hfirst, hsettled⟩ := planFrom_letters clock s s₁ _ hplan
  obtain ⟨later, hlater, hgrouped⟩ := applyGroup_letters clock s s₁ [] hready hnodup rfl happlied
  have hall := (hsettled.append hgrouped).mono (List.append_subset.2 ⟨List.Subset.refl _, hwithin⟩)
  obtain ⟨letters, hperm, hlength, hletters⟩ := hall.exists_inOrder hnumbers
  refine ⟨config, _, s₁, first ++ later, letters, hsource, planBatch_exec hplan, ?_, hperm, hlength,
    hletters⟩
  rw [← List.append_assoc]
  exact hlater.trans (congrArg (· ++ later) hfirst)

/-- The mixed batch parks its last change, and nothing else. -/
theorem mixed_batch_parks_its_last_change :
    ∃ after letter, (processArranged Example.reviewed default "orders" Example.backwards Example.mixed).exec
          (.ofStore Example.filled) = (.ok Example.mixedOutcomes, after) ∧
        after.store.letters = [letter] ∧ letter.queue = "review" ∧
        letter.table = some Example.orders.name ∧ letter.mutation = Example.change false true := by
  obtain ⟨after, hrun⟩ := Example.processArranged_mixed
  obtain ⟨config, plan, s₁, added, letters, hsource, -, hletters, hadded, hlength, hsuits⟩ :=
    parked_mutations_have_their_letters Example.reviewed default "orders" Example.backwards Example.mixed hrun
  cases hsource
  obtain ⟨first, second, third, fourth, rfl⟩ := List.length_eq_four.1 hlength
  have hnone (number : Nat) {o : Outcome} {letter : Option DeadLetter}
      (ho : Example.mixedOutcomes[number]? = some o) (hparked : ∀ queue, o.disposition ≠ .parked queue)
      (hget : [first, second, third, fourth][number]? = some letter) : letter = none := by
    obtain ⟨entry, found, -, hfound, hsuit⟩ := hsuits number o ho
    cases hfound.symm.trans hget
    generalize o.disposition = disposition at hparked hsuit
    cases hsuit with
    | none _ => rfl
    | failed _ => exact absurd rfl (hparked _)
    | parked _ => exact absurd rfl (hparked _)
  obtain rfl : first = none := hnone 0 rfl (by simp [Example.outcome]) rfl
  obtain rfl : second = none := hnone 1 rfl (by simp) rfl
  obtain rfl : third = none := hnone 2 rfl (by simp [Example.outcome]) rfl
  obtain ⟨entry, found, hentry, hfound, hsuit⟩ := hsuits 3 _ rfl
  have hchange : (entries Example.reviewed Example.feed Example.mixed)[3]? =
      some ⟨3, some Example.orders.name, Example.change false true⟩ := rfl
  cases hchange.symm.trans hentry
  cases hfound
  have hone {letter : DeadLetter} (h : fourth = some letter) : after.store.letters = [letter] := by
    subst h
    have hsingle : added = [letter] := List.perm_singleton.1 hadded
    rw [hletters, hsingle]
    rfl
  cases hsuit with
  | none hparked => exact absurd rfl (hparked "review")
  | failed _ => exact ⟨after, _, hrun, hone rfl, rfl, rfl, rfl⟩
  | parked _ => exact ⟨after, _, hrun, hone rfl, rfl, rfl, rfl⟩

end Tributary
