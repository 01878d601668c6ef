import Tributary.Proofs.Apply.Sequential
import Tributary.Proofs.Fault.Containment
import Tributary.Proofs.Merge.Given
import Tributary.Store.Contended

/-!
# What dead letters say of a merge

The letter of an upsert that a merge function leaves unresolved holds the operation of the conflict. A custom
merge function is given just this operation. The fallback of the standard merge is given more: the columns that
could not be merged, of which the letter says nothing.

* `KeepsLetters`: stores that add dead letters when they are told to, and at no other time.
* `Run.Leaves`: which calls a step records and what it adds to a list in the store, whether or not it fails.
* `letter_has_operation_without_unmerged`: the letter for what the function was given, over any number of attempts.
-/

namespace Tributary

/-- Dead letters are added by parking, and by nothing else. -/
structure KeepsLetters {σ : Type} [TargetStore σ] (letters : σ → List DeadLetter) : Prop where
  tableSchema : ∀ table s, letters (TargetStore.tableSchema table s).2 = letters s
  readRow : ∀ id s, letters (TargetStore.readRow id s).2 = letters s
  writeRow : ∀ id write expected s, letters (TargetStore.writeRow id write expected s).2 = letters s
  park : ∀ letter s, (TargetStore.park letter s).1 = .ok () ∧
    letters (TargetStore.park letter s).2 = letters s ++ [letter]

theorem MemoryStore.letters_writeRow (id : RowId) (write : RowWrite) (expected : ExpectedVersion) (s : MemoryStore) :
    (MemoryStore.writeRow id write expected s).2.letters = s.letters := by
  unfold MemoryStore.writeRow putExprs
  dsimp only
  split
  · split
    · split <;> rfl
    · rfl
  · rfl

theorem MemoryStore.keepsLetters : KeepsLetters MemoryStore.letters where
  tableSchema _ _ := rfl
  readRow _ _ := rfl
  writeRow := letters_writeRow
  park _ _ := ⟨rfl, rfl⟩

theorem ContendedStore.letters_interfere (id : RowId) (expected : ExpectedVersion) (s : ContendedStore) :
    (ContendedStore.interfere id expected s).2.inner.letters = s.inner.letters := by
  unfold ContendedStore.interfere
  split
  · unfold MemoryStore.insertRow
    dsimp only
    split <;> rfl
  · rfl

theorem ContendedStore.keepsLetters : KeepsLetters fun s : ContendedStore => s.inner.letters where
  tableSchema _ _ := rfl
  readRow _ _ := rfl
  writeRow id write expected s := by
    have hinterfere := letters_interfere id expected s
    show (ContendedStore.writeRow id write expected s).2.inner.letters = _
    unfold ContendedStore.writeRow
    generalize interfere id expected s = r at hinterfere
    obtain ⟨result, s'⟩ := r
    cases result with
    | error fault => exact hinterfere
    | ok _ => exact (MemoryStore.letters_writeRow ..).trans hinterfere
  park _ _ := ⟨rfl, rfl⟩

/-! ## Calls of steps, and what they add -/

namespace Run

variable {σ α β γ : Type} {view : σ → List γ}

/-- The calls that a step records and what it adds to a list in the store, such as dead letters, suit its result. -/
structure Leaves (view : σ → List γ) (P : Result α → List Call → List γ → Prop)
    (x : Run σ α) : Prop where
  left : ∀ s, ∃ calls more, (x.exec s).2.trace.calls = s.trace.calls ++ calls ∧
    view (x.exec s).2.store = view s.store ++ more ∧ P (x.exec s).1 calls more

variable {P : Result α → List Call → List γ → Prop} {Q : Result β → List Call → List γ → Prop}

theorem Leaves.mono {P' : Result α → List Call → List γ → Prop} {x : Run σ α} (hx : Leaves view P x)
    (h : ∀ r calls more, P r calls more → P' r calls more) : Leaves view P' x := by
  refine ⟨fun s => ?_⟩
  obtain ⟨calls, more, hcalls, hmore, hresult⟩ := hx.left s
  exact ⟨calls, more, hcalls, hmore, h _ _ _ hresult⟩

/-- A step that adds nothing to the list. -/
theorem Leaves.of_exec {x : Run σ α} (h : ∀ s, view (x.exec s).2.store = view s.store ∧
    ∃ calls, (x.exec s).2.trace.calls = s.trace.calls ++ calls ∧ P (x.exec s).1 calls []) : Leaves view P x := by
  refine ⟨fun s => ?_⟩
  obtain ⟨hview, calls, hcalls, hresult⟩ := h s
  exact ⟨calls, [], hcalls, hview.trans (List.append_nil _).symm, hresult⟩

theorem Leaves.pure {a : α} (h : P (.ok a) [] []) : Leaves view P (pure a) :=
  .of_exec fun _ => ⟨rfl, [], (List.append_nil _).symm, h⟩

theorem Leaves.logged (x : Logged α) :
    Leaves view (fun r calls more => r = .ok x.value ∧ calls = x.trace.calls ∧ more = [])
      (Run.logged x : Run σ α) := .of_exec fun _ => ⟨rfl, _, rfl, rfl, rfl, rfl⟩

theorem Leaves.throw {fault : Fault} (h : P (.error fault) [] []) : Leaves view P (throw fault) :=
  .of_exec fun _ => ⟨rfl, [], (List.append_nil _).symm, h⟩

theorem Leaves.bind {x : Run σ α} {f : α → Run σ β} (hx : Leaves view P x)
    (herror : ∀ fault calls more, P (.error fault) calls more → Q (.error fault) calls more)
    (hf : ∀ a calls more, P (.ok a) calls more →
      Leaves view (fun r later rest => Q r (calls ++ later) (more ++ rest)) (f a)) :
    Leaves view Q (x >>= f) := by
  refine ⟨fun s => ?_⟩
  obtain ⟨calls, more, hcalls, hmore, hresult⟩ := hx.left s
  rw [exec_bind]
  generalize x.exec s = r at hcalls hmore hresult
  obtain ⟨result, s'⟩ := r
  cases result with
  | error fault => exact ⟨calls, more, hcalls, hmore, herror fault calls more hresult⟩
  | ok a =>
    obtain ⟨later, rest, hlater, hrest, hlast⟩ := (hf a calls more hresult).left s'
    refine ⟨calls ++ later, more ++ rest, ?_, ?_, hlast⟩
    · rw [← List.append_assoc, ← hcalls]
      exact hlater
    · rw [← List.append_assoc, ← hmore]
      exact hrest

theorem Leaves.attempt {x : Run σ α} (hx : Leaves view P x) :
    Leaves view (fun r calls more => ∃ result, r = .ok result ∧ P result calls more) x.attempt := by
  refine ⟨fun s => ?_⟩
  obtain ⟨calls, more, hcalls, hmore, hresult⟩ := hx.left s
  exact ⟨calls, more, hcalls, hmore, _, rfl, hresult⟩

/-- No merge function is called. -/
def NoMerge (calls : List Call) : Prop := ∀ given, Call.merge given ∉ calls

/-- A step that calls no merge function and adds nothing to the list. -/
abbrev Quiet (view : σ → List γ) (x : Run σ α) : Prop :=
  Leaves view (fun _ calls more => NoMerge calls ∧ more = []) x

theorem noMerge_nil : NoMerge [] := fun _ h => absurd h List.not_mem_nil

theorem Quiet.pure {a : α} : Quiet view (pure a : Run σ α) := Leaves.pure ⟨noMerge_nil, rfl⟩

theorem Quiet.throw {fault : Fault} : Quiet view (throw fault : Run σ α) := Leaves.throw ⟨noMerge_nil, rfl⟩

theorem Quiet.store {action : StoreAction σ α} (h : ∀ s, view (action s).2 = view s) :
    Quiet view (Run.store action) :=
  .of_exec fun s => ⟨h s.store, [], (List.append_nil _).symm, noMerge_nil, rfl⟩

theorem Quiet.fallible {x : Logged.Fallible α} (h : NoMerge x.attempt.trace.calls) :
    Quiet view (Run.fallible x : Run σ α) := .of_exec fun _ => ⟨rfl, _, rfl, h, rfl⟩

theorem Quiet.bind {x : Run σ α} {f : α → Run σ β} (hx : Quiet view x) (hf : ∀ a, Quiet view (f a)) :
    Quiet view (x >>= f) := by
  refine Leaves.bind hx (fun _ _ _ h => h) fun a calls more h => (hf a).mono fun r later rest h' => ?_
  refine ⟨fun given hin => ?_, by rw [h.2, h'.2]; rfl⟩
  rcases List.mem_append.1 hin with hin | hin
  · exact h.1 given hin
  · exact h'.1 given hin

end Run

/-! ## Letters -/

/-- Where a merge function leaves a mutation unresolved: the queue, and the text of the failure if it failed. -/
def refusal? (dlq : String) : Result MergeResult → Option (String × Option String)
  | .error fault => some (dlq, some fault.text)
  | .ok (.park queue) => some (queue, none)
  | .ok (.apply _) | .ok .drop => none

/-- The letter for an upsert that is parked with the operation of its conflict. -/
def Prepared.letter (p : Prepared) (source queue : String) (op : MergeOperation) (error : Option String) : DeadLetter :=
  ⟨queue, source, some p.row.table, p.mutation, some op, error⟩

/-- The letter that a resolution demands. -/
def Resolution.letter? (dlq source : String) (p : Prepared) : Resolution → Option DeadLetter
  | .apply _ | .drop _ _ => none
  | .park queue op => some (p.letter source queue op none)
  | .failed fault op => some (p.letter source dlq op (some fault.text))

theorem letter?_ofResult (dlq source : String) (p : Prepared) (op : MergeOperation) (result : Result MergeResult) :
    (Resolution.ofResult op result).letter? dlq source p =
      (refusal? dlq result).map fun e => p.letter source e.1 op e.2 := by
  cases result with
  | error fault => rfl
  | ok decision => cases decision <;> rfl

open Run

section

variable {σ : Type} [TargetStore σ] {letters : σ → List DeadLetter} {registry : Registry} {source : String}
  {p : Prepared}

theorem mapRow_noMerge (config : TableConfig) (schema : Schema) (timeout : Span) (doc origin : Document) :
    NoMerge (mapRow config schema timeout doc origin).attempt.trace.calls := by
  intro given hin
  rw [mapRow_calls, TableConfig.mapCalls] at hin
  split at hin
  · cases List.mem_singleton.1 hin
  · cases hin

theorem schemaOf_quiet {γ : Type} {view : σ → List γ}
    (h : ∀ table s, view (TargetStore.tableSchema table s).2 = view s) (table : TableName) :
    Quiet view (schemaOf table : Run σ Schema) := by
  unfold schemaOf
  refine Quiet.bind (.of_exec fun s => ⟨rfl, [], (List.append_nil _).symm, noMerge_nil, rfl⟩) fun known => ?_
  cases known with
  | some schema => exact .pure
  | none =>
    refine (Quiet.store (h table)).bind fun found => ?_
    cases found with
    | none => exact .throw
    | some schema =>
      exact Quiet.bind (.of_exec fun s => ⟨rfl, [], (List.append_nil _).symm, noMerge_nil, rfl⟩) fun _ => .pure

theorem refreshBefore_quiet {γ : Type} {view : σ → List γ}
    (h : ∀ table s, view (TargetStore.tableSchema table s).2 = view s) (proposed : Document)
    (target : Option Document) (known : MappedBefore) :
    Quiet view (refreshBefore registry p proposed target known : Run σ _) := by
  unfold refreshBefore
  split
  · split
    · refine Quiet.bind ?_ fun _ => .pure
      exact (schemaOf_quiet h _).bind fun _ => (Quiet.fallible (mapRow_noMerge _ _ _ _ _)).bind fun _ => .pure
    · exact .pure
  · exact .pure

theorem park_leaves (h : KeepsLetters letters) (letter : DeadLetter) :
    Leaves letters (fun r calls more => r = .ok () ∧ calls = [] ∧ more = [letter]) (park letter) := by
  refine ⟨fun s => ⟨[], [letter], (List.append_nil _).symm, ?_⟩⟩
  obtain ⟨hok, hletters⟩ := h.park letter s.store
  exact ⟨hletters, hok, rfl, rfl⟩

/-- A mutation with a letter is parked, and one without is not. -/
def Parks (letter : Option DeadLetter) (r : Result Decision) (calls : List Call) (more : List DeadLetter) : Prop :=
  calls = [] ∧ more = letter.toList ∧ ∀ l ∈ letter, r = .ok (.settled (.parked l.queue))

theorem park_parks (h : KeepsLetters letters) (letter : DeadLetter) :
    Leaves letters (Parks (some letter)) (park letter >>= fun _ => pure (.settled (.parked letter.queue))) := by
  refine (park_leaves h letter).bind (fun _ _ _ hpark => by cases hpark.1) fun _ calls more hpark => .pure ?_
  obtain ⟨-, rfl, rfl⟩ := hpark
  exact ⟨rfl, rfl, fun l hl => by cases hl; rfl⟩

/-- What a resolution demands is parked, provided that its fault is of a kind for which mutations are. -/
theorem decideResolution_parks (h : KeepsLetters letters) (current : Option StoredRow) {resolution : Resolution}
    (hparked : ∀ fault op, resolution = .failed fault op → fault.Parked) :
    Leaves letters (Parks (resolution.letter? registry.options.defaultDlq source p))
      (decideResolution registry source p current resolution) := by
  cases resolution with
  | apply data => exact .pure ⟨rfl, rfl, fun _ hl => by cases hl⟩
  | drop reason op => exact .pure ⟨rfl, rfl, fun _ hl => by cases hl⟩
  | park queue op => exact park_parks h _
  | failed fault op =>
    have hpark : decideResolution registry source p current (.failed fault op) =
        (park (p.letter source registry.options.defaultDlq op (some fault.text)) >>= fun _ =>
          pure (.settled (.parked registry.options.defaultDlq)) : Run σ Decision) := by
      have haction : fault.action = .park := hparked fault op rfl
      show (handleFailure registry.options source (some p.row.table) p.mutation (some op) fault >>= fun disposition =>
        pure (.settled disposition) : Run σ Decision) = _
      rw [handleFailure, haction]
      exact bind_assoc ..
    rw [hpark]
    exact park_parks h _

/-! ## Upserts -/

variable {strategy : MergeStrategy} {merge : MergeFunction}

/-- Operations that the merge function was given list unmerged columns exactly if it is a fallback. Where it left
one unresolved, the mutation is settled in a queue, and the one letter holds the operation without these columns. -/
def Told (registry : Registry) (source : String) (p : Prepared) (strategy : MergeStrategy) (merge : MergeFunction)
    (settled : String → Prop) (calls : List Call) (more : List DeadLetter) : Prop :=
  ∀ given, .merge given ∈ calls → (given.unmerged = [] ↔ strategy.isCustom = true) ∧
    ∀ e, refusal? registry.options.defaultDlq
        (runMerge registry.options.functionTimeout merge given).attempt.value = some e →
      more = [p.letter source e.1 { given with unmerged := [] } e.2] ∧ settled e.1

/-- What a decision leaves. -/
def Decided (registry : Registry) (source : String) (p : Prepared) (strategy : MergeStrategy)
    (merge : MergeFunction) (r : Result (Decision × MappedBefore)) (calls : List Call) (more : List DeadLetter) :
    Prop :=
  Told registry source p strategy merge (fun queue => ∃ known, r = .ok (.settled (.parked queue), known)) calls more ∧
    ∀ data expected known, r = .ok (.write data expected, known) → more = []

theorem Told.of_noMerge {settled : String → Prop} {calls : List Call} {more : List DeadLetter}
    (h : NoMerge calls) : Told registry source p strategy merge settled calls more :=
  fun given hin => absurd hin (h given)

theorem Told.mono {settled settled' : String → Prop} {calls : List Call} {more : List DeadLetter}
    (h : Told registry source p strategy merge settled calls more)
    (hsettled : ∀ queue, settled queue → settled' queue) :
    Told registry source p strategy merge settled' calls more := by
  intro given hin
  obtain ⟨hcustom, hrefused⟩ := h given hin
  refine ⟨hcustom, fun e he => ?_⟩
  obtain ⟨hmore, hqueue⟩ := hrefused e he
  exact ⟨hmore, hsettled e.1 hqueue⟩

/-- What is told goes on behind calls of which none left the mutation unresolved. -/
theorem Told.append {settled : String → Prop} {calls later : List Call} {rest : List DeadLetter}
    (h : Told registry source p strategy merge (fun _ => False) calls [])
    (h' : Told registry source p strategy merge settled later rest) :
    Told registry source p strategy merge settled (calls ++ later) rest := by
  intro given hin
  rcases List.mem_append.1 hin with hin | hin
  · obtain ⟨hcustom, hrefused⟩ := h given hin
    exact ⟨hcustom, fun e he => (hrefused e he).2.elim⟩
  · exact h' given hin

/-- The letter of a resolution is the one that its merge function brought about. -/
theorem told_of_parks (hstrategy : (registry.table p.row.table).merge = some strategy)
    (hfunction : strategy.function? = some merge) (proposal : Proposal) (target : Option Document)
    {r : Result Decision} {calls : List Call} {more : List DeadLetter}
    (h : Parks ((resolve (registry.table p.row.table) registry.options.functionTimeout proposal target).value.letter?
      registry.options.defaultDlq source p) r calls more) :
    Told registry source p strategy merge (fun queue => r = .ok (.settled (.parked queue)))
      ((resolve (registry.table p.row.table) registry.options.functionTimeout proposal target).trace.calls ++ calls)
      more := by
  obtain ⟨rfl, rfl, hsettled⟩ := h
  rw [List.append_nil]
  intro given hin
  obtain ⟨hvalue, hcustom⟩ := resolve_of_given hstrategy hfunction hin
  refine ⟨hcustom, fun e he => ?_⟩
  have hletter := letter?_ofResult registry.options.defaultDlq source p { given with unmerged := [] }
    (runMerge registry.options.functionTimeout merge given).attempt.value
  rw [← hvalue, he] at hletter
  rw [hletter] at hsettled ⊢
  exact ⟨rfl, hsettled _ rfl⟩

omit [TargetStore σ] in
theorem Run.Quiet.then_decided {α : Type} {x : Run σ α} {f : α → Run σ (Decision × MappedBefore)}
    (hx : Quiet letters x) (hf : ∀ a, Leaves letters (Decided registry source p strategy merge) (f a)) :
    Leaves letters (Decided registry source p strategy merge) (x >>= f) := by
  refine Leaves.bind hx (fun fault calls more h => ?_) fun a calls more h => (hf a).mono fun r later rest h' => ?_
  · exact ⟨.of_noMerge h.1, fun _ _ _ hr => by cases hr⟩
  · rw [h.2]
    exact ⟨.append (.of_noMerge h.1) h'.1, h'.2⟩

theorem decideCas_decided (h : KeepsLetters letters) (hstrategy : (registry.table p.row.table).merge = some strategy)
    (hfunction : strategy.function? = some merge) (proposed : Document) (known : MappedBefore) :
    Leaves letters (Decided registry source p strategy merge)
      (decideCas registry source p proposed known : Run σ _) := by
  refine (Quiet.store (h.readRow p.row)).then_decided fun current => ?_
  refine (refreshBefore_quiet h.tableSchema proposed _ known).then_decided fun before => ?_
  -- the call is recorded first, and then comes what is done with the resolution
  refine (Leaves.logged _).bind (fun _ _ _ hr => by cases hr.1) ?_
  rintro resolution calls more ⟨hr, rfl, rfl⟩
  cases hr
  refine (decideResolution_parks h current fun fault op => resolve_parked).bind (fun fault later rest hparks => ?_)
    fun decision later rest hparks => .pure ?_
  · refine ⟨(told_of_parks hstrategy hfunction _ _ hparks).mono fun queue hqueue => ?_, fun _ _ _ hr => ?_⟩
    · cases hqueue
    · cases hr
  · rw [List.append_nil, List.append_nil]
    refine ⟨(told_of_parks hstrategy hfunction _ _ hparks).mono fun queue hqueue => ?_, ?_⟩
    · cases hqueue
      exact ⟨before, rfl⟩
    · intro data expected known' hr
      obtain ⟨-, rfl, hsettled⟩ := hparks
      cases hr
      rw [List.nil_append, Option.toList_eq_nil_iff, Option.eq_none_iff_forall_not_mem]
      intro letter hletter
      cases hsettled letter hletter

theorem upsertWithin_told (h : KeepsLetters letters)
    (hstrategy : (registry.table p.row.table).merge = some strategy)
    (hfunction : strategy.function? = some merge) (row : MappedRow) (total attempts : Nat) (known : MappedBefore) :
    Leaves letters (fun r => Told registry source p strategy merge fun queue => r = .ok (.parked queue))
      (upsertWithin registry source p row total attempts known : Run σ _) := by
  induction attempts generalizing known with
  | zero => exact .throw (.of_noMerge noMerge_nil)
  | succ attempts ih =>
    have hdecided : Leaves letters (Decided registry source p strategy merge)
        (decideWrite registry source p row.row known : Run σ _) := by
      unfold decideWrite
      split
      · exact decideCas_decided h hstrategy hfunction row.row known
      · exact .pure ⟨.of_noMerge noMerge_nil, fun _ _ _ _ => rfl⟩
    unfold upsertWithin
    refine hdecided.bind (fun fault calls more hdecision => ?_) ?_
    · refine hdecision.1.mono fun queue hqueue => ?_
      obtain ⟨_, hqueue⟩ := hqueue
      cases hqueue
    · rintro ⟨decision, known'⟩ calls more ⟨htold, hwrite⟩
      cases decision with
      | settled disposition =>
        refine .pure ?_
        rw [List.append_nil, List.append_nil]
        refine htold.mono fun queue hqueue => ?_
        obtain ⟨_, hqueue⟩ := hqueue
        cases hqueue
        rfl
      | write data expected =>
        -- the function was content with what is written, so that nothing is told of its calls up to here
        obtain rfl := hwrite data expected known' rfl
        have hcontent : Told registry source p strategy merge (fun _ => False) calls [] := by
          refine htold.mono fun queue hqueue => ?_
          obtain ⟨_, hqueue⟩ := hqueue
          cases hqueue
        refine Leaves.bind (Quiet.store (h.writeRow p.row ⟨data, row.exprs⟩ expected)) (fun fault later rest hq => ?_)
          fun outcome later rest hq => ?_
        · exact hcontent.append (.of_noMerge hq.1)
        · obtain ⟨hnone, rfl⟩ := hq
          cases outcome with
          | written =>
            refine .pure (hcontent.append ?_)
            rw [List.append_nil]
            exact .of_noMerge hnone
          | versionMismatch =>
            refine (ih known').mono fun r later' rest' htold' => ?_
            exact hcontent.append (.append (.of_noMerge hnone) htold')

/-- The dead letter of an upsert that its merge function leaves unresolved holds the operation that the function
was given, but without the unmerged columns. It is the whole operation exactly if the function is a custom one. -/
theorem letter_has_operation_without_unmerged (hletters : KeepsLetters letters) (registry : Registry) (source : String)
    (p : Prepared) (row : MappedRow) {strategy : MergeStrategy} {merge : MergeFunction}
    (hstrategy : (registry.table p.row.table).merge = some strategy) (hfunction : strategy.function? = some merge)
    (s : Session σ) {given : MergeOperation}
    (hgiven : .merge given ∈ ((applyUpsert registry source p row).exec s).2.trace.calls.drop s.trace.calls.length)
    {queue : String} {error : Option String}
    (hrefused : refusal? registry.options.defaultDlq
      (runMerge registry.options.functionTimeout merge given).attempt.value = some (queue, error)) :
    ((applyUpsert registry source p row).exec s).1 = .ok (.parked queue) ∧
      ∃ kept, letters ((applyUpsert registry source p row).exec s).2.store =
          letters s.store ++ [⟨queue, source, some p.row.table, p.mutation, some kept, error⟩] ∧
        kept = { given with unmerged := [] } ∧ (kept = given ↔ strategy.isCustom = true) := by
  obtain ⟨calls, more, hcalls, hmore, htold⟩ :=
    (upsertWithin_told hletters hstrategy hfunction row registry.options.attempts registry.options.attempts
      none).left s
  have hin : .merge given ∈ calls := by
    have hdrop : ((applyUpsert registry source p row).exec s).2.trace.calls.drop s.trace.calls.length = calls := by
      show ((upsertWithin registry source p row _ _ none).exec s).2.trace.calls.drop _ = _
      rw [hcalls, List.drop_left]
    rwa [hdrop] at hgiven
  obtain ⟨hcustom, hsays⟩ := htold given hin
  obtain ⟨rfl, hparked⟩ := hsays _ hrefused
  refine ⟨hparked, _, hmore, rfl, ?_⟩
  rw [← hcustom]
  constructor
  · intro hsame
    rw [← hsame]
  · intro hnone
    rw [← hnone]

end

namespace Example

/-- A merge function that panics. -/
def lost : MergeFunction := fun _ => ⟨0, .panic "lost"⟩

/-- A registry in which conflicts of the table are merged, and what cannot be merged makes a fallback panic. -/
def baffled : Registry :=
  ⟨.default, Keyed.empty.put "orders" feed, Keyed.empty.put orders.name
    { TableConfig.plain with cas := ["paid"], merge := some (.standard (some lost)) }⟩

/-- An upsert that would take back a payment, ready for its row. -/
def refund : Prepared :=
  ⟨⟨0, 0, ⟨orders.name, change false true⟩⟩, ⟨[.bool true]⟩, .upsert ⟨content false, []⟩⟩

/-- A session with a store that holds the payment. -/
def settledUp : Session MemoryStore :=
  .ofStore (StoreOp.runAll [.createTable orders, .insert order (content true)] .empty)

/-- What the fallback is given. -/
def takenBack : MergeOperation := ⟨none, .empty, content false, content true, ["paid"]⟩

/-- What becomes of the upsert. -/
def refunded : Result Disposition × Session MemoryStore :=
  (applyUpsert baffled "orders" refund ⟨content false, []⟩).exec settledUp

theorem fallback_is_given_takenBack : .merge takenBack ∈ refunded.2.trace.calls := by decide +kernel

end Example

/-- The panic of a fallback parks an upsert, with a letter that does not name the column it could not merge. -/
theorem letter_of_panic_lacks_column :
    Example.refunded.1 = .ok (.parked Example.baffled.options.defaultDlq) ∧
      ∃ error, Example.refunded.2.store.letters = [⟨Example.baffled.options.defaultDlq, "orders",
        some Example.orders.name, Example.change false true,
        some { Example.takenBack with unmerged := [] }, error⟩] := by
  have hgiven : .merge Example.takenBack ∈
      Example.refunded.2.trace.calls.drop Example.settledUp.trace.calls.length :=
    Example.fallback_is_given_takenBack
  have hstrategy : (Example.baffled.table Example.refund.row.table).merge =
      some (.standard (some Example.lost)) := rfl
  obtain ⟨hparked, kept, hletters, rfl, -⟩ :=
    letter_has_operation_without_unmerged MemoryStore.keepsLetters Example.baffled "orders" Example.refund
      ⟨Example.content false, []⟩ hstrategy rfl Example.settledUp hgiven rfl
  exact ⟨hparked, _, hletters⟩

/-- The fallback was given the column `paid` as unmerged, and the letter has another operation. Letters do not
always hold what the merge function was given. -/
theorem letter_is_not_what_fallback_was_given :
    (.merge Example.takenBack ∈ Example.refunded.2.trace.calls ∧
        Example.refunded.2.store.letters.map DeadLetter.operation ≠ [some Example.takenBack]) ∧
      ¬ ∀ (registry : Registry) (source : String) (p : Prepared) (row : MappedRow) (strategy : MergeStrategy)
          (merge : MergeFunction) (s : Session MemoryStore) (given : MergeOperation),
        (registry.table p.row.table).merge = some strategy → strategy.function? = some merge →
        .merge given ∈ ((applyUpsert registry source p row).exec s).2.trace.calls.drop s.trace.calls.length →
        (refusal? registry.options.defaultDlq
          (runMerge registry.options.functionTimeout merge given).attempt.value).isSome = true →
        ∃ letter : DeadLetter, ((applyUpsert registry source p row).exec s).2.store.letters =
          s.store.letters ++ [letter] ∧ letter.operation = some given := by
  have hother : Example.refunded.2.store.letters.map DeadLetter.operation ≠ [some Example.takenBack] := by
    decide +kernel
  refine ⟨⟨Example.fallback_is_given_takenBack, hother⟩, fun hclaimed => ?_⟩
  obtain ⟨letter, hletters, hoperation⟩ := hclaimed Example.baffled "orders" Example.refund
    ⟨Example.content false, []⟩ (.standard (some Example.lost)) Example.lost Example.settledUp
    Example.takenBack rfl rfl Example.fallback_is_given_takenBack rfl
  have hletters : Example.refunded.2.store.letters = [letter] := hletters
  rw [hletters, List.map_singleton, hoperation] at hother
  exact hother rfl

end Tributary
