import Mathlib.Data.List.Forall2
import Tributary.Apply.Batch
import Tributary.Proofs.Script.Reports
import Tributary.Store.Memory

/-!
# Batches with panics

Two runs of a batch whose functions come to different reports of their panics. The reports are only seen in the letters
of the mutations that met the panics.

* `DeadLetter.Matches`: letters that differ in such a report at most.
* `Session.Matches`: sessions that differ in such letters only.
* `Run.Matches`: steps that come to matching results and sessions from matching sessions. `bind` is the rule for
  sequences, and there is one rule for each operation.
* `planBatch_matches`, `applyGroups_matches`: the stages of a batch, whose results are the same.
-/

namespace Tributary

variable {R : String → String → Prop}

/-! ## Letters -/

/-- Letters that are the same, or have the text of a panic and are otherwise the same. -/
inductive DeadLetter.Matches (R : String → String → Prop) : DeadLetter → DeadLetter → Prop
  | same (letter : DeadLetter) : Matches R letter letter
  | panicked (letter : DeadLetter) {a b : String} (h : R a b) :
    Matches R { letter with error := some (Fault.functionPanicked a).text }
      { letter with error := some (Fault.functionPanicked b).text }

/-! ## Steps -/

/-- The session with other letters. -/
def Session.withLetters (s : Session MemoryStore) (letters : List DeadLetter) : Session MemoryStore :=
  { s with store := { s.store with letters := letters } }

/-- Sessions that differ only in the letters of panics. -/
inductive Session.Matches (R : String → String → Prop) (s : Session MemoryStore) : Session MemoryStore → Prop
  | intro {letters : List DeadLetter} (h : List.Forall₂ (DeadLetter.Matches R) s.store.letters letters) :
    Matches R s (s.withLetters letters)

theorem Session.Matches.refl (s : Session MemoryStore) : s.Matches R s :=
  .intro (List.forall₂_same.2 fun letter _ => .same letter)

namespace Run

variable {α β γ δ : Type} {P : α → β → Prop} {Q : γ → δ → Prop}

/-- From matching sessions the steps come to matching results, and leave matching sessions. -/
structure Matches (R : String → String → Prop) (P : α → β → Prop) (x : Run MemoryStore α) (y : Run MemoryStore β) :
    Prop where
  run : ∀ {s t}, s.Matches R t →
    Result.Matches R P (x.exec s).1 (y.exec t).1 ∧ (x.exec s).2.Matches R (y.exec t).2

theorem Matches.pure {a : α} {b : β} (h : P a b) : Matches R P (pure a) (pure b) := ⟨fun hst => ⟨.ok h, hst⟩⟩

theorem Matches.throw {f g : Fault} (h : f.Matches R g) : Matches R P (throw f) (throw g) :=
  ⟨fun hst => ⟨.error h, hst⟩⟩

theorem Matches.liftM {r : Result α} {r' : Result β} (h : Result.Matches R P r r') :
    Matches R P (liftM r) (liftM r') := by
  refine ⟨fun hst => ?_⟩
  rw [exec_liftM, exec_liftM]
  exact ⟨h, hst⟩

theorem Matches.bind {x : Run MemoryStore α} {y : Run MemoryStore β} {f : α → Run MemoryStore γ}
    {g : β → Run MemoryStore δ} (hxy : Matches R P x y) (hfg : ∀ a b, P a b → Matches R Q (f a) (g b)) :
    Matches R Q (x >>= f) (y >>= g) := by
  refine ⟨fun {s t} hst => ?_⟩
  obtain ⟨hresult, hsessions⟩ := hxy.run hst
  rw [exec_bind, exec_bind]
  generalize x.exec s = r at hresult hsessions
  generalize y.exec t = r' at hresult hsessions
  obtain ⟨result, s'⟩ := r
  obtain ⟨result', t'⟩ := r'
  cases hresult with
  | ok h => exact (hfg _ _ h).run hsessions
  | error h => exact ⟨.error h, hsessions⟩

/-- Behind the same value the sequences go on from that value. -/
theorem Matches.bind_eq {x y : Run MemoryStore α} {f : α → Run MemoryStore γ} {g : α → Run MemoryStore δ}
    (hxy : Matches R Eq x y) (hfg : ∀ a, Matches R Q (f a) (g a)) : Matches R Q (x >>= f) (y >>= g) :=
  hxy.bind fun a _ h => h ▸ hfg a

theorem Matches.attempt {x : Run MemoryStore α} {y : Run MemoryStore β} (hxy : Matches R P x y) :
    Matches R (Result.Matches R P) x.attempt y.attempt :=
  ⟨fun hst => ⟨.ok (hxy.run hst).1, (hxy.run hst).2⟩⟩

theorem Matches.logged {x : Logged α} {y : Logged β} (htrace : x.trace = y.trace) (hvalue : P x.value y.value) :
    Matches R P (logged x) (logged y) := by
  refine ⟨fun hst => ⟨.ok hvalue, ?_⟩⟩
  cases hst with
  | intro h =>
    simp only [Run.logged, exec_ofFunction, htrace]
    exact .intro h

theorem Matches.fallible {x y : Logged.Fallible α} (h : Logged.Fallible.Matches R x y) :
    Matches R Eq (fallible x) (fallible y) := by
  refine ⟨fun hst => ⟨h.result, ?_⟩⟩
  cases hst with
  | intro hletters =>
    simp only [Run.fallible, exec_ofFunction, h.trace]
    exact .intro hletters

/-- An operation that does not look at the letters and leaves them. -/
theorem Matches.store {action : StoreAction MemoryStore α}
    (h : ∀ (store : MemoryStore) letters, action { store with letters := letters } =
      ((action store).1, { (action store).2 with letters := letters })) :
    Matches R Eq (store action) (store action) := by
  refine ⟨fun {s t} hst => ?_⟩
  cases hst with
  | @intro letters hletters =>
    have hkept : (action s.store).2.letters = s.store.letters := by
      rw [h s.store s.store.letters]
    simp only [Run.store, exec_ofFunction, Session.withLetters, h s.store letters]
    refine ⟨.refl _, .intro ?_⟩
    show List.Forall₂ (DeadLetter.Matches R) (action s.store).2.letters letters
    rw [hkept]
    exact hletters

theorem Matches.park {a b : DeadLetter} (h : a.Matches R b) : Matches R Eq (park a) (park b) := by
  refine ⟨fun hst => ⟨.ok rfl, ?_⟩⟩
  cases hst with
  | intro hletters => exact .intro (List.rel_append hletters (.cons h .nil))

theorem Matches.schemaOf (table : TableName) : Matches R Eq (schemaOf table) (schemaOf table) := by
  have hknown : Matches R Eq (known? table) (known? table) := by
    refine ⟨fun hst => ?_⟩
    cases hst with
    | intro h => exact ⟨.ok rfl, .intro h⟩
  have hremember (schema : Schema) : Matches R Eq (remember table schema) (remember table schema) := by
    refine ⟨fun hst => ⟨.ok rfl, ?_⟩⟩
    cases hst with
    | intro h => exact .intro h
  refine hknown.bind_eq fun known => ?_
  cases known with
  | some schema => exact .pure rfl
  | none =>
    refine Matches.bind_eq (.store fun store letters => rfl) fun shape => ?_
    cases shape with
    | none => exact .throw (.same _)
    | some schema => exact (hremember schema).bind_eq fun _ => .pure rfl

/-- What matching steps leave from one session: the same rows and expressions, and letters that match. -/
theorem Matches.observations {x y : Run MemoryStore α} (hxy : Matches R Eq x y) {s : Session MemoryStore} {a : α}
    (hrun : (x.exec s).1 = .ok a) :
    (y.exec s).1 = .ok a ∧
      (∀ id, (x.exec s).2.store.row? id = (y.exec s).2.store.row? id ∧
        (x.exec s).2.store.rowExprs id = (y.exec s).2.store.rowExprs id) ∧
      List.Forall₂ (DeadLetter.Matches R) (x.exec s).2.store.letters (y.exec s).2.store.letters := by
  obtain ⟨hresult, hsessions⟩ := hxy.run (.refl s)
  rw [hrun] at hresult
  generalize (x.exec s).2 = t at hsessions
  generalize (y.exec s).1 = result at hresult
  generalize (y.exec s).2 = t' at hsessions
  cases hresult with
  | ok h =>
    cases h
    cases hsessions with
    | intro hletters => exact ⟨rfl, fun _ => ⟨rfl, rfl⟩, hletters⟩

end Run

open Run

/-! ## Failures -/

theorem report_matches (index : Nat) (table : Option TableName) (key : Option RowKey) (disposition : Disposition) :
    Run.Matches R Eq (report index table key disposition) (report index table key disposition) :=
  (Run.Matches.logged rfl rfl).bind_eq fun _ => .pure rfl

theorem handleFailure_matches (options : Options) (source : String) (table : Option TableName) (m : Mutation)
    (operation : Option MergeOperation) {f g : Fault} (h : f.Matches R g) :
    Run.Matches R Eq (handleFailure options source table m operation f)
      (handleFailure options source table m operation g) := by
  have hletter : DeadLetter.Matches R ⟨options.defaultDlq, source, table, m, operation, some f.text⟩
      ⟨options.defaultDlq, source, table, m, operation, some g.text⟩ := by
    cases h with
    | same fault => exact .same _
    | panicked h => exact .panicked ⟨options.defaultDlq, source, table, m, operation, none⟩ h
  unfold handleFailure
  rw [h.action]
  cases g.action with
  | stop => exact .throw h
  | drop => exact .pure rfl
  | park => exact (Run.Matches.park hletter).bind_eq fun _ => .pure rfl

/-! ## Planning -/

section

variable {registry registry' : Registry} {source source' : SourceConfig}

/-- Routed source mutations that differ in the reports of panics only. -/
structure RoutedSource.Matches (R : String → String → Prop) (a b : RoutedSource) : Prop where
  index : a.index = b.index
  mutation : a.mutation = b.mutation
  result : Result.Matches R Eq a.result b.result

structure PreparedSource.Matches (R : String → String → Prop) (a b : PreparedSource) : Prop where
  placed : a.placed = b.placed
  result : Result.Matches R Eq a.result b.result

theorem routeAll_matches (hsource : source.Matches R source') (options : Options) (index : Nat)
    (batch : List Mutation) :
    Run.Matches R (List.Forall₂ (RoutedSource.Matches R)) (routeAll source options index batch)
      (routeAll source' options index batch) := by
  induction batch generalizing index with
  | nil => exact .pure .nil
  | cons m rest ih =>
    obtain ⟨htrace, hresult⟩ := route_matches options.functionTimeout hsource options.maxDepth m
    exact (Run.Matches.logged htrace hresult).bind fun _ _ h => (ih (index + 1)).bind fun _ _ hrest =>
      .pure (.cons ⟨rfl, rfl, h⟩ hrest)

theorem settleRouted_matches (options : Options) (name : String) (number : Nat) {routed routed' : List RoutedSource}
    (h : List.Forall₂ (RoutedSource.Matches R) routed routed') :
    Run.Matches R Eq (settleRouted options name number routed) (settleRouted options name number routed') := by
  induction h generalizing number with
  | nil => exact .pure rfl
  | @cons a b _ _ hab _ ih =>
    obtain ⟨index, m, result⟩ := a
    obtain ⟨index', m', result'⟩ := b
    obtain ⟨rfl, rfl, hresult⟩ := hab
    unfold settleRouted
    cases hresult with
    | error hfault =>
      exact (handleFailure_matches options name none m none hfault).bind_eq fun disposition =>
        (report_matches index none none disposition).bind_eq fun outcome => (ih (number + 1)).bind_eq fun _ => .pure rfl
    | ok h =>
      cases h
      split
      · exact (report_matches ..).bind_eq fun outcome => (ih (number + 1)).bind_eq fun _ => .pure rfl
      · exact (ih _).bind_eq fun _ => .pure rfl
      · rename_i h
        cases h

theorem prepare_matches (h : registry.Matches R registry') (clock : Clock) (placed : Placed) :
    Run.Matches R Eq (prepare registry clock placed) (prepare registry' clock placed) := by
  unfold prepare
  split
  · have hconfig := h.table placed.routed.table
    have hdeadlines : (registry'.table placed.routed.table).deadlines =
        (registry.table placed.routed.table).deadlines := by
      rw [hconfig.others]
    unfold prepareUpsert
    dsimp only
    rw [← h.options, hdeadlines]
    refine (Run.Matches.schemaOf _).bind_eq fun schema =>
      (Run.Matches.fallible (mapRow_matches _ hconfig schema _ _)).bind_eq fun mapped => ?_
    cases mapped with
    | none => exact .pure rfl
    | some row =>
      refine (Run.Matches.liftM (.refl _)).bind_eq fun expired => ?_
      cases expired with
      | some column => exact .pure rfl
      | none => exact (Run.Matches.liftM (.refl _)).bind_eq fun key => .pure rfl
  · split
    · exact .throw (.same _)
    · exact .pure rfl

theorem prepareAll_matches (h : registry.Matches R registry') (clock : Clock) (ps : List Placed) :
    Run.Matches R (List.Forall₂ (PreparedSource.Matches R)) (prepareAll registry clock ps)
      (prepareAll registry' clock ps) := by
  induction ps with
  | nil => exact .pure .nil
  | cons placed rest ih =>
    exact (prepare_matches h clock placed).attempt.bind fun _ _ hresult => ih.bind fun _ _ hrest =>
      .pure (.cons ⟨rfl, hresult⟩ hrest)

theorem settlePrepared_matches (options : Options) (name : String) {prepared prepared' : List PreparedSource}
    (h : List.Forall₂ (PreparedSource.Matches R) prepared prepared') :
    Run.Matches R Eq (settlePrepared options name prepared) (settlePrepared options name prepared') := by
  induction h with
  | nil => exact .pure rfl
  | @cons a b _ _ hab _ ih =>
    obtain ⟨placed, result⟩ := a
    obtain ⟨placed', result'⟩ := b
    obtain ⟨rfl, hresult⟩ := hab
    unfold settlePrepared
    cases hresult with
    | error hfault =>
      exact (handleFailure_matches options name _ _ none hfault).bind_eq fun disposition =>
        (report_matches ..).bind_eq fun outcome => ih.bind_eq fun _ => .pure rfl
    | @ok preparation _ h =>
      cases h
      cases preparation with
      | ready p => exact ih.bind_eq fun _ => .pure rfl
      | dropped reason => exact (report_matches ..).bind_eq fun outcome => ih.bind_eq fun _ => .pure rfl

/-- The plans of a batch are the same. -/
theorem planBatch_matches (h : registry.Matches R registry') (hsource : source.Matches R source') (clock : Clock)
    (batch : List Mutation) :
    Run.Matches R Eq (planBatch registry clock source batch) (planBatch registry' clock source' batch) := by
  unfold planBatch
  dsimp only
  rw [← h.options, ← hsource.name]
  refine (routeAll_matches hsource _ 0 batch).bind fun routed routed' hrouted => ?_
  refine (settleRouted_matches _ _ 0 hrouted).bind_eq fun pending => ?_
  refine (prepareAll_matches h clock pending.2).bind fun prepared prepared' hprepared => ?_
  exact (settlePrepared_matches _ _ hprepared).bind_eq fun ready => .pure rfl

end

/-! ## Applying -/

theorem MemoryStore.writeRow_of_letters (id : RowId) (write : RowWrite) (expected : ExpectedVersion)
    (s : MemoryStore) (letters : List DeadLetter) :
    writeRow id write expected { s with letters := letters } =
      ((writeRow id write expected s).1, { (writeRow id write expected s).2 with letters := letters }) := by
  have htable : ({ s with letters := letters } : MemoryStore).advance.hasTable id.table =
      s.advance.hasTable id.table := rfl
  have hstored : ({ s with letters := letters } : MemoryStore).advance.stored? id = s.advance.stored? id := rfl
  have hexprs (t : MemoryStore) : ({ t with letters := letters } : MemoryStore).putExprs id write.exprs =
      { t.putExprs id write.exprs with letters := letters } := by
    unfold putExprs
    split <;> rfl
  unfold writeRow
  dsimp only
  rw [htable, hstored]
  split
  · split
    · exact congrArg (Prod.mk _) (hexprs (s.advance.putRow id _))
    · rfl
  · rfl

theorem MemoryStore.deleteRow_of_letters (id : RowId) (s : MemoryStore) (letters : List DeadLetter) :
    deleteRow id { s with letters := letters } =
      ((deleteRow id s).1, { (deleteRow id s).2 with letters := letters }) := by
  have htable : ({ s with letters := letters } : MemoryStore).hasTable id.table = s.hasTable id.table := rfl
  unfold deleteRow
  rw [htable]
  split <;> rfl

section

variable {registry registry' : Registry} (h : registry.Matches R registry')

include h

theorem refreshBefore_matches (p : Prepared) (proposed : Document) (target : Option Document) (known : MappedBefore) :
    Run.Matches R Eq (refreshBefore registry p proposed target known)
      (refreshBefore registry' p proposed target known) := by
  have hconfig := h.table p.row.table
  have hneeds : needsBefore (registry'.table p.row.table) proposed target =
      needsBefore (registry.table p.row.table) proposed target := by
    -- what matters is that there is a strategy, not which one
    have hmerge : (registry.table p.row.table).merge.isSome = (registry'.table p.row.table).merge.isSome := by
      have hmerge := hconfig.merge
      generalize (registry.table p.row.table).merge = merge at hmerge
      generalize (registry'.table p.row.table).merge = merge' at hmerge
      cases hmerge <;> rfl
    unfold needsBefore
    rw [← hmerge, hconfig.others]
  have hmap (before : Document) :
      Run.Matches R Eq (mapBefore registry p before) (mapBefore registry' p before) := by
    unfold mapBefore
    dsimp only
    rw [← h.options]
    exact (Run.Matches.schemaOf _).bind_eq fun schema =>
      (Run.Matches.fallible (mapRow_matches _ hconfig schema _ _)).bind_eq fun mapped => .pure rfl
  unfold refreshBefore
  split
  · rw [hneeds]
    split
    · exact (hmap _).bind_eq fun mapped => .pure rfl
    · exact .pure rfl
  · exact .pure rfl

theorem decideResolution_matches (source : String) (p : Prepared) (current : Option StoredRow)
    {resolution resolution' : Resolution} (hresolution : resolution.Matches R resolution') :
    Run.Matches R Eq (decideResolution registry source p current resolution)
      (decideResolution registry' source p current resolution') := by
  have hfailed {f g : Fault} (hfault : f.Matches R g) (operation : MergeOperation) :
      Run.Matches R Eq (decideResolution registry source p current (.failed f operation))
        (decideResolution registry' source p current (.failed g operation)) := by
    unfold decideResolution
    rw [← h.options]
    exact (handleFailure_matches _ source _ _ _ hfault).bind_eq fun disposition => .pure rfl
  cases hresolution with
  | failed hfault operation => exact hfailed hfault operation
  | same resolution =>
    cases resolution with
    | apply data => exact .pure rfl
    | park queue operation => exact (Run.Matches.park (.same _)).bind_eq fun _ => .pure rfl
    | drop reason operation => exact .pure rfl
    | failed fault operation => exact hfailed (.same fault) operation

theorem decideWrite_matches (source : String) (p : Prepared) (proposed : Document) (known : MappedBefore) :
    Run.Matches R Eq (decideWrite registry source p proposed known)
      (decideWrite registry' source p proposed known) := by
  unfold decideWrite
  rw [(h.table p.row.table).isCas]
  split
  · unfold decideCas
    dsimp only
    rw [← h.options]
    refine Run.Matches.bind_eq (.store fun store letters => rfl) fun current => ?_
    refine (refreshBefore_matches h p proposed _ known).bind_eq fun before => ?_
    obtain ⟨htrace, hresolution⟩ := resolve_matches registry.options.functionTimeout
      (h.table p.row.table) ⟨p.row.table, proposed, before.join, p.mutation.origin⟩ (current.map StoredRow.data)
    refine (Run.Matches.logged htrace hresolution).bind fun resolution resolution' hresolution => ?_
    exact (decideResolution_matches h source p current hresolution).bind_eq fun decision => .pure rfl
  · exact .pure rfl

theorem upsertWithin_matches (source : String) (p : Prepared) (row : MappedRow) (total attempts : Nat)
    (known : MappedBefore) :
    Run.Matches R Eq (upsertWithin registry source p row total attempts known)
      (upsertWithin registry' source p row total attempts known) := by
  induction attempts generalizing known with
  | zero => exact .throw (.same _)
  | succ attempts ih =>
    unfold upsertWithin
    refine (decideWrite_matches h source p row.row known).bind_eq fun decided => ?_
    obtain ⟨decision, known⟩ := decided
    cases decision with
    | settled disposition => exact .pure rfl
    | write data expected =>
      refine Run.Matches.bind_eq (.store (MemoryStore.writeRow_of_letters _ _ _)) fun outcome => ?_
      cases outcome with
      | written => exact .pure rfl
      | versionMismatch => exact ih known

theorem applyPrepared_matches (source : String) (p : Prepared) :
    Run.Matches R Eq (applyPrepared registry source p) (applyPrepared registry' source p) := by
  unfold applyPrepared
  split
  · unfold applyUpsert
    rw [← h.options]
    exact upsertWithin_matches h source p _ _ _ none
  · exact Run.Matches.bind_eq (.store (MemoryStore.deleteRow_of_letters _)) fun _ => .pure rfl

theorem applyGroup_matches (source : String) (ps : List Prepared) :
    Run.Matches R Eq (applyGroup registry source ps) (applyGroup registry' source ps) := by
  induction ps with
  | nil => exact .pure rfl
  | cons p rest ih =>
    unfold applyGroup
    rw [← h.options]
    refine (applyPrepared_matches h source p).attempt.bind fun result result' hresult => ?_
    cases hresult with
    | ok hdisposition =>
      cases hdisposition
      exact (Run.Matches.pure rfl).bind_eq fun disposition =>
        (report_matches ..).bind_eq fun outcome => ih.bind_eq fun others => .pure rfl
    | error hfault =>
      exact (handleFailure_matches _ source _ _ none hfault).bind_eq fun disposition =>
        (report_matches ..).bind_eq fun outcome => ih.bind_eq fun others => .pure rfl

theorem applyGroups_matches (source : String) (groups : List (List Prepared)) :
    Run.Matches R Eq (applyGroups registry source groups) (applyGroups registry' source groups) := by
  induction groups with
  | nil => exact .pure rfl
  | cons group rest ih =>
    exact (applyGroup_matches h source group).bind_eq fun outcomes => ih.bind_eq fun others => .pure rfl

end

end Tributary
