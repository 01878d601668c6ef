import Tributary.Proofs.Apply.Refinement
import Tributary.Apply.Batch

/-!
# What steps keep and what they add

A view of a session is whatever can be read off it, such as its store or the counts of a counter. A step
keeps a view if the view is the same afterwards, and adds to a view that is a list if what was there stays in
front. Both hold whether or not the step fails, and on every store.

* `Run.Keeps`, `Run.Adds`: their rules for sequences say what sequences keep and add.
* `Logged.Silent`: a computation that counts none of what happens to mutations. Routing, mapping and
  resolving conflicts are such, since they count nothing but conflicts and failed calls.
* `Steady`: views that neither look at shapes of tables nor at silent records.
* `prepare_keeps`, `refreshBefore_keeps`, `routeAll_keeps`: stages of a batch that keep all steady views.
-/

namespace Tributary

namespace Run

variable {σ α β γ : Type}

/-- A step after which a view of the session is what it was before. -/
structure Keeps (view : Session σ → γ) (x : Run σ α) : Prop where
  kept : ∀ s, view (x.exec s).2 = view s

/-- A step that adds something to a view of the session, which suits the result if there is one. -/
structure Adds (view : Session σ → List γ) (P : α → List γ → Prop) (x : Run σ α) : Prop where
  added : ∀ s, ∃ more, view (x.exec s).2 = view s ++ more ∧ ∀ a, (x.exec s).1 = .ok a → P a more

theorem Keeps.pure {view : Session σ → γ} (a : α) : Keeps view (pure a : Run σ α) := ⟨fun _ => rfl⟩

theorem Keeps.throw {view : Session σ → γ} (fault : Fault) : Keeps view (throw fault : Run σ α) :=
  ⟨fun _ => rfl⟩

theorem Keeps.liftM {view : Session σ → γ} (r : Result α) : Keeps view (liftM r : Run σ α) :=
  ⟨fun s => by rw [exec_liftM]⟩

theorem Keeps.attempt {view : Session σ → γ} {x : Run σ α} (hx : Keeps view x) :
    Keeps view x.attempt := ⟨hx.kept⟩

theorem Keeps.bind {view : Session σ → γ} {x : Run σ α} {f : α → Run σ β} (hx : Keeps view x)
    (hf : ∀ a, Keeps view (f a)) : Keeps view (x >>= f) := by
  refine ⟨fun s => ?_⟩
  have hfirst := hx.kept s
  rw [exec_bind]
  generalize x.exec s = r at hfirst
  obtain ⟨result, s'⟩ := r
  cases result with
  | error fault => exact hfirst
  | ok a => exact ((hf a).kept s').trans hfirst

variable {view : Session σ → List γ} {P : α → List γ → Prop} {Q : β → List γ → Prop}

theorem Adds.pure {a : α} (h : P a []) : Adds view P (pure a) := by
  refine ⟨fun s => ⟨[], (List.append_nil _).symm, fun b hb => ?_⟩⟩
  cases hb
  exact h

theorem Adds.throw (fault : Fault) : Adds view P (throw fault : Run σ α) :=
  ⟨fun _ => ⟨[], (List.append_nil _).symm, fun _ h => by cases h⟩⟩

theorem Keeps.adds {x : Run σ α} (hx : Keeps view x) : Adds view (fun _ more => more = []) x :=
  ⟨fun s => ⟨[], (hx.kept s).trans (List.append_nil _).symm, fun _ _ => rfl⟩⟩

theorem Adds.mono {P' : α → List γ → Prop} {x : Run σ α} (hx : Adds view P x)
    (h : ∀ a more, P a more → P' a more) : Adds view P' x := by
  refine ⟨fun s => ?_⟩
  obtain ⟨more, hmore, hresult⟩ := hx.added s
  exact ⟨more, hmore, fun a ha => h a more (hresult a ha)⟩

theorem Adds.bind {x : Run σ α} {f : α → Run σ β} (hx : Adds view P x)
    (hf : ∀ a more, P a more → Adds view (fun b rest => Q b (more ++ rest)) (f a)) :
    Adds view Q (x >>= f) := by
  refine ⟨fun s => ?_⟩
  obtain ⟨more, hmore, hresult⟩ := hx.added s
  rw [exec_bind]
  generalize x.exec s = r at hmore hresult
  obtain ⟨result, s'⟩ := r
  cases result with
  | error fault => exact ⟨more, hmore, fun _ h => by cases h⟩
  | ok a =>
    obtain ⟨rest, hrest, hresult'⟩ := (hf a more (hresult a rfl)).added s'
    refine ⟨more ++ rest, ?_, hresult'⟩
    rw [← List.append_assoc, ← hmore]
    exact hrest

/-- The view that shows nothing. -/
def unseen (_ : Session σ) : List Empty := []

/-- If only the result matters, nothing is seen of what is added. -/
theorem ensures_iff_adds {P : α → Prop} {x : Run σ α} :
    Ensures P x ↔ Adds unseen (fun a _ => P a) x := by
  refine ⟨fun hx => ⟨fun s => ⟨[], rfl, fun a ha => hx.result s a _ (Prod.ext ha rfl)⟩⟩, fun hx => ?_⟩
  refine ⟨fun s a s' hrun => ?_⟩
  obtain ⟨more, -, hresult⟩ := hx.added s
  rw [hrun] at hresult
  exact hresult a rfl

/-- A step that keeps the view may go before any other. -/
theorem Keeps.bind_adds {x : Run σ α} {f : α → Run σ β} (hx : Keeps view x)
    (hf : ∀ a, Adds view Q (f a)) : Adds view Q (x >>= f) :=
  hx.adds.bind fun a more hmore => by
    subst hmore
    exact hf a

end Run

/-! ## Silent computations -/

/-- Whether a counter counts what happened to mutations. -/
def Counter.ofMutations : Counter → Bool
  | .applied | .deleted | .parked | .dropped => true
  | .conflicts | .functionFailures => false

namespace Logged

variable {α β : Type}

/-- The computation does not count what happens to mutations. -/
structure Silent (x : Logged α) : Prop where
  counts : ∀ m ∈ x.trace.metrics, m.counter.ofMutations = false

theorem silent_pure (a : α) : (pure a : Logged α).Silent := ⟨fun _ h => absurd h List.not_mem_nil⟩

theorem silent_call (c : Call) : (call c).Silent := ⟨fun _ h => absurd h List.not_mem_nil⟩

theorem silent_count {m : Metric} (h : m.counter.ofMutations = false) : (count m).Silent := by
  refine ⟨fun other hother => ?_⟩
  cases List.mem_singleton.1 hother
  exact h

theorem Silent.bind {x : Logged α} {f : α → Logged β} (hx : x.Silent) (hf : ∀ a, (f a).Silent) :
    (x >>= f).Silent := by
  refine ⟨fun m hm => ?_⟩
  rcases List.mem_append.1 hm with hm | hm
  · exact hx.counts m hm
  · exact (hf x.value).counts m hm

namespace Fallible

theorem silent_bind {x : Fallible α} {f : α → Fallible β} (hx : x.attempt.Silent)
    (hf : ∀ a, (f a).attempt.Silent) : (x >>= f).attempt.Silent := by
  rw [attempt_bind]
  generalize x.attempt = r at hx
  obtain ⟨result, trace⟩ := r
  cases result with
  | error fault => exact ⟨hx.counts⟩
  | ok a =>
    refine ⟨fun m hm => ?_⟩
    rcases List.mem_append.1 hm with hm | hm
    · exact hx.counts m hm
    · exact (hf a).counts m hm

theorem silent_logged {x : Logged α} (hx : x.Silent) : (liftM x : Fallible α).attempt.Silent := by
  rw [attempt_logged]
  exact ⟨hx.counts⟩

theorem silent_result (r : Result α) : (liftM r : Fallible α).attempt.Silent := by
  rw [attempt_result]
  exact silent_pure r

end Fallible

end Logged

open Logged Logged.Fallible

theorem invoke_silent (timeout : Span) (kind : FunctionKind) (call : Call) (reply : Reply) :
    (invoke timeout kind call reply).attempt.Silent := by
  unfold invoke
  refine silent_bind (silent_logged (silent_call _)) fun _ => ?_
  cases callFault? kind timeout reply with
  | none => exact silent_pure _
  | some fault => exact silent_bind (silent_logged (silent_count rfl)) fun _ => silent_pure _

/-! ### Routing -/

section

variable (source : SourceConfig) (timeout : Span)

theorem routeOne_silent (m : Mutation) : (routeOne source timeout m).attempt.Silent := by
  unfold routeOne
  split
  · exact silent_pure _
  · exact silent_pure _
  · exact silent_bind (invoke_silent ..) fun _ => silent_result _

theorem routeLevel_silent (limit : Nat) (last : Bool) (ms : List Mutation) :
    (routeLevel source timeout limit last ms).attempt.Silent := by
  induction ms with
  | nil => exact silent_pure _
  | cons m rest ih =>
    have hroutes : (do
        let here ← routeOne source timeout m.flat
        let others ← routeLevel source timeout limit last rest
        return (here ++ others.1, m.nested ++ others.2) :
        Fallible (List Routed × List Mutation)).attempt.Silent :=
      silent_bind (routeOne_silent ..) fun _ => silent_bind ih fun _ => silent_pure _
    unfold routeLevel
    split
    · exact silent_bind (silent_pure _) fun _ => hroutes
    · exact hroutes

theorem routeLevels_silent (limit depth : Nat) (ms : List Mutation) :
    (routeLevels source timeout limit depth ms).attempt.Silent := by
  induction depth generalizing ms with
  | zero =>
    cases ms with
    | nil => exact silent_pure _
    | cons m rest => exact silent_bind (routeLevel_silent ..) fun _ => silent_pure _
  | succ depth ih =>
    cases ms with
    | nil => exact silent_pure _
    | cons m rest =>
      exact silent_bind (routeLevel_silent ..) fun _ => silent_bind (ih _) fun _ => silent_pure _

theorem route_silent (limit : Nat) (m : Mutation) :
    (route source timeout limit m).attempt.Silent := by
  unfold route
  split
  · exact silent_bind (silent_result _) fun _ => silent_pure _
  · split
    · exact routeLevels_silent ..
    · exact routeOne_silent ..

end

/-! ### Mapping and merging -/

theorem mapRow_silent (config : TableConfig) (schema : Schema) (timeout : Span) (doc origin : Document) :
    (mapRow config schema timeout doc origin).attempt.Silent := by
  unfold mapRow mapDocument
  refine silent_bind ?_ fun mapped => ?_
  · split
    · exact silent_pure _
    · refine silent_bind (invoke_silent ..) fun v => ?_
      split <;> exact silent_pure _
  · cases mapped with
    | none => exact silent_pure _
    | some doc => exact silent_bind (silent_result _) fun _ => silent_pure _

theorem runMerge_silent (timeout : Span) (merge : MergeFunction) (op : MergeOperation) :
    (runMerge timeout merge op).attempt.Silent :=
  silent_bind (invoke_silent ..) fun _ => silent_result _

theorem run_silent (strategy : MergeStrategy) (timeout : Span) (op : MergeOperation) :
    (strategy.run timeout op).attempt.Silent := by
  unfold MergeStrategy.run
  split
  · unfold runStandard
    dsimp only
    split
    · exact silent_pure _
    · split
      · exact silent_pure _
      · exact runMerge_silent ..
  · exact runMerge_silent ..

theorem resolve_silent (config : TableConfig) (timeout : Span) (p : Proposal)
    (target : Option Document) : (resolve config timeout p target).Silent := by
  unfold resolve
  split
  · exact silent_pure _
  · split
    · refine (silent_count rfl).bind fun _ => ?_
      unfold resolveConflict
      split
      · exact silent_pure _
      · exact (run_silent ..).bind fun _ => silent_pure _
    · exact silent_pure _

/-! ## Steady views -/

open Run

section

variable {σ γ : Type} [TargetStore σ]

/-- A view that neither shapes of tables nor silent records have a part in. -/
structure Steady (view : Session σ → γ) : Prop where
  shape : ∀ table, Keeps view (Run.store (TargetStore.tableSchema table))
  remember : ∀ table schema, Keeps view (remember table schema)
  silent : ∀ s trace, (∀ m ∈ trace.metrics, m.counter.ofMutations = false) →
    view { s with trace := s.trace ++ trace } = view s

namespace Steady

variable {view : Session σ → γ} {α : Type}

theorem logged (h : Steady view) {x : Logged α} (hx : x.Silent) : Keeps view (Run.logged x) :=
  ⟨fun s => h.silent s x.trace hx.counts⟩

theorem fallible (h : Steady view) {x : Fallible α} (hx : x.attempt.Silent) :
    Keeps view (Run.fallible x) := ⟨fun s => h.silent s x.attempt.trace hx.counts⟩

end Steady

variable {view : Session σ → γ}

theorem schemaOf_keeps (h : Steady view) (table : TableName) :
    Keeps view (schemaOf table : Run σ Schema) := by
  unfold schemaOf
  refine Keeps.bind ⟨fun _ => rfl⟩ fun known => ?_
  cases known with
  | some schema => exact .pure _
  | none =>
    refine (h.shape table).bind fun found => ?_
    cases found with
    | none => exact .throw _
    | some schema => exact (h.remember table schema).bind fun _ => .pure _

theorem routeAll_keeps (h : Steady view) (source : SourceConfig) (options : Options) (index : Nat)
    (batch : List Mutation) : Keeps view (routeAll source options index batch : Run σ _) := by
  induction batch generalizing index with
  | nil => exact .pure _
  | cons m rest ih =>
    unfold routeAll
    exact (h.logged (route_silent ..)).bind fun _ => (ih (index + 1)).bind fun _ => .pure _

theorem prepare_keeps (h : Steady view) (registry : Registry) (clock : Clock) (placed : Placed) :
    Keeps view (prepare registry clock placed : Run σ _) := by
  unfold prepare
  split
  · refine (schemaOf_keeps h _).bind fun _ => (h.fallible (mapRow_silent ..)).bind fun mapped => ?_
    cases mapped with
    | none => exact .pure _
    | some row =>
      refine (Keeps.liftM _).bind fun expired => ?_
      cases expired with
      | some _ => exact .pure _
      | none => exact (Keeps.liftM _).bind fun _ => .pure _
  · split
    · exact .throw _
    · exact .pure _

theorem prepareAll_keeps (h : Steady view) (registry : Registry) (clock : Clock)
    (placed : List Placed) : Keeps view (prepareAll registry clock placed : Run σ _) := by
  induction placed with
  | nil => exact .pure _
  | cons p rest ih =>
    unfold prepareAll
    exact (prepare_keeps h registry clock p).attempt.bind fun _ => ih.bind fun _ => .pure _

theorem refreshBefore_keeps (h : Steady view) (registry : Registry) (p : Prepared)
    (proposed : Document) (target : Option Document) (known : MappedBefore) :
    Keeps view (refreshBefore registry p proposed target known : Run σ _) := by
  unfold refreshBefore
  split
  · split
    · refine Keeps.bind ?_ fun _ => .pure _
      exact (schemaOf_keeps h _).bind fun _ => (h.fallible (mapRow_silent ..)).bind fun _ => .pure _
    · exact .pure _
  · exact .pure _

end

end Tributary
