import Tributary.Proofs.Apply.MergeRecord
import Tributary.Proofs.Apply.Shapes

/-!
# Calls for an upsert

Deciding what to write calls the map function for the row before the change, if a merge needs that row and it is
not known yet, and then perhaps a merge function, on whatever store. Nothing else is called.

* `Run.Makes`: the calls that a step makes from a session on.
* `Faithful`: what is known of the row before the change is what mapping makes of it.
* `Performs`: the calls of one decision, and what it leaves known. `decideWrite_makes` says that they are such.
-/

namespace Tributary

open Run

/-! ## Calls of steps -/

namespace Run

variable {σ α β : Type}

/-- From a session on, a step makes calls that suit its result. No shape of a table is forgotten or replaced. -/
def Makes (x : Run σ α) (s : Session σ) (P : Result α → List Call → Prop) : Prop :=
  ∃ calls, (x.exec s).2.trace.calls = s.trace.calls ++ calls ∧ (x.exec s).2.schemas = s.schemas ∧
    P (x.exec s).1 calls

variable {s : Session σ} {P : Result α → List Call → Prop} {Q : Result β → List Call → Prop}

theorem Makes.of_exec {x : Run σ α} {r : Result α} {t : Session σ} (hexec : x.exec s = (r, t))
    (htrace : t.trace = s.trace) (hschemas : t.schemas = s.schemas) (h : P r []) : Makes x s P := by
  refine ⟨[], ?_, ?_, ?_⟩
  · rw [hexec, htrace, List.append_nil]
  · rw [hexec, hschemas]
  · rw [hexec]
    exact h

theorem Makes.pure {a : α} (h : P (.ok a) []) : Makes (pure a) s P := .of_exec rfl rfl rfl h

theorem Makes.store {action : StoreAction σ α} (h : P (action s.store).1 []) : Makes (Run.store action) s P :=
  .of_exec rfl rfl rfl h

theorem Makes.bind {x : Run σ α} {f : α → Run σ β} (hx : Makes x s P)
    (herror : ∀ fault calls, P (.error fault) calls → Q (.error fault) calls)
    (hf : ∀ a calls t, P (.ok a) calls → t.schemas = s.schemas →
      Makes (f a) t fun r later => Q r (calls ++ later)) : Makes (x >>= f) s Q := by
  obtain ⟨calls, hcalls, hschemas, hresult⟩ := hx
  unfold Makes
  rw [exec_bind]
  generalize x.exec s = r at hcalls hschemas hresult
  obtain ⟨result, t⟩ := r
  cases result with
  | error fault => exact ⟨calls, hcalls, hschemas, herror fault calls hresult⟩
  | ok a =>
    obtain ⟨later, hlater, hkept, hlast⟩ := hf a calls t hresult hschemas
    refine ⟨calls ++ later, ?_, hkept.trans hschemas, hlast⟩
    rw [← List.append_assoc, ← hcalls]
    exact hlater

/-- A step that calls nothing. -/
abbrev CallsNothing (x : Run σ α) (s : Session σ) : Prop := Makes x s fun _ calls => calls = []

theorem CallsNothing.then_pure {x : Run σ α} (hx : CallsNothing x s) (f : α → β) :
    CallsNothing (x >>= fun a => Pure.pure (f a)) s := by
  refine hx.bind (fun _ _ h => h) fun a calls t h _ => .pure ?_
  rw [h, List.append_nil]

end Run

variable {σ : Type} [TargetStore σ]

/-! ## The row before the change -/

/-- The row that mapping makes of the row before the change, if there was one and it is not discarded. -/
def Prepared.mappedBefore (registry : Registry) (schema : Schema) (p : Prepared) : Result (Option Document) :=
  match p.mutation.before with
  | none => .ok none
  | some before =>
    (mapRow (registry.table p.row.table) schema registry.options.functionTimeout before
      p.mutation.origin).attempt.value.map (Option.map MappedRow.row)

/-- The call that mapping the row before the change makes. -/
def Prepared.beforeCalls (registry : Registry) (p : Prepared) : List Call :=
  match p.mutation.before with
  | none => []
  | some before => (registry.table p.row.table).mapCalls before p.mutation.origin

variable {registry : Registry} {source : String} {schema : Schema} {p : Prepared} {s : Session σ}
  {known : MappedBefore}

/-- What is known of the row before the change is what mapping makes of it. -/
def Faithful (registry : Registry) (schema : Schema) (p : Prepared) (known : MappedBefore) : Prop :=
  ∀ mapped, known = some mapped → p.mappedBefore registry schema = .ok mapped

theorem faithful_none : Faithful registry schema p none := fun _ h => by cases h

/-- What is known after a merge has perhaps needed the row before the change. -/
structure Follows (registry : Registry) (schema : Schema) (p : Prepared) (needed : Bool)
    (known known' : MappedBefore) : Prop where
  faithful : Faithful registry schema p known'
  unknown : p.mutation.before.isSome = true → known'.isNone = (known.isNone && !needed)

/-- The call for the row before the change, if that is needed and not known. -/
def refreshCalls (registry : Registry) (p : Prepared) (needed : Bool) (known : MappedBefore) : List Call :=
  if known.isNone && needed then p.beforeCalls registry else []

theorem mapBefore_makes (hshape : s.schemas.get? p.row.table = some schema) {before : Document}
    (hbefore : p.mutation.before = some before) :
    Makes (mapBefore registry p before) s fun r calls =>
      r = p.mappedBefore registry schema ∧ calls = p.beforeCalls registry := by
  have hcalls := mapRow_calls (registry.table p.row.table) schema registry.options.functionTimeout before
    p.mutation.origin
  unfold Makes
  rw [mapBefore, exec_bind, schemaOf_of_known hshape]
  dsimp only
  rw [exec_bind, Prepared.mappedBefore, Prepared.beforeCalls, hbefore]
  dsimp only
  rw [← hcalls, Run.fallible, exec_ofFunction]
  generalize (mapRow (registry.table p.row.table) schema registry.options.functionTimeout before
    p.mutation.origin).attempt = mapped
  obtain ⟨result, trace⟩ := mapped
  cases result <;> exact ⟨_, rfl, rfl, rfl, rfl⟩

theorem refreshBefore_makes (hshape : s.schemas.get? p.row.table = some schema)
    (hknown : Faithful registry schema p known) (proposed : Document) (target : Option Document) :
    let needed := needsBefore (registry.table p.row.table) proposed target
    Makes (refreshBefore registry p proposed target known) s fun r calls =>
      calls = refreshCalls registry p needed known ∧ ∀ known', r = .ok known' →
        Follows registry schema p needed known known' ∧
          (needed = true → p.mappedBefore registry schema = .ok known'.join) := by
  intro needed
  unfold refreshBefore
  cases known with
  | some mapped =>
    refine .pure ⟨rfl, fun known' h => ?_⟩
    cases h
    exact ⟨⟨hknown, fun _ => rfl⟩, fun _ => hknown mapped rfl⟩
  | none =>
    cases hbefore : p.mutation.before with
    | none =>
      have hcalls : p.beforeCalls registry = [] := by rw [Prepared.beforeCalls, hbefore]
      refine .pure ⟨by rw [refreshCalls, hcalls, ite_self], fun known' h => ?_⟩
      cases h
      refine ⟨⟨hknown, fun hsome => ?_⟩, fun _ => by rw [Prepared.mappedBefore, hbefore]; rfl⟩
      rw [hbefore] at hsome
      cases hsome
    | some before =>
      dsimp only
      by_cases hneeded : needed = true
      · rw [if_pos hneeded]
        rw [hneeded]
        refine (mapBefore_makes hshape hbefore).bind (fun fault calls h => ⟨h.2, fun _ h => by cases h⟩)
          fun mapped calls t h _ => .pure ?_
        obtain ⟨hmapped, rfl⟩ := h
        refine ⟨List.append_nil _, fun known' h => ?_⟩
        cases h
        refine ⟨⟨fun _ h => ?_, fun _ => rfl⟩, fun _ => hmapped.symm⟩
        cases h
        exact hmapped.symm
      · rw [if_neg hneeded]
        rw [Bool.not_eq_true] at hneeded
        rw [hneeded]
        refine .pure ⟨rfl, fun known' h => ?_⟩
        cases h
        exact ⟨⟨hknown, fun _ => rfl⟩, fun h => (Bool.false_ne_true h).elim⟩

/-! ## Decisions -/

theorem handleFailure_callsNothing (options : Options) (table : Option TableName) (m : Mutation)
    (operation : Option MergeOperation) (fault : Fault) :
    CallsNothing (handleFailure options source table m operation fault) s := by
  unfold handleFailure
  split
  · exact .of_exec rfl rfl rfl rfl
  · exact .pure rfl
  · exact CallsNothing.then_pure (.store rfl) _

theorem decideResolution_callsNothing (current : Option StoredRow) (resolution : Resolution) :
    CallsNothing (decideResolution registry source p current resolution) s := by
  cases resolution with
  | apply data => exact .pure rfl
  | drop reason op => exact .pure rfl
  | park queue op => exact CallsNothing.then_pure (.store rfl) _
  | failed fault op => exact CallsNothing.then_pure (handleFailure_callsNothing ..) _

/-- Whether a call is one of a map function. -/
def Call.isMap : Call → Bool
  | .map _ _ => true
  | _ => false

theorem refreshCalls_isMap (needed : Bool) :
    (refreshCalls registry p needed known).filter Call.isMap = refreshCalls registry p needed known := by
  unfold refreshCalls Prepared.beforeCalls TableConfig.mapCalls
  split
  · split
    · rfl
    · split <;> rfl
  · rfl

theorem merge_notMem_refreshCalls (needed : Bool) (given : MergeOperation) :
    .merge given ∉ refreshCalls registry p needed known := by
  rw [← refreshCalls_isMap]
  intro h
  cases (List.mem_filter.1 h).2

theorem resolve_isMap (config : TableConfig) (timeout : Span) (proposal : Proposal) (target : Option Document) :
    (resolve config timeout proposal target).trace.calls.filter Call.isMap = [] := by
  rcases resolve_calls config timeout proposal target with hnone | ⟨_, _, given, _, _, hcalls, _⟩
  · rw [hnone]
    rfl
  · rw [hcalls]
    rfl

/-- The row that an upsert finds in a session. Only tables with compare-and-set columns are read. -/
def Prepared.found? (registry : Registry) (p : Prepared) (s : Session σ) : Option Document :=
  if (registry.table p.row.table).isCas then
    match (TargetStore.readRow p.row s.store).1 with
    | .ok found => found.map StoredRow.data
    | .error _ => none
  else none

/-- What is called to decide on a proposal for a row that was found, and what is known behind that. -/
structure Performs {δ : Type} (registry : Registry) (schema : Schema) (p : Prepared) (proposed : Document)
    (found : Option Document) (known : MappedBefore) (r : Result (δ × MappedBefore)) (calls : List Call) : Prop where
  maps : calls.filter Call.isMap =
    refreshCalls registry p (needsBefore (registry.table p.row.table) proposed found) known
  merges : ∀ given, .merge given ∈ calls →
    found = some given.target ∧ p.mappedBefore registry schema = .ok given.before
  next : ∀ d known', r = .ok (d, known') →
    Follows registry schema p (needsBefore (registry.table p.row.table) proposed found) known known'

/-- The calls of a decision that has resolved its proposal. -/
theorem performs_of_resolve {δ : Type} {proposed : Document} {found : Option Document} {known known' : MappedBefore}
    {timeout : Span} {r : Result (δ × MappedBefore)} {calls : List Call}
    (hcalls : calls = refreshCalls registry p (needsBefore (registry.table p.row.table) proposed found) known ++
      (resolve (registry.table p.row.table) timeout ⟨p.row.table, proposed, known'.join, p.mutation.origin⟩
        found).trace.calls)
    (hfollows : Follows registry schema p (needsBefore (registry.table p.row.table) proposed found) known known')
    (hmapped : needsBefore (registry.table p.row.table) proposed found = true →
      p.mappedBefore registry schema = .ok known'.join)
    (hr : ∀ d last, r = .ok (d, last) → last = known') :
    Performs registry schema p proposed found known r calls := by
  subst hcalls
  refine ⟨?_, fun given hgiven => ?_, fun d last h => by rw [hr d last h]; exact hfollows⟩
  · rw [List.filter_append, refreshCalls_isMap, resolve_isMap, List.append_nil]
  · rcases List.mem_append.1 hgiven with hgiven | hgiven
    · exact absurd hgiven (merge_notMem_refreshCalls _ given)
    · obtain ⟨hneeded, stored, rfl, hop⟩ := resolve_given hgiven
      have htarget : given.target = stored := congrArg MergeOperation.target hop
      have hbefore : given.before = known'.join := congrArg MergeOperation.before hop
      exact ⟨by rw [htarget], by rw [hbefore]; exact hmapped hneeded⟩

theorem decideCas_makes (hcas : (registry.table p.row.table).isCas = true)
    (hshape : s.schemas.get? p.row.table = some schema) (hknown : Faithful registry schema p known)
    (proposed : Document) :
    Makes (decideCas registry source p proposed known) s
      (Performs registry schema p proposed (p.found? registry s) known) := by
  have hread : Makes (Run.store (TargetStore.readRow p.row)) s fun r calls =>
      calls = [] ∧ p.found? registry s = match r with | .ok found => found.map StoredRow.data | .error _ => none :=
    .store ⟨rfl, by rw [Prepared.found?, if_pos hcas]⟩
  refine hread.bind (fun fault calls h => ?_) fun current calls t h ht => ?_
  · obtain ⟨rfl, hfound⟩ := h
    rw [hfound]
    refine ⟨?_, fun _ h => absurd h List.not_mem_nil, fun _ _ h => by cases h⟩
    simp [refreshCalls, needsBefore]
  · obtain ⟨rfl, hfound⟩ := h
    dsimp only at hfound ⊢
    rw [hfound]
    refine (refreshBefore_makes (ht ▸ hshape) hknown proposed _).bind (fun fault calls h => ?_)
      fun before calls u h _ => ?_
    · refine ⟨?_, fun given hgiven => ?_, fun _ _ h => by cases h⟩
      · rw [List.nil_append, h.1, refreshCalls_isMap]
      · rw [List.nil_append, h.1] at hgiven
        exact absurd hgiven (merge_notMem_refreshCalls _ given)
    · obtain ⟨rfl, hnext⟩ := h
      obtain ⟨hfollows, hmapped⟩ := hnext before rfl
      have hlogged {x : Logged Resolution} : Makes (Run.logged x) u fun r calls =>
          r = .ok x.value ∧ calls = x.trace.calls := ⟨_, rfl, rfl, rfl, rfl⟩
      refine hlogged.bind (fun _ _ h => by cases h.1) fun resolution calls v h _ => ?_
      obtain ⟨-, rfl⟩ := h
      refine (decideResolution_callsNothing current resolution).bind (fun fault calls h => ?_)
        fun decision calls w h _ => .pure ?_
      · exact performs_of_resolve (by rw [h, List.append_nil]; rfl) hfollows hmapped fun _ _ h => by cases h
      · exact performs_of_resolve (by rw [h, List.append_nil, List.append_nil]; rfl) hfollows hmapped
          fun _ _ h => by cases h; rfl

theorem Performs.of_result {δ ε : Type} {proposed : Document} {found : Option Document}
    {r : Result (δ × MappedBefore)} {r' : Result (ε × MappedBefore)} {calls : List Call}
    (h : Performs registry schema p proposed found known r calls)
    (hr : ∀ e known', r' = .ok (e, known') → ∃ d, r = .ok (d, known')) :
    Performs registry schema p proposed found known r' calls := by
  refine ⟨h.maps, h.merges, fun e known' he => ?_⟩
  obtain ⟨d, hd⟩ := hr e known' he
  exact h.next d known' hd

theorem decideWrite_makes (hshape : s.schemas.get? p.row.table = some schema)
    (hknown : Faithful registry schema p known) (proposed : Document) :
    Makes (decideWrite registry source p proposed known) s
      (Performs registry schema p proposed (p.found? registry s) known) := by
  unfold decideWrite
  by_cases hcas : (registry.table p.row.table).isCas = true
  · rw [if_pos hcas]
    exact decideCas_makes hcas hshape hknown proposed
  · rw [if_neg hcas, Prepared.found?, if_neg hcas]
    refine .pure ⟨?_, fun _ h => absurd h List.not_mem_nil, fun d known' h => ?_⟩
    · simp [refreshCalls, needsBefore]
    · cases h
      exact ⟨hknown, fun _ => by simp [needsBefore]⟩

end Tributary
