import Tributary.Fault.Remedy
import Tributary.Merge.Resolve
import Tributary.Routing.Route
import Tributary.Row.Deadline
import Tributary.Row.Mapping
import Tributary.Apply.Prepare

/-!
# Faults that stop no batch

What can go wrong with one mutation of a source that passes its documents to a table: its documents nest too
deep, a user function fails, a column holds what it must not hold, or the key is missing. All such faults
are of kinds for which the mutation is parked or dropped.

* `Result.Within`: a value with a property, or a fault of a sort; `Logged.Fallible.Within` for computations.
* `route_within`, `mapRow_within`, `check_within`, `rowKey_within`: the stages of preparation.
* `strategy_within`, `resolve_parked`: merging, whatever the merge functions do.
-/

namespace Tributary

/-- A mutation that meets the fault is parked or dropped. -/
def Fault.Contained (fault : Fault) : Prop := fault.action ≠ .stop

/-- A mutation that meets the fault is parked. -/
def Fault.Parked (fault : Fault) : Prop := fault.action = .park

theorem Fault.Parked.contained {fault : Fault} (h : fault.Parked) : fault.Contained := by
  intro hstop
  rw [Parked, hstop] at h
  cases h

/-- A value with the property, or a fault of the sort. -/
def Result.Within {α : Type} (F : Fault → Prop) (P : α → Prop) : Result α → Prop
  | .ok a => P a
  | .error fault => F fault

namespace Result.Within

variable {α β : Type} {F : Fault → Prop} {P : α → Prop} {Q : β → Prop}

theorem mono {P' : α → Prop} {r : Result α} (hr : Within F P r) (h : ∀ a, P a → P' a) : Within F P' r := by
  cases r with
  | ok a => exact h a hr
  | error fault => exact hr

/-- What a computation without bounds comes to is within no bounds. -/
theorem trivially (r : Result α) : Within (fun _ => True) (fun _ => True) r := by
  cases r <;> trivial

/-- The value is what the result was. -/
theorem exact {r : Result α} (hr : Within F P r) : Within F (fun a => r = .ok a) r := by
  cases r with
  | ok a => rfl
  | error fault => exact hr

theorem map {r : Result α} (hr : Within F P r) {f : α → β} (h : ∀ a, P a → Q (f a)) :
    Within F Q (r.map f) := by
  cases r with
  | ok a => exact h a hr
  | error fault => exact hr

theorem bind {r : Result α} {f : α → Result β} (hr : Within F P r) (hf : ∀ a, P a → Within F Q (f a)) :
    Within F Q (r >>= f) := by
  cases r with
  | ok a => exact hf a hr
  | error fault => exact hr

theorem foldlM {f : β → α → Result β} (hf : ∀ b a, Q b → Within F Q (f b a)) (as : List α) {b : β}
    (hb : Q b) : Within F Q (as.foldlM f b) := by
  induction as generalizing b with
  | nil => exact hb
  | cons a rest ih =>
    rw [List.foldlM_cons]
    exact (hf b a hb).bind fun b' hb' => ih hb'

theorem mapM {f : α → Result β} {as : List α} (hf : ∀ a ∈ as, Within F Q (f a)) :
    Within F (fun bs => ∀ b ∈ bs, Q b) (as.mapM f) := by
  induction as with
  | nil => exact fun _ h => absurd h List.not_mem_nil
  | cons a rest ih =>
    rw [List.mapM_cons]
    refine (hf a List.mem_cons_self).bind fun b hb => ?_
    refine (ih fun c hc => hf c (List.mem_cons_of_mem a hc)).bind fun bs hbs => ?_
    exact List.forall_mem_cons.2 ⟨hb, hbs⟩

end Result.Within

namespace Logged.Fallible

variable {α β : Type} {F : Fault → Prop} {P : α → Prop} {Q : β → Prop}

/-- Whatever it records, the computation ends in a value with the property or in a fault of the sort. -/
structure Within (F : Fault → Prop) (P : α → Prop) (x : Fallible α) : Prop where
  result : Result.Within F P x.attempt.value

theorem Within.pure {a : α} (h : P a) : Within F P (pure a) := ⟨h⟩

theorem Within.throw {fault : Fault} (h : F fault) : Within F P (throw fault) := ⟨h⟩

theorem Within.liftM {r : Result α} (h : Result.Within F P r) : Within F P (liftM r) := by
  refine ⟨?_⟩
  rw [attempt_result]
  exact h

theorem Within.logged (x : Logged α) : Within F (fun _ => True) (MonadLift.monadLift x : Fallible α) := by
  refine ⟨?_⟩
  exact trivial

theorem Within.weaken {G : Fault → Prop} {x : Fallible α} (hx : Within F P x) (h : ∀ fault, F fault → G fault) :
    Within G P x := by
  refine ⟨?_⟩
  have hresult := hx.result
  cases hvalue : x.attempt.value with
  | ok a => rwa [hvalue] at hresult
  | error fault =>
    rw [hvalue] at hresult
    exact h fault hresult

theorem Within.bind {x : Fallible α} {f : α → Fallible β} (hx : Within F P x)
    (hf : ∀ a, P a → Within F Q (f a)) : Within F Q (x >>= f) := by
  refine ⟨?_⟩
  have hresult := hx.result
  rw [attempt_bind]
  generalize x.attempt = r at hresult
  obtain ⟨result, trace⟩ := r
  cases result with
  | error fault => exact hresult
  | ok a => exact (hf a hresult).result

end Logged.Fallible

open Logged.Fallible

variable {timeout : Span}

/-! ## User functions -/

theorem callFault?_parked {kind : FunctionKind} {reply : Reply} {fault : Fault}
    (h : callFault? kind timeout reply = some fault) : fault.Parked := by
  unfold callFault? at h
  split at h
  · cases h
    rfl
  · cases hending : reply.ending <;> rw [hending] at h <;> cases h <;> rfl

theorem invoke_within (timeout : Span) (kind : FunctionKind) (call : Call) (reply : Reply) :
    Within Fault.Parked (fun _ => True) (invoke timeout kind call reply) := by
  refine (Within.logged _).bind fun _ _ => ?_
  cases hfault : callFault? kind timeout reply with
  | none => exact .pure trivial
  | some fault => exact (Within.logged _).bind fun _ _ => .throw (callFault?_parked hfault)

/-! ## Rows -/

section

variable {config : TableConfig} {schema : Schema}

theorem mapDocument_within (doc origin : Document) :
    Within Fault.Contained (fun _ => True) (mapDocument config timeout doc origin) := by
  unfold mapDocument
  split
  · exact .pure trivial
  · refine ((invoke_within ..).weaken fun _ => Fault.Parked.contained).bind fun v _ => ?_
    split
    · exact .pure trivial
    · exact .pure trivial
    · exact .throw fun h => nomatch h

theorem add_within (column : String) (p : Parted) (field : String × Value) :
    Result.Within Fault.Contained (fun _ => True) (p.add schema column field) := by
  unfold Parted.add
  split
  · split
    · trivial
    · trivial
    · exact fun h => nomatch h
  · split <;> trivial

theorem partExtras_within (column : String) (row : Document) :
    Result.Within Fault.Contained (fun _ => True) (partExtras schema column row) :=
  Result.Within.foldlM (fun p field _ => add_within column p field) row.fields trivial

/-- A property that matches no column has a place, in the open table or in its extras column. -/
def HasRoom (config : TableConfig) (schema : Schema) : Prop :=
  schema.isOpen = true ∨ config.extras.isSome = true

theorem collectExtras_within (h : HasRoom config schema) (row : Document) :
    Result.Within Fault.Contained (fun _ => True) (collectExtras config schema row) := by
  unfold collectExtras
  dsimp only
  split
  · trivial
  · cases hextras : config.extras with
    | some column => exact (partExtras_within column row).map fun _ _ => trivial
    | none =>
      have hopen : schema.isOpen = true := h.resolve_right (by simp [hextras])
      rw [if_pos hopen]
      trivial

theorem mapRow_within (h : HasRoom config schema) (doc origin : Document) :
    Within Fault.Contained (fun _ => True) (mapRow config schema timeout doc origin) := by
  unfold mapRow
  refine (mapDocument_within doc origin).bind fun mapped _ => ?_
  cases mapped with
  | none => exact .pure trivial
  | some doc =>
    have hclean : Result.Within Fault.Contained (fun _ => True) (cleanRow config schema doc) :=
      (collectExtras_within h _).map fun _ _ => trivial
    exact (Within.liftM hclean).bind fun _ _ => .pure trivial

end

theorem age?_within (row : Document) (now : Instant) (column : String) :
    Result.Within Fault.Contained (fun _ => True) (Deadline.age? row now column) := by
  unfold Deadline.age?
  split
  · trivial
  · split
    · exact fun h => nomatch h
    · trivial
    · trivial

theorem check_within (row : Document) (now : Instant) (deadlines : List (String × Span)) :
    Result.Within Fault.Contained (fun _ => True) (Deadline.check row now deadlines) := by
  induction deadlines with
  | nil => trivial
  | cons deadline rest ih =>
    obtain ⟨column, maxAge⟩ := deadline
    have hage := age?_within row now column
    unfold Deadline.check
    cases h : Deadline.age? row now column with
    | error fault =>
      rw [h] at hage
      exact hage
    | ok age =>
      cases age with
      | none => exact ih
      | some age =>
        dsimp only
        split
        · trivial
        · exact ih

theorem keyColumn_within (schema : Schema) (row : Document) (column : String) :
    Result.Within Fault.Contained (fun _ => True) (keyColumn schema row column) := by
  unfold keyColumn
  split
  · exact fun h => nomatch h
  · exact fun h => nomatch h
  · trivial

theorem rowKey_within (schema : Schema) (row : Document) (m : Mutation) :
    Result.Within Fault.Contained (fun _ => True) (rowKey schema row m) := by
  have hcolumns : Result.Within Fault.Contained (fun _ => True)
      (schema.primaryKey.mapM (keyColumn schema row)) :=
    (Result.Within.mapM fun column _ => keyColumn_within schema row column).mono fun _ _ => trivial
  unfold rowKey
  split
  · next fault hfault =>
    rw [hfault] at hcolumns
    exact hcolumns
  · trivial
  · split
    · exact fun h => nomatch h
    · trivial

/-! ## Merging -/

theorem ofProperties_within (apply queue drop : Option Value) :
    Result.Within Fault.Parked (fun _ => True) (MergeResult.ofProperties apply queue drop) := by
  unfold MergeResult.ofProperties
  split
  · split
    · trivial
    · rfl
  · split
    · rfl
    · trivial
  · rfl
  · trivial
  · rfl
  · rfl
  · rfl

theorem ofValue_within (v : Value) :
    Result.Within Fault.Parked (fun _ => True) (MergeResult.ofValue v) := by
  unfold MergeResult.ofValue
  split
  · rfl
  · split
    · rfl
    · exact ofProperties_within ..

/-- Whatever a merge function does, its failure is a reason to park the mutation. -/
theorem runMerge_within (merge : MergeFunction) (op : MergeOperation) :
    Within Fault.Parked (fun _ => True) (runMerge timeout merge op) :=
  (invoke_within ..).bind fun v _ => .liftM (ofValue_within v)

theorem strategy_within (strategy : MergeStrategy) (op : MergeOperation) :
    Within Fault.Parked (fun _ => True) (strategy.run timeout op) := by
  cases strategy with
  | custom merge => exact runMerge_within merge op
  | standard fallback =>
    show Within Fault.Parked (fun _ => True) (runStandard timeout fallback op)
    unfold runStandard
    dsimp only
    split
    · exact .pure trivial
    · split
      · exact .pure trivial
      · exact runMerge_within ..

theorem resolveConflict_parked {config : TableConfig} {op op' : MergeOperation} {fault : Fault}
    (h : (resolveConflict config timeout op).value = .failed fault op') : fault.Parked := by
  unfold resolveConflict at h
  split at h
  · cases h
  · next strategy _ =>
    have hresult : Result.Within Fault.Parked (fun _ => True) (strategy.run timeout op).attempt.value :=
      (strategy_within strategy op).result
    rw [Logged.value_bind, Logged.value_pure] at h
    generalize (strategy.run timeout op).attempt.value = result at h hresult
    cases result with
    | ok decision => cases decision <;> cases h
    | error cause =>
      cases h
      exact hresult

/-- Whatever the merge function of a table does, what it leaves unresolved is parked. -/
theorem resolve_parked {config : TableConfig} {p : Proposal} {target : Option Document} {fault : Fault}
    {op : MergeOperation} (h : (resolve config timeout p target).value = .failed fault op) : fault.Parked := by
  unfold resolve at h
  split at h
  · cases h
  · split at h
    · exact resolveConflict_parked h
    · cases h

/-! ## Routing -/

section

variable {source : SourceConfig} {table : TableName}

/-- All mutations are bound for one table. -/
def AllTo (table : TableName) (routed : List Routed) : Prop := ∀ r ∈ routed, r.table = table

theorem routeOne_within (hsource : source.destination = .target table) (m : Mutation) :
    Within Fault.Contained (AllTo table) (routeOne source timeout m) := by
  unfold routeOne
  rw [hsource]
  exact .pure fun r hr => by rw [List.mem_singleton.1 hr]

theorem routeLevel_within (hsource : source.destination = .target table) (limit : Nat) (last : Bool)
    (ms : List Mutation) :
    Within Fault.Contained (fun level => AllTo table level.1) (routeLevel source timeout limit last ms) := by
  induction ms with
  | nil => exact .pure fun _ h => absurd h List.not_mem_nil
  | cons m rest ih =>
    have hroutes : Within Fault.Contained (fun level => AllTo table level.1)
        (do
          let here ← routeOne source timeout m.flat
          let others ← routeLevel source timeout limit last rest
          return (here ++ others.1, m.nested ++ others.2) : Logged.Fallible (List Routed × List Mutation)) := by
      refine (routeOne_within hsource m.flat).bind fun here hhere => ih.bind fun others hothers => .pure ?_
      exact List.forall_mem_append.2 ⟨hhere, hothers⟩
    have hdeep : (Fault.nestsTooDeep source.name limit).Contained := fun h => nomatch h
    unfold routeLevel
    split
    · exact (Within.throw (P := fun _ => True) hdeep).bind fun _ _ => hroutes
    · exact hroutes

theorem routeLevels_within (hsource : source.destination = .target table) (limit depth : Nat)
    (ms : List Mutation) :
    Within Fault.Contained (AllTo table) (routeLevels source timeout limit depth ms) := by
  induction depth generalizing ms with
  | zero =>
    cases ms with
    | nil => exact .pure fun _ h => absurd h List.not_mem_nil
    | cons m rest => exact (routeLevel_within hsource limit _ _).bind fun level hlevel => .pure hlevel
  | succ depth ih =>
    cases ms with
    | nil => exact .pure fun _ h => absurd h List.not_mem_nil
    | cons m rest =>
      refine (routeLevel_within hsource limit _ _).bind fun level hlevel => ?_
      exact (ih level.2).bind fun below hbelow => .pure (List.forall_mem_append.2 ⟨hlevel, hbelow⟩)

/-- A source that passes its documents to a table routes nothing elsewhere. -/
theorem route_within (hsource : source.destination = .target table) (timeout : Span) (limit : Nat)
    (m : Mutation) : Within Fault.Contained (AllTo table) (route source timeout limit m) := by
  unfold route
  split
  · have htarget : source.deleteTarget = .ok table := by
      unfold SourceConfig.deleteTarget
      rw [hsource]
    rw [htarget]
    exact .pure fun r hr => by rw [List.mem_singleton.1 hr]
  · split
    · exact routeLevels_within hsource limit limit [m]
    · exact routeOne_within hsource m

end

end Tributary
