import Tributary.Fault.Remedy
import Tributary.Merge.Resolve
import Tributary.Routing.Route
import Tributary.Row.Mapping

/-!
# Reports of panics

What the runtime reports of a panic has the number of a task in it, which is another one for every call. So functions
that are deterministic otherwise come to different reports from one run to the next. Here the reports of two runs are
related in an arbitrary way.

* `Registry.Matches`: registries that differ in the reports of their functions only; each part of them matches in the
  same sense.
* `Fault.Matches`: faults that are the same or stand for panics. They are treated alike (`Fault.Matches.action`).
* `Logged.Fallible.Matches`: computations with the same calls and counts whose results match.
* `route_matches`, `mapRow_matches`, `resolve_matches`: whatever calls functions is such a computation.
-/

namespace Tributary

variable {R : String → String → Prop}

/-! ## What differs -/

/-- Ways to end that differ in the report of a panic only. -/
inductive Ending.Matches (R : String → String → Prop) : Ending → Ending → Prop
  | value (v : Value) : Matches R (.value v) (.value v)
  | fault (fault : Fault) : Matches R (.fault fault) (.fault fault)
  | panic {a b : String} (h : R a b) : Matches R (.panic a) (.panic b)

structure Reply.Matches (R : String → String → Prop) (a b : Reply) : Prop where
  millis : a.millis = b.millis
  ending : a.ending.Matches R b.ending

def RowFunction.Matches (R : String → String → Prop) (f g : RowFunction) : Prop :=
  ∀ document origin, (f document origin).Matches R (g document origin)

def MergeFunction.Matches (R : String → String → Prop) (f g : MergeFunction) : Prop := ∀ op, (f op).Matches R (g op)

inductive MergeStrategy.Matches (R : String → String → Prop) : MergeStrategy → MergeStrategy → Prop
  | custom {f g : MergeFunction} (h : MergeFunction.Matches R f g) : Matches R (.custom f) (.custom g)
  | standard {f g : Option MergeFunction} (h : Option.Rel (MergeFunction.Matches R) f g) :
    Matches R (.standard f) (.standard g)

inductive Destination.Matches (R : String → String → Prop) : Destination → Destination → Prop
  | dispatch {f g : RowFunction} (h : RowFunction.Matches R f g) (deletesTo : Option TableName) :
    Matches R (.dispatch f deletesTo) (.dispatch g deletesTo)
  | target (table : TableName) : Matches R (.target table) (.target table)

structure SourceConfig.Matches (R : String → String → Prop) (a b : SourceConfig) : Prop where
  name : a.name = b.name
  destination : a.destination.Matches R b.destination
  recurse : a.recurse = b.recurse

structure TableConfig.Matches (R : String → String → Prop) (a b : TableConfig) : Prop where
  others : b = { a with map := b.map, merge := b.merge }
  map : Option.Rel (RowFunction.Matches R) a.map b.map
  merge : Option.Rel (MergeStrategy.Matches R) a.merge b.merge

/-- Registries that differ in the reports of panics only. -/
structure Registry.Matches (R : String → String → Prop) (a b : Registry) : Prop where
  options : a.options = b.options
  sources : ∀ name, Option.Rel (SourceConfig.Matches R) (a.sources.get? name) (b.sources.get? name)
  tables : ∀ name, Option.Rel (TableConfig.Matches R) (a.tables.get? name) (b.tables.get? name)

/-- Faults that are the same or stand for panics. -/
inductive Fault.Matches (R : String → String → Prop) : Fault → Fault → Prop
  | same (fault : Fault) : Matches R fault fault
  | panicked {a b : String} (h : R a b) : Matches R (.functionPanicked a) (.functionPanicked b)

/-! ## Registries -/

theorem Reply.Matches.refl (hR : ∀ report, R report report) (reply : Reply) : reply.Matches R reply := by
  refine ⟨rfl, ?_⟩
  cases reply.ending with
  | value v => exact .value v
  | fault fault => exact .fault fault
  | panic report => exact .panic (hR report)

theorem optionRel_of_refl {α : Type} {S : α → α → Prop} (h : ∀ a, S a a) (o : Option α) : Option.Rel S o o := by
  cases o with
  | none => exact .none
  | some a => exact .some (h a)

theorem MergeStrategy.Matches.refl (hR : ∀ report, R report report) (strategy : MergeStrategy) :
    strategy.Matches R strategy := by
  cases strategy with
  | custom merge => exact .custom fun op => .refl hR _
  | standard fallback => exact .standard (optionRel_of_refl (fun merge op => .refl hR _) fallback)

theorem SourceConfig.Matches.refl (hR : ∀ report, R report report) (config : SourceConfig) :
    config.Matches R config := by
  refine ⟨rfl, ?_, rfl⟩
  cases config.destination with
  | dispatch function deletesTo => exact .dispatch (fun document origin => .refl hR _) deletesTo
  | target table => exact .target table

theorem TableConfig.Matches.refl (hR : ∀ report, R report report) (config : TableConfig) :
    config.Matches R config where
  others := rfl
  map := optionRel_of_refl (fun _ _ _ => .refl hR _) config.map
  merge := optionRel_of_refl (.refl hR) config.merge

/-- Where all reports may stay the same, a registry matches itself. -/
theorem Registry.Matches.refl (hR : ∀ report, R report report) (registry : Registry) :
    registry.Matches R registry where
  options := rfl
  sources _ := optionRel_of_refl (.refl hR) _
  tables _ := optionRel_of_refl (.refl hR) _

theorem SourceConfig.Matches.deleteTarget {a b : SourceConfig} (h : a.Matches R b) :
    a.deleteTarget = b.deleteTarget := by
  obtain ⟨name, destination, recurse⟩ := a
  obtain ⟨name', destination', recurse'⟩ := b
  obtain ⟨rfl, hdestination, rfl⟩ := h
  cases hdestination with
  | dispatch _ deletesTo => cases deletesTo <;> rfl
  | target table => rfl

theorem Registry.Matches.table {a b : Registry} (h : a.Matches R b) (name : TableName) :
    (a.table name).Matches R (b.table name) := by
  have hconfig := h.tables name
  unfold Registry.table
  generalize a.tables.get? name = config at hconfig
  generalize b.tables.get? name = config' at hconfig
  cases hconfig with
  | none => exact ⟨rfl, .none, .none⟩
  | some hconfig => exact hconfig

/-! ## Results -/

/-- Results with related values or matching faults. -/
inductive Result.Matches {α β : Type} (R : String → String → Prop) (P : α → β → Prop) :
    Result α → Result β → Prop
  | ok {a : α} {b : β} (h : P a b) : Matches R P (.ok a) (.ok b)
  | error {f g : Fault} (h : f.Matches R g) : Matches R P (.error f) (.error g)

theorem Result.Matches.refl {α : Type} (r : Result α) : Result.Matches R Eq r r := by
  cases r with
  | ok a => exact .ok rfl
  | error fault => exact .error (.same fault)

theorem Registry.Matches.source {a b : Registry} (h : a.Matches R b) (name : String) :
    Result.Matches R (SourceConfig.Matches R) (a.source name) (b.source name) := by
  have hconfig := h.sources name
  unfold Registry.source
  generalize a.sources.get? name = config at hconfig
  generalize b.sources.get? name = config' at hconfig
  cases hconfig with
  | some hconfig => exact .ok hconfig
  | none =>
    cases TableName.parse name with
    | ok table => exact .ok ⟨rfl, .target table, rfl⟩
    | error fault => exact .error (.same fault)

/-- Faults that match are treated alike. -/
theorem Fault.Matches.action {f g : Fault} (h : f.Matches R g) : f.action = g.action := by
  cases h with
  | same fault => rfl
  | panicked h => rfl

/-! ## Computations that call functions -/

namespace Logged.Fallible

variable {α β : Type}

/-- Computations with the same calls and counts whose results match. -/
structure Matches (R : String → String → Prop) (x y : Fallible α) : Prop where
  trace : x.attempt.trace = y.attempt.trace
  result : Result.Matches R Eq x.attempt.value y.attempt.value

theorem Matches.refl (x : Fallible α) : Matches R x x := ⟨rfl, .refl _⟩

theorem Matches.throw {f g : Fault} (h : f.Matches R g) : Matches R (throw f : Fallible α) (throw g) := ⟨rfl, .error h⟩

theorem Matches.bind {x y : Fallible α} {f g : α → Fallible β} (hxy : Matches R x y)
    (hfg : ∀ a, Matches R (f a) (g a)) : Matches R (x >>= f) (y >>= g) := by
  obtain ⟨htrace, hresult⟩ := hxy
  suffices h : (x >>= f).attempt.trace = (y >>= g).attempt.trace ∧
      Result.Matches R Eq (x >>= f).attempt.value (y >>= g).attempt.value from ⟨h.1, h.2⟩
  rw [attempt_bind, attempt_bind]
  generalize x.attempt = r at htrace hresult
  generalize y.attempt = r' at htrace hresult
  obtain ⟨result, trace⟩ := r
  obtain ⟨result', trace'⟩ := r'
  cases htrace
  cases hresult with
  -- both have failed, and neither goes on
  | error hfault => exact ⟨rfl, .error hfault⟩
  | ok hvalue =>
    cases hvalue
    exact ⟨congrArg (trace ++ ·) (hfg _).trace, (hfg _).result⟩

end Logged.Fallible

open Logged.Fallible

variable (timeout : Span)

theorem callFault?_matches (kind : FunctionKind) {a b : Reply} (h : a.Matches R b) :
    Option.Rel (Fault.Matches R) (callFault? kind timeout a) (callFault? kind timeout b) := by
  obtain ⟨millis, ending⟩ := a
  obtain ⟨millis', ending'⟩ := b
  obtain ⟨rfl, hending⟩ := h
  unfold callFault?
  split
  · exact .some (.same _)
  · cases hending with
    | value v => exact .none
    | fault fault => exact .some (.same _)
    | panic hreport => exact .some (.panicked hreport)

theorem callValue_eq_of_matches {a b : Reply} (h : a.Matches R b) : callValue a = callValue b := by
  obtain ⟨millis, ending⟩ := a
  obtain ⟨millis', ending'⟩ := b
  obtain ⟨rfl, hending⟩ := h
  cases hending <;> rfl

theorem invoke_matches (kind : FunctionKind) (call : Call) {a b : Reply} (h : a.Matches R b) :
    Matches R (invoke timeout kind call a) (invoke timeout kind call b) := by
  have hfault := callFault?_matches timeout kind h
  unfold invoke
  refine .bind (.refl _) fun _ => ?_
  rw [callValue_eq_of_matches h]
  generalize callFault? kind timeout a = fault at hfault
  generalize callFault? kind timeout b = fault' at hfault
  cases hfault with
  | none => exact .refl _
  | some hfault => exact .bind (.refl _) fun _ => .throw hfault

/-! ## Routing -/

section

variable {source source' : SourceConfig} (hsource : source.Matches R source')

include hsource

theorem routeOne_matches (m : Mutation) : Matches R (routeOne source timeout m) (routeOne source' timeout m) := by
  obtain ⟨name, destination, recurse⟩ := source
  obtain ⟨name', destination', recurse'⟩ := source'
  have hdestination := hsource.destination
  unfold routeOne
  cases hdestination with
  | target table => exact .refl _
  | dispatch hfunction _ =>
    cases m.data with
    | none => exact .refl _
    | some data => exact (invoke_matches timeout _ _ (hfunction data m.origin)).bind fun v => .refl _

theorem routeLevel_matches (limit : Nat) (last : Bool) (ms : List Mutation) :
    Matches R (routeLevel source timeout limit last ms) (routeLevel source' timeout limit last ms) := by
  induction ms with
  | nil => exact .refl _
  | cons m rest ih =>
    unfold routeLevel
    rw [hsource.name]
    have hbelow := (routeOne_matches timeout hsource m.flat).bind fun here =>
      ih.bind fun others => Matches.refl (pure (here ++ others.1, m.nested ++ others.2))
    dsimp only
    split
    · exact .bind (.refl _) fun _ => hbelow
    · exact hbelow

theorem routeLevels_matches (limit depth : Nat) (ms : List Mutation) :
    Matches R (routeLevels source timeout limit depth ms) (routeLevels source' timeout limit depth ms) := by
  induction depth generalizing ms with
  | zero =>
    cases ms with
    | nil => exact .refl _
    | cons m rest => exact (routeLevel_matches timeout hsource limit true (m :: rest)).bind fun level => .refl _
  | succ depth ih =>
    cases ms with
    | nil => exact .refl _
    | cons m rest =>
      exact (routeLevel_matches timeout hsource limit false (m :: rest)).bind fun level =>
        (ih level.2).bind fun below => .refl _

theorem route_matches (limit : Nat) (m : Mutation) :
    Matches R (route source timeout limit m) (route source' timeout limit m) := by
  unfold route
  cases m.kind with
  | delete =>
    rw [hsource.deleteTarget]
    exact .refl _
  | upsert =>
    dsimp only
    rw [hsource.recurse]
    split
    · exact routeLevels_matches timeout hsource limit limit [m]
    · exact routeOne_matches timeout hsource m

end

/-! ## Mapping and merging -/

/-- Resolutions that are the same, or have failed with matching faults. -/
inductive Resolution.Matches (R : String → String → Prop) : Resolution → Resolution → Prop
  | same (resolution : Resolution) : Matches R resolution resolution
  | failed {f g : Fault} (h : f.Matches R g) (operation : MergeOperation) :
    Matches R (.failed f operation) (.failed g operation)

section

variable {config config' : TableConfig}

theorem TableConfig.Matches.isCas (hconfig : config.Matches R config') : config'.isCas = config.isCas := by
  rw [hconfig.others]
  rfl

theorem mapDocument_matches (hconfig : config.Matches R config') (document origin : Document) :
    Matches R (mapDocument config timeout document origin) (mapDocument config' timeout document origin) := by
  have hmap := hconfig.map
  unfold mapDocument
  generalize config.map = map at hmap
  generalize config'.map = map' at hmap
  cases hmap with
  | none => exact .refl _
  | some hfunction => exact (invoke_matches timeout _ _ (hfunction document origin)).bind fun v => .refl _

theorem mapRow_matches (hconfig : config.Matches R config') (schema : Schema) (document origin : Document) :
    Matches R (mapRow config schema timeout document origin) (mapRow config' schema timeout document origin) := by
  have hclean (document : Document) : cleanRow config' schema document = cleanRow config schema document := by
    rw [hconfig.others]
    rfl
  unfold mapRow
  refine (mapDocument_matches timeout hconfig document origin).bind fun mapped => ?_
  cases mapped with
  | none => exact .refl _
  | some document =>
    dsimp only
    rw [hclean]
    exact .refl _

theorem runMerge_matches {f g : MergeFunction} (h : MergeFunction.Matches R f g) (op : MergeOperation) :
    Matches R (runMerge timeout f op) (runMerge timeout g op) :=
  (invoke_matches timeout _ _ (h op)).bind fun _ => .refl _

theorem strategy_matches {a b : MergeStrategy} (h : a.Matches R b) (op : MergeOperation) :
    Matches R (a.run timeout op) (b.run timeout op) := by
  cases h with
  | custom h => exact runMerge_matches timeout h op
  | standard h =>
    unfold MergeStrategy.run
    dsimp only
    unfold runStandard
    dsimp only
    split
    · exact .refl _
    · cases h with
      | none => exact .refl _
      | some h => exact runMerge_matches timeout h _

/-- The resolutions match, and they are made with the same calls and counts. -/
theorem resolve_matches (hconfig : config.Matches R config') (proposal : Proposal) (target : Option Document) :
    (resolve config timeout proposal target).trace = (resolve config' timeout proposal target).trace ∧
      Resolution.Matches R (resolve config timeout proposal target).value
        (resolve config' timeout proposal target).value := by
  have hcas : config'.cas = config.cas := by rw [hconfig.others]
  -- functions are called for conflicts only, and whether there is one depends on the columns of the two rows
  have hconflict (op : MergeOperation) :
      (resolveConflict config timeout op).trace = (resolveConflict config' timeout op).trace ∧
        Resolution.Matches R (resolveConflict config timeout op).value (resolveConflict config' timeout op).value := by
    have hmerge := hconfig.merge
    unfold resolveConflict
    generalize config.merge = merge at hmerge
    generalize config'.merge = merge' at hmerge
    cases hmerge with
    | none => exact ⟨rfl, .same _⟩
    | @some strategy strategy' hstrategy =>
      obtain ⟨htrace, hresult⟩ := strategy_matches timeout hstrategy op
      refine ⟨congrArg (· ++ Trace.empty) htrace, ?_⟩
      show Resolution.Matches R (.ofResult op (strategy.run timeout op).attempt.value)
        (.ofResult op (strategy'.run timeout op).attempt.value)
      generalize (strategy.run timeout op).attempt.value = result at hresult
      generalize (strategy'.run timeout op).attempt.value = result' at hresult
      cases hresult with
      | ok h =>
        cases h
        exact .same _
      | error h => exact .failed h op
  cases target with
  | none => exact ⟨rfl, .same _⟩
  | some target =>
    unfold resolve
    dsimp only
    rw [hcas]
    split
    · obtain ⟨htrace, hresolution⟩ := hconflict (proposal.operation target)
      exact ⟨congrArg (_ ++ ·) htrace, hresolution⟩
    · exact ⟨rfl, .same _⟩

end

end Tributary
