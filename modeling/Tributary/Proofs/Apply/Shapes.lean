import Tributary.Proofs.Apply.Refinement
import Tributary.Apply.Batch

/-!
# Shapes stay known

The engine reads the shape of a table once and keeps it. So a mutation that was prepared comes to its row in a
session that knows the shape of its table, whatever other mutations did in between, on every store.

* `schemaOf_ok`, `schemaOf_of_known`: a shape that was read is known, and a known shape is not read again.
* `Run.Remembers`: steps that forget no shape. All stages of a batch are such.
* `Session.Later.shape`: so is any sequence of them.
-/

namespace Tributary

open Run

/-! ## Steps that forget no shape -/

namespace Run

variable {σ α β : Type} {table : TableName} {schema : Schema}

/-- Behind a step, the shape of a table that was known is still known. -/
structure Remembers (table : TableName) (schema : Schema) (x : Run σ α) : Prop where
  kept : ∀ s, s.schemas.get? table = some schema → (x.exec s).2.schemas.get? table = some schema

theorem Remembers.of_exec {x : Run σ α} (h : ∀ s, (x.exec s).2.schemas = s.schemas) : Remembers table schema x := by
  refine ⟨fun s hs => ?_⟩
  rw [h s]
  exact hs

theorem Remembers.pure (a : α) : Remembers table schema (pure a : Run σ α) := .of_exec fun _ => rfl

theorem Remembers.throw (fault : Fault) : Remembers table schema (throw fault : Run σ α) := .of_exec fun _ => rfl

theorem Remembers.store (action : StoreAction σ α) : Remembers table schema (Run.store action) :=
  .of_exec fun _ => rfl

theorem Remembers.logged (x : Logged α) : Remembers table schema (Run.logged x : Run σ α) := .of_exec fun _ => rfl

theorem Remembers.fallible (x : Logged.Fallible α) : Remembers table schema (Run.fallible x : Run σ α) :=
  .of_exec fun _ => rfl

theorem Remembers.liftM (r : Result α) : Remembers table schema (liftM r : Run σ α) :=
  .of_exec fun s => by rw [exec_liftM]

theorem Remembers.attempt {x : Run σ α} (hx : Remembers table schema x) : Remembers table schema x.attempt :=
  ⟨hx.kept⟩

theorem Remembers.bind {x : Run σ α} {f : α → Run σ β} (hx : Remembers table schema x)
    (hf : ∀ a, Remembers table schema (f a)) : Remembers table schema (x >>= f) := by
  refine ⟨fun s hs => ?_⟩
  have hfirst := hx.kept s hs
  rw [exec_bind]
  generalize x.exec s = r at hfirst
  obtain ⟨result, t⟩ := r
  cases result with
  | error fault => exact hfirst
  | ok a => exact (hf a).kept t hfirst

end Run

variable {σ : Type} [TargetStore σ] {registry : Registry} {clock : Clock} {source : String} {table : TableName}
  {schema : Schema}

/-! ## Reading shapes -/

theorem schemaOf_of_known {s : Session σ} (h : s.schemas.get? table = some schema) :
    (schemaOf table).exec s = (.ok schema, s) := by
  simp [schemaOf, exec_bind, known?, h]

theorem schemaOf_ok {s t : Session σ} (h : (schemaOf table).exec s = (.ok schema, t)) :
    t.trace = s.trace ∧ t.schemas.get? table = some schema := by
  unfold schemaOf at h
  obtain ⟨known, u, hread, h⟩ := exec_bind_ok h
  have hknown : s.schemas.get? table = known := by
    cases hread
    rfl
  obtain rfl : s = u := congrArg Prod.snd hread
  cases known with
  | some known =>
    cases h
    exact ⟨rfl, hknown⟩
  | none =>
    obtain ⟨found, u, hfound, h⟩ := exec_bind_ok h
    cases found with
    | none => cases h
    | some found =>
      cases h
      have htrace : u.trace = s.trace := (congrArg (fun r => r.2.trace) hfound).symm
      refine ⟨htrace, ?_⟩
      show (u.schemas.put table schema).get? table = some schema
      rw [Keyed.get?_put, if_pos rfl]

/-- A shape is kept only where none was known, so that it replaces no other. -/
theorem schemaOf_remembers (other : TableName) : Remembers table schema (schemaOf other : Run σ Schema) := by
  refine ⟨fun s hs => ?_⟩
  cases hknown : s.schemas.get? other with
  | some known =>
    rw [schemaOf_of_known hknown]
    exact hs
  | none =>
    have hne : table ≠ other := by
      rintro rfl
      rw [hs] at hknown
      cases hknown
    have hput (found : Schema) : Remembers table schema (remember other found : Run σ Unit) := by
      refine ⟨fun t ht => ?_⟩
      show (t.schemas.put other found).get? table = some schema
      rw [Keyed.get?_put, if_neg hne]
      exact ht
    refine Remembers.kept (.bind (.of_exec fun _ => rfl) fun known => ?_) s hs
    cases known with
    | some known => exact .pure _
    | none =>
      refine (Remembers.store _).bind fun found => ?_
      cases found with
      | none => exact .throw _
      | some found => exact (hput found).bind fun _ => .pure _

/-! ## Stages -/

theorem handleFailure_remembers (options : Options) (bound : Option TableName) (m : Mutation)
    (operation : Option MergeOperation) (fault : Fault) :
    Remembers table schema (handleFailure options source bound m operation fault : Run σ _) := by
  unfold handleFailure
  split
  · exact .throw _
  · exact .pure _
  · exact (Remembers.store _).bind fun _ => .pure _

omit [TargetStore σ] in
theorem report_remembers (index : Nat) (bound : Option TableName) (key : Option RowKey) (disposition : Disposition) :
    Remembers table schema (report index bound key disposition : Run σ _) :=
  (Remembers.logged _).bind fun _ => .pure _

theorem prepare_remembers (placed : Placed) : Remembers table schema (prepare registry clock placed : Run σ _) := by
  unfold prepare
  split
  · refine (schemaOf_remembers _).bind fun _ => (Remembers.fallible _).bind fun mapped => ?_
    cases mapped with
    | none => exact .pure _
    | some row =>
      refine (Remembers.liftM _).bind fun expired => ?_
      cases expired with
      | some _ => exact .pure _
      | none => exact (Remembers.liftM _).bind fun _ => .pure _
  · split
    · exact .throw _
    · exact .pure _

theorem prepareAll_remembers (placed : List Placed) :
    Remembers table schema (prepareAll registry clock placed : Run σ _) := by
  induction placed with
  | nil => exact .pure _
  | cons p rest ih =>
    unfold prepareAll
    exact (prepare_remembers p).attempt.bind fun _ => ih.bind fun _ => .pure _

theorem settlePrepared_remembers (options : Options) (prepared : List PreparedSource) :
    Remembers table schema (settlePrepared options source prepared : Run σ _) := by
  induction prepared with
  | nil => exact .pure _
  | cons x rest ih =>
    obtain ⟨placed, result⟩ := x
    unfold settlePrepared
    split
    · exact ih.bind fun _ => .pure _
    · exact (report_remembers ..).bind fun _ => ih.bind fun _ => .pure _
    · exact (handleFailure_remembers ..).bind fun _ => (report_remembers ..).bind fun _ => ih.bind fun _ => .pure _

theorem refreshBefore_remembers (p : Prepared) (proposed : Document) (target : Option Document)
    (known : MappedBefore) : Remembers table schema (refreshBefore registry p proposed target known : Run σ _) := by
  unfold refreshBefore
  split
  · split
    · refine Remembers.bind ?_ fun _ => .pure _
      exact (schemaOf_remembers _).bind fun _ => (Remembers.fallible _).bind fun _ => .pure _
    · exact .pure _
  · exact .pure _

theorem decideResolution_remembers (p : Prepared) (current : Option StoredRow) (resolution : Resolution) :
    Remembers table schema (decideResolution registry source p current resolution : Run σ _) := by
  cases resolution with
  | apply data => exact .pure _
  | drop reason operation => exact .pure _
  | park queue operation => exact (Remembers.store _).bind fun _ => .pure _
  | failed fault operation => exact (handleFailure_remembers ..).bind fun _ => .pure _

theorem decideWrite_remembers (p : Prepared) (proposed : Document) (known : MappedBefore) :
    Remembers table schema (decideWrite registry source p proposed known : Run σ _) := by
  unfold decideWrite
  split
  · refine (Remembers.store _).bind fun current => (refreshBefore_remembers ..).bind fun before => ?_
    exact (Remembers.logged _).bind fun _ => (decideResolution_remembers ..).bind fun _ => .pure _
  · exact .pure _

theorem upsertWithin_remembers (p : Prepared) (row : MappedRow) (total attempts : Nat) (known : MappedBefore) :
    Remembers table schema (upsertWithin registry source p row total attempts known : Run σ _) := by
  induction attempts generalizing known with
  | zero => exact .throw _
  | succ attempts ih =>
    unfold upsertWithin
    refine (decideWrite_remembers ..).bind ?_
    rintro ⟨decision, known'⟩
    cases decision with
    | settled disposition => exact .pure _
    | write data expected =>
      refine (Remembers.store _).bind fun outcome => ?_
      cases outcome with
      | written => exact .pure _
      | versionMismatch => exact ih known'

theorem applyGroup_remembers (ps : List Prepared) :
    Remembers table schema (applyGroup registry source ps : Run σ _) := by
  induction ps with
  | nil => exact .pure _
  | cons p rest ih =>
    have happlied : Remembers table schema (applyPrepared registry source p : Run σ _) := by
      unfold applyPrepared
      split
      · exact upsertWithin_remembers ..
      · exact (Remembers.store _).bind fun _ => .pure _
    unfold applyGroup
    refine happlied.attempt.bind fun result => ?_
    cases result with
    | ok disposition =>
      exact (Remembers.pure _).bind fun _ => (report_remembers ..).bind fun _ => ih.bind fun _ => .pure _
    | error fault =>
      refine (handleFailure_remembers ..).bind fun _ => ?_
      exact (report_remembers ..).bind fun _ => ih.bind fun _ => .pure _

/-! ## Later sessions -/

/-- A session that is reached from another one while the rest of a batch is prepared, settled and applied. -/
inductive Session.Later (registry : Registry) (clock : Clock) (source : String) (s : Session σ) : Session σ → Prop
  | here : Later registry clock source s s
  | prepared {t} (h : Later registry clock source s t) (placed : List Placed) :
    Later registry clock source s ((prepareAll registry clock placed).exec t).2
  | settled {t} (h : Later registry clock source s t) (prepared : List PreparedSource) :
    Later registry clock source s ((settlePrepared registry.options source prepared).exec t).2
  | applied {t} (h : Later registry clock source s t) (ps : List Prepared) :
    Later registry clock source s ((applyGroup registry source ps).exec t).2

theorem Session.Later.shape {s t : Session σ} (h : s.Later registry clock source t)
    (hs : s.schemas.get? table = some schema) : t.schemas.get? table = some schema := by
  induction h with
  | here => exact hs
  | prepared _ placed ih => exact (prepareAll_remembers placed).kept _ ih
  | settled _ prepared ih => exact (settlePrepared_remembers registry.options prepared).kept _ ih
  | applied _ ps ih => exact (applyGroup_remembers ps).kept _ ih

end Tributary
