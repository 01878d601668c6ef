import Tributary.Proofs.Apply.Calls

/-!
# The attempts of an upsert

An upsert is tried again as long as its row changes between reading and writing, on whatever store and however
the store behaves. Each attempt reads the row anew. What mapping made of the row before the change is handed from
one attempt to the next, so that the map function is called for it when a merge first needs it, and not again.

* `attemptOnce`, `attempts`: one attempt, and the sessions between which the attempts of an upsert are made.
* `attemptOnce_makes`, `upsertWithin_performed`: what one attempt calls, and what all of them call.
* `before_image_is_mapped_at_most_once`: the calls for a mutation from its preparation on.
-/

namespace Tributary

open Run

variable {σ : Type} [TargetStore σ]

/-! ## One attempt -/

/-- One attempt of an upsert. It ends without a disposition if the row has changed since it was read. -/
def attemptOnce (registry : Registry) (source : String) (p : Prepared) (row : MappedRow) (known : MappedBefore) :
    Run σ (Option Disposition × MappedBefore) := do
  match ← decideWrite registry source p row.row known with
  | (.settled disposition, known) => return (some disposition, known)
  | (.write data expected, known) =>
    match ← Run.store (TargetStore.writeRow p.row ⟨data, row.exprs⟩ expected) with
    | .written => return (some .applied, known)
    | .versionMismatch => return (none, known)

theorem upsertWithin_succ (registry : Registry) (source : String) (p : Prepared) (row : MappedRow)
    (total attempts : Nat) (known : MappedBefore) :
    (upsertWithin registry source p row total (attempts + 1) known : Run σ _) =
      attemptOnce registry source p row known >>= fun r =>
        match r.1 with
        | some disposition => pure disposition
        | none => upsertWithin registry source p row total attempts r.2 := by
  rw [upsertWithin, attemptOnce, bind_assoc]
  refine bind_congr fun decided => ?_
  obtain ⟨decision, known'⟩ := decided
  cases decision with
  | settled disposition => rfl
  | write data expected =>
    dsimp only
    rw [bind_assoc]
    refine bind_congr fun outcome => ?_
    cases outcome <;> rfl

section

variable {registry : Registry} {p : Prepared} {row : MappedRow} {s : Session σ} {current : StoredRow}

/-- A proposal that is not in conflict with the row is to be written as it is, whatever the merge of the table. -/
theorem decideWrite_of_agreed (source : String) (hcas : (registry.table p.row.table).isCas = true)
    (hread : TargetStore.readRow p.row s.store = (.ok (some current), s.store)) {proposed : Document}
    (hagrees : conflicts (registry.table p.row.table).cas proposed current.data = false) :
    (decideWrite registry source p proposed none).exec s =
      (.ok (.write proposed (.exactly current.version), none), s) := by
  have hbefore : refreshBefore registry p proposed (some current.data) none = (pure none : Run σ _) := by
    unfold refreshBefore
    cases p.mutation.before <;> simp [needsBefore, hagrees]
  have hresolve (proposal : Proposal) (hproposed : proposal.proposed = proposed) :
      resolve (registry.table p.row.table) registry.options.functionTimeout proposal (some current.data) =
        pure (.apply proposed) := by
    simp [resolve, hproposed, hagrees]
  have hcurrent : (Run.store (TargetStore.readRow p.row)).exec s = (.ok (some current), s) := by
    rw [Run.store, exec_ofFunction, hread]
  rw [decideWrite, if_pos hcas, decideCas, exec_bind_of_ok hcurrent]
  dsimp only [Option.map_some]
  rw [hbefore, pure_bind, hresolve _ rfl, exec_bind, Run.logged, exec_ofFunction]
  show ((do let decision ← pure _; pure (decision, none)) : Run σ _).exec
    { s with trace := s.trace ++ Trace.empty } = _
  rw [Trace.append_empty]
  rfl

/-- So the attempt comes to what the store makes of that write. -/
theorem attemptOnce_of_agreed (source : String) (hcas : (registry.table p.row.table).isCas = true)
    (hread : TargetStore.readRow p.row s.store = (.ok (some current), s.store))
    (hagrees : conflicts (registry.table p.row.table).cas row.row current.data = false) {outcome : WriteOutcome}
    {store : σ} (hwrite : TargetStore.writeRow p.row ⟨row.row, row.exprs⟩ (.exactly current.version) s.store =
      (.ok outcome, store)) :
    (attemptOnce registry source p row none).exec s =
      (.ok (if outcome = .written then some .applied else none, none), { s with store := store }) := by
  have hwritten : (Run.store (TargetStore.writeRow p.row ⟨row.row, row.exprs⟩ (.exactly current.version))).exec s =
      (.ok outcome, { s with store := store }) := by
    rw [Run.store, exec_ofFunction, hwrite]
  rw [attemptOnce, exec_bind_of_ok (decideWrite_of_agreed source hcas hread hagrees)]
  dsimp only
  rw [exec_bind_of_ok hwritten]
  cases outcome <;> rfl

end

/-- The sessions before and after an attempt. -/
structure Attempt (σ : Type) where
  start : Session σ
  finish : Session σ

/-- The attempts of an upsert, of which at most so many are made. -/
def attempts (registry : Registry) (source : String) (p : Prepared) (row : MappedRow) :
    Nat → MappedBefore → Session σ → List (Attempt σ)
  | 0, _, _ => []
  | limit + 1, known, s =>
    let r := (attemptOnce registry source p row known).exec s
    ⟨s, r.2⟩ ::
      match r.1 with
      | .ok (none, known) => attempts registry source p row limit known r.2
      | _ => []

/-- Each attempt starts where the one before it has ended. -/
def Connects : Session σ → List (Attempt σ) → Session σ → Prop
  | s, [], t => t = s
  | s, a :: rest, t => a.start = s ∧ Connects a.finish rest t

namespace Attempt

/-- The calls of an attempt. -/
def calls (a : Attempt σ) : List Call := a.finish.trace.calls.drop a.start.trace.calls.length

/-- The row that an attempt reads. -/
def read? (registry : Registry) (p : Prepared) (a : Attempt σ) : Option Document := p.found? registry a.start

end Attempt

variable {registry : Registry} {source : String} {schema : Schema} {p : Prepared} {s : Session σ}
  {known : MappedBefore}

theorem attemptOnce_makes (source : String) (hshape : s.schemas.get? p.row.table = some schema)
    (hknown : Faithful registry schema p known) (row : MappedRow) :
    Makes (attemptOnce registry source p row known) s
      (Performs registry schema p row.row (p.found? registry s) known) := by
  refine (decideWrite_makes hshape hknown row.row).bind (fun fault calls h => ?_) fun decided calls t h _ => ?_
  · exact h.of_result fun _ _ he => by cases he
  · obtain ⟨decision, known'⟩ := decided
    cases decision with
    | settled disposition =>
      refine .pure ?_
      rw [List.append_nil]
      exact h.of_result fun _ _ he => by cases he; exact ⟨_, rfl⟩
    | write data expected =>
      have hwrite : CallsNothing (Run.store (TargetStore.writeRow p.row ⟨data, row.exprs⟩ expected)) t := .store rfl
      refine hwrite.bind (fun fault later hlater => ?_) fun outcome later u hlater _ => ?_
      · rw [hlater, List.append_nil]
        exact h.of_result fun _ _ he => by cases he
      · rw [hlater]
        cases outcome <;> refine .pure ?_ <;> rw [List.append_nil, List.append_nil] <;>
          exact h.of_result fun _ _ he => by cases he; exact ⟨_, rfl⟩

/-! ## All attempts -/

/-- Whether an attempt has read a row for which a merge needs the row before the change. -/
def Attempt.needs (registry : Registry) (p : Prepared) (proposed : Document) (a : Attempt σ) : Bool :=
  needsBefore (registry.table p.row.table) proposed (a.read? registry p)

/-- What is called for the row before the change is called once. -/
theorem Follows.refreshCalls_append {needed : Bool} {known' : MappedBefore}
    (h : Follows registry schema p needed known known') (later : Bool) :
    refreshCalls registry p needed known ++ refreshCalls registry p later known' =
      refreshCalls registry p (needed || later) known := by
  unfold refreshCalls
  cases hbefore : p.mutation.before with
  | none =>
    have hcalls : p.beforeCalls registry = [] := by rw [Prepared.beforeCalls, hbefore]
    simp [hcalls]
  | some before =>
    rw [h.unknown (by rw [hbefore]; rfl)]
    cases known <;> cases needed <;> simp

/-- Attempts from one session to another, and the calls that they make. -/
structure Performed (registry : Registry) (schema : Schema) (p : Prepared) (proposed : Document) (known : MappedBefore)
    (s : Session σ) (as : List (Attempt σ)) (t : Session σ) : Prop where
  connects : Connects s as t
  calls : t.trace.calls = s.trace.calls ++ as.flatMap Attempt.calls
  maps : (as.flatMap Attempt.calls).filter Call.isMap =
    refreshCalls registry p (as.any (Attempt.needs registry p proposed)) known
  merges : ∀ a ∈ as, ∀ given, .merge given ∈ a.calls →
    a.read? registry p = some given.target ∧ p.mappedBefore registry schema = .ok given.before

section

variable {δ : Type} {proposed : Document} {a : Attempt σ} {r : Result (δ × MappedBefore)}

theorem Performed.single (hcalls : a.finish.trace.calls = a.start.trace.calls ++ a.calls)
    (h : Performs registry schema p proposed (a.read? registry p) known r a.calls) :
    Performed registry schema p proposed known a.start [a] a.finish := by
  refine ⟨⟨rfl, rfl⟩, ?_, ?_, fun b hb => ?_⟩
  · rw [List.flatMap_singleton]
    exact hcalls
  · rw [List.flatMap_singleton, h.maps, List.any_cons, List.any_nil, Bool.or_false]
    rfl
  · rw [List.mem_singleton.1 hb]
    exact h.merges

theorem Performed.cons {rest : List (Attempt σ)} {t : Session σ} {d : δ} {known' : MappedBefore}
    (hcalls : a.finish.trace.calls = a.start.trace.calls ++ a.calls)
    (h : Performs registry schema p proposed (a.read? registry p) known (.ok (d, known')) a.calls)
    (hrest : Performed registry schema p proposed known' a.finish rest t) :
    Performed registry schema p proposed known a.start (a :: rest) t := by
  refine ⟨⟨rfl, hrest.connects⟩, ?_, ?_, fun b hb => ?_⟩
  · rw [hrest.calls, hcalls, List.flatMap_cons, List.append_assoc]
  · rw [List.flatMap_cons, List.filter_append, h.maps, hrest.maps, (h.next d known' rfl).refreshCalls_append,
      List.any_cons]
    rfl
  · rcases List.mem_cons.1 hb with rfl | hb
    · exact h.merges
    · exact hrest.merges b hb

end

/-- Every attempt reads the row for itself, but together they map the row before the change at most once. -/
theorem upsertWithin_performed (hshape : s.schemas.get? p.row.table = some schema)
    (hknown : Faithful registry schema p known) (row : MappedRow) (total limit : Nat) :
    Performed registry schema p row.row known s (attempts registry source p row limit known s)
      ((upsertWithin registry source p row total limit known).exec s).2 := by
  induction limit generalizing known s with
  | zero =>
    refine ⟨rfl, (List.append_nil _).symm, ?_, fun _ h => absurd h List.not_mem_nil⟩
    simp [attempts, refreshCalls]
  | succ limit ih =>
    obtain ⟨calls, hcalls, hschemas, hperforms⟩ := attemptOnce_makes source hshape hknown row
    rw [upsertWithin_succ, exec_bind, attempts]
    generalize (attemptOnce registry source p row known).exec s = r at hcalls hschemas hperforms
    obtain ⟨result, t⟩ := r
    have hfirst : (Attempt.mk s t).calls = calls := by
      rw [Attempt.calls, hcalls, List.drop_left]
    rw [← hfirst] at hcalls hperforms
    have hperforms : Performs registry schema p row.row ((Attempt.mk s t).read? registry p) known result
      (Attempt.mk s t).calls := hperforms
    have hshape' : t.schemas.get? p.row.table = some schema := by rw [← hshape, ← hschemas]
    cases result with
    | error fault => exact .single hcalls hperforms
    | ok decided =>
      obtain ⟨disposition, known'⟩ := decided
      cases disposition with
      | some disposition => exact .single hcalls hperforms
      | none => exact .cons hcalls hperforms (ih hshape' (hperforms.next _ _ rfl).faithful)

/-! ## From preparation on -/

/-- A mutation with a document is ready as an upsert. The map function was called for the document, and the shape
of the table is known. -/
theorem prepare_ready {clock : Clock} {placed : Placed} {t : Session σ} {data : Document}
    (hprepared : (prepare registry clock placed).exec s = (.ok (.ready p), t))
    (hdata : placed.routed.mutation.data = some data) :
    p.placed = placed ∧ (∃ row, p.action = .upsert row) ∧
      (∃ schema, t.schemas.get? p.row.table = some schema) ∧
      t.trace.calls = s.trace.calls ++ (registry.table p.row.table).mapCalls data p.mutation.origin := by
  rw [prepare, hdata] at hprepared
  obtain ⟨schema, u, hschema, hprepared⟩ := exec_bind_ok hprepared
  obtain ⟨htrace, hshape⟩ := schemaOf_ok hschema
  obtain ⟨mapped, v, hmapped, hprepared⟩ := exec_bind_ok hprepared
  have hcalls : v.trace.calls = u.trace.calls ++
      (registry.table placed.routed.table).mapCalls data placed.routed.mutation.origin := by
    rw [← mapRow_calls _ schema registry.options.functionTimeout]
    exact (congrArg (fun r => r.2.trace.calls) hmapped).symm
  have hkept : v.schemas = u.schemas := (congrArg (fun r => r.2.schemas) hmapped).symm
  cases mapped with
  | none => cases hprepared
  | some row =>
    obtain ⟨expired, w, hexpired, hprepared⟩ := exec_bind_ok hprepared
    rw [exec_liftM] at hexpired
    cases expired with
    | some column => cases hprepared
    | none =>
      obtain ⟨key, x, hkey, hprepared⟩ := exec_bind_ok hprepared
      rw [exec_liftM] at hkey
      obtain rfl : v = w := congrArg Prod.snd hexpired
      obtain rfl : v = x := congrArg Prod.snd hkey
      cases hprepared
      refine ⟨rfl, ⟨row, rfl⟩, ⟨schema, ?_⟩, ?_⟩
      · rw [← hshape, ← hkept]
        rfl
      · rw [← htrace]
        exact hcalls

/-- An attempt reads a row that is in conflict with the proposal of the upsert. -/
def Attempt.Conflicts (registry : Registry) (p : Prepared) (proposed : Document) (a : Attempt σ) : Prop :=
  ∃ target, a.read? registry p = some target ∧ conflicts (registry.table p.row.table).cas proposed target = true

instance (a : Attempt σ) (proposed : Document) : Decidable (a.Conflicts registry p proposed) :=
  decidable_of_iff _ (Option.any_eq_true _ _)

theorem any_needs_iff (proposed : Document) (as : List (Attempt σ)) :
    as.any (Attempt.needs registry p proposed) = true ↔
      (registry.table p.row.table).merge.isSome = true ∧ ∃ a ∈ as, a.Conflicts registry p proposed := by
  simp only [List.any_eq_true, Attempt.needs, needsBefore, Attempt.Conflicts, Bool.and_eq_true, Option.any_eq_true]
  constructor
  · rintro ⟨a, ha, hmerge, hconflict⟩
    exact ⟨hmerge, a, ha, hconflict⟩
  · rintro ⟨hmerge, a, ha, hconflict⟩
    exact ⟨a, ha, hmerge, hconflict⟩

/-- Preparing an upsert calls the map function for its document, once. In whatever later session it comes to its
row, on any store, it is applied in at most so many attempts as are allowed, each of which starts where the one
before it has ended. All of these together call the map function once for the row before the change if there is
one, the table has a merge and an attempt reads a row that is in conflict, and never otherwise. Whichever attempt
calls a merge function, it gives it the row before the change as mapping has made it, and the row that it has read
itself. -/
theorem before_image_is_mapped_at_most_once (registry : Registry) (clock : Clock) (source : String) {placed : Placed}
    {p : Prepared} {data : Document} {start ready s : Session σ} (hdata : placed.routed.mutation.data = some data)
    (hready : (prepare registry clock placed).exec start = (.ok (.ready p), ready))
    (hlater : ready.Later registry clock source s) :
    let config := registry.table p.row.table
    let origin := p.mutation.origin
    p.placed = placed ∧ ready.trace.calls = start.trace.calls ++ config.mapCalls data origin ∧
      ∃ row schema, p.action = .upsert row ∧ ready.schemas.get? p.row.table = some schema ∧
        let applied := ((applyPrepared registry source p).exec s).2
        let as := attempts registry source p row registry.options.attempts none s
        Connects s as applied ∧ applied.trace.calls = s.trace.calls ++ as.flatMap Attempt.calls ∧
          (∀ before, p.mutation.before = some before → config.merge.isSome = true →
            (∃ a ∈ as, a.Conflicts registry p row.row) →
            (as.flatMap Attempt.calls).filter Call.isMap = config.mapCalls before origin) ∧
          (p.mutation.before = none ∨ config.merge = none ∨ (∀ a ∈ as, ¬ a.Conflicts registry p row.row) →
            (as.flatMap Attempt.calls).filter Call.isMap = []) ∧
          ∀ a ∈ as, ∀ given, .merge given ∈ a.calls →
            a.read? registry p = some given.target ∧ p.mappedBefore registry schema = .ok given.before := by
  intro config origin
  obtain ⟨hplaced, ⟨row, haction⟩, ⟨schema, hschema⟩, hcalls⟩ := prepare_ready hready hdata
  refine ⟨hplaced, hcalls, row, schema, haction, hschema, ?_⟩
  have happlied : applyPrepared registry source p = (applyUpsert registry source p row : Run σ _) := by
    rw [applyPrepared, haction]
  rw [happlied]
  have hperformed : Performed registry schema p row.row none s
      (attempts registry source p row registry.options.attempts none s)
      ((applyUpsert registry source p row).exec s).2 :=
    upsertWithin_performed (hlater.shape hschema) faithful_none row _ _
  refine ⟨hperformed.connects, hperformed.calls, fun before hbefore hmerge hconflict => ?_, fun hnone => ?_,
    hperformed.merges⟩
  · rw [hperformed.maps, refreshCalls, (any_needs_iff row.row _).2 ⟨hmerge, hconflict⟩, Prepared.beforeCalls,
      hbefore]
    rfl
  · rw [hperformed.maps, refreshCalls]
    by_cases hneeded : (attempts registry source p row registry.options.attempts none s).any
        (Attempt.needs registry p row.row) = true
    · obtain ⟨hmerge, a, ha, hconflict⟩ := (any_needs_iff row.row _).1 hneeded
      rcases hnone with hbefore | hnone | hnone
      · rw [Prepared.beforeCalls, hbefore, ite_self]
      · rw [hnone] at hmerge
        cases hmerge
      · exact absurd hconflict (hnone a ha)
    · rw [Bool.not_eq_true] at hneeded
      rw [hneeded]
      rfl

namespace Example

/-- A registry in which rows are mapped to themselves, and conflicts are decided for the proposal. -/
def copied : Registry :=
  let copy : RowFunction := fun doc _ => ⟨0, .value doc.toValue⟩
  let prefer : MergeFunction := fun op => ⟨0, .value (Document.ofList [("apply", op.proposed.toValue)]).toValue⟩
  ⟨.default, Keyed.empty.put "orders" feed, Keyed.empty.put orders.name
    { TableConfig.plain with cas := ["paid"], map := some copy, merge := some (.custom prefer) }⟩

/-- A payment is taken back. -/
def correction : Placed :=
  ⟨0, 0, ⟨orders.name, ⟨some (content true), some (content false), [.bool true], default, .empty⟩⟩⟩

/-- The correction, ready for its row. -/
def corrected : Prepared := ⟨correction, ⟨[.bool true]⟩, .upsert ⟨content false, []⟩⟩

/-- A session with a store that holds the payment, and where another writer comes in between once. -/
def contended : Session ContendedStore :=
  .ofStore ⟨StoreOp.runAll [.createTable orders, .insert order (content true)] .empty, 1, content true⟩

/-- The session behind preparation. -/
def awaiting : Session ContendedStore := ((prepare copied default correction).exec contended).2

/-- The attempts to apply the correction. -/
def tries : List (Attempt ContendedStore) := attempts copied "orders" corrected ⟨content false, []⟩ 4 none awaiting

end Example

/-- The second attempt reads the row anew, and does not map the row before the change again. -/
theorem two_attempts_map_once :
    Example.tries.length = 2 ∧
      (Example.tries.flatMap Attempt.calls).filter Call.isMap = [.map (Example.content true) .empty] ∧
      ∀ a ∈ Example.tries, ∀ given, .merge given ∈ a.calls →
        a.read? Example.copied Example.corrected = some given.target := by
  have hready : (prepare Example.copied default Example.correction).exec Example.contended =
      (.ok (.ready Example.corrected), Example.awaiting) := exec_of_fst rfl
  obtain ⟨-, -, row, schema, haction, -, -, -, hmapped, -, hgiven⟩ :=
    before_image_is_mapped_at_most_once Example.copied default "orders" rfl hready .here
  cases haction
  have hconflict : ∃ a ∈ Example.tries, a.Conflicts Example.copied Example.corrected (Example.content false) := by
    decide +kernel
  exact ⟨by decide +kernel, hmapped _ rfl rfl hconflict, fun a ha given h => (hgiven a ha given h).1⟩

end Tributary
