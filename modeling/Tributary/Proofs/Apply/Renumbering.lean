import Tributary.Proofs.Apply.Planning

/-!
# Batches at other positions

The numbers and positions that mutations carry through the stages of a batch are only passed on to the
outcomes. So a batch that starts at a later number and a later position does the same, and has the same
outcomes under later numbers and later positions: `applyFrom_shift`, assembled from one such equation for
each stage.
-/

namespace Tributary

open Run

/-! ## Shifts -/

/-- The outcome of a mutation that stands so many positions later. -/
def Outcome.shift (positions : Nat) (o : Outcome) : Outcome := { o with index := o.index + positions }

/-- What is shifted: by how many numbers, and by how many positions. -/
structure Shift where
  numbers : Nat
  positions : Nat

namespace Shift

def outcome (d : Shift) (e : Nat × Outcome) : Nat × Outcome :=
  (e.1 + d.numbers, e.2.shift d.positions)

def routed (d : Shift) (r : RoutedSource) : RoutedSource := { r with index := r.index + d.positions }

def placed (d : Shift) (p : Placed) : Placed := ⟨p.number + d.numbers, p.index + d.positions, p.routed⟩

def prepared (d : Shift) (p : Prepared) : Prepared := { p with placed := d.placed p.placed }

def preparation (d : Shift) : Preparation → Preparation
  | .ready p => .ready (d.prepared p)
  | .dropped reason => .dropped reason

def source (d : Shift) (x : PreparedSource) : PreparedSource :=
  ⟨d.placed x.placed, x.result.map d.preparation⟩

end Shift

variable {registry : Registry} {options : Options} {now : Instant} {config : SourceConfig}
  {name : String} (d : Shift)

/-! ## Stages -/

theorem report_shift (index : Nat) (table : Option TableName) (key : Option RowKey)
    (disposition : Disposition) :
    (report (index + d.positions) table key disposition : Run MemoryStore _) =
      Outcome.shift d.positions <$> report index table key disposition := by
  simp [report, Outcome.shift]

theorem attempt_map {α β : Type} (f : α → β) (x : Run MemoryStore α) :
    (f <$> x).attempt = Except.map f <$> x.attempt := by
  refine funext fun s => ?_
  show (f <$> x).attempt.exec s = (Except.map f <$> x.attempt).exec s
  rw [exec_attempt, exec_map, exec_map, exec_attempt]
  rfl

theorem routeAll_shift (index : Nat) (batch : List Mutation) :
    (routeAll config options (index + d.positions) batch : Run MemoryStore _) =
      List.map d.routed <$> routeAll config options index batch := by
  induction batch generalizing index with
  | nil => simp [routeAll]
  | cons m rest ih =>
    have hnext := ih (index + 1)
    rw [Nat.add_right_comm] at hnext
    simp [routeAll, hnext, Shift.routed]

theorem place_shift (number index : Nat) (routed : List Routed) :
    place (number + d.numbers) (index + d.positions) routed = (place number index routed).map d.placed := by
  simp [place, Shift.placed, Nat.add_right_comm]

theorem settleRouted_shift (number : Nat) (routed : List RoutedSource) :
    (settleRouted options name (number + d.numbers) (routed.map d.routed) : Run MemoryStore _) =
      (fun r => (r.1.map d.outcome, r.2.map d.placed)) <$> settleRouted options name number routed := by
  induction routed generalizing number with
  | nil => simp [settleRouted]
  | cons head rest ih =>
    obtain ⟨index, m, result⟩ := head
    cases result with
    | error fault =>
      have hnext := ih (number + 1)
      rw [Nat.add_right_comm] at hnext
      simp [settleRouted, hnext, Shift.routed, Shift.outcome, report_shift]
    | ok routed =>
      cases routed with
      | nil =>
        have hnext := ih (number + 1)
        rw [Nat.add_right_comm] at hnext
        simp [settleRouted, hnext, Shift.routed, Shift.outcome, report_shift]
      | cons r rs =>
        have hnext := ih (number + (r :: rs).length)
        rw [Nat.add_right_comm, List.length_cons] at hnext
        simp [settleRouted, hnext, Shift.routed, place_shift]

theorem prepare_shift (p : Placed) :
    (prepare registry now (d.placed p) : Run MemoryStore _) = d.preparation <$> prepare registry now p := by
  unfold prepare
  cases hdata : p.routed.mutation.data with
  | none =>
    have hshifted : (d.placed p).routed.mutation.data = none := hdata
    rw [hshifted]
    dsimp only
    rw [Shift.placed]
    split
    · simp
    · simp [Shift.preparation, Shift.prepared, Shift.placed]
  | some data =>
    have hshifted : (d.placed p).routed.mutation.data = some data := hdata
    rw [hshifted]
    simp only [prepareUpsert, map_bind]
    refine bind_congr fun schema => bind_congr fun mapped => ?_
    cases mapped with
    | none => simp [Shift.preparation]
    | some row =>
      simp only [map_bind]
      refine bind_congr fun expired => ?_
      cases expired with
      | some _ => simp [Shift.preparation]
      | none =>
        simp [Shift.preparation, Shift.prepared]
        rfl

/-- Preparation looks at the clock once, under the number of the mutation. -/
theorem prepare_eq_shift (clock : Clock) (p : Placed) :
    (prepare registry clock p : Run MemoryStore _) =
      Shift.preparation ⟨p.number, p.index⟩ <$> prepare registry (clock.time p.number) ⟨0, 0, p.routed⟩ := by
  have hplaced : Shift.placed ⟨p.number, p.index⟩ ⟨0, 0, p.routed⟩ = p := by simp [Shift.placed]
  rw [← prepare_shift, hplaced]
  rfl

theorem prepareAll_shift (ps : List Placed) :
    (prepareAll registry now (ps.map d.placed) : Run MemoryStore _) =
      List.map d.source <$> prepareAll registry now ps := by
  induction ps with
  | nil => simp [prepareAll]
  | cons p rest ih => simp [prepareAll, ih, prepare_shift, attempt_map, Shift.source]

theorem settlePrepared_shift (xs : List PreparedSource) :
    (settlePrepared options name (xs.map d.source) : Run MemoryStore _) =
      (fun r => (r.1.map d.outcome, r.2.map d.prepared)) <$> settlePrepared options name xs := by
  induction xs with
  | nil => simp [settlePrepared]
  | cons head rest ih =>
    obtain ⟨placed, result⟩ := head
    cases result with
    | error fault =>
      simp [settlePrepared, ih, Shift.source, Shift.placed, Shift.outcome, report_shift, Except.map]
    | ok preparation =>
      cases preparation with
      | dropped reason =>
        simp [settlePrepared, ih, Shift.source, Shift.preparation, Shift.placed, Shift.outcome,
          report_shift, Except.map]
      | ready p => simp [settlePrepared, ih, Shift.source, Shift.preparation, Except.map]

/-! ## Rows -/

theorem upsertWithin_shift (p : Prepared) (row : MappedRow) (total attempts : Nat)
    (known : MappedBefore) :
    (upsertWithin registry name (d.prepared p) row total attempts known : Run MemoryStore _) =
      upsertWithin registry name p row total attempts known := by
  induction attempts generalizing known with
  | zero => rfl
  | succ attempts ih =>
    have hdecide : (decideWrite registry name (d.prepared p) row.row known : Run MemoryStore _) =
        decideWrite registry name p row.row known := rfl
    unfold upsertWithin
    rw [hdecide]
    refine bind_congr fun decided => ?_
    obtain ⟨decision, known⟩ := decided
    cases decision with
    | settled disposition => rfl
    | write data expected =>
      refine bind_congr fun outcome => ?_
      cases outcome with
      | written => rfl
      | versionMismatch => exact ih known

theorem applyPrepared_shift (p : Prepared) :
    (applyPrepared registry name (d.prepared p) : Run MemoryStore _) = applyPrepared registry name p := by
  unfold applyPrepared
  cases haction : p.action with
  | upsert row =>
    have hshifted : (d.prepared p).action = .upsert row := haction
    rw [hshifted]
    exact upsertWithin_shift d p row _ _ none
  | delete =>
    have hshifted : (d.prepared p).action = .delete := haction
    rw [hshifted]
    rfl

theorem applyOne_shift (p : Prepared) :
    (applyOne registry name (d.prepared p) : Run MemoryStore _) =
      d.outcome <$> applyOne registry name p := by
  have hreport (disposition : Disposition) := report_shift d p.placed.index (some p.row.table) (some p.key)
    disposition
  unfold applyOne
  rw [applyPrepared_shift, map_bind]
  refine bind_congr fun result => ?_
  rw [map_bind]
  refine bind_congr fun disposition => ?_
  show (do let outcome ← report (p.placed.index + d.positions) (some p.row.table) (some p.key) disposition
           return (p.placed.number + d.numbers, outcome)) = _
  rw [hreport]
  simp [Shift.outcome]

theorem applyGroup_shift (ps : List Prepared) :
    (applyGroup registry name (ps.map d.prepared) : Run MemoryStore _) =
      List.map d.outcome <$> applyGroup registry name ps := by
  induction ps with
  | nil => simp [applyGroup]
  | cons p rest ih =>
    rw [List.map_cons, applyGroup_cons, applyGroup_cons, ih, applyOne_shift]
    simp

/-! ## Batches -/

theorem planFrom_shift (number index : Nat) (batch : List Mutation) :
    (planFrom registry now config (number + d.numbers) (index + d.positions) batch :
        Run MemoryStore _) =
      (fun r => (r.1.map d.outcome, r.2.map d.prepared)) <$>
        planFrom registry now config number index batch := by
  unfold planFrom settleFrom ready
  simp [routeAll_shift, settleRouted_shift, prepareAll_shift, settlePrepared_shift]

/-- A batch at a later number and a later position has the same outcomes, shifted. -/
theorem applyFrom_shift (number index : Nat) (batch : List Mutation) :
    applyFrom registry now config (number + d.numbers) (index + d.positions) batch =
      List.map d.outcome <$> applyFrom registry now config number index batch := by
  unfold applyFrom
  rw [planFrom_shift]
  simp [applyGroup_shift]

end Tributary
