import Tributary.Proofs.Apply.Planning

/-!
# One mutation alone

What becomes of a mutation that is the only one of its group, or of its batch, on whatever store.

* `applyGroup_of_applied`, `applyGroup_of_parked`: a group of one, from the result of applying its mutation.
  `applied_of_applyGroup` goes the other way.
* `processBatch_of_ready`: a batch of one, from a source that passes its mutations on to a table.
-/

namespace Tributary

open Run

variable {σ : Type} [TargetStore σ] {registry : Registry} {source : String} {p : Prepared} {s t u : Session σ}

/-! ## Groups -/

/-- The session behind a count. -/
def Session.counted (s : Session σ) (m : Metric) : Session σ := { s with trace := s.trace ++ ⟨[], [m]⟩ }

/-- The outcome of a prepared mutation, with its number. -/
def Prepared.settled (p : Prepared) (disposition : Disposition) : Nat × Outcome :=
  (p.placed.number, ⟨p.placed.index, some p.row.table, some p.key, disposition⟩)

theorem applyGroup_singleton :
    applyGroup registry source [p] = (applyOne registry source p >>= fun first => pure [first] : Run σ _) := by
  rw [applyGroup_cons]
  simp only [applyGroup, pure_bind]

/-- Whatever comes of applying the mutation is disposed of and counted. -/
theorem applyGroup_of_disposed {result : Result Disposition} {disposition : Disposition}
    (happly : (applyPrepared registry source p).exec s = (result, t))
    (hdispose : (disposeOf registry source p result).exec t = (.ok disposition, u)) :
    (applyGroup registry source [p]).exec s =
      (.ok [p.settled disposition], u.counted (.ofDisposition (some p.row.table) disposition)) := by
  have hattempt : (applyPrepared registry source p).attempt.exec s = (.ok result, t) := by
    rw [exec_attempt, happly]
  rw [applyGroup_singleton, applyOne, bind_assoc, exec_bind_of_ok hattempt, bind_assoc, exec_bind_of_ok hdispose]
  rfl

theorem applyGroup_of_applied {disposition : Disposition}
    (happly : (applyPrepared registry source p).exec s = (.ok disposition, t)) :
    (applyGroup registry source [p]).exec s =
      (.ok [p.settled disposition], t.counted (.ofDisposition (some p.row.table) disposition)) :=
  applyGroup_of_disposed happly rfl

/-- The letter for a mutation that failed outside of a merge. -/
def Prepared.failureLetter (registry : Registry) (source : String) (p : Prepared) (fault : Fault) : DeadLetter :=
  ⟨registry.options.defaultDlq, source, some p.row.table, p.mutation, none, some fault.text⟩

theorem applyGroup_of_parked {fault : Fault} {store : σ}
    (happly : (applyPrepared registry source p).exec s = (.error fault, t)) (haction : fault.action = .park)
    (hpark : TargetStore.park (p.failureLetter registry source fault) t.store = (.ok (), store)) :
    (applyGroup registry source [p]).exec s = (.ok [p.settled (.parked registry.options.defaultDlq)],
      Session.counted { t with store := store }
        (.ofDisposition (some p.row.table) (.parked registry.options.defaultDlq))) := by
  refine applyGroup_of_disposed happly ?_
  have hstored : (Run.store (TargetStore.park (p.failureLetter registry source fault))).exec t =
      (.ok (), { t with store := store }) := by
    rw [Run.store, exec_ofFunction, hpark]
  simp only [disposeOf, handleFailure, haction]
  exact exec_bind_of_ok hstored

theorem handleFailure_unapplied (options : Options) (table : Option TableName) (m : Mutation)
    (operation : Option MergeOperation) (fault : Fault) :
    Ensures (fun disposition => disposition ≠ .applied)
      (handleFailure options source table m operation fault : Run σ _) := by
  unfold handleFailure
  split
  · exact ⟨fun _ _ _ h => by cases h⟩
  · exact .pure Disposition.noConfusion
  · exact (Ensures.true _).bind fun _ _ => .pure Disposition.noConfusion

/-- A mutation whose outcome is that it was applied has been applied without a fault. -/
theorem applied_of_applyGroup {applied : Numbered}
    (h : (applyGroup registry source [p]).exec s = (.ok applied, u)) :
    ∃ disposition, applied = [p.settled disposition] ∧ (disposition = .applied → ∃ t,
      (applyPrepared registry source p).exec s = (.ok .applied, t) ∧
        u = t.counted (.ofDisposition (some p.row.table) .applied)) := by
  rw [applyGroup_singleton] at h
  obtain ⟨e, v, hone, hlist⟩ := exec_bind_ok h
  cases hlist
  obtain ⟨result, t, happly, hrest⟩ := exec_bind_ok hone
  obtain ⟨disposition, w, hdispose, hreport⟩ := exec_bind_ok hrest
  cases hreport
  refine ⟨disposition, rfl, ?_⟩
  rintro rfl
  rw [exec_attempt] at happly
  obtain rfl : ((applyPrepared registry source p).exec s).2 = t := congrArg Prod.snd happly
  cases hresult : ((applyPrepared registry source p).exec s).1 with
  | ok disposition =>
    rw [hresult] at happly
    cases happly
    cases hdispose
    exact ⟨_, exec_of_fst hresult, rfl⟩
  | error fault =>
    rw [hresult] at happly
    cases happly
    exact absurd rfl ((handleFailure_unapplied ..).result _ _ _ hdispose)

/-! ## Batches -/

/-- A source that passes its mutations on to a table as they are. -/
def SourceConfig.passing (name : String) (table : TableName) : SourceConfig := ⟨name, .target table, false⟩

theorem route_passing (name : String) (table : TableName) (timeout : Span) (limit : Nat) (m : Mutation) :
    route (.passing name table) timeout limit m = pure [⟨table, m⟩] := by
  unfold route
  cases m.kind <;> rfl

section

variable {clock : Clock} {name : String} {table : TableName} {m : Mutation}

/-- A mutation that is ready is all that the stages before its row leave of the batch. -/
theorem planFrom_of_ready (hready : (prepare registry clock ⟨0, 0, table, m⟩).exec s = (.ok (.ready p), t)) :
    (planFrom registry clock (.passing name table) 0 0 [m]).exec s = (.ok ([], [p]), t) := by
  have hroute : (routeAll (.passing name table) registry.options 0 [m] : Run σ _).exec s =
      (.ok [⟨0, m, .ok [⟨table, m⟩]⟩], s) := by
    rw [routeAll, route_passing, exec_bind, Run.logged, exec_ofFunction]
    show ((do let others ← pure []; pure _) : Run σ _).exec { s with trace := s.trace ++ Trace.empty } = _
    rw [Trace.append_empty]
    rfl
  have hprepare : (prepareAll registry clock [⟨0, 0, table, m⟩]).exec s =
      (.ok [⟨⟨0, 0, table, m⟩, .ok (.ready p)⟩], t) := by
    have hattempt : (prepare registry clock ⟨0, 0, table, m⟩).attempt.exec s = (.ok (.ok (.ready p)), t) := by
      rw [exec_attempt, hready]
    rw [prepareAll, exec_bind_of_ok hattempt]
    rfl
  rw [planFrom, exec_bind_of_ok hroute]
  show (ready registry clock name [⟨0, 0, table, m⟩] >>= _).exec s = _
  rw [ready, bind_assoc, exec_bind_of_ok hprepare]
  rfl

/-- So what is left of the batch is a group of one. -/
theorem processBatch_of_ready (hsource : registry.source source = .ok (.passing name table))
    (hready : (prepare registry clock ⟨0, 0, table, m⟩).exec s = (.ok (.ready p), t)) :
    (processBatch registry clock source [m]).exec s =
      (applyGroup registry name [p] >>= fun applied => pure (inOrder applied)).exec t := by
  have hconfig : (liftM (registry.source source) : Run σ _).exec s = (.ok (.passing name table), s) := by
    rw [exec_liftM, hsource]
  have hgroups : (applyGroups registry name [[p]] : Run σ _) = applyGroup registry name [p] := by
    simp only [applyGroups, pure_bind, List.append_nil, bind_pure]
  rw [processBatch, exec_bind_of_ok hconfig, exec_bind_of_ok (planBatch_exec (planFrom_of_ready hready)), ← hgroups]
  rfl

theorem inOrder_singleton (e : Nat × Outcome) : inOrder [e] = [e.2] := by simp [inOrder]

end

end Tributary
