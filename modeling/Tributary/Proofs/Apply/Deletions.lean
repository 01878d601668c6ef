import Tributary.Proofs.Apply.Alone
import Tributary.Proofs.Apply.Containment

/-!
# Batches of deletions

A deletion with a key is not mapped, and it is neither dropped nor merged. So a source that has a table for its
deletions deletes them all, as long as the rows of this table can be deleted.

* `route_of_deletes`: the one destination of a deletion.
* `planFrom_of_deletes`: the stages before rows are touched make all deletions ready, on whatever store.
* `Serves.processArranged_of_deletes`: every mutation of the batch has been deleted, in the order of the batch.
-/

namespace Tributary

open Run

/-- A mutation deletes the row of a key. -/
structure Mutation.Deletes (m : Mutation) : Prop where
  data : m.data = none
  key : m.key ≠ []

theorem deleteTarget_of_namedTable? {source : SourceConfig} {table : TableName} (h : source.namedTable? = some table) :
    source.deleteTarget = .ok table := by
  unfold SourceConfig.namedTable? at h
  unfold SourceConfig.deleteTarget
  split at h
  · next other hdestination =>
    cases h
    rw [hdestination]
  · next function deletesTo hdestination =>
    subst h
    rw [hdestination]

theorem route_of_deletes {source : SourceConfig} {table : TableName} (htable : source.deleteTarget = .ok table)
    {m : Mutation} (hm : m.Deletes) (timeout : Span) (limit : Nat) :
    route source timeout limit m = pure [⟨table, m⟩] := by
  have hkind : m.kind = .delete := by
    rw [Mutation.kind, hm.data]
    rfl
  rw [route, hkind, htable]
  rfl

/-! ## Planning -/

/-- A deletion at its position in a batch, which is the number of its outcome as well. -/
def placedAt (table : TableName) (e : Mutation × Nat) : Placed := ⟨e.2, e.2, ⟨table, e.1⟩⟩

/-- The deletion as it is ready for its row. -/
def deletionAt (table : TableName) (e : Mutation × Nat) : Prepared := ⟨placedAt table e, ⟨e.1.key⟩, .delete⟩

section

variable {σ : Type} {registry : Registry} {clock : Clock} {table : TableName} {source : SourceConfig}

theorem routedFrom_of_deletes (htable : source.deleteTarget = .ok table) (options : Options) (first : Nat)
    {batch : List Mutation} (hbatch : ∀ m ∈ batch, m.Deletes) :
    routedFrom source options first batch =
      (batch.zipIdx first).map fun e => ⟨e.2, e.1, .ok [(placedAt table e).routed]⟩ := by
  refine List.map_congr_left fun e he => ?_
  rw [route_of_deletes htable (hbatch e.1 (List.fst_mem_of_mem_zipIdx he))]
  rfl

variable [TargetStore σ]

theorem settleRouted_of_deletes (options : Options) (name : String) (first : Nat) (batch : List Mutation) :
    (settleRouted options name first
      ((batch.zipIdx first).map fun e => ⟨e.2, e.1, .ok [(placedAt table e).routed]⟩) : Run σ _) =
      pure ([], (batch.zipIdx first).map (placedAt table)) := by
  induction batch generalizing first with
  | nil => rfl
  | cons m rest ih =>
    rw [List.zipIdx_cons, List.map_cons, List.map_cons]
    simp only [settleRouted, List.length_singleton, ih, pure_bind]
    rfl

theorem prepareAll_of_deletes {batch : List (Mutation × Nat)} (hbatch : ∀ e ∈ batch, e.1.Deletes) :
    (prepareAll registry clock (batch.map (placedAt table)) : Run σ _) =
      pure (batch.map fun e => ⟨placedAt table e, .ok (.ready (deletionAt table e))⟩) := by
  induction batch with
  | nil => rfl
  | cons e rest ih =>
    obtain ⟨he, hrest⟩ := List.forall_mem_cons.1 hbatch
    have hready : (prepare registry clock (placedAt table e) : Run σ _) = pure (.ready (deletionAt table e)) := by
      have hdata : (placedAt table e).routed.mutation.data = none := he.data
      have hkey : (placedAt table e).routed.mutation.key.isEmpty = false := List.isEmpty_eq_false_iff.2 he.key
      rw [prepare, hdata]
      simp only [hkey]
      rfl
    rw [List.map_cons, prepareAll, hready, ih hrest]
    rfl

theorem settlePrepared_of_deletes (options : Options) (name : String) (batch : List (Mutation × Nat)) :
    (settlePrepared options name
      (batch.map fun e => ⟨placedAt table e, .ok (.ready (deletionAt table e))⟩) : Run σ _) =
      pure ([], batch.map (deletionAt table)) := by
  induction batch with
  | nil => rfl
  | cons e rest ih =>
    rw [List.map_cons, settlePrepared, ih]
    rfl

variable (registry clock) in
/-- Behind the stages before rows are touched all deletions are ready, and nothing but the record has changed. -/
theorem planFrom_of_deletes (htable : source.deleteTarget = .ok table) {batch : List Mutation}
    (hbatch : ∀ m ∈ batch, m.Deletes) (s : Session σ) :
    ∃ trace, (planFrom registry clock source 0 0 batch).exec s =
      (.ok ([], batch.zipIdx.map (deletionAt table)), { s with trace := trace }) := by
  obtain ⟨trace, hroute⟩ := routeAll_exec 0 batch s
  refine ⟨trace, ?_⟩
  have hdeletes : ∀ e ∈ batch.zipIdx, e.1.Deletes := fun e he => hbatch e.1 (List.fst_mem_of_mem_zipIdx he)
  rw [planFrom, exec_bind_of_ok hroute, routedFrom_of_deletes htable registry.options 0 hbatch, settleFrom,
    settleRouted_of_deletes, pure_bind, ready, prepareAll_of_deletes hdeletes, pure_bind, settlePrepared_of_deletes]
  rfl

/-- The outcomes of deletions are put in the order of the batch. -/
theorem inOrder_of_deletes {batch : List Mutation} {ps : List Prepared}
    (h : ps.Perm (batch.zipIdx.map (deletionAt table))) :
    inOrder ([] ++ ps.map fun p => p.settled .deleted) =
      batch.zipIdx.map fun e => ⟨e.2, some table, some ⟨e.1.key⟩, .deleted⟩ := by
  have hperm := h.map fun p => p.settled .deleted
  have hnumbers : ((batch.zipIdx.map (deletionAt table)).map fun p => p.settled .deleted).map Prod.fst =
      List.range batch.length := by
    rw [List.map_map, List.map_map, List.range_eq_range', ← List.zipIdx_map_snd]
    rfl
  have hnodup : ((ps.map fun p => p.settled .deleted).map Prod.fst).Nodup := by
    rw [(hperm.map Prod.fst).nodup_iff, hnumbers]
    exact List.nodup_range
  have hsorted := List.pairwise_le_range (n := batch.length)
  rw [← hnumbers, List.pairwise_map] at hsorted
  rw [List.nil_append, inOrder_of_sorted hperm hnodup hsorted, List.map_map, List.map_map]
  rfl

/-! ## Rows -/

variable {schema : Schema} {I : Session σ → Prop} (hI : Serves table schema I)

include hI

variable (registry) in
/-- A deletion that is ready deletes its row, and is reported as such. -/
theorem Serves.applyOne_of_deletes (name : String) {p : Prepared} (htable : p.row.table = table)
    (haction : p.action = .delete) :
    Succeeds I (· = p.settled .deleted) (applyOne registry name p : Run σ _) := by
  have hdeleted : Succeeds I (· = Disposition.deleted) (applyPrepared registry name p : Run σ _) := by
    rw [applyPrepared, haction]
    exact (hI.deleteRow p.row htable).bind fun _ _ => .pure rfl
  refine hdeleted.attempt.bind fun result hresult => ?_
  cases result with
  | error fault => exact hresult.elim
  | ok disposition =>
    obtain rfl : disposition = .deleted := hresult
    have hreport : Succeeds I (· = (p.settled .deleted).2)
        (report p.placed.index (some p.row.table) (some p.key) .deleted : Run σ _) :=
      (hI.logged _).bind fun _ _ => .pure rfl
    rw [disposeOf, pure_bind]
    refine hreport.bind fun outcome houtcome => .pure ?_
    rw [houtcome]
    rfl

variable (registry) in
theorem Serves.applyGroup_of_deletes (name : String) {ps : List Prepared}
    (hps : ∀ p ∈ ps, p.row.table = table ∧ p.action = .delete) :
    Succeeds I (· = ps.map fun p => p.settled .deleted) (applyGroup registry name ps : Run σ _) := by
  induction ps with
  | nil => exact .pure rfl
  | cons p rest ih =>
    obtain ⟨⟨htable, haction⟩, hrest⟩ := List.forall_mem_cons.1 hps
    rw [applyGroup_cons]
    refine (hI.applyOne_of_deletes registry name htable haction).bind fun first hfirst =>
      (ih hrest).bind fun others hothers => .pure ?_
    rw [hfirst, hothers]
    rfl

variable (clock) in
/-- All mutations of the batch are deleted, in any order of their rows. -/
theorem Serves.processArranged_of_deletes {name : String} (hsource : registry.source name = .ok source)
    (htable : source.deleteTarget = .ok table) (arrangement : Arrangement) {batch : List Mutation}
    (hbatch : ∀ m ∈ batch, m.Deletes) :
    Succeeds I (· = batch.zipIdx.map fun e => ⟨e.2, some table, some ⟨e.1.key⟩, .deleted⟩)
      (processArranged registry clock name arrangement batch : Run σ _) := by
  refine ⟨fun s hs => ?_⟩
  obtain ⟨trace, hplan⟩ := planFrom_of_deletes registry clock htable hbatch s
  have hflat := arrangement.flatten_perm (batch.zipIdx.map (deletionAt table))
  have hdeletes : ∀ p ∈ (arrangement.arrange (groupRows (batch.zipIdx.map (deletionAt table)))).flatten,
      p.row.table = table ∧ p.action = .delete := by
    intro p hp
    obtain ⟨e, -, rfl⟩ := List.mem_map.1 (hflat.mem_iff.1 hp)
    exact ⟨rfl, rfl⟩
  have hrows := hI.applyGroup_of_deletes registry source.name hdeletes
  obtain ⟨applied, happlied, rfl⟩ := hrows.exists_ok (hI.recorded s trace hs)
  have hafter := (hrows.run _ (hI.recorded s trace hs)).1
  rw [processArranged_exec arrangement hsource hplan (exec_of_fst happlied)]
  exact ⟨hafter, inOrder_of_deletes hflat⟩

end

end Tributary
