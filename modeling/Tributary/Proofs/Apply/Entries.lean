import Mathlib.Data.List.Perm.Basic
import Tributary.Proofs.Apply.Planning
import Tributary.Proofs.Apply.Views

/-!
# Entries of a batch

A source mutation of a batch stands for the mutations that routing makes of it, in the order of routing, or
for itself if routing discards it or fails. These are the entries of the batch. Each of them has one outcome.

* `entries`: the entries of a batch in order; the number of an entry is its place among them.
* `Piecewise`: what can be said of lists piece by piece. Then `settleRouted_adds` and `settlePrepared_adds`
  say it of the two stages that settle entries, if it is true of what they do with a single one.
* `Accounted`: every entry of a list is either settled or waits for the next stage, and none is both.
* `settleRouted_accounted`, `ready_accounted`: the stages before rows are touched account for what they are
  given, on whatever store; `Accounted.trans` puts them together.
* `applyGroup_labels`: mutations that are applied have one outcome each, with their positions and keys.
-/

namespace Tributary

open Run

/-! ## Entries -/

/-- What one outcome stands for. -/
structure Entry where
  /-- The position of the source mutation in its batch. -/
  index : Nat
  /-- The table that the mutation is bound for, if it was routed. -/
  table : Option TableName
  /-- The routed mutation, or else the source mutation. -/
  mutation : Mutation
  deriving DecidableEq, Repr

/-- The entry of a routed mutation. -/
def Routed.entry (index : Nat) (r : Routed) : Entry := ⟨index, some r.table, r.mutation⟩

/-- The entries of a source mutation. -/
def RoutedSource.entries (r : RoutedSource) : List Entry :=
  match r.result with
  | .ok [] | .error _ => [⟨r.index, none, r.mutation⟩]
  | .ok routed => routed.map (Routed.entry r.index)

/-- What routing makes of the mutations of a batch, the first of which has the given index. -/
def routedFrom (source : SourceConfig) (options : Options) (index : Nat) (batch : List Mutation) :
    List RoutedSource :=
  (batch.zipIdx index).map fun e =>
    ⟨e.2, e.1, (route source options.functionTimeout options.maxDepth e.1).attempt.value⟩

/-- The entries of a batch. -/
def entries (registry : Registry) (source : SourceConfig) (batch : List Mutation) : List Entry :=
  (routedFrom source registry.options 0 batch).flatMap RoutedSource.entries

/-- The entry of a placed mutation, with its number. -/
def Placed.entry (p : Placed) : Entry × Nat := (p.routed.entry p.index, p.number)

theorem RoutedSource.index_of_mem_entries {r : RoutedSource} {e : Entry} (h : e ∈ r.entries) : e.index = r.index := by
  unfold RoutedSource.entries at h
  split at h
  · cases List.mem_singleton.1 h
    rfl
  · cases List.mem_singleton.1 h
    rfl
  · obtain ⟨target, -, rfl⟩ := List.mem_map.1 h
    rfl

theorem RoutedSource.length_entries (r : RoutedSource) : r.entries.length = r.outcomes := by
  obtain ⟨index, m, result⟩ := r
  cases result with
  | error fault => rfl
  | ok routed =>
    cases routed with
    | nil => rfl
    | cons r rs => exact List.length_map _

theorem length_flatMap_entries (rs : List RoutedSource) :
    (rs.flatMap RoutedSource.entries).length = outcomesOf rs := by
  induction rs with
  | nil => rfl
  | cons r rest ih => rw [List.flatMap_cons, List.length_append, ih, r.length_entries, outcomesOf]

theorem routedFrom_result {source : SourceConfig} {options : Options} {index : Nat} {batch : List Mutation}
    {r : RoutedSource} (h : r ∈ routedFrom source options index batch) :
    r.result = (route source options.functionTimeout options.maxDepth r.mutation).attempt.value := by
  obtain ⟨e, -, rfl⟩ := List.mem_map.1 h
  rfl

theorem map_entry_place (number index : Nat) (routed : List Routed) :
    (place number index routed).map Placed.entry = (routed.map (Routed.entry index)).zipIdx number := by
  have hzip := List.zipIdx_eq_map_add (i := number) (l := routed)
  rw [place, List.map_map, List.zipIdx_map, hzip, List.map_map]
  refine List.map_congr_left fun e _ => ?_
  simp [Placed.entry]

/-! ## Stages -/

/-- The entry of a source mutation that is not routed anywhere. -/
def RoutedSource.alone (r : RoutedSource) : Entry := ⟨r.index, none, r.mutation⟩

section

variable {σ : Type} [TargetStore σ]

/-- Settles an entry that has failed. -/
def Entry.fail (options : Options) (source : String) (e : Entry) (fault : Fault) : Run σ Outcome := do
  let disposition ← handleFailure options source e.table e.mutation none fault
  report e.index e.table none disposition

end

/-- Settles an entry that is dropped. -/
def Entry.drop {σ : Type} (e : Entry) (reason : DropReason) : Run σ Outcome :=
  report e.index e.table none (.dropped reason)

/-- A relation between what a stage is given, the outcomes that it settles, what it lets wait and what it adds
to a view, which holds of lists if it holds of their pieces. -/
structure Piecewise {α β γ : Type} (P : List α → Numbered → List β → List γ → Prop) : Prop where
  nil : P [] [] [] []
  append {given settled waiting more given' settled' waiting' more'} : P given settled waiting more →
    P given' settled' waiting' more' →
      P (given ++ given') (settled ++ settled') (waiting ++ waiting') (more ++ more')

section

variable {σ γ : Type} [TargetStore σ] {view : Session σ → List γ} {options : Options} {name : String}

/-- What holds of each entry that a source mutation comes to holds of all of them. -/
theorem settleRouted_adds {P : List (Entry × Nat) → Numbered → List Placed → List γ → Prop}
    (hP : Piecewise P) {routed : List RoutedSource}
    (hfailed : ∀ r ∈ routed, ∀ fault number, r.result = .error fault →
      Adds view (fun o more => P [(r.alone, number)] [(number, o)] [] more)
        (r.alone.fail options name fault))
    (hdropped : ∀ r ∈ routed, ∀ number, r.result = .ok [] →
      Adds view (fun o more => P [(r.alone, number)] [(number, o)] [] more) (r.alone.drop .discarded))
    (hwaits : ∀ p : Placed, P [p.entry] [] [p] []) (number : Nat) :
    Adds view (fun r more => P ((routed.flatMap RoutedSource.entries).zipIdx number) r.1 r.2 more)
      (settleRouted options name number routed) := by
  induction routed generalizing number with
  | nil => exact .pure hP.nil
  | cons head rest ih =>
    obtain ⟨index, m, result⟩ := head
    have ih := ih (fun r hr => hfailed r (List.mem_cons_of_mem _ hr))
      fun r hr => hdropped r (List.mem_cons_of_mem _ hr)
    rw [List.flatMap_cons, List.zipIdx_append]
    unfold settleRouted
    cases result with
    | error fault =>
      dsimp only
      rw [← bind_assoc]
      refine (hfailed _ List.mem_cons_self fault number rfl).bind fun outcome more hmore => ?_
      refine (ih (number + 1)).bind fun others later hlater => .pure ?_
      rw [List.append_nil]
      exact hP.append hmore hlater
    | ok routed =>
      cases routed with
      | nil =>
        refine (hdropped _ List.mem_cons_self number rfl).bind fun outcome more hmore => ?_
        refine (ih (number + 1)).bind fun others later hlater => .pure ?_
        rw [List.append_nil]
        exact hP.append hmore hlater
      | cons r rs =>
        -- none of the routed mutations is settled yet
        have hall (placed : List Placed) : P (placed.map Placed.entry) [] placed [] := by
          induction placed with
          | nil => exact hP.nil
          | cons p ps ih => exact hP.append (hwaits p) ih
        have hplaced := hall (place number index (r :: rs))
        rw [map_entry_place] at hplaced
        have hlength : (RoutedSource.entries ⟨index, m, .ok (r :: rs)⟩).length = (r :: rs).length :=
          List.length_map _
        refine (ih (number + (r :: rs).length)).bind fun others later hlater => .pure ?_
        rw [List.append_nil, hlength]
        exact hP.append hplaced hlater

/-- What holds of each mutation that was to be prepared holds of all of them. -/
theorem settlePrepared_adds {P : List PreparedSource → Numbered → List Prepared → List γ → Prop}
    (hP : Piecewise P) {prepared : List PreparedSource}
    (hfailed : ∀ x ∈ prepared, ∀ fault, x.result = .error fault →
      Adds view (fun o more => P [x] [(x.placed.number, o)] [] more)
        (x.placed.entry.1.fail options name fault))
    (hdropped : ∀ x ∈ prepared, ∀ reason, x.result = .ok (.dropped reason) →
      Adds view (fun o more => P [x] [(x.placed.number, o)] [] more) (x.placed.entry.1.drop reason))
    (hready : ∀ x ∈ prepared, ∀ p, x.result = .ok (.ready p) → P [x] [] [p] []) :
    Adds view (fun r more => P prepared r.1 r.2 more) (settlePrepared options name prepared) := by
  induction prepared with
  | nil => exact .pure hP.nil
  | cons head rest ih =>
    obtain ⟨placed, result⟩ := head
    have ih := ih (fun x hx => hfailed x (List.mem_cons_of_mem _ hx))
      (fun x hx => hdropped x (List.mem_cons_of_mem _ hx)) fun x hx => hready x (List.mem_cons_of_mem _ hx)
    unfold settlePrepared
    cases result with
    | error fault =>
      dsimp only
      rw [← bind_assoc]
      refine (hfailed _ List.mem_cons_self fault rfl).bind fun outcome more hmore => ?_
      refine ih.bind fun others later hlater => .pure ?_
      rw [List.append_nil]
      exact hP.append hmore hlater
    | ok preparation =>
      cases preparation with
      | dropped reason =>
        refine (hdropped _ List.mem_cons_self reason rfl).bind fun outcome more hmore => ?_
        refine ih.bind fun others later hlater => .pure ?_
        rw [List.append_nil]
        exact hP.append hmore hlater
      | ready p =>
        refine ih.bind fun others later hlater => .pure ?_
        rw [List.append_nil]
        exact hP.append (hready _ List.mem_cons_self p rfl) hlater

end

/-! ## Accounts -/

/-- Numbered entries are parted into such that have an outcome, which has no key, and such that wait. -/
structure Accounted (entries : List (Entry × Nat)) (settled : Numbered) (waiting : List Placed) :
    Prop where
  numbers : (settled.map Prod.fst ++ waiting.map Placed.number).Perm (entries.map Prod.snd)
  settled : ∀ e ∈ settled, ∃ entry, (entry, e.1) ∈ entries ∧ e.2.index = entry.index ∧
    e.2.table = entry.table ∧ e.2.key = none
  waiting : ∀ p ∈ waiting, p.entry ∈ entries

namespace Accounted

variable {first second : List (Entry × Nat)} {settled more : Numbered} {waiting rest : List Placed}

theorem nil : Accounted [] [] [] := ⟨.refl _, fun _ h => absurd h List.not_mem_nil,
  fun _ h => absurd h List.not_mem_nil⟩

theorem append (h : Accounted first settled waiting) (h' : Accounted second more rest) :
    Accounted (first ++ second) (settled ++ more) (waiting ++ rest) where
  numbers := by
    have hboth := h.numbers.append h'.numbers
    simp only [List.map_append]
    exact (perm_interchange ..).trans hboth
  settled e he := by
    rcases List.mem_append.1 he with he | he
    · obtain ⟨entry, hin, hrest⟩ := h.settled e he
      exact ⟨entry, List.mem_append_left second hin, hrest⟩
    · obtain ⟨entry, hin, hrest⟩ := h'.settled e he
      exact ⟨entry, List.mem_append_right first hin, hrest⟩
  waiting p hp := by
    rcases List.mem_append.1 hp with hp | hp
    · exact List.mem_append_left second (h.waiting p hp)
    · exact List.mem_append_right first (h'.waiting p hp)

/-- What waits after one stage is what the next stage is given. -/
theorem trans (h : Accounted first settled waiting)
    (h' : Accounted (waiting.map Placed.entry) more rest) : Accounted first (settled ++ more) rest where
  numbers := by
    have hnumbers := h'.numbers
    rw [List.map_map] at hnumbers
    rw [List.map_append, List.append_assoc]
    exact (hnumbers.append_left _).trans h.numbers
  settled e he := by
    rcases List.mem_append.1 he with he | he
    · exact h.settled e he
    · obtain ⟨entry, hin, hrest⟩ := h'.settled e he
      obtain ⟨p, hp, hentry⟩ := List.mem_map.1 hin
      exact ⟨entry, hentry ▸ h.waiting p hp, hrest⟩
  waiting p hp := by
    obtain ⟨q, hq, hentry⟩ := List.mem_map.1 (h'.waiting p hp)
    exact hentry ▸ h.waiting q hq

theorem settle (entry : Entry) (number : Nat) (disposition : Disposition) :
    Accounted [(entry, number)] [(number, ⟨entry.index, entry.table, none, disposition⟩)] [] where
  numbers := .refl _
  settled e he := by
    cases List.mem_singleton.1 he
    exact ⟨entry, List.mem_singleton_self _, rfl, rfl, rfl⟩
  waiting p hp := absurd hp List.not_mem_nil

theorem wait (placed : List Placed) : Accounted (placed.map Placed.entry) [] placed where
  numbers := by rw [List.map_map]; exact .refl _
  settled e he := absurd he List.not_mem_nil
  waiting p hp := List.mem_map_of_mem hp

end Accounted

/-! ### Stages -/

section

variable {σ : Type} {options : Options} {source : SourceConfig}

theorem routeAll_exec (index : Nat) (batch : List Mutation) (s : Session σ) :
    ∃ trace, (routeAll source options index batch).exec s =
      (.ok (routedFrom source options index batch), { s with trace := trace }) := by
  induction batch generalizing index s with
  | nil => exact ⟨s.trace, rfl⟩
  | cons m rest ih =>
    let first := (route source options.functionTimeout options.maxDepth m).attempt
    have hfirst : (Run.logged first).exec s = (.ok first.value, { s with trace := s.trace ++ first.trace }) :=
      rfl
    obtain ⟨trace, hrest⟩ := ih (index + 1) { s with trace := s.trace ++ first.trace }
    refine ⟨trace, ?_⟩
    rw [routeAll, exec_bind_of_ok hfirst, exec_bind_of_ok hrest]
    rfl

theorem report_ensures (index : Nat) (table : Option TableName) (key : Option RowKey)
    (disposition : Disposition) :
    Ensures (fun outcome => outcome = ⟨index, table, key, disposition⟩)
      (report index table key disposition : Run σ _) :=
  (Ensures.true _).bind fun _ _ => .pure rfl

theorem Run.Ensures.attempt {α : Type} {P : α → Prop} {x : Run σ α} (hx : Ensures P x) :
    Ensures (fun result => ∀ a, result = .ok a → P a) x.attempt := by
  refine ⟨fun s result s' hrun a ha => ?_⟩
  rw [exec_attempt] at hrun
  cases hrun
  exact hx.result s a _ (Prod.ext ha rfl)

theorem Entry.drop_accounted (e : Entry) (number : Nat) (reason : DropReason) :
    Ensures (fun o => Accounted [(e, number)] [(number, o)] []) (e.drop reason : Run σ _) :=
  (report_ensures ..).mono fun _ ho => ho ▸ .settle e number (.dropped reason)

end

section

variable {σ : Type} [TargetStore σ] {options : Options} {registry : Registry} {clock : Clock}
  {source : SourceConfig} {name : String}

theorem Entry.fail_accounted (e : Entry) (number : Nat) (fault : Fault) :
    Ensures (fun o => Accounted [(e, number)] [(number, o)] [])
      (e.fail options name fault : Run σ _) :=
  (Ensures.true _).bind fun disposition _ =>
    (report_ensures ..).mono fun _ ho => ho ▸ .settle e number disposition

/-- Routed mutations wait, and source mutations without any are settled. -/
theorem settleRouted_accounted (number : Nat) (routed : List RoutedSource) :
    Ensures (fun r => Accounted ((routed.flatMap RoutedSource.entries).zipIdx number) r.1 r.2)
      (settleRouted options name number routed : Run σ _) := by
  have hpieces : Piecewise fun given settled waiting (_ : List Empty) => Accounted given settled waiting :=
    ⟨.nil, .append⟩
  refine ensures_iff_adds.2 (settleRouted_adds hpieces (fun r _ fault number _ => ?_)
    (fun r _ number _ => ?_) (fun p => .wait [p]) number)
  · exact ensures_iff_adds.1 (r.alone.fail_accounted number fault)
  · exact ensures_iff_adds.1 (r.alone.drop_accounted number .discarded)

/-- What is ready is the mutation that was to be prepared. -/
def PreparedSource.Faithful (x : PreparedSource) : Prop :=
  ∀ preparation, x.result = .ok preparation → ∀ p, preparation = .ready p → p.placed = x.placed

theorem prepare_ensures (placed : Placed) :
    Ensures (fun preparation => ∀ p, preparation = .ready p → p.placed = placed)
      (prepare registry clock placed : Run σ _) := by
  unfold prepare
  split
  · refine (Ensures.true _).bind fun _ _ => (Ensures.true _).bind fun mapped _ => ?_
    cases mapped with
    | none => exact .pure fun p hp => by cases hp
    | some row =>
      refine (Ensures.true _).bind fun expired _ => ?_
      cases expired with
      | some _ => exact .pure fun p hp => by cases hp
      | none => exact (Ensures.true _).bind fun _ _ => .pure fun p hp => by cases hp; rfl
  · split
    · exact ⟨fun s a s' h => by cases h⟩
    · exact .pure fun p hp => by cases hp; rfl

theorem prepareAll_ensures (placed : List Placed) :
    Ensures (fun r => r.map PreparedSource.placed = placed ∧ ∀ x ∈ r, x.Faithful)
      (prepareAll registry clock placed : Run σ _) := by
  induction placed with
  | nil => exact .pure ⟨rfl, fun x hx => by cases hx⟩
  | cons p rest ih =>
    unfold prepareAll
    refine (prepare_ensures p).attempt.bind fun result hresult => ?_
    refine ih.bind fun others hothers => .pure ⟨?_, fun x hx => ?_⟩
    · rw [List.map_cons, hothers.1]
    · rcases List.mem_cons.1 hx with rfl | hrest
      · exact hresult
      · exact hothers.2 x hrest

/-- Mutations that are ready wait, and the others are settled. -/
theorem settlePrepared_accounted {prepared : List PreparedSource} (h : ∀ x ∈ prepared, x.Faithful) :
    Ensures (fun r => Accounted ((prepared.map PreparedSource.placed).map Placed.entry) r.1
        (r.2.map Prepared.placed))
      (settlePrepared options name prepared : Run σ _) := by
  have hpieces : Piecewise fun (given : List PreparedSource) settled (waiting : List Prepared) (_ : List Empty) =>
      Accounted ((given.map PreparedSource.placed).map Placed.entry) settled (waiting.map Prepared.placed) := by
    refine ⟨.nil, fun first second => ?_⟩
    simp only [List.map_append]
    exact first.append second
  refine ensures_iff_adds.2 (settlePrepared_adds hpieces (fun x _ fault _ => ?_)
    (fun x _ reason _ => ?_) fun x hx p hp => ?_)
  · exact ensures_iff_adds.1 (x.placed.entry.1.fail_accounted x.placed.number fault)
  · exact ensures_iff_adds.1 (x.placed.entry.1.drop_accounted x.placed.number reason)
  · have hplaced : p.placed = x.placed := h x hx _ hp p rfl
    show Accounted [x.placed.entry] [] [p.placed]
    rw [hplaced]
    exact .wait [x.placed]

theorem ready_accounted (placed : List Placed) :
    Ensures (fun r => Accounted (placed.map Placed.entry) r.1 (r.2.map Prepared.placed))
      (ready registry clock name placed : Run σ _) := by
  refine (prepareAll_ensures placed).bind fun prepared hprepared => ?_
  rw [← hprepared.1]
  exact settlePrepared_accounted hprepared.2

theorem settleFrom_accounted (number : Nat) (routed : List RoutedSource) :
    Ensures (fun r => Accounted ((routed.flatMap RoutedSource.entries).zipIdx number) r.1
        (r.2.map Prepared.placed))
      (settleFrom registry clock name number routed : Run σ _) := by
  refine (settleRouted_accounted number routed).bind fun pending hpending => ?_
  exact (ready_accounted pending.2).bind fun rest hrest => .pure (hpending.trans hrest)

/-- All stages before rows are touched account for the entries of the batch. -/
theorem planFrom_accounted (number index : Nat) (batch : List Mutation) :
    Ensures (fun r => Accounted
        (((routedFrom source registry.options index batch).flatMap RoutedSource.entries).zipIdx number) r.1
        (r.2.map Prepared.placed))
      (planFrom registry clock source number index batch : Run σ _) := by
  have hrouted : Ensures (fun routed => routed = routedFrom source registry.options index batch)
      (routeAll source registry.options index batch : Run σ _) := by
    refine ⟨fun s routed s' hrun => ?_⟩
    obtain ⟨trace, hexec⟩ := routeAll_exec index batch s
    cases hexec.symm.trans hrun
    rfl
  exact hrouted.bind fun routed hrouted => hrouted ▸ settleFrom_accounted number routed

/-! ## Rows -/

/-- What an outcome says of its mutation: its number, its position, its table and its key. -/
def Prepared.label (p : Prepared) : Nat × Nat × Option TableName × Option RowKey :=
  (p.placed.number, p.placed.index, some p.row.table, some p.key)

def labelOf (e : Nat × Outcome) : Nat × Nat × Option TableName × Option RowKey :=
  (e.1, e.2.index, e.2.table, e.2.key)

theorem applyOne_label (p : Prepared) :
    Ensures (fun e => labelOf e = p.label) (applyOne registry name p : Run σ _) := by
  refine (Ensures.true _).bind fun _ _ => (Ensures.true _).bind fun _ _ => ?_
  exact (report_ensures ..).bind fun outcome hout => .pure (hout ▸ rfl)

theorem applyGroup_labels (ps : List Prepared) :
    Ensures (fun r => r.map labelOf = ps.map Prepared.label)
      (applyGroup registry name ps : Run σ _) := by
  induction ps with
  | nil => exact .pure rfl
  | cons p rest ih =>
    rw [applyGroup_cons]
    refine (applyOne_label p).bind fun first hfirst => ih.bind fun others hothers => .pure ?_
    rw [List.map_cons, List.map_cons, hfirst, hothers]

end

end Tributary
