import Tributary.Proofs.Apply.Accounting
import Tributary.Proofs.Apply.DeadLetters

/-!
# Rejected mutations

A mutation that is dropped or parked leaves no trace but its letters: whatever it was read, mapped or merged
for, the batch without it goes the same way, except for what is reported of panics.

* `Spares`: a step that leaves the rows as they are, unless it applies or deletes. Each way to handle a
  mutation is such a step (`applyPrepared_spares`).
* `applyFrom_letters`: the letters that a batch adds in its own order, beside its outcomes.
* `processSingly_append`, `processSingly_shift`: the batch one by one, cut at a mutation.
* `rejected_mutation_leaves_no_trace`: the statement above, for a mutation anywhere in a batch.
-/

namespace Tributary

open Run

/-! ## Rows -/

/-- What a session holds at the places of its store. -/
def cellsOf (s : Session MemoryStore) : RowAddress → Cell := s.store.cell

theorem steady_cellsOf : Steady cellsOf where
  shape _ := ⟨fun _ => rfl⟩
  remember _ _ := ⟨fun _ => rfl⟩
  silent _ _ _ := rfl

/-- The mutation was dropped or parked. -/
def Outcome.Rejected (o : Outcome) : Prop := o.isDropped = true ∨ o.queue?.isSome = true

/-- A step after which all rows are what they were, unless it says that it has applied or deleted. -/
structure Spares (x : Run MemoryStore Disposition) : Prop where
  kept : ∀ s, (x.exec s).1 ≠ .ok .applied → (x.exec s).1 ≠ .ok .deleted →
    cellsOf (x.exec s).2 = cellsOf s

variable {registry : Registry} {name : String}

theorem Run.Keeps.spares {x : Run MemoryStore Disposition} (hx : Keeps cellsOf x) : Spares x :=
  ⟨fun s _ _ => hx.kept s⟩

theorem Run.Keeps.bind_spares {α : Type} {x : Run MemoryStore α} {f : α → Run MemoryStore Disposition}
    (hx : Keeps cellsOf x) (hf : ∀ a, Spares (f a)) : Spares (x >>= f) := by
  refine ⟨fun s => ?_⟩
  have hkept := hx.kept s
  rw [exec_bind]
  generalize x.exec s = r at hkept
  obtain ⟨result, s'⟩ := r
  intro happlied hdeleted
  cases result with
  | error fault => exact hkept
  | ok a => exact ((hf a).kept s' happlied hdeleted).trans hkept

theorem handleFailure_keeps_cells (options : Options) (table : Option TableName) (m : Mutation)
    (operation : Option MergeOperation) (fault : Fault) :
    Keeps cellsOf (handleFailure options name table m operation fault) := by
  unfold handleFailure
  split
  · exact .throw fault
  · exact .pure _
  · exact Keeps.bind ⟨fun _ => rfl⟩ fun _ => .pure _

theorem decideResolution_keeps_cells (p : Prepared) (current : Option StoredRow) (resolution : Resolution) :
    Keeps cellsOf (decideResolution registry name p current resolution) := by
  cases resolution with
  | apply data => exact .pure _
  | park queue operation => exact Keeps.bind ⟨fun _ => rfl⟩ fun _ => .pure _
  | drop reason operation => exact .pure _
  | failed fault operation => exact (handleFailure_keeps_cells ..).bind fun _ => .pure _

theorem carryOut_spares (p : Prepared) (row : MappedRow) (decision : Decision) :
    Spares (carryOut p row decision) := by
  cases decision with
  | settled disposition => exact (Keeps.pure disposition).spares
  | write data expected =>
    refine ⟨fun s => ?_⟩
    intro happlied _
    have hwrite := overwriteRow_exec p.row ⟨data, row.exprs⟩ s
    cases htable : s.store.hasTable p.row.table with
    | true =>
      rw [htable, if_pos rfl] at hwrite
      have hdone : ((carryOut p row (.write data expected)).exec s).1 = .ok .applied := by
        rw [carryOut, exec_bind_of_ok hwrite]
        rfl
      exact absurd hdone happlied
    | false =>
      rw [htable] at hwrite
      rw [carryOut, exec_bind, hwrite]
      rfl

theorem overwriting_spares (p : Prepared) (row : MappedRow) :
    Spares (overwriting registry name p row) := by
  have hread : Keeps cellsOf (readData p.row) := ⟨fun s => rfl⟩
  cases hcas : (registry.table p.row.table).isCas with
  | false =>
    have hplain : overwriting registry name p row = (do
        let _ ← readData p.row
        carryOut p row (.write row.row .any)) := by
      simp [overwriting, decideData, hcas, carryOut]
    rw [hplain]
    exact hread.bind_spares fun _ => carryOut_spares ..
  | true =>
    rw [overwriting_eq p row hcas]
    refine hread.bind_spares fun target => Keeps.bind_spares ?_ fun resolution => ?_
    · exact (refreshBefore_keeps steady_cellsOf ..).bind fun _ =>
        steady_cellsOf.logged (resolve_silent ..)
    · exact (decideResolution_keeps_cells ..).bind_spares fun _ => carryOut_spares ..

theorem applyPrepared_spares (p : Prepared) : Spares (applyPrepared registry name p) := by
  unfold applyPrepared
  cases p.action with
  | upsert row =>
    dsimp only
    rw [applyUpsert_eq]
    split
    · exact (Keeps.throw _).spares
    · exact overwriting_spares p row
  | delete =>
    refine ⟨fun s => ?_⟩
    intro _ hdeleted
    have hdelete : (Run.store (TargetStore.deleteRow p.row)).exec s =
        ((MemoryStore.deleteRow p.row s.store).1,
          { s with store := (MemoryStore.deleteRow p.row s.store).2 }) := rfl
    rw [exec_bind, hdelete] at hdeleted ⊢
    unfold MemoryStore.deleteRow at hdeleted ⊢
    cases htable : s.store.hasTable p.row.table with
    | true =>
      simp only [htable, if_true] at hdeleted
      exact absurd rfl hdeleted
    | false => rfl

theorem Outcome.Rejected.ne {o : Outcome} (h : o.Rejected) :
    o.disposition ≠ .applied ∧ o.disposition ≠ .deleted := by
  constructor
  · intro hd
    simp [Rejected, isDropped, queue?, hd] at h
  · intro hd
    simp [Rejected, isDropped, queue?, hd] at h

theorem applyOne_rejected (p : Prepared) {s s' : Session MemoryStore} {e : Nat × Outcome}
    (hrun : (applyOne registry name p).exec s = (.ok e, s')) (hrejected : e.2.Rejected) :
    cellsOf s' = cellsOf s := by
  have hspares : Spares (applyPrepared registry name p) := applyPrepared_spares p
  have hkept := hspares.kept s
  obtain ⟨result, s₁, happly, hdisposed⟩ := exec_bind_ok hrun
  rw [exec_attempt] at happly
  cases happly
  obtain ⟨disposition, s₂, hdispose, hreported⟩ := exec_bind_ok hdisposed
  obtain ⟨outcome, s₃, hreport, hdone⟩ := exec_bind_ok hreported
  cases hdone
  cases hreport
  obtain ⟨hne, hne'⟩ := hrejected.ne
  generalize (applyPrepared registry name p).exec s = applied at hkept hdispose
  obtain ⟨result, s₁⟩ := applied
  cases result with
  | ok disposition' =>
    cases hdispose
    exact hkept (fun h => hne (Except.ok.inj h)) fun h => hne' (Except.ok.inj h)
  | error fault =>
    have hhandled : Keeps cellsOf (handleFailure registry.options name (some p.row.table) p.mutation none
      fault) := handleFailure_keeps_cells ..
    have hlater := hhandled.kept s₁
    have hexec : (handleFailure registry.options name (some p.row.table) p.mutation none fault).exec s₁ =
      (.ok disposition, s₂) := hdispose
    rw [hexec] at hlater
    exact hlater.trans (hkept (fun h => by cases h) fun h => by cases h)

theorem applyGroup_rejected {ps : List Prepared} {s s' : Session MemoryStore} {outcomes : Numbered}
    (hrun : (applyGroup registry name ps).exec s = (.ok outcomes, s'))
    (hrejected : ∀ e ∈ outcomes, e.2.Rejected) : cellsOf s' = cellsOf s := by
  induction ps generalizing s outcomes with
  | nil =>
    cases hrun
    rfl
  | cons p rest ih =>
    rw [applyGroup_cons] at hrun
    obtain ⟨first, s₁, hfirst, hothers⟩ := exec_bind_ok hrun
    obtain ⟨others, s₂, hrest, hdone⟩ := exec_bind_ok hothers
    cases hdone
    have hone := applyOne_rejected p hfirst (hrejected first List.mem_cons_self)
    exact (ih hrest fun e he => hrejected e (List.mem_cons_of_mem first he)).trans hone

variable {clock : Clock} {config : SourceConfig} {batch : List Mutation} {s s' : Session MemoryStore}

/-- A batch of which everything is rejected changes no row. -/
theorem applyFrom_rejected {number index : Nat} {outcomes : Numbered}
    (hrun : (applyFrom registry clock config number index batch).exec s = (.ok outcomes, s'))
    (hrejected : ∀ e ∈ outcomes, e.2.Rejected) : cellsOf s' = cellsOf s := by
  obtain ⟨plan, s₁, hplan, happly⟩ := exec_bind_ok hrun
  obtain ⟨applied, s₂, happlied, hdone⟩ := exec_bind_ok happly
  cases hdone
  obtain ⟨letters, hfollows⟩ := (planFrom_local number index batch).follows s
  rw [hplan] at hfollows
  have hplanned : cellsOf s₁ = cellsOf s := funext fun place => hfollows.cell (Set.notMem_empty place)
  have hrows := applyGroup_rejected happlied fun e he => hrejected e (List.mem_append_right plan.1 he)
  exact hrows.trans hplanned

/-! ## Letters -/

/-- A letter that a batch from a source adds for an outcome, which stands for one of some entries. -/
structure DeadLetter.Reports (source : String) (entries : List Entry) (o : Outcome) (letter : DeadLetter) :
    Prop where
  queue : o.queue? = some letter.queue
  source : letter.source = source
  table : letter.table = o.table
  mutation : ∃ e ∈ entries, e.mutation = letter.mutation

/-- The letters of a batch that is applied in its own order, beside its outcomes. -/
theorem applyFrom_letters {outcomes : Numbered}
    (hrun : (applyFrom registry clock config 0 0 batch).exec s = (.ok outcomes, s')) :
    ∃ fate more, lettersOf s' = lettersOf s ++ more ∧
      Lettered config.name fate (entries registry config batch).zipIdx outcomes more := by
  obtain ⟨plan, s₁, hplan, happly⟩ := exec_bind_ok hrun
  obtain ⟨applied, s₂, happlied, hdone⟩ := exec_bind_ok happly
  cases hdone
  have haccounted := (planFrom_accounted 0 0 batch).result s plan s₁ hplan
  have hnodup : (plan.2.map fun p => p.placed.number).Nodup := by
    have hnumbers := haccounted.numbers
    rw [List.map_map, List.zipIdx_map_snd] at hnumbers
    exact (List.nodup_append.1 (hnumbers.nodup_iff.2 List.nodup_range')).2.1
  have hwithin : (plan.2.map fun p => p.placed.entry) ⊆ (entries registry config batch).zipIdx := by
    intro e he
    obtain ⟨p, hp, rfl⟩ := List.mem_map.1 he
    exact haccounted.waiting p.placed (List.mem_map_of_mem hp)
  obtain ⟨first, hfirst, hsettled⟩ := planFrom_letters clock s s₁ plan.2 hplan
  obtain ⟨later, hlater, hgrouped⟩ := applyGroup_letters clock s s₁ []
    (fun p hp => (readyAt_of_plan hplan hp).2) hnodup rfl happlied
  have hall := (hsettled.append hgrouped).mono (List.append_subset.2 ⟨List.Subset.refl _, hwithin⟩)
  refine ⟨_, first ++ later, ?_, hall⟩
  rw [hlater, hfirst, List.append_assoc]

theorem LetterFor.reports {fate : Fate} {entry : Entry} {o : Outcome} {letter : Option DeadLetter}
    {among : List Entry} (hentry : entry ∈ among)
    (h : LetterFor name fate entry.mutation o.table o.disposition letter) :
    (letter = Option.none ∧ o.queue? = Option.none) ∨ ∃ l, letter = some l ∧ l.Reports name among o := by
  obtain ⟨index, table, key, disposition⟩ := o
  cases h with
  | none hparked =>
    refine .inl ⟨rfl, ?_⟩
    cases disposition with
    | parked queue => exact absurd rfl (hparked queue)
    | _ => rfl
  | failed hfate => exact .inr ⟨_, rfl, rfl, rfl, rfl, entry, hentry, rfl⟩
  | parked hfate => exact .inr ⟨_, rfl, rfl, rfl, rfl, entry, hentry, rfl⟩

/-- The letters that were added report the outcomes that are parked, one each. -/
theorem Lettered.reports {fate : Nat → Entry → Fate} {among : List Entry} {outcomes : Numbered}
    {more : List DeadLetter} (h : Lettered name fate among.zipIdx outcomes more) :
    List.Forall₂ (fun o l => DeadLetter.Reports name among o l)
      ((outcomes.map Prod.snd).filter fun o => o.queue?.isSome) more := by
  obtain ⟨letters, rfl, hletters⟩ := h
  induction hletters with
  | nil => exact .nil
  | @cons e letter outcomes letters hone _ ih =>
    obtain ⟨entry, hentry, hletter⟩ := hone
    have hmem : entry ∈ among := List.mem_of_getElem? (List.mem_zipIdx_iff_getElem?.1 hentry)
    rcases hletter.reports hmem with ⟨rfl, hnone⟩ | ⟨l, rfl, hreports⟩
    · rw [List.reduceOption_cons_of_none, List.map_cons, List.filter_cons_of_neg (by simp [hnone])]
      exact ih
    · rw [List.reduceOption_cons_of_some, List.map_cons,
        List.filter_cons_of_pos (by simp [hreports.queue])]
      exact .cons hreports ih

/-! ## One mutation by itself -/

theorem index_of_mem_entries {m : Mutation} {e : Entry} (he : e ∈ entries registry config [m]) :
    e.index = 0 := by
  obtain ⟨r, hr, hin⟩ := List.mem_flatMap.1 he
  cases List.mem_singleton.1 hr
  exact RoutedSource.index_of_mem_entries hin

theorem processBatch_index (source : String) (m : Mutation) :
    Ensures (fun outcomes => ∀ o ∈ outcomes, o.index = 0)
      (processBatch registry clock source [m] : Run MemoryStore _) := by
  refine ⟨fun s outcomes s' hrun => ?_⟩
  rw [processBatch_eq_processArranged] at hrun
  obtain ⟨config, plan, s₁, applied, hsource, hplan, happlied, rfl⟩ := processArranged_run hrun
  have haccounted := (planFrom_accounted 0 0 [m]).result s plan s₁ hplan
  have hlabels := (applyGroup_labels _).result s₁ applied s' happlied
  have hflat := Arrangement.asFound.flatten_perm plan.2
  intro o ho
  obtain ⟨e, he, rfl⟩ := List.mem_map.1 ho
  have hfound := List.mem_mergeSort.1 he
  obtain ⟨entry, hentry, hanswers⟩ := answers_of_mem haccounted hlabels hflat hflat hfound
  rw [hanswers.index]
  exact index_of_mem_entries (List.mem_of_getElem? hentry)

variable {source : String}

/-- A mutation of which everything is rejected changes no row, and adds a letter for each outcome that is
parked. -/
theorem processBatch_rejected (hsource : registry.source source = .ok config) {m : Mutation}
    {outcomes : List Outcome} (hrun : (processBatch registry clock source [m]).exec s = (.ok outcomes, s'))
    (hrejected : ∀ o ∈ outcomes, o.Rejected) :
    Session.Alike Set.univ s s' ∧ ∃ own reported, s'.store.letters = s.store.letters ++ own ∧
      own.Perm reported ∧
      List.Forall₂ (fun o l => DeadLetter.Reports config.name (entries registry config [m]) o l)
        (outcomes.filter fun o => o.queue?.isSome) reported := by
  have hlocal : Local Set.univ (processBatch registry clock source [m] : Run MemoryStore _) :=
    processArranged_local .asFound [m]
  obtain ⟨own, hfollows⟩ := hlocal.follows s
  rw [hrun] at hfollows
  obtain ⟨_, t, hfound, rfl, hequiv⟩ :=
    (processArranged_refines hsource .asFound [m]).run s s (.refl s) outcomes s' hrun
  rw [map_eq_pure_bind] at hfound
  obtain ⟨found, t', hfound, hdone⟩ := exec_bind_ok hfound
  cases hdone
  have hperm := List.mergeSort_perm found fun a b => a.1 ≤ b.1
  have hcells : cellsOf t = cellsOf s := applyFrom_rejected hfound fun e he =>
    hrejected e.2 (List.mem_map_of_mem (hperm.mem_iff.2 he))
  obtain ⟨fate, more, hmore, hletters⟩ := applyFrom_letters hfound
  obtain ⟨reported, hreported, hreports⟩ := List.perm_comp_forall₂
    ((hperm.map Prod.snd).filter fun o => o.queue?.isSome) hletters.reports
  refine ⟨⟨hfollows.tables, fun place _ => ?_⟩, own, reported, hfollows.letters, ?_, hreported⟩
  · exact ((hequiv.cell place).trans (congrFun hcells place)).symm
  · have hsame := hequiv.letters
    rw [hfollows.letters, show t.store.letters = s.store.letters ++ more from hmore] at hsame
    exact ((List.perm_append_left_iff _).1 hsame).trans hreports.symm

/-! ## One by one -/

theorem processSingly_append {σ : Type} [TargetStore σ] (index : Nat) (xs ys : List Mutation) :
    (processSingly (fun _ => registry) clock source index (xs ++ ys) : Run σ _) = do
      let first ← processSingly (fun _ => registry) clock source index xs
      let second ← processSingly (fun _ => registry) clock source (index + xs.length) ys
      return first ++ second := by
  induction xs generalizing index with
  | nil => simp [processSingly]
  | cons m rest ih =>
    have hlength : index + (m :: rest).length = index + 1 + rest.length := by
      rw [List.length_cons]
      omega
    rw [hlength]
    simp only [List.cons_append, processSingly, ih, bind_assoc, pure_bind, List.append_assoc]

theorem processSingly_shift {σ : Type} [TargetStore σ] (index positions : Nat) (batch : List Mutation) :
    (processSingly (fun _ => registry) clock source (index + positions) batch : Run σ _) =
      List.map (Outcome.shift positions) <$> processSingly (fun _ => registry) clock source index batch := by
  induction batch generalizing index with
  | nil => simp [processSingly]
  | cons m rest ih =>
    have hnext := ih (index + 1)
    rw [Nat.add_right_comm] at hnext
    have hshift : Outcome.shift positions ∘ Outcome.shift index = Outcome.shift (index + positions) := by
      funext o
      simp [Outcome.shift, Nat.add_assoc]
    simp [processSingly, hnext, hshift]

theorem processSingly_index (index : Nat) (batch : List Mutation) :
    Ensures (fun outcomes => ∀ o ∈ outcomes, index ≤ o.index ∧ o.index < index + batch.length)
      (processSingly (fun _ => registry) clock source index batch : Run MemoryStore _) := by
  induction batch generalizing index with
  | nil => exact .pure fun o ho => absurd ho List.not_mem_nil
  | cons m rest ih =>
    refine (processBatch_index source m).bind fun first hfirst =>
      (ih (index + 1)).bind fun others hothers => ?_
    refine .pure fun o ho => ?_
    rw [List.length_cons]
    rcases List.mem_append.1 ho with hin | hin
    · obtain ⟨alone, halone, rfl⟩ := List.mem_map.1 hin
      have hzero := hfirst alone halone
      simp only [Outcome.shift]
      omega
    · have hbounds := hothers o hin
      omega

/-! ## The whole statement -/

/-- The outcome in a batch without the mutation at a position: those behind it move up. -/
def Outcome.closingGap (position : Nat) (o : Outcome) : Outcome :=
  if position < o.index then { o with index := o.index - 1 } else o

section

variable {before own later : List Outcome} {position : Nat}

theorem map_closingGap (hbefore : ∀ o ∈ before, o.index < position) (hown : ∀ o ∈ own, o.index = position)
    (hlater : ∀ o ∈ later, position ≤ o.index) :
    ((before ++ (own ++ later.map (Outcome.shift 1))).filter fun o => o.index ≠ position).map
        (Outcome.closingGap position) = before ++ later := by
  have hfirst : (before.filter fun o => o.index ≠ position) = before :=
    List.filter_eq_self.2 fun o ho => decide_eq_true (hbefore o ho).ne
  have hnone : (own.filter fun o => o.index ≠ position) = [] :=
    List.filter_eq_nil_iff.2 fun o ho => by simp [hown o ho]
  have hlast : ((later.map (Outcome.shift 1)).filter fun o => o.index ≠ position) =
      later.map (Outcome.shift 1) := by
    refine List.filter_eq_self.2 fun shifted hshifted => ?_
    obtain ⟨o, ho, rfl⟩ := List.mem_map.1 hshifted
    have hbound := hlater o ho
    refine decide_eq_true ?_
    simp only [Outcome.shift]
    omega
  rw [List.filter_append, List.filter_append, hfirst, hnone, hlast, List.nil_append, List.map_append,
    List.map_map]
  congr 1
  · refine (List.map_congr_left fun o ho => ?_).trans (List.map_id before)
    have hbound := hbefore o ho
    exact if_neg (by omega)
  · refine (List.map_congr_left fun o ho => ?_).trans (List.map_id later)
    have hbound := hlater o ho
    have hbehind : position < o.index + 1 := by omega
    simp [Outcome.closingGap, Outcome.shift, hbehind]

theorem filter_parked (hbefore : ∀ o ∈ before, o.index < position) (hown : ∀ o ∈ own, o.index = position)
    (hlater : ∀ o ∈ later, position ≤ o.index) :
    (before ++ (own ++ later.map (Outcome.shift 1))).filter
        (fun o => o.index = position ∧ o.queue?.isSome) = own.filter fun o => o.queue?.isSome := by
  have hfirst : before.filter (fun o => o.index = position ∧ o.queue?.isSome) = [] :=
    List.filter_eq_nil_iff.2 fun o ho => by simp [(hbefore o ho).ne]
  have hlast : (later.map (Outcome.shift 1)).filter (fun o => o.index = position ∧ o.queue?.isSome) = [] := by
    refine List.filter_eq_nil_iff.2 fun shifted hshifted => ?_
    obtain ⟨o, ho, rfl⟩ := List.mem_map.1 hshifted
    have hbound := hlater o ho
    have hne : o.index + 1 ≠ position := by omega
    simp [Outcome.shift, hne]
  rw [List.filter_append, List.filter_append, hfirst, hlast, List.nil_append, List.append_nil]
  exact List.filter_congr fun o ho => by simp [hown o ho]

end

/-- One by one, the batch comes to the rejected mutation, and goes on as if it had not been there. -/
theorem processSingly_without (hsource : registry.source source = .ok config) {front back : List Mutation}
    {m : Mutation} {outcomes : List Outcome} {u : Session MemoryStore}
    (hrun : (processSingly (fun _ => registry) clock source 0 (front ++ m :: back)).exec s = (.ok outcomes, u))
    (hrejected : ∀ o ∈ outcomes, o.index = front.length → o.Rejected) :
    ∃ v own rest, (processSingly (fun _ => registry) clock source 0 (front ++ back)).exec s =
        (.ok ((outcomes.filter fun o => o.index ≠ front.length).map (Outcome.closingGap front.length)), v) ∧
      Session.Alike Set.univ u v ∧ u.store.letters.Perm (s.store.letters ++ (own ++ rest)) ∧
      v.store.letters = s.store.letters ++ rest ∧
      List.Forall₂ (fun o l => DeadLetter.Reports config.name (entries registry config [m]) o l)
        (outcomes.filter fun o => o.index = front.length ∧ o.queue?.isSome) own := by
  rw [processSingly_append, Nat.zero_add] at hrun
  obtain ⟨before, s₁, hfront, hrest⟩ := exec_bind_ok hrun
  obtain ⟨behind, s₂, hbehind, hdone⟩ := exec_bind_ok hrest
  cases hdone
  obtain ⟨alone, s₃, halone, hrest⟩ := exec_bind_ok hbehind
  obtain ⟨shifted, s₄, hshifted, hdone⟩ := exec_bind_ok hrest
  cases hdone
  rw [processSingly_shift, exec_map] at hshifted
  -- positions tell the outcomes of the mutation from all others
  have hbefore := (processSingly_index 0 front).result s before s₁ hfront
  have hzero := (processBatch_index source m).result s₁ alone s₃ halone
  have hown : ∀ o ∈ alone.map (Outcome.shift front.length), o.index = front.length := by
    intro o ho
    obtain ⟨first, hfirst, rfl⟩ := List.mem_map.1 ho
    simp only [Outcome.shift, hzero first hfirst, Nat.zero_add]
  have hrejected' : ∀ o ∈ alone, o.Rejected := by
    intro o ho
    have hin := List.mem_map_of_mem (f := Outcome.shift front.length) ho
    exact hrejected (o.shift front.length) (List.mem_append_right before (List.mem_append_left _ hin))
      (hown (o.shift front.length) hin)
  obtain ⟨halike, own, reported, hletters, hperm, hreports⟩ :=
    processBatch_rejected hsource halone hrejected'
  -- the mutations behind cannot tell the session from the one before the rejected mutation
  have hlocal : Local Set.univ (processSingly (fun _ => registry) clock source front.length back : Run MemoryStore _) :=
    processSingly_local _ front.length back
  obtain ⟨rest, hsame, hfollows, hfollows', hafter⟩ := hlocal.alike s₃ s₁ halike.symm
  generalize (processSingly (fun _ => registry) clock source front.length back).exec s₃ = r
    at hshifted hsame hfollows hafter
  obtain ⟨result, s₅⟩ := r
  cases result with
  | error fault => cases hshifted
  | ok later =>
    cases hshifted
    have hback := exec_of_fst hsame.symm
    generalize ((processSingly (fun _ => registry) clock source front.length back).exec s₁).2 = v
      at hfollows' hafter hback
    have hlater : ∀ o ∈ later, front.length ≤ o.index := fun o ho =>
      ((processSingly_index front.length back).result s₁ later v hback o ho).1
    have hbounds : ∀ o ∈ before, o.index < front.length := fun o ho => by
      have hbound := (hbefore o ho).2
      omega
    obtain ⟨first, hfirst⟩ := (processSingly_local _ 0 front).follows s
    rw [hfront] at hfirst
    refine ⟨v, reported, first ++ rest, ?_, hafter, ?_, ?_, ?_⟩
    · rw [map_closingGap hbounds hown hlater, processSingly_append, Nat.zero_add, exec_bind_of_ok hfront,
        exec_bind_of_ok hback]
      rfl
    · rw [hfollows.letters, hletters, hfirst.letters, List.append_assoc, List.append_assoc]
      refine List.Perm.append_left s.store.letters ?_
      exact (List.perm_append_comm_assoc first own rest).trans (hperm.append_right _)
    · rw [hfollows'.letters, hfirst.letters, List.append_assoc]
    · rw [filter_parked hbounds hown hlater, List.filter_map, List.forall₂_map_left_iff]
      exact hreports.imp fun _ _ h => ⟨h.queue, h.source, h.table, h.mutation⟩

/-- If a batch succeeds and everything that a mutation of it comes to is dropped or parked, then the batch
without the mutation succeeds as well, in whatever order the groups of rows are applied to either. All other
outcomes are the same, and those behind the mutation move up; all rows and expressions are the same; and so
are the new dead letters, up to their order and to what is reported of panics, which may be something else in the
batch without the mutation. Only the letters of the mutation are missing, which are those of its parked outcomes. -/
theorem rejected_mutation_leaves_no_trace {R : String → String → Prop} {registry registry' : Registry}
    (hreports : registry.Matches R registry') (now : Instant) (source : String)
    (first other : Arrangement) (front back : List Mutation) (m : Mutation) {s s' : Session MemoryStore}
    {outcomes : List Outcome}
    (hrun : (processArranged registry now source first (front ++ m :: back)).exec s = (.ok outcomes, s'))
    (hrejected : ∀ o ∈ outcomes, o.index = front.length → o.Rejected) :
    ∃ config t', registry.source source = .ok config ∧
      (processArranged registry' now source other (front ++ back)).exec s =
        (.ok ((outcomes.filter fun o => o.index ≠ front.length).map (Outcome.closingGap front.length)), t') ∧
      (∀ id, s'.store.row? id = t'.store.row? id ∧ s'.store.rowExprs id = t'.store.rowExprs id) ∧
      ∃ letters own matched rest, s'.store.letters = s.store.letters ++ letters ∧
        t'.store.letters = s.store.letters ++ rest ∧ letters.Perm (own ++ matched) ∧
        List.Forall₂ (DeadLetter.Matches R) matched rest ∧
        List.Forall₂ (fun o l => DeadLetter.Reports config.name (entries registry config [m]) o l)
          (outcomes.filter fun o => o.index = front.length ∧ o.queue?.isSome) own := by
  have hok : ((processArranged registry now source first (front ++ m :: back)).exec s).1 = .ok outcomes := by
    rw [hrun]
  obtain ⟨config, hsource⟩ := source_of_exec_ok hok
  have hsingly : Refines Eq (processArranged registry now source first (front ++ m :: back))
      (processSingly (fun _ => registry) now source 0 (front ++ m :: back)) :=
    (processArranged_refines hsource first _).eq_trans (applyFrom_agrees_singly hsource now 0 0 _).forth
  obtain ⟨_, u, hfull, rfl, hequiv⟩ := hsingly.run s s (.refl s) outcomes s' hrun
  obtain ⟨v, own, rest, hwithout, halike, hletters, hrest, hreported⟩ :=
    processSingly_without hsource hfull hrejected
  have htogether : Refines (fun b a => a = b) (processSingly (fun _ => registry) now source 0 (front ++ back))
      (processArranged registry now source other (front ++ back)) :=
    (applyFrom_agrees_singly hsource now 0 0 _).back.trans (refines_processArranged hsource other _)
      fun _ _ _ hab hbc => hbc ▸ hab
  obtain ⟨_, t, hshort, rfl, hequiv'⟩ := htogether.run s s (.refl s) _ v hwithout
  obtain ⟨all, hfollows⟩ := (processArranged_local first (front ++ m :: back)).follows s
  obtain ⟨remaining, hfollows'⟩ := (processArranged_local other (front ++ back)).follows s
  rw [hrun] at hfollows
  rw [hshort] at hfollows'
  -- without the mutation, the reports are those of the other registry
  have hobserved := (processArranged_matches hreports other (front ++ back)).observations (congrArg Prod.fst hshort)
  have hlocal : Local Set.univ (processArranged registry' now source other (front ++ back) : Run MemoryStore _) :=
    processArranged_local other (front ++ back)
  rw [hshort] at hobserved
  obtain ⟨hmatching, hrows, hmatched⟩ := hobserved
  obtain ⟨added, hfollowsMatching⟩ := hlocal.follows s
  refine ⟨config, _, hsource, exec_of_fst hmatching, fun id => ?_, all, own, remaining, added, hfollows.letters,
    hfollowsMatching.letters, ?_, added_of_matches hmatched hfollows'.letters hfollowsMatching.letters, hreported⟩
  · have hcell : s'.store.cell id.address = t.store.cell id.address :=
      (hequiv.cell _).trans ((halike.cell _ (Set.mem_univ _)).trans (hequiv'.cell _))
    rw [MemoryStore.cell_address, MemoryStore.cell_address] at hcell
    exact ⟨(congrArg Cell.data hcell).trans (hrows id).1, (congrArg Cell.exprs hcell).trans (hrows id).2⟩
  · have hall := hequiv.letters.trans hletters
    have hshorter := hequiv'.letters
    rw [hfollows.letters] at hall
    rw [hfollows'.letters, hrest] at hshorter
    have hsame := (List.perm_append_left_iff _).1 hshorter
    exact ((List.perm_append_left_iff _).1 hall).trans (hsame.append_left own)

/-- Of changes of two rows, whose merges panic, the first that is in conflict is parked. Without it the others go
as they went, with panics in another task. -/
theorem conflicting_change_leaves_no_trace :
    let s : Session MemoryStore := .ofStore Example.filled
    let others := [Example.change true true, Example.change true false, Example.change false false]
    ∃ s' t' letter matched,
      (processArranged (Example.panicking 0) (default : Instant) "orders" .asFound Example.changes).exec s =
        (.ok Example.outcomes, s') ∧
      (∀ o ∈ Example.outcomes, o.index = 2 → o.Rejected) ∧
      (processArranged (Example.panicking 1) (default : Instant) "orders" Example.backwards others).exec s =
        (.ok [Example.outcome 0 true .applied, Example.outcome 1 false .applied,
          Example.outcome 2 false (.parked "dlq")], t') ∧
      (∀ id, s'.store.row? id = t'.store.row? id) ∧
      letter.queue = "dlq" ∧ letter.mutation = Example.change false true ∧
      s'.store.letters.Perm (letter :: matched) ∧
      List.Forall₂ (DeadLetter.Matches Example.Reports) matched t'.store.letters := by
  intro s others
  have hsource : (Example.panicking 0).source "orders" = .ok Example.feed := rfl
  have hrejected : ∀ o ∈ Example.outcomes, o.index = 2 → o.Rejected := by
    simp [Example.outcomes, Example.outcome, Outcome.Rejected, Outcome.queue?]
  have hfull := exec_of_fst Example.processArranged_changes
  generalize ((processArranged (Example.panicking 0) (default : Instant) "orders" .asFound Example.changes).exec s).2 =
    s' at hfull
  obtain ⟨config, t', hconfig, hwithout, hrows, letters, own, matched, rest, hletters, hrest, hperm, hmatched, hown⟩ :=
    rejected_mutation_leaves_no_trace (Example.panicking_matches 0 1) default "orders" .asFound Example.backwards
      [Example.change true true, Example.change true false] [Example.change false false]
      (Example.change false true) hfull hrejected
  cases hconfig.symm.trans hsource
  have hgap : (Example.outcomes.filter fun o => o.index ≠ 2).map (Outcome.closingGap 2) =
      [Example.outcome 0 true .applied, Example.outcome 1 false .applied,
        Example.outcome 2 false (.parked "dlq")] := rfl
  have hall := hwithout.trans (congrArg (fun outcomes => (Except.ok outcomes, t')) hgap)
  have hnone : s.store.letters = [] := rfl
  rw [hnone, List.nil_append] at hletters hrest
  cases hown with
  | @cons _ letter _ _ hletter hnil =>
    cases hnil
    obtain ⟨e, he, hmutation⟩ := hletter.mutation
    cases List.mem_singleton.1 he
    have hqueue : letter.queue = "dlq" := (Option.some.inj hletter.queue).symm
    have hm : letter.mutation = Example.change false true := hmutation.symm
    refine ⟨s', t', letter, matched, hfull, hrejected, hall, fun id => (hrows id).1, hqueue, hm, ?_, ?_⟩
    · rw [hletters]
      exact hperm
    · rw [hrest]
      exact hmatched

end Tributary
