import Mathlib.Data.List.Induction
import Tributary.Proofs.Apply.Locality
import Tributary.Proofs.Apply.Refinement

/-!
# Orders in which a batch may be applied

Mutations of different rows commute, so that what matters of the order of mutations is the order among
those of one row.

* `applyGroup_refines`: lists with the same mutations of each row in the same order refine each other.
* `sameRowOrder_groupRows`: grouping by row, and running the groups in any order, keeps the order of the
  mutations of each row.
* `applyGroups_refines`: so the groups of a batch, in any order, refine the batch in its own order.
-/

namespace Tributary

open Run

/-! ## Rows -/

theorem RowId.same_iff (a b : RowId) : a.same b = true ↔ a.address = b.address := by
  simp [RowId.same, RowId.address, RowKey.same]

/-- The mutations of the row at a place. -/
def ofRow (place : RowAddress) (ps : List Prepared) : List Prepared :=
  ps.filter fun p => p.row.address = place

theorem ofRow_append (place : RowAddress) (ps qs : List Prepared) :
    ofRow place (ps ++ qs) = ofRow place ps ++ ofRow place qs := List.filter_append ..

theorem ofRow_eq_nil_iff {place : RowAddress} {ps : List Prepared} :
    ofRow place ps = [] ↔ place ∉ places ps := by
  simp [ofRow, places]

/-- Both lists have the same mutations of each row in the same order. -/
def SameRowOrder (ps qs : List Prepared) : Prop := ∀ place, ofRow place ps = ofRow place qs

theorem SameRowOrder.symm {ps qs : List Prepared} (h : SameRowOrder ps qs) : SameRowOrder qs ps :=
  fun place => (h place).symm

/-- The first mutation of one list stands in the other behind mutations of other rows only. -/
theorem SameRowOrder.exists_of_cons {p : Prepared} {ps qs : List Prepared}
    (h : SameRowOrder (p :: ps) qs) :
    ∃ front back, qs = front ++ p :: back ∧ p.row.address ∉ places front ∧
      SameRowOrder ps (front ++ back) := by
  have hown : ofRow p.row.address qs = p :: ofRow p.row.address ps := by
    rw [← h p.row.address]
    exact List.filter_cons_of_pos (by simp)
  obtain ⟨front, back, rfl, hfront, -, -⟩ := List.filter_eq_cons_iff.1 hown
  have hapart : p.row.address ∉ places front := by
    rintro ⟨q, hq, haddress⟩
    exact hfront q hq (by simpa using haddress)
  refine ⟨front, back, rfl, hapart, fun place => ?_⟩
  have hplace := h place
  rw [ofRow_append] at hplace ⊢
  by_cases hp : p.row.address = place
  · subst hp
    rw [ofRow_eq_nil_iff.2 hapart] at hplace ⊢
    simpa [ofRow] using hplace
  · simpa [ofRow, hp] using hplace

/-! ## Mutations one by one -/

variable {registry : Registry} {source : String}

theorem applyGroup_append {σ : Type} [TargetStore σ] (ps qs : List Prepared) :
    (applyGroup registry source (ps ++ qs) : Run σ _) = do
      let first ← applyGroup registry source ps
      let second ← applyGroup registry source qs
      return first ++ second := by
  induction ps with
  | nil => simp [applyGroup]
  | cons p rest ih =>
    rw [List.cons_append, applyGroup_cons, applyGroup_cons, ih]
    simp

theorem applyGroups_eq_flatten {σ : Type} [TargetStore σ] (groups : List (List Prepared)) :
    (applyGroups registry source groups : Run σ _) =
      applyGroup registry source groups.flatten := by
  induction groups with
  | nil => rfl
  | cons group rest ih => rw [applyGroups, ih, List.flatten_cons, applyGroup_append]

/-- The order among mutations of different rows does not matter. -/
theorem applyGroup_refines {ps qs : List Prepared} (h : SameRowOrder ps qs) :
    Refines List.Perm (applyGroup registry source ps) (applyGroup registry source qs) := by
  induction ps generalizing qs with
  | nil =>
    have hqs : qs = [] := by
      cases qs with
      | nil => rfl
      | cons q rest =>
        have hrow := h q.row.address
        simp [ofRow] at hrow
    subst hqs
    exact .pure (.refl _)
  | cons p ps ih =>
    -- in the other list the first mutation stands behind mutations of other rows, and moves to the front
    obtain ⟨front, back, rfl, hapart, hrest⟩ := h.exists_of_cons
    have hone := applyOne_local registry source p
    have hfront := applyGroup_local registry source front
    have hback := applyGroup_local registry source back
    have hother : Apart {p.row.address} (places front) := by
      intro place hplace
      cases hplace
      exact hapart
    have hfirst : Refines List.Perm (applyGroup registry source (p :: ps))
        (do let first ← applyOne registry source p
            let before ← applyGroup registry source front
            let after ← applyGroup registry source back
            return first :: (before ++ after)) := by
      rw [applyGroup_cons]
      refine hone.refines_bind fun first => ?_
      have hcons := (ih hrest).map fun a b (hab : List.Perm a b) => hab.cons first
      rw [applyGroup_append] at hcons
      simp only [map_eq_pure_bind, bind_assoc, pure_bind] at hcons
      exact hcons
    refine hfirst.trans (T := List.Perm) ?_ fun _ _ _ => List.Perm.trans
    rw [applyGroup_append, applyGroup_cons]
    simp only [bind_assoc, pure_bind]
    refine .commute hone hfront hother fun first before => hback.refines_bind fun after => ?_
    exact .pure List.perm_middle.symm

/-! ## Groups -/

/-- No two groups have mutations of one row. -/
def Separate (groups : List (List Prepared)) : Prop :=
  groups.Pairwise fun g h => Apart (places g) (places h)

/-- The order of groups of different rows does not matter to any row. -/
theorem Separate.sameRowOrder_flatten {groups others : List (List Prepared)}
    (hperm : groups.Perm others) (h : Separate groups) :
    SameRowOrder groups.flatten others.flatten := by
  induction hperm with
  | nil => exact fun _ => rfl
  | cons group _ ih =>
    intro place
    rw [List.flatten_cons, List.flatten_cons, ofRow_append, ofRow_append, ih h.of_cons place]
  | swap first second rest =>
    intro place
    have hapart : Apart (places second) (places first) :=
      (List.pairwise_cons.1 h).1 first List.mem_cons_self
    simp only [List.flatten_cons, ofRow_append, ← List.append_assoc]
    congr 1
    by_cases hfirst : place ∈ places first
    · rw [ofRow_eq_nil_iff.2 (hapart.symm place hfirst)]
      simp
    · rw [ofRow_eq_nil_iff.2 hfirst]
      simp
  | trans hfirst _ ih ih' =>
    have hsymm : ∀ {g h : List Prepared}, Apart (places g) (places h) →
      Apart (places h) (places g) := Apart.symm
    intro place
    exact (ih h place).trans (ih' ((hfirst.pairwise_iff hsymm).1 h) place)

theorem mem_places_append {place : RowAddress} {ps qs : List Prepared} :
    place ∈ places (ps ++ qs) ↔ place ∈ places ps ∨ place ∈ places qs := by
  constructor
  · rintro ⟨p, hp, hplace⟩
    rcases List.mem_append.1 hp with hps | hqs
    · exact .inl ⟨p, hps, hplace⟩
    · exact .inr ⟨p, hqs, hplace⟩
  · rintro (⟨p, hp, hplace⟩ | ⟨p, hp, hplace⟩)
    · exact ⟨p, List.mem_append_left qs hp, hplace⟩
    · exact ⟨p, List.mem_append_right ps hp, hplace⟩

theorem mem_places_singleton {place : RowAddress} {p : Prepared} :
    place ∈ places [p] ↔ place = p.row.address := by
  simp [places, eq_comm]

theorem any_same_iff {p : Prepared} {group : List Prepared} :
    (group.any fun q => q.row.same p.row) = true ↔ p.row.address ∈ places group := by
  simp [places, RowId.same_iff]

/-- Groups to which a mutation is added are groups of the same rows and the row of the mutation. -/
theorem mem_places_addToGroups {p : Prepared} {groups : List (List Prepared)} {group : List Prepared}
    (hgroup : group ∈ addToGroups p groups) {place : RowAddress} (hplace : place ∈ places group) :
    place = p.row.address ∨ ∃ g ∈ groups, place ∈ places g := by
  induction groups with
  | nil =>
    cases List.mem_singleton.1 hgroup
    exact .inl (mem_places_singleton.1 hplace)
  | cons g rest ih =>
    rw [addToGroups] at hgroup
    split at hgroup
    · rcases List.mem_cons.1 hgroup with rfl | hrest
      · rcases mem_places_append.1 hplace with hg | hp
        · exact .inr ⟨g, List.mem_cons_self, hg⟩
        · exact .inl (mem_places_singleton.1 hp)
      · exact .inr ⟨group, List.mem_cons_of_mem g hrest, hplace⟩
    · rcases List.mem_cons.1 hgroup with rfl | hrest
      · exact .inr ⟨group, List.mem_cons_self, hplace⟩
      · rcases ih hrest with hp | ⟨other, hother, hin⟩
        · exact .inl hp
        · exact .inr ⟨other, List.mem_cons_of_mem g hother, hin⟩

theorem Separate.addToGroups {groups : List (List Prepared)} (h : Separate groups) (p : Prepared) :
    Separate (addToGroups p groups) := by
  induction groups with
  | nil => exact List.pairwise_singleton _ _
  | cons g rest ih =>
    obtain ⟨hhead, hrest⟩ := List.pairwise_cons.1 h
    rw [Tributary.addToGroups]
    split
    · rename_i hany
      have hrow := any_same_iff.1 hany
      refine List.pairwise_cons.2 ⟨fun other hother => ?_, hrest⟩
      intro place hplace
      rcases mem_places_append.1 hplace with hg | hp
      · exact hhead other hother place hg
      · rw [mem_places_singleton.1 hp]
        exact hhead other hother _ hrow
    · rename_i hany
      refine List.pairwise_cons.2 ⟨fun other hother => ?_, ih hrest⟩
      intro place hplace hin
      rcases mem_places_addToGroups hother hin with hp | ⟨group, hgroup, hin'⟩
      · exact hany (any_same_iff.2 (hp ▸ hplace))
      · exact hhead group hgroup place hplace hin'

/-- A mutation comes behind all others of its row. -/
theorem sameRowOrder_addToGroups {groups : List (List Prepared)} (h : Separate groups) (p : Prepared) :
    SameRowOrder (addToGroups p groups).flatten (groups.flatten ++ [p]) := by
  intro place
  induction groups with
  | nil => simp [addToGroups]
  | cons g rest ih =>
    obtain ⟨hhead, hrest⟩ := List.pairwise_cons.1 h
    rw [addToGroups]
    split
    · rename_i hany
      have hrow := any_same_iff.1 hany
      simp only [List.flatten_cons, List.append_assoc, ofRow_append]
      congr 1
      by_cases hp : p.row.address = place
      · have hnone : ofRow place rest.flatten = [] := by
          refine ofRow_eq_nil_iff.2 ?_
          rintro ⟨q, hq, hplace⟩
          obtain ⟨other, hother, hin⟩ := List.mem_flatten.1 hq
          refine hhead other hother _ hrow ⟨q, hin, ?_⟩
          rw [hplace, hp]
        simp [hnone]
      · simp [ofRow, hp]
    · rw [List.flatten_cons, ofRow_append, ih hrest, List.flatten_cons, List.append_assoc,
        ← ofRow_append]

theorem groupRows_snoc (ps : List Prepared) (p : Prepared) :
    groupRows (ps ++ [p]) = addToGroups p (groupRows ps) := by
  simp [groupRows]

theorem groupRows_spec (ps : List Prepared) :
    Separate (groupRows ps) ∧ SameRowOrder (groupRows ps).flatten ps := by
  induction ps using List.reverseRecOn with
  | nil => exact ⟨List.Pairwise.nil, fun _ => rfl⟩
  | append_singleton ps p ih =>
    obtain ⟨hseparate, horder⟩ := ih
    rw [groupRows_snoc]
    refine ⟨hseparate.addToGroups p, fun place => ?_⟩
    rw [sameRowOrder_addToGroups hseparate p place, ofRow_append, ofRow_append, horder place]

/-- Grouping by row keeps the order of the mutations of each row, in whatever order the groups are. -/
theorem sameRowOrder_groupRows {ps : List Prepared} {groups : List (List Prepared)}
    (hperm : groups.Perm (groupRows ps)) : SameRowOrder groups.flatten ps := by
  obtain ⟨hseparate, horder⟩ := groupRows_spec ps
  intro place
  rw [← hseparate.sameRowOrder_flatten hperm.symm place]
  exact horder place

theorem flatten_addToGroups_perm (p : Prepared) (groups : List (List Prepared)) :
    (addToGroups p groups).flatten.Perm (p :: groups.flatten) := by
  induction groups with
  | nil => exact .refl _
  | cons group rest ih =>
    rw [addToGroups]
    split
    · rw [List.flatten_cons, List.flatten_cons, List.append_assoc]
      exact List.perm_middle
    · rw [List.flatten_cons, List.flatten_cons]
      exact (ih.append_left group).trans List.perm_middle

/-- Grouping loses and repeats no mutation. -/
theorem flatten_groupRows_perm (ps : List Prepared) : (groupRows ps).flatten.Perm ps := by
  induction ps using List.reverseRecOn with
  | nil => exact .refl _
  | append_singleton ps p ih =>
    rw [groupRows_snoc]
    have hadded := (flatten_addToGroups_perm p (groupRows ps)).trans (ih.cons p)
    exact hadded.trans (List.perm_append_singleton p ps).symm

/-- Applying the groups in any order refines applying the mutations in their own order. -/
theorem applyGroups_refines {ps : List Prepared} {groups : List (List Prepared)}
    (hperm : groups.Perm (groupRows ps)) :
    Refines List.Perm (applyGroups registry source groups) (applyGroup registry source ps) := by
  rw [applyGroups_eq_flatten]
  exact applyGroup_refines (sameRowOrder_groupRows hperm)

/-- Applying the mutations in their own order refines applying the groups in any order. -/
theorem applyGroup_refines_groups {ps : List Prepared} {groups : List (List Prepared)}
    (hperm : groups.Perm (groupRows ps)) :
    Refines List.Perm (applyGroup registry source ps) (applyGroups registry source groups) := by
  rw [applyGroups_eq_flatten]
  exact applyGroup_refines (sameRowOrder_groupRows hperm).symm

end Tributary
