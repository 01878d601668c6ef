import Mathlib.Data.List.Nodup
import Tributary.Proofs.Apply.Entries

/-!
# Numbers of outcomes

Every outcome has a number, by which outcomes are put in order when a batch is done.

* `applyFrom_ensures`: the outcomes of a batch have consecutive numbers, each once.
* `inOrder_of_perm`, `inOrder_append`: so their order does not depend on when they were found, and the
  outcomes of the first mutations come first.
* `getElem?_inOrder`: the number of an outcome is its place among all outcomes.
-/

namespace Tributary

open Run

/-! ## Consecutive numbers -/

/-- How many outcomes a batch has. -/
def batchOutcomes (registry : Registry) (source : SourceConfig) : List Mutation → Nat
  | [] => 0
  | m :: rest => m.outcomes registry source + batchOutcomes registry source rest

theorem outcomesOf_routedFrom (registry : Registry) (source : SourceConfig) (index : Nat)
    (batch : List Mutation) :
    outcomesOf (routedFrom source registry.options index batch) = batchOutcomes registry source batch := by
  induction batch generalizing index with
  | nil => rfl
  | cons m rest ih =>
    have hcons : routedFrom source registry.options index (m :: rest) =
        ⟨index, m, (route source registry.options.functionTimeout registry.options.maxDepth
          m).attempt.value⟩ :: routedFrom source registry.options (index + 1) rest := rfl
    rw [hcons, outcomesOf, ih, batchOutcomes]
    rfl

/-- The outcomes of a batch have consecutive numbers, each once. -/
theorem applyFrom_ensures (registry : Registry) (clock : Clock) (source : SourceConfig)
    (number index : Nat) (batch : List Mutation) :
    Ensures (fun outcomes => (outcomes.map Prod.fst).Perm
        (List.range' number (batchOutcomes registry source batch)))
      (applyFrom registry clock source number index batch) := by
  refine (planFrom_accounted number index batch).bind fun plan hplan => ?_
  refine (applyGroup_labels plan.2).bind fun applied happlied => .pure ?_
  have hnumbers : applied.map Prod.fst = (plan.2.map Prepared.placed).map Placed.number := by
    have hfirst := congrArg (List.map Prod.fst) happlied
    simp only [List.map_map] at hfirst ⊢
    exact hfirst
  rw [List.map_append, hnumbers]
  refine hplan.numbers.trans ?_
  rw [List.zipIdx_map_snd, length_flatMap_entries, outcomesOf_routedFrom]

/-! ## Order -/

theorem inOrder_sorted (outcomes : Numbered) :
    (outcomes.mergeSort fun a b => a.1 ≤ b.1).Pairwise fun a b => a.1 ≤ b.1 := by
  have hsorted : (outcomes.mergeSort fun a b => a.1 ≤ b.1).Pairwise
      fun a b => decide (a.1 ≤ b.1) = true := by
    refine List.pairwise_mergeSort (fun a b c hab hbc => ?_) (fun a b => ?_) outcomes
    · have h := of_decide_eq_true hab
      have h' := of_decide_eq_true hbc
      exact decide_eq_true (Nat.le_trans h h')
    · simpa using Nat.le_total a.1 b.1
  simpa only [decide_eq_true_eq] using hsorted

/-- Outcomes whose numbers ascend are in order. -/
theorem inOrder_of_sorted {outcomes sorted : Numbered} (hperm : outcomes.Perm sorted)
    (hnodup : (outcomes.map Prod.fst).Nodup) (hsorted : sorted.Pairwise fun a b => a.1 ≤ b.1) :
    inOrder outcomes = sorted.map Prod.snd := by
  rw [inOrder]
  congr 1
  have hsame := (List.mergeSort_perm outcomes fun a b => a.1 ≤ b.1).trans hperm
  -- numbers are distinct, so that there is only one ascending arrangement
  refine hsame.eq_of_pairwise ?_ (inOrder_sorted outcomes) hsorted
  intro a b ha hb hab hba
  have hain : a ∈ outcomes := List.mem_mergeSort.1 ha
  exact List.inj_on_of_nodup_map hnodup hain (hperm.mem_iff.2 hb) (Nat.le_antisymm hab hba)

/-- If the numbers are those of a range, sorting takes each outcome to the place of its number. -/
theorem place_of_sorted {outcomes : Numbered} {count : Nat}
    (h : (outcomes.map Prod.fst).Perm (List.range count)) {n : Nat} {e : Nat × Outcome}
    (he : (outcomes.mergeSort fun a b => a.1 ≤ b.1)[n]? = some e) : n = e.1 := by
  have hperm := List.mergeSort_perm outcomes fun a b => a.1 ≤ b.1
  have hsorted := inOrder_sorted outcomes
  generalize (outcomes.mergeSort fun a b => a.1 ≤ b.1) = sorted at hperm hsorted he
  have hnumbers : sorted.map Prod.fst = List.range count := by
    have hascend : (sorted.map Prod.fst).Pairwise (· ≤ ·) := List.pairwise_map.2 hsorted
    exact ((hperm.map Prod.fst).trans h).eq_of_pairwise (fun a b _ _ => Nat.le_antisymm) hascend
      List.pairwise_le_range
  have hfst : (sorted.map Prod.fst)[n]? = some e.1 := by rw [List.getElem?_map, he]; rfl
  rw [hnumbers, List.getElem?_eq_some_iff] at hfst
  obtain ⟨hn, hrange⟩ := hfst
  rwa [List.getElem_range] at hrange

/-- So an outcome stands in order at its number. -/
theorem getElem?_inOrder {outcomes : Numbered} {count : Nat}
    (h : (outcomes.map Prod.fst).Perm (List.range count)) (n : Nat) (o : Outcome) :
    (inOrder outcomes)[n]? = some o ↔ (n, o) ∈ outcomes := by
  have hperm := List.mergeSort_perm outcomes fun a b => a.1 ≤ b.1
  rw [inOrder, List.getElem?_map, Option.map_eq_some_iff, ← hperm.mem_iff]
  constructor
  · rintro ⟨e, he, rfl⟩
    rw [place_of_sorted h he]
    exact List.mem_of_getElem? he
  · intro hin
    obtain ⟨i, hi⟩ := List.getElem?_of_mem hin
    rw [place_of_sorted h hi] at hi
    exact ⟨(n, o), hi, rfl⟩

/-- It does not matter in which order outcomes were found. -/
theorem inOrder_of_perm {outcomes others : Numbered} (hperm : outcomes.Perm others)
    (hnodup : (outcomes.map Prod.fst).Nodup) : inOrder outcomes = inOrder others :=
  inOrder_of_sorted (hperm.trans (List.mergeSort_perm others _).symm) hnodup (inOrder_sorted others)

/-- Outcomes with lower numbers come first. -/
theorem inOrder_append {first second : Numbered}
    (hnodup : ((first ++ second).map Prod.fst).Nodup)
    (hbelow : ∀ a ∈ first, ∀ b ∈ second, a.1 ≤ b.1) :
    inOrder (first ++ second) = inOrder first ++ inOrder second := by
  have hfirst := List.mergeSort_perm first fun a b => a.1 ≤ b.1
  have hsecond := List.mergeSort_perm second fun a b => a.1 ≤ b.1
  rw [inOrder_of_sorted (hfirst.append hsecond).symm hnodup, List.map_append]
  · rfl
  · refine List.pairwise_append.2 ⟨inOrder_sorted first, inOrder_sorted second, fun a ha b hb => ?_⟩
    exact hbelow a (hfirst.mem_iff.1 ha) b (hsecond.mem_iff.1 hb)

end Tributary
