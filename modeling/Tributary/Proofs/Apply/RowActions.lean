import Tributary.Apply.Prepare
import Tributary.Proofs.Merge.Transitivity

/-!
# Actions on one row without a merge

On a table without a merge, what an action leaves of a row depends on the row and the action alone. This
file looks at sequences of actions on one row.

* `RowAction.on`, `RowAction.onAll`: what actions leave of a row.
* `RowAction.onAll_onAll`: doing the same actions again changes nothing. Where compare-and-set columns
  decide, no row is ever older than the proposals that it has met, so each of them is dropped, or repeats a
  part of the row; without such columns overlays are idempotent; and a deletion forgets what was before it.
-/

namespace Tributary

namespace RowAction

/-- What an action leaves of a row of a table without a merge. -/
def on (config : TableConfig) (row : Option Document) : RowAction → Option Document
  | .delete => none
  | .upsert proposed =>
    match row with
    | none => some proposed.row
    | some target =>
      if config.isCas && conflicts config.cas proposed.row target then some target
      else some (target.overlay proposed.row)

/-- What actions, one after another, leave of a row. -/
def onAll (config : TableConfig) (row : Option Document) (actions : List RowAction) :
    Option Document :=
  actions.foldl (on config) row

variable {config : TableConfig}

theorem onAll_append (row : Option Document) (first second : List RowAction) :
    onAll config row (first ++ second) = onAll config (onAll config row first) second :=
  List.foldl_append

/-! ## Deletions -/

/-- A deletion forgets the row that was there before it. -/
theorem onAll_of_delete_mem {actions : List RowAction} (h : .delete ∈ actions)
    (row other : Option Document) : onAll config row actions = onAll config other actions := by
  induction actions generalizing row other with
  | nil => cases h
  | cons action rest ih =>
    rcases List.mem_cons.1 h with rfl | hrest
    · rfl
    · exact ih hrest _ _

/-- Without deletions a row stays. -/
theorem onAll_some_of_not_delete {actions : List RowAction} (h : .delete ∉ actions) (row : Document) :
    ∃ new, onAll config (some row) actions = some new := by
  induction actions generalizing row with
  | nil => exact ⟨row, rfl⟩
  | cons action rest ih =>
    obtain ⟨hne, hrest⟩ := not_or.1 fun hin => h (List.mem_cons.2 hin)
    cases action with
    | delete => exact absurd rfl hne
    | upsert proposed =>
      cases hdrop : config.isCas && conflicts config.cas proposed.row row with
      | true => simpa [onAll, on, hdrop] using ih hrest row
      | false => simpa [onAll, on, hdrop] using ih hrest (row.overlay proposed.row)

/-! ## Overlays -/

/-- The overlay of all proposals, of which the last value of a column counts. -/
def combined : List RowAction → Document
  | [] => .empty
  | .delete :: rest => combined rest
  | .upsert proposed :: rest => proposed.row.overlay (combined rest)

theorem onAll_some_of_not_isCas (hcas : config.isCas = false) {actions : List RowAction}
    (h : .delete ∉ actions) (row : Document) :
    onAll config (some row) actions = some (row.overlay (combined actions)) := by
  induction actions generalizing row with
  | nil => simp [onAll, combined, Document.overlay, Document.empty, Document.insertAll]
  | cons action rest ih =>
    obtain ⟨hne, hrest⟩ := not_or.1 fun hin => h (List.mem_cons.2 hin)
    cases action with
    | delete => exact absurd rfl hne
    | upsert proposed =>
      have hfirst : on config (some row) (.upsert proposed) = some (row.overlay proposed.row) := by
        simp [on, hcas]
      have hnext := ih hrest (row.overlay proposed.row)
      rw [onAll, List.foldl_cons, hfirst, combined, ← Document.overlay_assoc]
      exact hnext

theorem onAll_onAll_of_not_isCas (hcas : config.isCas = false) {actions : List RowAction}
    (h : .delete ∉ actions) (row : Option Document) :
    onAll config (onAll config row actions) actions = onAll config row actions := by
  cases row with
  | some row =>
    rw [onAll_some_of_not_isCas hcas h, onAll_some_of_not_isCas hcas h, Document.overlay_assoc,
      Document.overlay_self]
  | none =>
    cases actions with
    | nil => rfl
    | cons action rest =>
      obtain ⟨hne, hrest⟩ := not_or.1 fun hin => h (List.mem_cons.2 hin)
      cases action with
      | delete => exact absurd rfl hne
      | upsert proposed =>
        -- a row that is inserted is a proposal over nothing
        have hinsert : onAll config none (.upsert proposed :: rest) =
            some (combined (.upsert proposed :: rest)) :=
          onAll_some_of_not_isCas hcas hrest proposed.row
        rw [hinsert, onAll_some_of_not_isCas hcas h, Document.overlay_self]

/-! ## Compare-and-set columns -/

/-- A row whose numbers are integers, and whose compare-and-set columns have values of some measures. -/
structure Comparable (K : Measure → Prop) (columns : List String) (row : Document) : Prop where
  integral : row.Integral
  within : WithinColumns K columns row

variable {K : Measure → Prop}

theorem Comparable.overlay {columns : List String} {row proposed : Document}
    (hrow : Comparable K columns row) (hproposed : Comparable K columns proposed) :
    Comparable K columns (row.overlay proposed) := by
  refine ⟨hrow.integral.overlay hproposed.integral, fun column hcolumn v hv => ?_⟩
  rw [Document.get?_overlay] at hv
  rcases Option.or_eq_some_iff.1 hv with hv | ⟨-, hv⟩
  · exact hproposed.within column hcolumn v hv
  · exact hrow.within column hcolumn v hv

theorem not_newer_trans (hK : Uniform K) {columns : List String} {a b c : Document}
    (ha : Comparable K columns a) (hb : Comparable K columns b) (hc : Comparable K columns c)
    (hab : casOrder columns a b ≠ .gt) (hbc : casOrder columns b c ≠ .gt) :
    casOrder columns a c ≠ .gt :=
  (casOrder_composes hK ha.within hb.within hc.within).ne_gt hab hbc

/-- A row is not newer than what a proposal that does not conflict with it makes of it. -/
theorem not_newer_than_overlay {columns : List String} {row proposed : Document}
    (hrow : row.Integral) (hproposed : proposed.Integral)
    (h : conflicts columns proposed row = false) :
    casOrder columns row (row.overlay proposed) ≠ .gt := by
  by_cases hsubset : proposed.subsetOf row = true
  · rw [Document.overlay_eq_of_subsetOf hproposed hrow hsubset, casOrder_self]
    decide
  · have hnewer : casOrder columns proposed row = .gt := by simpa [conflicts, hsubset] using h
    rw [casOrder_swap, casOrder_overlay_of_gt hnewer]
    decide

/-- Whether a proposal is applied or dropped, it is not newer than the row that it leaves, and neither is
the row that it found. -/
theorem on_upsert (hcas : config.isCas = true) {row : Option Document} {proposed : MappedRow}
    (hrow : ∀ old, row = some old → Comparable K config.cas old)
    (hproposed : Comparable K config.cas proposed.row) :
    ∃ new, on config row (.upsert proposed) = some new ∧ Comparable K config.cas new ∧
      casOrder config.cas proposed.row new ≠ .gt ∧
      ∀ old, row = some old → casOrder config.cas old new ≠ .gt := by
  cases row with
  | none =>
    refine ⟨proposed.row, rfl, hproposed, ?_, fun old hold => by cases hold⟩
    rw [casOrder_self]
    decide
  | some old =>
    have hold := hrow old rfl
    cases hconflict : conflicts config.cas proposed.row old with
    | true =>
      have hstale : casOrder config.cas proposed.row old ≠ .gt := by
        simp only [conflicts, Bool.and_eq_true, bne_iff_ne] at hconflict
        exact hconflict.2
      refine ⟨old, by simp [on, hcas, hconflict], hold, hstale, fun _ h => ?_⟩
      cases h
      rw [casOrder_self]
      decide
    | false =>
      refine ⟨old.overlay proposed.row, by simp [on, hconflict], hold.overlay hproposed,
        casOrder_overlay_right_ne_gt _ _ _, fun _ h => ?_⟩
      cases h
      exact not_newer_than_overlay hold.integral hproposed.integral hconflict

/-- No proposal that a row has met is newer than the row. -/
theorem onAll_met (hK : Uniform K) (hcas : config.isCas = true) {actions : List RowAction}
    (hdelete : .delete ∉ actions)
    (hactions : ∀ proposed, .upsert proposed ∈ actions → Comparable K config.cas proposed.row)
    {row : Option Document} (hrow : ∀ old, row = some old → Comparable K config.cas old) :
    ∀ new, onAll config row actions = some new → Comparable K config.cas new ∧
      (∀ proposed, .upsert proposed ∈ actions → casOrder config.cas proposed.row new ≠ .gt) ∧
      ∀ old, row = some old → casOrder config.cas old new ≠ .gt := by
  induction actions generalizing row with
  | nil =>
    intro new hnew
    refine ⟨hrow new hnew, fun _ h => absurd h List.not_mem_nil, fun old hold => ?_⟩
    cases hold.symm.trans hnew
    rw [casOrder_self]
    decide
  | cons action rest ih =>
    intro new hnew
    obtain ⟨hne, hrest⟩ := not_or.1 fun hin => hdelete (List.mem_cons.2 hin)
    cases action with
    | delete => exact absurd rfl hne
    | upsert first =>
      have hfirst := hactions first List.mem_cons_self
      obtain ⟨next, hnext, hcomparable, hmet, hkept⟩ := on_upsert hcas hrow hfirst
      rw [onAll, List.foldl_cons, hnext] at hnew
      obtain ⟨hnewComparable, hmetLater, hkeptLater⟩ :=
        ih hrest (fun p hp => hactions p (List.mem_cons_of_mem _ hp))
          (fun _ h => by cases h; exact hcomparable) new hnew
      have hlater := hkeptLater next rfl
      refine ⟨hnewComparable, fun p hp => ?_, fun old hold => ?_⟩
      · rcases List.mem_cons.1 hp with heq | hp
        · cases heq
          exact not_newer_trans hK hfirst hcomparable hnewComparable hmet hlater
        · exact hmetLater p hp
      · exact not_newer_trans hK (hrow old hold) hcomparable hnewComparable (hkept old hold) hlater

/-- A proposal that is not newer than a row leaves it as it is. -/
theorem on_eq_of_not_newer (hcas : config.isCas = true) {row : Document} {proposed : MappedRow}
    (hrow : row.Integral) (hproposed : proposed.row.Integral)
    (h : casOrder config.cas proposed.row row ≠ .gt) :
    on config (some row) (.upsert proposed) = some row := by
  cases hconflict : conflicts config.cas proposed.row row with
  | true => simp [on, hcas, hconflict]
  | false =>
    have hsubset : proposed.row.subsetOf row = true := by
      have hne : (casOrder config.cas proposed.row row != .gt) = true := bne_iff_ne.2 h
      simpa [conflicts, hne] using hconflict
    simp [on, hconflict, Document.overlay_eq_of_subsetOf hproposed hrow hsubset]

theorem onAll_eq_of_each {actions : List RowAction} {row : Option Document}
    (h : ∀ action ∈ actions, on config row action = row) : onAll config row actions = row := by
  induction actions with
  | nil => rfl
  | cons action rest ih =>
    rw [onAll, List.foldl_cons, h action List.mem_cons_self]
    exact ih fun other hother => h other (List.mem_cons_of_mem _ hother)

/-- Doing the same actions again changes nothing. -/
theorem onAll_onAll (hK : Uniform K) {actions : List RowAction} {row : Option Document}
    (hactions : ∀ proposed, .upsert proposed ∈ actions → Comparable K config.cas proposed.row)
    (hrow : ∀ old, row = some old → Comparable K config.cas old) :
    onAll config (onAll config row actions) actions = onAll config row actions := by
  by_cases hdelete : .delete ∈ actions
  · exact onAll_of_delete_mem hdelete _ _
  · cases hcas : config.isCas with
    | false => exact onAll_onAll_of_not_isCas hcas hdelete row
    | true =>
      cases hnew : onAll config row actions with
      | none =>
        cases row with
        | none => exact hnew
        | some old =>
          have hstays : ∃ new, onAll config (some old) actions = some new :=
            onAll_some_of_not_delete hdelete old
          obtain ⟨new, hstays⟩ := hstays
          cases hstays.symm.trans hnew
      | some new =>
        obtain ⟨hcomparable, hmet, -⟩ := onAll_met hK hcas hdelete hactions hrow new hnew
        refine onAll_eq_of_each fun action haction => ?_
        cases action with
        | delete => exact absurd haction hdelete
        | upsert proposed =>
          exact on_eq_of_not_newer hcas hcomparable.integral (hactions proposed haction).integral
            (hmet proposed haction)

end RowAction

end Tributary
