import Tributary.Proofs.Merge.Standard
import Tributary.Proofs.Merge.Verdict

/-!
# A fallback that keeps the stored row

Where the standard merge leaves some properties over, it hands them to its fallback, which makes a row of its
own from the operation. One that keeps what is stored under these properties, and takes the rest of the
proposal, ends up with the row that the standard merge had before it gave up, but for the class of numbers: where
the stored row holds a proposed value already, one of the two rows keeps it and the other one takes the proposal.

* `MergeOperation.handedOn`: what the fallback is given.
* `get?_preferredRow_of_admits`, `get?_preferredRow_of_refused`: the row that it makes.
* `PrefersTarget.says_preferredRow`: its answer stands for that row.
* `preferred_fallback_completes_the_merge`: with such a fallback the standard merge always applies a row.
-/

namespace Tributary

/-! ## The row of the fallback -/

/-- The operation that the standard merge hands to its fallback. -/
def MergeOperation.handedOn (op : MergeOperation) : MergeOperation :=
  { op with unmerged := (standardMerge op).unmerged }

/-- Nothing is proposed for a property that could be merged. -/
def MergeOperation.Refuses (op : MergeOperation) (name : String) : Prop :=
  ∀ value, op.proposed.get? name = some value → ¬ op.Admits name value

section

variable {op : MergeOperation} {name : String} {value : Value}

theorem MergeOperation.admits_or_refuses (op : MergeOperation) (name : String) :
    (∃ value, op.proposed.get? name = some value ∧ op.Admits name value) ∨ op.Refuses name := by
  by_cases h : ∃ value, op.proposed.get? name = some value ∧ op.Admits name value
  · exact .inl h
  · exact .inr fun value hvalue hadmits => h ⟨value, hvalue, hadmits⟩

theorem get?_merged_of_refused (h : op.Refuses name) :
    (standardMerge op).merged.get? name = op.target.get? name := by
  rw [get?_merged]
  cases hvalue : op.proposed.get? name with
  | none => rfl
  | some value =>
    have hrefused := h value hvalue
    unfold MergeOperation.Admits at hrefused
    rw [not_or, ← isMergeable_iff] at hrefused
    exact (if_neg hrefused.1).trans (if_neg hrefused.2)

theorem get?_merged_of_admits (hvalue : op.proposed.get? name = some value) (h : op.Admits name value) :
    sameOptional ((standardMerge op).merged.get? name) (some value) = true := by
  rw [get?_merged, hvalue]
  exact mergedValue_same h

theorem get?_preferredRow (op : MergeOperation) (name : String) :
    (preferredRow op).get? name =
      ((op.proposed.get? name).filter fun _ => !op.unmerged.contains name).or (op.target.get? name) := by
  rw [preferredRow, Document.get?_overlay, Document.get?_filter]

theorem get?_preferredRow_of_admits (hvalue : op.proposed.get? name = some value) (h : op.Admits name value) :
    (preferredRow op.handedOn).get? name = some value := by
  have hmerged : name ∉ (standardMerge op).unmerged := by
    rw [mem_unmerged_iff]
    rintro ⟨other, hother, hrefused⟩
    cases hvalue.symm.trans hother
    exact hrefused h
  rw [get?_preferredRow]
  simp [MergeOperation.handedOn, hvalue, hmerged]

theorem get?_preferredRow_of_refused (h : op.Refuses name) :
    (preferredRow op.handedOn).get? name = op.target.get? name := by
  rw [get?_preferredRow]
  show ((op.proposed.get? name).filter _).or (op.target.get? name) = _
  cases hvalue : op.proposed.get? name with
  | none => rfl
  | some value =>
    have hleft : name ∈ (standardMerge op).unmerged := (mem_unmerged_iff op name).2 ⟨value, hvalue, h value hvalue⟩
    simp [MergeOperation.handedOn, hleft]

theorem preferredRow_same_merged (op : MergeOperation) :
    (preferredRow op.handedOn).same (standardMerge op).merged = true := by
  rw [Document.same_iff]
  intro name
  rcases op.admits_or_refuses name with ⟨value, hvalue, hadmits⟩ | hrefused
  · rw [get?_preferredRow_of_admits hvalue hadmits, sameOptional_comm]
    exact get?_merged_of_admits hvalue hadmits
  · rw [get?_preferredRow_of_refused hrefused, get?_merged_of_refused hrefused]
    exact sameOptional_self _

end

/-! ## Its answer -/

theorem ofValue_preferTarget (row : Document) :
    MergeResult.ofValue (Document.ofList [("apply", row.toValue)]).toValue = .ok (.apply row) := by
  have hof : Document.ofValue? (Document.ofList [("apply", row.toValue)]).toValue =
      some (Document.ofList [("apply", row.toValue)]) := Document.ofValue?_toValue _
  have hresult : MergeResult.ofProperties (some row.toValue) none none = .ok (.apply row) := by
    simp only [MergeResult.ofProperties, Document.ofValue?_toValue]
  unfold MergeResult.ofValue
  rw [hof]
  exact hresult

/-- The function answers with the row that keeps what could not be merged, however long that takes. -/
def PrefersTarget (merge : MergeFunction) : Prop := ∀ op, (merge op).ending = (preferTarget op).ending

/-- The function answers in time, if the standard merge asks it at all. -/
def AnswersInTime (timeout : Span) (merge : MergeFunction) (op : MergeOperation) : Prop :=
  ¬ op.Mergeable → (merge op.handedOn).millis * 1000000 ≤ timeout.toNanos

variable {timeout : Span} {merge : MergeFunction}

theorem PrefersTarget.says_preferredRow (h : PrefersTarget merge) {op : MergeOperation}
    (htime : (merge op).millis * 1000000 ≤ timeout.toNanos) :
    (merge op).Says timeout (.apply (preferredRow op)) :=
  ⟨htime, _, h op, (MergeResult.ofValue_eq_ok_iff _ _).1 (ofValue_preferTarget _)⟩

theorem runStandard_of_leftOver {op : MergeOperation} (merge : MergeFunction) (h : ¬ op.Mergeable) :
    runStandard timeout (some merge) op = runMerge timeout merge op.handedOn := by
  have hsome : ¬ (standardMerge op).unmerged.isEmpty = true := by
    rw [List.isEmpty_iff, unmerged_eq_nil_iff]
    exact h
  rw [runStandard, if_neg hsome]
  rfl

/-- With a fallback that prefers the stored row, and answers in time where it is asked, the standard merge always
applies a row, which is the one that it has merged itself. Every property that could be merged has the value that
was proposed, and every other one is as it is stored, or absent if it is absent there. -/
theorem preferred_fallback_completes_the_merge (hmerge : PrefersTarget merge) (op : MergeOperation)
    (htime : AnswersInTime timeout merge op) :
    ∃ row, (runStandard timeout (some merge) op).attempt.value = .ok (.apply row) ∧
      row.same (standardMerge op).merged = true ∧
      (∀ name value, op.proposed.get? name = some value → op.Admits name value →
        sameOptional (row.get? name) (some value) = true) ∧
      (∀ name ∈ (standardMerge op).unmerged, row.get? name = op.target.get? name) ∧
      ∀ name, op.proposed.get? name = none → row.get? name = op.target.get? name := by
  have hunproposed {name : String} (hnone : op.proposed.get? name = none) : op.Refuses name := by
    intro value hvalue
    cases hnone.symm.trans hvalue
  have hunmerged {name : String} (hname : name ∈ (standardMerge op).unmerged) : op.Refuses name := by
    obtain ⟨value, hvalue, hrefused⟩ := (mem_unmerged_iff op name).1 hname
    intro other hother
    cases hvalue.symm.trans hother
    exact hrefused
  by_cases h : op.Mergeable
  · refine ⟨(standardMerge op).merged, ?_, Document.same_iff.2 fun _ => sameOptional_self _, ?_, ?_, ?_⟩
    · rw [runStandard_of_mergeable (some merge) h]
      rfl
    · exact fun name value => get?_merged_of_admits
    · exact fun name hname => get?_merged_of_refused (hunmerged hname)
    · exact fun name hnone => get?_merged_of_refused (hunproposed hnone)
  · refine ⟨preferredRow op.handedOn, ?_, preferredRow_same_merged op, ?_, ?_, ?_⟩
    · rw [runStandard_of_leftOver merge h, runMerge_eq_ok_iff]
      exact hmerge.says_preferredRow (htime h)
    · intro name value hvalue hadmits
      rw [get?_preferredRow_of_admits hvalue hadmits]
      exact value.same_self
    · exact fun name hname => get?_preferredRow_of_refused (hunmerged hname)
    · exact fun name hnone => get?_preferredRow_of_refused (hunproposed hnone)

/-- The fallback, when it takes five milliseconds. -/
def slowPreferTarget : MergeFunction := fun op => { preferTarget op with millis := 5 }

/-- The note that somebody has changed stays, and the state is closed. -/
theorem disputed_note_is_kept :
    PrefersTarget slowPreferTarget ∧ AnswersInTime ⟨1, 0, by decide⟩ slowPreferTarget (closing "later") ∧
      ¬ (closing "later").Mergeable ∧
      ∃ row, (runStandard ⟨1, 0, by decide⟩ (some slowPreferTarget) (closing "later")).attempt.value =
          .ok (.apply row) ∧
        row.get? "note" = some (.string "urgent") ∧
        sameOptional (row.get? "state") (some (.string "closed")) = true := by
  have hmerge : PrefersTarget slowPreferTarget := fun _ => rfl
  have htime : AnswersInTime ⟨1, 0, by decide⟩ slowPreferTarget (closing "later") := fun _ => by decide
  obtain ⟨row, hrow, -, htaken, hkept, -⟩ :=
    preferred_fallback_completes_the_merge hmerge (closing "later") htime
  refine ⟨hmerge, htime, by decide, row, hrow, ?_, ?_⟩
  · exact (hkept "note" (by decide)).trans (by decide)
  · exact htaken "state" (.string "closed") (by decide) (.inr ⟨_, rfl, by decide⟩)

end Tributary
