import Tributary.Proofs.Value.Equality

/-!
# What the standard merge does

A proposed property can be merged if the stored row already holds its value, or still holds the value that the
change started from. The merge goes through the proposed properties one by one, but what it makes of one does
not depend on the others, so that it is described property by property.

* `get?_merged`, `mem_unmerged_iff`: the merged row and the properties that are left over.
* `standard_merge_is_the_overlay`: when the merge applies, and that it then leaves the row that an unconditional
  write of the proposal leaves, but for the class of numbers.
* `independent_changes_commute`: changes of one row that have in common only what neither of them changes.
-/

namespace Tributary

/-! ## One property -/

/-- A value can be merged into a property of the stored row: it is there already, or nobody else has changed the
property since the change was made. -/
def MergeOperation.Admits (op : MergeOperation) (name : String) (value : Value) : Prop :=
  sameOptional (op.target.get? name) (some value) = true ∨
    ∃ before, op.before = some before ∧ sameOptional (op.target.get? name) (before.get? name) = true

/-- What a property of the stored row becomes when a value is proposed for it. -/
def mergedValue (op : MergeOperation) (name : String) (value : Value) : Option Value :=
  if sameOptional (op.target.get? name) (some value) then op.target.get? name
  else if isMergeable op name then some value
  else op.target.get? name

theorem isMergeable_iff {op : MergeOperation} {name : String} :
    isMergeable op name = true ↔
      ∃ before, op.before = some before ∧ sameOptional (op.target.get? name) (before.get? name) = true := by
  unfold isMergeable
  cases op.before with
  | none => simp
  | some before => simp

/-- A value that can be merged is equal to what the property becomes. -/
theorem mergedValue_same {op : MergeOperation} {name : String} {value : Value} (h : op.Admits name value) :
    sameOptional (mergedValue op name value) (some value) = true := by
  unfold mergedValue
  split
  · next hsame => exact hsame
  · next hdiffers =>
    rw [if_pos (isMergeable_iff.2 (h.resolve_left hdiffers))]
    exact value.same_self

theorem get?_mergeProperty {op : MergeOperation} {c : Classification} {name : String} {value : Value}
    (hc : c.merged.get? name = op.target.get? name) (other : String) :
    (mergeProperty op c (name, value)).merged.get? other =
      if other = name then mergedValue op name value else c.merged.get? other := by
  unfold mergeProperty mergedValue
  dsimp only
  by_cases hname : other = name
  · rw [if_pos hname, hname]
    split
    · exact hc
    · split
      · exact Document.get?_insert_self ..
      · exact hc
  · rw [if_neg hname]
    split
    · rfl
    · split
      · exact Document.get?_insert_of_ne _ _ hname
      · rfl

theorem mem_unmerged_mergeProperty (op : MergeOperation) (c : Classification) (name : String) (value : Value)
    (other : String) :
    other ∈ (mergeProperty op c (name, value)).unmerged ↔
      other ∈ c.unmerged ∨ other = name ∧ ¬ op.Admits name value := by
  unfold mergeProperty MergeOperation.Admits
  rw [← isMergeable_iff]
  dsimp only
  split
  · next hsame => simp [hsame]
  · next hdiffers =>
    split
    · next hmergeable => simp [hmergeable]
    · next hchanged => simp [hdiffers, hchanged]

/-! ## The whole row -/

/-- Behind the merge of some properties each of them is merged, as long as none of them was before. -/
theorem get?_mergeAll {op : MergeOperation} {fields : List (String × Value)} (hfields : Value.Ascending fields)
    {c : Classification} (hc : ∀ f ∈ fields, c.merged.get? f.1 = op.target.get? f.1) (name : String) :
    (fields.foldl (mergeProperty op) c).merged.get? name =
      match fields.lookup name with
      | some value => mergedValue op name value
      | none => c.merged.get? name := by
  induction fields generalizing c with
  | nil => rfl
  | cons f rest ih =>
    obtain ⟨n, v⟩ := f
    obtain ⟨hfirst, hrest⟩ := List.pairwise_cons.1 hfields
    have hstep (other : String) : (mergeProperty op c (n, v)).merged.get? other =
        if other = n then mergedValue op n v else c.merged.get? other :=
      get?_mergeProperty (hc (n, v) List.mem_cons_self) other
    have hlater : ∀ f ∈ rest, (mergeProperty op c (n, v)).merged.get? f.1 = op.target.get? f.1 := by
      intro f hf
      rw [hstep, if_neg (Document.name_ne_of_lt (hfirst f hf)).symm]
      exact hc f (List.mem_cons_of_mem _ hf)
    rw [List.foldl_cons, ih hrest hlater, Document.lookup_field, hstep]
    by_cases hname : name = n
    · rw [hname, Document.lookup_tail_head hfields, if_pos rfl, if_pos rfl]
    · rw [if_neg hname, if_neg hname]

theorem mem_unmerged_mergeAll (op : MergeOperation) (fields : List (String × Value)) (c : Classification)
    (name : String) :
    name ∈ (fields.foldl (mergeProperty op) c).unmerged ↔
      name ∈ c.unmerged ∨ ∃ value, (name, value) ∈ fields ∧ ¬ op.Admits name value := by
  induction fields generalizing c with
  | nil => simp
  | cons f rest ih =>
    obtain ⟨n, v⟩ := f
    rw [List.foldl_cons, ih, mem_unmerged_mergeProperty]
    constructor
    · rintro ((hin | ⟨rfl, hv⟩) | ⟨value, hin, hvalue⟩)
      · exact .inl hin
      · exact .inr ⟨v, List.mem_cons_self, hv⟩
      · exact .inr ⟨value, List.mem_cons_of_mem _ hin, hvalue⟩
    · rintro (hin | ⟨value, hin, hvalue⟩)
      · exact .inl (.inl hin)
      · rcases List.mem_cons.1 hin with heq | hin
        · cases heq
          exact .inl (.inr ⟨rfl, hvalue⟩)
        · exact .inr ⟨value, hin, hvalue⟩

theorem get?_merged (op : MergeOperation) (name : String) :
    (standardMerge op).merged.get? name =
      match op.proposed.get? name with
      | some value => mergedValue op name value
      | none => op.target.get? name := get?_mergeAll op.proposed.ascending (fun _ _ => rfl) name

theorem mem_unmerged_iff (op : MergeOperation) (name : String) :
    name ∈ (standardMerge op).unmerged ↔
      ∃ value, op.proposed.get? name = some value ∧ ¬ op.Admits name value := by
  unfold standardMerge
  rw [mem_unmerged_mergeAll]
  simp only [List.not_mem_nil, false_or, Document.mem_fields_iff]

/-- Every proposed property can be merged. -/
def MergeOperation.Mergeable (op : MergeOperation) : Prop :=
  ∀ name value, op.proposed.get? name = some value → op.Admits name value

theorem unmerged_eq_nil_iff (op : MergeOperation) : (standardMerge op).unmerged = [] ↔ op.Mergeable := by
  rw [List.eq_nil_iff_forall_not_mem]
  simp only [mem_unmerged_iff, not_exists, not_and, Classical.not_not, MergeOperation.Mergeable]

instance (op : MergeOperation) : Decidable op.Mergeable := decidable_of_iff _ (unmerged_eq_nil_iff op)

/-! ## Without a fallback -/

variable {timeout : Span} {op : MergeOperation}

theorem runStandard_of_mergeable (fallback : Option MergeFunction) (h : op.Mergeable) :
    runStandard timeout fallback op = pure (.apply (standardMerge op).merged) := by
  have hnone : (standardMerge op).unmerged.isEmpty = true := List.isEmpty_iff.2 ((unmerged_eq_nil_iff op).2 h)
  unfold runStandard
  dsimp only
  exact if_pos hnone

theorem runStandard_of_not_mergeable (h : ¬ op.Mergeable) :
    runStandard timeout none op = pure (.park unmergedQueue) := by
  have hsome : ¬ (standardMerge op).unmerged.isEmpty = true := fun hnil =>
    h ((unmerged_eq_nil_iff op).1 (List.isEmpty_iff.1 hnil))
  rw [runStandard, if_neg hsome]

theorem get?_overlay_merged (name : String) :
    (op.target.overlay (standardMerge op).merged).get? name = (standardMerge op).merged.get? name := by
  rw [Document.get?_overlay, get?_merged]
  cases hproposed : op.proposed.get? name with
  | none => exact Option.or_self ..
  | some value =>
    dsimp only
    unfold mergedValue
    split
    · exact Option.or_self ..
    · split
      · rfl
      · exact Option.or_self ..

theorem proposed_of_overlay_merged (h : op.Mergeable) {name : String} {value : Value}
    (hvalue : op.proposed.get? name = some value) :
    sameOptional ((op.target.overlay (standardMerge op).merged).get? name) (some value) = true := by
  rw [get?_overlay_merged, get?_merged, hvalue]
  exact mergedValue_same (h name value hvalue)

theorem overlay_merged_same (h : op.Mergeable) :
    (op.target.overlay (standardMerge op).merged).same (op.target.overlay op.proposed) = true := by
  rw [Document.same_iff]
  intro name
  rw [Document.get?_overlay op.target op.proposed]
  cases hproposed : op.proposed.get? name with
  | none =>
    rw [get?_overlay_merged, get?_merged, hproposed, Option.none_or]
    exact sameOptional_self _
  | some value => exact proposed_of_overlay_merged h hproposed

/-- The standard merge without a fallback applies exactly if every proposed value is there already or proposed for
a property that nobody else has changed, and else leaves the conflict to a queue; it calls no function. Where it
applies, the stored row becomes the one that an unconditional write of the proposal makes, up to the class of
numbers: it holds the proposal, and nothing else has changed. So it does for every change of properties that are
still what the change started from. -/
theorem standard_merge_is_the_overlay (timeout : Span) (op : MergeOperation) :
    (op.Mergeable → ∃ row, (runStandard timeout none op).attempt = pure (.ok (.apply row)) ∧
      (op.target.overlay row).same (op.target.overlay op.proposed) = true ∧
      op.proposed.subsetOf (op.target.overlay row) = true ∧
      ∀ name, op.proposed.get? name = none → (op.target.overlay row).get? name = op.target.get? name) ∧
    (¬ op.Mergeable → (runStandard timeout none op).attempt = pure (.ok (.park "unmerged"))) ∧
    ∀ before, op.before = some before →
      (∀ name, op.proposed.contains name = true →
        sameOptional (op.target.get? name) (before.get? name) = true) →
      ∃ row, (runStandard timeout none op).attempt = pure (.ok (.apply row)) ∧
        (op.target.overlay row).same (op.target.overlay op.proposed) = true := by
  refine ⟨fun h => ?_, fun h => ?_, fun before hbefore hkept => ?_⟩
  · refine ⟨_, by rw [runStandard_of_mergeable none h]; rfl, overlay_merged_same h, ?_, ?_⟩
    · exact Document.subsetOf_iff.2 fun name value hvalue => proposed_of_overlay_merged h hvalue
    · intro name hname
      rw [get?_overlay_merged, get?_merged, hname]
  · rw [runStandard_of_not_mergeable h]
    rfl
  · have h : op.Mergeable := by
      intro name value hvalue
      refine .inr ⟨before, hbefore, hkept name ?_⟩
      rw [Document.contains, hvalue]
      rfl
    exact ⟨(standardMerge op).merged, by rw [runStandard_of_mergeable none h]; rfl, overlay_merged_same h⟩

/-- A change from `open` to `closed`, of a row whose note somebody has changed meanwhile. -/
def closing (note : String) : MergeOperation where
  before := some (.ofList [("note", .string "none"), ("state", .string "open")])
  origin := .empty
  proposed := .ofList [("note", .string note), ("state", .string "closed")]
  target := .ofList [("note", .string "urgent"), ("state", .string "open"), ("total", .bool true)]
  unmerged := []

/-- A note that is proposed as it stands goes through, another one is in conflict. -/
theorem agreed_note_is_merged :
    (closing "urgent").Mergeable ∧ ¬ (closing "later").Mergeable ∧
      (∃ row, (runStandard .zero none (closing "urgent")).attempt = pure (.ok (.apply row)) ∧
        ((closing "urgent").target.overlay row).get? "total" = some (.bool true)) ∧
      (runStandard .zero none (closing "later")).attempt = pure (.ok (.park "unmerged")) := by
  have hagreed : (closing "urgent").Mergeable := by decide
  have hdisputed : ¬ (closing "later").Mergeable := by decide
  refine ⟨hagreed, hdisputed, ?_, (standard_merge_is_the_overlay _ _).2.1 hdisputed⟩
  obtain ⟨row, hrow, -, -, hkept⟩ := (standard_merge_is_the_overlay .zero (closing "urgent")).1 hagreed
  exact ⟨row, hrow, (hkept "total" (by decide)).trans (by decide)⟩

/-! ## Independent changes -/

/-- The proposed properties whose values are not those of a base already. -/
def Document.changes (base proposed : Document) : Document :=
  proposed.filter fun name value => !sameOptional (base.get? name) (some value)

theorem Document.overlay_comm {d a b : Document} (h : ∀ name, a.get? name = none ∨ b.get? name = none) :
    (d.overlay a).overlay b = (d.overlay b).overlay a := by
  refine ext_get? fun name => ?_
  simp only [get?_overlay]
  rcases h name with hnone | hnone
  · rw [hnone, Option.none_or, Option.none_or]
  · rw [hnone, Option.none_or, Option.none_or]

/-- The conflict of a change that was made to a base with a stored row. -/
def MergeOperation.threeWay (base origin proposed target : Document) : MergeOperation :=
  ⟨some base, origin, proposed, target, []⟩

section

variable {base origin proposed target : Document}

/-- A row in which all proposed properties still stand as in the base takes exactly the changes. -/
theorem merge_of_unchanged (h : ∀ name, proposed.contains name = true → target.get? name = base.get? name)
    (timeout : Span) :
    (runStandard timeout none (.threeWay base origin proposed target)).attempt =
      pure (.ok (.apply (target.overlay (base.changes proposed)))) := by
  have hstands {name : String} {value : Value} (hvalue : proposed.get? name = some value) :
      target.get? name = base.get? name := h name (by rw [Document.contains, hvalue]; rfl)
  have hunchanged {name : String} {value : Value} (hvalue : proposed.get? name = some value) :
      isMergeable (.threeWay base origin proposed target) name = true := by
    show sameOptional (target.get? name) (base.get? name) = true
    rw [hstands hvalue]
    exact sameOptional_self _
  have hmerged : (standardMerge (.threeWay base origin proposed target)).merged =
      target.overlay (base.changes proposed) := by
    refine Document.ext_get? fun name => ?_
    rw [get?_merged, Document.get?_overlay, Document.changes, Document.get?_filter]
    show (match proposed.get? name with | some value => _ | none => target.get? name) = _
    cases hproposed : proposed.get? name with
    | none => rfl
    | some value =>
      dsimp only
      unfold mergedValue
      rw [hunchanged hproposed]
      show (if sameOptional (target.get? name) (some value) then target.get? name else some value) = _
      rw [hstands hproposed, Option.filter_some]
      cases sameOptional (base.get? name) (some value) with
      | true => rfl
      | false => rfl
  rw [runStandard_of_mergeable none fun name value hvalue => .inr (isMergeable_iff.1 (hunchanged hvalue)), hmerged]
  rfl

theorem Document.get?_changes_of_same {name : String} {value : Value} (hvalue : proposed.get? name = some value)
    (hsame : sameOptional (base.get? name) (some value) = true) : (base.changes proposed).get? name = none := by
  rw [changes, get?_filter, hvalue, Option.filter_some, hsame]
  rfl

theorem Document.get?_changes_of_none {name : String} (h : proposed.get? name = none) :
    (base.changes proposed).get? name = none := by
  rw [changes, get?_filter, h]
  rfl

/-- The changes alone make the same row as the whole proposal. -/
theorem Document.overlay_changes_same (name : String) :
    sameOptional ((base.overlay (base.changes proposed)).get? name) ((base.overlay proposed).get? name) =
      true := by
  rw [get?_overlay, get?_overlay]
  cases hproposed : proposed.get? name with
  | none =>
    rw [get?_changes_of_none hproposed]
    exact sameOptional_self _
  | some value =>
    by_cases hsame : sameOptional (base.get? name) (some value) = true
    · rw [get?_changes_of_same hproposed hsame]
      exact hsame
    · rw [changes, get?_filter, hproposed, Option.filter_some, if_pos (by simpa using hsame)]
      exact value.same_self

end

/-- Two proposals for a base have in common only properties that both leave as they are. -/
def Document.Independent (base p q : Document) : Prop :=
  ∀ name v w, p.get? name = some v → q.get? name = some w →
    sameOptional (base.get? name) (some v) = true ∧ sameOptional (base.get? name) (some w) = true

namespace Document.Independent

variable {base p q : Document}

instance : Decidable (base.Independent p q) :=
  decidable_of_iff (∀ f ∈ p.fields, ∀ g ∈ q.fields, f.1 = g.1 →
      sameOptional (base.get? f.1) (some f.2) = true ∧ sameOptional (base.get? f.1) (some g.2) = true) <| by
    constructor
    · intro h name v w hv hw
      exact h (name, v) ((p.mem_fields_iff name v).2 hv) (name, w) ((q.mem_fields_iff name w).2 hw) rfl
    · intro h f hf g hg hname
      exact h f.1 f.2 g.2 ((p.mem_fields_iff _ _).1 hf) (hname ▸ (q.mem_fields_iff _ _).1 hg)

protected theorem symm (h : base.Independent p q) : base.Independent q p :=
  fun name v w hv hw => (h name w v hw hv).symm

/-- A property that one proposal holds is not changed by the other. -/
theorem changes_eq_none (h : base.Independent p q) {name : String} (hname : q.contains name = true) :
    (base.changes p).get? name = none := by
  obtain ⟨w, hw⟩ := Option.isSome_iff_exists.1 hname
  cases hp : p.get? name with
  | none => exact get?_changes_of_none hp
  | some v => exact get?_changes_of_same hp (h name v w hp hw).1

theorem changes_disjoint (h : base.Independent p q) (name : String) :
    (base.changes p).get? name = none ∨ (base.changes q).get? name = none := by
  by_cases hname : q.contains name = true
  · exact .inl (h.changes_eq_none hname)
  · refine .inr (get?_changes_of_none ?_)
    simpa [contains] using hname

/-- Behind the changes of one proposal, the properties of the other still stand as in the base. -/
theorem stands (h : base.Independent p q) {name : String} (hname : q.contains name = true) :
    (base.overlay (base.changes p)).get? name = base.get? name := by
  rw [get?_overlay, h.changes_eq_none hname, Option.none_or]

theorem overlay_same (h : base.Independent p q) :
    ((base.overlay (base.changes p)).overlay (base.changes q)).same ((base.overlay p).overlay q) = true := by
  rw [same_iff]
  intro name
  by_cases hname : q.contains name = true
  · -- what the first proposal says about it is overwritten on one side and no change on the other
    obtain ⟨w, hw⟩ := Option.isSome_iff_exists.1 hname
    have hchanges : sameOptional ((base.overlay (base.changes q)).get? name) ((base.overlay q).get? name) = true :=
      overlay_changes_same name
    rw [get?_overlay, get?_overlay base q, hw] at hchanges
    rw [get?_overlay, h.stands hname, get?_overlay _ q, hw]
    exact hchanges
  · have hnone : q.get? name = none := by simpa [contains] using hname
    rw [get?_overlay, get?_changes_of_none hnone, get?_overlay _ q, hnone]
    exact overlay_changes_same name

end Document.Independent

/-- Two changes of one base that have in common only properties that both leave as they are can be merged one
after the other in either order. No merge finds a conflict, and both orders end in the same row: the base under
the two proposals. -/
theorem independent_changes_commute {base p q : Document} (h : base.Independent p q) :
    let merged (proposed target row : Document) : Prop :=
      (∀ timeout origin,
        (runStandard timeout none (.threeWay base origin proposed target)).attempt = pure (.ok (.apply row))) ∧
        target.overlay row = row
    ∃ afterP afterQ both : Document,
      merged p base afterP ∧ merged q afterP both ∧ merged q base afterQ ∧ merged p afterQ both ∧
        both.same ((base.overlay p).overlay q) = true ∧ both.same ((base.overlay q).overlay p) = true := by
  intro merged
  have hfirst {proposed : Document} : merged proposed base (base.overlay (base.changes proposed)) := by
    refine ⟨fun timeout _ => merge_of_unchanged (fun _ _ => rfl) timeout, ?_⟩
    rw [← Document.overlay_assoc, Document.overlay_self]
  have hsecond {p q : Document} (h : base.Independent p q) :
      merged q (base.overlay (base.changes p)) ((base.overlay (base.changes p)).overlay (base.changes q)) := by
    refine ⟨fun timeout _ => merge_of_unchanged (fun _ => h.stands) timeout, ?_⟩
    rw [← Document.overlay_assoc, Document.overlay_self]
  have hcomm : (base.overlay (base.changes p)).overlay (base.changes q) =
      (base.overlay (base.changes q)).overlay (base.changes p) := Document.overlay_comm h.changes_disjoint
  refine ⟨_, _, _, hfirst, hsecond h, hfirst, ?_, h.overlay_same, ?_⟩
  · rw [hcomm]
    exact hsecond h.symm
  · rw [hcomm]
    exact h.symm.overlay_same

/-- One change closes a row and another one adds a note. Both repeat the total, one of them as a float. -/
theorem note_and_state_commute :
    let base : Document := .ofList [("state", .string "open"), ("total", .number (.ofNat 1))]
    let p : Document := .ofList [("state", .string "closed"), ("total", .number (.float (.ofInt 1)))]
    let q : Document := .ofList [("note", .string "paid"), ("total", .number (.ofNat 1))]
    base.Independent p q ∧ ∃ afterP both : Document,
      (runStandard .zero none (.threeWay base .empty p base)).attempt = pure (.ok (.apply afterP)) ∧
        (runStandard .zero none (.threeWay base .empty q afterP)).attempt = pure (.ok (.apply both)) ∧
        both.same (.ofList
          [("note", .string "paid"), ("state", .string "closed"), ("total", .number (.ofNat 1))]) := by
  intro base p q
  have h : base.Independent p q := by decide +kernel
  obtain ⟨afterP, -, both, hp, hq, -, -, hboth, -⟩ := independent_changes_commute h
  have hlaid : (base.overlay p).overlay q =
      .ofList [("note", .string "paid"), ("state", .string "closed"), ("total", .number (.ofNat 1))] := by
    decide +kernel
  exact ⟨h, afterP, both, hp.1 _ _, hq.1 _ _, hlaid ▸ hboth⟩

end Tributary
