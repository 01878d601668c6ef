import Mathlib.Data.List.TakeWhile
import Mathlib.Tactic.ByContra
import Tributary.Merge.Standard

/-!
# Verdicts of merge functions

What a merge function may answer, said without the way in which answers are read: a document that sets one of
the properties `apply`, `dlq` and `drop` to a value of its kind, and has no properties beside these three. A
property that is null is not set.

* `MergeResult.Stands`: the values that stand for a result.
* `ofValue_eq_ok_iff`: exactly these are taken for it, and all others are refused.
* `runMerge_eq_ok_iff`: a call comes to a result exactly if it ends in time, with a value that stands for it.
-/

namespace Tributary

/-- Trimming leaves nothing of a text of blanks, and something of every other text. -/
theorem Text.trimChars_eq_nil_iff (cs : List Char) : trimChars cs = [] ↔ ∀ c ∈ cs, isBlank c = true := by
  unfold trimChars
  rw [List.reverse_eq_nil_iff, List.dropWhile_eq_nil_iff]
  constructor
  · intro h
    rw [← List.dropWhile_eq_nil_iff]
    by_contra hrest
    -- what is left of the text starts with no blank, so that not all of it is trimmed from its end
    have hhead := List.head_dropWhile_not isBlank hrest
    rw [h _ (List.mem_reverse.2 (List.head_mem hrest))] at hhead
    cases hhead
  · intro h c hc
    exact h c ((List.dropWhile_sublist _).subset (List.mem_reverse.1 hc))

namespace MergeResult

/-! ## Properties -/

section

variable {d : Document} {name : String}

theorem property?_eq_some_iff {value : Value} :
    property? d name = some value ↔ d.get? name = some value ∧ value ≠ .null := by
  unfold property?
  rw [Option.filter_eq_some_iff]
  refine and_congr_right fun _ => ?_
  cases value <;> simp [Value.isNull]

theorem property?_eq_none_iff : property? d name = none ↔ ∀ value, d.get? name = some value → value = .null := by
  rw [Option.eq_none_iff_forall_ne_some]
  constructor
  · intro h value hvalue
    by_contra hne
    exact h value (property?_eq_some_iff.2 ⟨hvalue, hne⟩)
  · intro h value hvalue
    obtain ⟨hget, hne⟩ := property?_eq_some_iff.1 hvalue
    exact hne (h value hget)

theorem find?_unknown_eq_none_iff :
    (d.names.find? fun name => !propertyNames.contains name) = none ↔
      ∀ name, d.contains name = true → name ∈ propertyNames := by
  simp [List.find?_eq_none, Document.contains_iff_mem_names]

/-- A document sets one of the properties of a result, and nothing else. -/
structure Sets (d : Document) (name : String) (value : Value) : Prop where
  known : ∀ other, d.contains other = true → other ∈ propertyNames
  holds : d.get? name = some value
  notNull : value ≠ .null
  alone : ∀ other rest, other ≠ name → d.get? other = some rest → rest = .null

theorem Sets.property?_eq_some {value : Value} (h : Sets d name value) : property? d name = some value :=
  property?_eq_some_iff.2 ⟨h.holds, h.notNull⟩

theorem Sets.property?_eq_none {value : Value} (h : Sets d name value) {other : String} (hne : other ≠ name) :
    property? d other = none := property?_eq_none_iff.2 fun rest => h.alone other rest hne

theorem Sets.of_properties {value : Value} (hknown : ∀ other, d.contains other = true → other ∈ propertyNames)
    (hvalue : property? d name = some value)
    (halone : ∀ other ∈ propertyNames, other ≠ name → property? d other = none) : Sets d name value := by
  obtain ⟨hholds, hnotNull⟩ := property?_eq_some_iff.1 hvalue
  refine ⟨hknown, hholds, hnotNull, fun other rest hne hrest => ?_⟩
  have hin : other ∈ propertyNames := hknown other (by rw [Document.contains, hrest]; rfl)
  exact property?_eq_none_iff.1 (halone other hin hne) rest hrest

end

/-! ## Values -/

/-- A value stands for a result. -/
inductive Stands (v : Value) : MergeResult → Prop
  | apply {d row : Document} {value : Value} (hd : Document.ofValue? v = some d) (hset : Sets d "apply" value)
    (hrow : Document.ofValue? value = some row) : Stands v (.apply row)
  | park {d : Document} {queue : String} (hd : Document.ofValue? v = some d) (hset : Sets d "dlq" (.string queue))
    (hqueue : ∃ c ∈ queue.toList, Text.isBlank c = false) : Stands v (.park queue)
  | drop {d : Document} (hd : Document.ofValue? v = some d) (hset : Sets d "drop" (.bool true)) : Stands v .drop

theorem Stands.exists_sets {v : Value} {result : MergeResult} (h : Stands v result) :
    ∃ d name value, Document.ofValue? v = some d ∧ Sets d name value := by
  cases h with
  | apply hd hset _ => exact ⟨_, _, _, hd, hset⟩
  | park hd hset _ => exact ⟨_, _, _, hd, hset⟩
  | drop hd hset => exact ⟨_, _, _, hd, hset⟩

/-- A document that sets two properties stands for nothing. -/
theorem not_stands_of_two {d : Document} {name other : String} {value rest : Value} (hne : name ≠ other)
    (hvalue : property? d name = some value) (hrest : property? d other = some rest) (result : MergeResult) :
    ¬ Stands d.toValue result := by
  intro h
  obtain ⟨d', set, chosen, hd, hset⟩ := h.exists_sets
  cases (Document.ofValue?_toValue d).symm.trans hd
  by_cases hname : name = set
  · have hother : other ≠ set := fun h => hne (hname.trans h.symm)
    rw [hset.property?_eq_none hother] at hrest
    cases hrest
  · rw [hset.property?_eq_none hname] at hvalue
    cases hvalue

theorem ofProperties_park (queue : String) :
    ofProperties none (some (.string queue)) none = .ok (.park queue) ↔
      ∃ c ∈ queue.toList, Text.isBlank c = false := by
  have hblank : (Text.trimChars queue.toList).isEmpty = true ↔ ∀ c ∈ queue.toList, Text.isBlank c = true := by
    rw [List.isEmpty_iff, Text.trimChars_eq_nil_iff]
  unfold ofProperties
  dsimp only
  by_cases hempty : (Text.trimChars queue.toList).isEmpty = true
  · rw [if_pos hempty]
    refine iff_of_false (fun h => by cases h) ?_
    rintro ⟨c, hc, hvisible⟩
    rw [hblank.1 hempty c hc] at hvisible
    cases hvisible
  · rw [if_neg hempty]
    refine iff_of_true rfl ?_
    by_contra hnone
    refine hempty (hblank.2 fun c hc => ?_)
    by_contra hvisible
    exact hnone ⟨c, hc, Bool.not_eq_true _ ▸ hvisible⟩

/-- What the three properties can be where they stand for a result. -/
theorem ofProperties_cases {apply queue drop : Option Value} {result : MergeResult}
    (h : ofProperties apply queue drop = .ok result) :
    (∃ value row, apply = some value ∧ queue = none ∧ drop = none ∧ Document.ofValue? value = some row ∧
        result = .apply row) ∨
      (∃ name, apply = none ∧ queue = some (.string name) ∧ drop = none ∧ result = .park name) ∨
      (apply = none ∧ queue = none ∧ drop = some (.bool true) ∧ result = .drop) := by
  unfold ofProperties at h
  split at h
  · next value =>
    split at h
    · next row hrow =>
      cases h
      exact .inl ⟨value, row, rfl, rfl, rfl, hrow, rfl⟩
    · cases h
  · next name =>
    split at h
    · cases h
    · cases h
      exact .inr (.inl ⟨name, rfl, rfl, rfl, rfl⟩)
  · cases h
  · cases h
    exact .inr (.inr ⟨rfl, rfl, rfl, rfl⟩)
  · cases h
  · cases h
  · cases h

theorem ofValue_of_known {v : Value} {d : Document} (hd : Document.ofValue? v = some d)
    (hknown : ∀ name, d.contains name = true → name ∈ propertyNames) :
    ofValue v = ofProperties (property? d "apply") (property? d "dlq") (property? d "drop") := by
  rw [ofValue, hd]
  dsimp only
  rw [find?_unknown_eq_none_iff.2 hknown]

theorem Stands.ofValue_eq_ok {v : Value} {result : MergeResult} (h : Stands v result) : ofValue v = .ok result := by
  cases h with
  | apply hd hset hrow =>
    rw [ofValue_of_known hd hset.known, hset.property?_eq_some, hset.property?_eq_none (by decide),
      hset.property?_eq_none (by decide), ofProperties, hrow]
  | park hd hset hqueue =>
    rw [ofValue_of_known hd hset.known, hset.property?_eq_some, hset.property?_eq_none (by decide),
      hset.property?_eq_none (by decide)]
    exact (ofProperties_park _).2 hqueue
  | drop hd hset =>
    rw [ofValue_of_known hd hset.known, hset.property?_eq_some, hset.property?_eq_none (by decide),
      hset.property?_eq_none (by decide)]
    rfl

/-- A value is taken for a result exactly if it stands for it. -/
theorem ofValue_eq_ok_iff (v : Value) (result : MergeResult) : ofValue v = .ok result ↔ Stands v result := by
  refine ⟨fun h => ?_, Stands.ofValue_eq_ok⟩
  cases hd : Document.ofValue? v with
  | none =>
    rw [ofValue, hd] at h
    cases h
  | some d =>
    have hknown : ∀ name, d.contains name = true → name ∈ propertyNames := by
      rw [← find?_unknown_eq_none_iff]
      cases hfound : d.names.find? fun name => !propertyNames.contains name with
      | none => rfl
      | some name =>
        rw [ofValue, hd] at h
        dsimp only at h
        rw [hfound] at h
        cases h
    rw [ofValue_of_known hd hknown] at h
    have hsets {name : String} {value : Value} (hvalue : property? d name = some value)
        (halone : ∀ other ∈ propertyNames, other ≠ name → property? d other = none) : Sets d name value :=
      .of_properties hknown hvalue halone
    rcases ofProperties_cases h with
      ⟨value, row, happly, hqueue, hdrop, hrow, rfl⟩ | ⟨name, happly, hqueue, hdrop, rfl⟩ |
        ⟨happly, hqueue, hdrop, rfl⟩
    · exact .apply hd (hsets happly (by simp [propertyNames, hqueue, hdrop])) hrow
    · rw [happly, hqueue, hdrop, ofProperties_park] at h
      exact .park hd (hsets hqueue (by simp [propertyNames, happly, hdrop])) h
    · exact .drop hd (hsets hdrop (by simp [propertyNames, happly, hqueue]))

end MergeResult

/-! ## Calls -/

theorem callFault?_eq_none_iff {kind : FunctionKind} {timeout : Span} {reply : Reply} :
    callFault? kind timeout reply = none ↔
      reply.millis * 1000000 ≤ timeout.toNanos ∧ reply.ending = .value (callValue reply) := by
  unfold callFault? callValue
  by_cases hlate : timeout.toNanos < reply.millis * 1000000
  · rw [if_pos hlate]
    exact iff_of_false (fun h => by cases h) fun h => absurd h.1 (Nat.not_le.2 hlate)
  · rw [if_neg hlate]
    cases hending : reply.ending <;> simp [Nat.not_lt.1 hlate]

theorem runMerge_value (timeout : Span) (merge : MergeFunction) (op : MergeOperation) :
    (runMerge timeout merge op).attempt.value =
      match callFault? .merge timeout (merge op) with
      | none => MergeResult.ofValue (callValue (merge op))
      | some fault => .error fault := by
  unfold runMerge invoke
  cases callFault? .merge timeout (merge op) with
  | some fault => rfl
  | none =>
    show (liftM (MergeResult.ofValue (callValue (merge op))) : Logged.Fallible _).attempt.value = _
    rw [Logged.Fallible.attempt_result]
    rfl

/-- A call comes to a result: it ends in time, with a value that stands for it. -/
def Reply.Says (timeout : Span) (reply : Reply) (result : MergeResult) : Prop :=
  reply.millis * 1000000 ≤ timeout.toNanos ∧ ∃ v, reply.ending = .value v ∧ MergeResult.Stands v result

theorem runMerge_eq_ok_iff (timeout : Span) (merge : MergeFunction) (op : MergeOperation) (result : MergeResult) :
    (runMerge timeout merge op).attempt.value = .ok result ↔ (merge op).Says timeout result := by
  rw [runMerge_value]
  unfold Reply.Says
  cases hfault : callFault? .merge timeout (merge op) with
  | none =>
    obtain ⟨htime, hending⟩ := callFault?_eq_none_iff.1 hfault
    dsimp only
    rw [MergeResult.ofValue_eq_ok_iff, hending]
    constructor
    · intro h
      exact ⟨htime, _, rfl, h⟩
    · rintro ⟨-, v, hv, h⟩
      cases hv
      exact h
  | some fault =>
    refine iff_of_false (fun h => by cases h) ?_
    rintro ⟨htime, v, hv, -⟩
    have hvalue : callValue (merge op) = v := by rw [callValue, hv]
    rw [callFault?_eq_none_iff.2 ⟨htime, hvalue ▸ hv⟩] at hfault
    cases hfault

end Tributary
