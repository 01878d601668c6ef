import Mathlib.Logic.Relation
import Tributary.Proofs.Merge.ValueOrder

/-!
# When the order of values is transitive

How two numbers or two strings compare depends on both of them: integers compare exactly and everything
else as binary64 numbers; clock readings, timestamps and other strings each compare in their own way, and
a mixed pair in the coarser one. So the order is not transitive on all values, and rows can supersede one
another in a cycle (`strings_supersede_in_a_cycle`).

This file says exactly which mixtures do that. Every number and every string is compared by one of five
measures, and `Uniform` says of a set of measures that it neither mixes integers with floats nor two kinds
of strings.

* `Ordering.Composes`: the third of three comparisons follows from the other two wherever these agree on a
  direction. Lexicographic comparison keeps this (`composes_then`).
* `Value.order_composes`: so it holds of any three values whose parts are compared by uniform measures.
* `not_newer_trans_iff_uniform`: the order is transitive on the values of a set of measures, and no rows of
  such values supersede one another in a cycle, exactly if the set is uniform.
-/

namespace Tributary

/-! ## Comparisons that compose -/

/-- Of three comparisons, of `a` with `b`, of `b` with `c` and of `a` with `c`, the third follows from the
others, unless these point in opposite directions. -/
def Composes (ab bc ac : Ordering) : Prop := ab.then bc = bc.then ab → ac = ab.then bc

/-- Where the first comparisons are all equal the second ones decide. -/
theorem composes_then {ab bc ac ab' bc' ac' : Ordering} (h : Composes ab bc ac)
    (h' : ab = .eq → bc = .eq → Composes ab' bc' ac') :
    Composes (ab.then ab') (bc.then bc') (ac.then ac') := by
  intro hagree
  cases ab <;> cases bc
  case lt.gt | gt.lt => cases hagree
  case eq.eq =>
    rw [h rfl]
    exact h' rfl rfl hagree
  case eq.lt | eq.gt =>
    rw [h rfl]
    exact hagree.symm
  all_goals
    rw [h rfl]
    rfl

theorem composes_compare {α : Type} [Ord α] [Std.TransOrd α] {a b c : α} :
    Composes (compare a b) (compare b c) (compare a c) := by
  intro hagree
  cases hab : compare a b with
  | lt =>
    cases hbc : compare b c with
    | lt => exact Std.TransCmp.lt_trans hab hbc
    | eq => exact Std.TransCmp.lt_of_lt_of_eq hab hbc
    | gt => simp [hab, hbc] at hagree
  | eq =>
    cases hbc : compare b c with
    | lt => exact Std.TransCmp.lt_of_eq_of_lt hab hbc
    | eq => exact Std.TransCmp.eq_trans hab hbc
    | gt => exact Std.TransCmp.gt_of_eq_of_gt hab hbc
  | gt =>
    cases hbc : compare b c with
    | lt => simp [hab, hbc] at hagree
    | eq => exact Std.TransCmp.gt_of_gt_of_eq hab hbc
    | gt => exact Std.TransCmp.gt_trans hab hbc

theorem Composes.ne_gt {ab bc ac : Ordering} (h : Composes ab bc ac) (hab : ab ≠ .gt)
    (hbc : bc ≠ .gt) : ac ≠ .gt := by
  cases ab <;> cases bc <;> simp_all [Composes]

theorem Composes.gt {ab bc ac : Ordering} (h : Composes ab bc ac) (hab : ab = .gt) (hbc : bc = .gt) :
    ac = .gt := by
  simp_all [Composes]

/-! ## Measures -/

/-- What a number or a string is compared as, among its like. -/
inductive Measure where
  | integer
  | float
  | clock
  | time
  | text
  deriving DecidableEq, Repr

/-- What a number is compared as. -/
def Number.measure : Number → Measure
  | .integer _ _ => .integer
  | .float _ => .float

/-- What a string is compared as. -/
def stringMeasure (s : String) : Measure :=
  if (Hlc.ofDotted? s.toList).isSome then .clock
  else if (Timestamp.parse? s).isSome then .time
  else .text

/-- A set of measures that mixes neither integers with floats nor two kinds of strings. -/
structure Uniform (K : Measure → Prop) : Prop where
  number : ¬ (K .integer ∧ K .float)
  clockTime : ¬ (K .clock ∧ K .time)
  clockText : ¬ (K .clock ∧ K .text)
  timeText : ¬ (K .time ∧ K .text)

variable {K : Measure → Prop}

theorem Hlc.order_composes (a b c : Hlc) : Composes (a.order b) (b.order c) (a.order c) :=
  composes_then composes_compare fun _ _ => composes_compare

theorem Instant.order_composes (a b c : Instant) : Composes (a.order b) (b.order c) (a.order c) :=
  composes_then composes_compare fun _ _ => composes_compare

theorem Number.order_composes (hK : Uniform K) {a b c : Number} (ha : K a.measure) (hb : K b.measure)
    (hc : K c.measure) : Composes (a.order b) (b.order c) (a.order c) := by
  cases a with
  | integer n hn =>
    cases b with
    | float y => exact absurd ⟨ha, hb⟩ hK.number
    | integer m hm =>
      cases c with
      | float z => exact absurd ⟨ha, hc⟩ hK.number
      | integer k hk => exact composes_compare
  | float x =>
    cases b with
    | integer m hm => exact absurd ⟨hb, ha⟩ hK.number
    | float y =>
      cases c with
      | integer k hk => exact absurd ⟨hc, ha⟩ hK.number
      | float z => exact composes_compare

/-! ## Strings -/

/-- The order of two strings that are compared as the same thing. -/
def measuredOrder (a b : String) : Measure → Ordering
  | .clock => ((Hlc.ofDotted? a.toList).getD default).order ((Hlc.ofDotted? b.toList).getD default)
  | .time => ((Timestamp.parse? a).getD default).order ((Timestamp.parse? b).getD default)
  | .integer | .float | .text => compare a b

theorem stringOrder_eq_measuredOrder {a b : String} (h : stringMeasure a = stringMeasure b) :
    stringOrder a b = measuredOrder a b (stringMeasure a) := by
  unfold stringMeasure at h ⊢
  unfold stringOrder
  cases hca : Hlc.ofDotted? a.toList <;> cases hcb : Hlc.ofDotted? b.toList <;>
    cases hta : Timestamp.parse? a <;> cases htb : Timestamp.parse? b <;>
    simp [hca, hcb, hta, htb, measuredOrder] at h ⊢

theorem measuredOrder_composes (m : Measure) (a b c : String) :
    Composes (measuredOrder a b m) (measuredOrder b c m) (measuredOrder a c m) := by
  cases m with
  | clock => exact Hlc.order_composes _ _ _
  | time => exact Instant.order_composes _ _ _
  | integer | float | text => exact composes_compare

/-- Uniform measures of two strings are the same. -/
theorem Uniform.stringMeasure_eq (hK : Uniform K) {a b : String} (ha : K (stringMeasure a))
    (hb : K (stringMeasure b)) : stringMeasure a = stringMeasure b := by
  have hstring (s : String) :
      stringMeasure s = .clock ∨ stringMeasure s = .time ∨ stringMeasure s = .text := by
    unfold stringMeasure
    split
    · exact .inl rfl
    · split
      · exact .inr (.inl rfl)
      · exact .inr (.inr rfl)
  rcases hstring a with h | h | h <;> rcases hstring b with h' | h' | h' <;> rw [h] at ha ⊢ <;>
    rw [h'] at hb ⊢
  · exact absurd ⟨ha, hb⟩ hK.clockTime
  · exact absurd ⟨ha, hb⟩ hK.clockText
  · exact absurd ⟨hb, ha⟩ hK.clockTime
  · exact absurd ⟨ha, hb⟩ hK.timeText
  · exact absurd ⟨hb, ha⟩ hK.clockText
  · exact absurd ⟨hb, ha⟩ hK.timeText

theorem stringOrder_composes (hK : Uniform K) {a b c : String} (ha : K (stringMeasure a))
    (hb : K (stringMeasure b)) (hc : K (stringMeasure c)) :
    Composes (stringOrder a b) (stringOrder b c) (stringOrder a c) := by
  have hab := hK.stringMeasure_eq ha hb
  have hbc := hK.stringMeasure_eq hb hc
  rw [stringOrder_eq_measuredOrder hab, stringOrder_eq_measuredOrder hbc,
    stringOrder_eq_measuredOrder (hab.trans hbc), ← hab]
  exact measuredOrder_composes _ a b c

/-! ## Values -/

namespace Value

mutual

/-- Every number and every string of a value that comparison looks into is compared by a measure of a
set. Documents compare by their text, so comparison does not look into them. -/
def Within (K : Measure → Prop) : Value → Prop
  | .number n => K n.measure
  | .string s => K (stringMeasure s)
  | .array items => WithinItems K items
  | .null | .bool _ | .document _ => True

/-- `Within` for all items of an array. -/
def WithinItems (K : Measure → Prop) : List Value → Prop
  | [] => True
  | v :: vs => Within K v ∧ WithinItems K vs

end

/-- The types of two values are compared first. -/
theorem order_eq_then (a b : Value) : a.order b = (compare a.rank b.rank).then (a.order b) := by
  cases a <;> cases b <;> simp only [order, rank] <;> rfl

/-- Only comparisons of three values of one type are left to look at. -/
theorem order_composes_of_rank {a b c : Value} (h : b.rank = a.rank → c.rank = a.rank →
    Composes (a.order b) (b.order c) (a.order c)) : Composes (a.order b) (b.order c) (a.order c) := by
  rw [order_eq_then a b, order_eq_then b c, order_eq_then a c]
  refine composes_then composes_compare fun hab hbc => ?_
  have hb : b.rank = a.rank := (Std.LawfulEqCmp.eq_of_compare hab).symm
  exact h hb ((Std.LawfulEqCmp.eq_of_compare hbc).symm.trans hb)

mutual

/-- Comparisons of values whose parts are compared by uniform measures compose. -/
theorem order_composes (hK : Uniform K) : (a b c : Value) → a.Within K → b.Within K → c.Within K →
    Composes (a.order b) (b.order c) (a.order c)
  | .null, b, c, _, _, _ => order_composes_of_rank fun hb hc => by
    cases b <;> simp [rank] at hb
    cases c <;> simp [rank] at hc
    exact fun _ => rfl
  | .bool x, b, c, _, _, _ => order_composes_of_rank fun hb hc => by
    cases b <;> simp [rank] at hb
    cases c <;> simp [rank] at hc
    simp only [order]
    exact composes_compare
  | .number x, b, c, hx, hy, hz => order_composes_of_rank fun hb hc => by
    cases b <;> simp [rank] at hb
    cases c <;> simp [rank] at hc
    exact Number.order_composes hK hx hy hz
  | .string x, b, c, hx, hy, hz => order_composes_of_rank fun hb hc => by
    cases b <;> simp [rank] at hb
    cases c <;> simp [rank] at hc
    exact stringOrder_composes hK hx hy hz
  | .array xs, b, c, hx, hy, hz => order_composes_of_rank fun hb hc => by
    cases b <;> simp [rank] at hb
    cases c <;> simp [rank] at hc
    exact itemOrder_composes hK xs _ _ hx hy hz
  | .document x, b, c, _, _, _ => order_composes_of_rank fun hb hc => by
    cases b <;> simp [rank] at hb
    cases c <;> simp [rank] at hc
    simp only [order]
    exact composes_compare

/-- Where one of three arrays ends first, the others do not matter. -/
theorem itemOrder_composes (hK : Uniform K) : (as bs cs : List Value) → WithinItems K as →
    WithinItems K bs → WithinItems K cs →
    Composes (itemOrder as bs) (itemOrder bs cs) (itemOrder as cs)
  | [], [], [], _, _, _ => fun _ => rfl
  | [], [], _ :: _, _, _, _ => fun _ => rfl
  | [], _ :: _, [], _, _, _ => fun hagree => by cases hagree
  | [], b :: bs, c :: cs, _, _, _ => fun _ => rfl
  | _ :: _, [], [], _, _, _ => fun _ => rfl
  | _ :: _, [], _ :: _, _, _, _ => fun hagree => by cases hagree
  | a :: as, b :: bs, [], _, _, _ => fun hagree => hagree.symm
  | a :: as, b :: bs, c :: cs, ha, hb, hc =>
    composes_then (order_composes hK a b c ha.1 hb.1 hc.1) fun _ _ =>
      itemOrder_composes hK as bs cs ha.2 hb.2 hc.2

end

end Value

/-! ## Rows -/

/-- Every value that a row has in some columns is compared by measures of a set. -/
def WithinColumns (K : Measure → Prop) (columns : List String) (d : Document) : Prop :=
  ∀ column ∈ columns, ∀ v, d.get? column = some v → v.Within K

theorem within_getD {v : Option Value} (h : ∀ x, v = some x → x.Within K) : (v.getD .null).Within K := by
  cases v with
  | none => trivial
  | some x => exact h x rfl

theorem casOrder_composes (hK : Uniform K) {columns : List String} {a b c : Document}
    (ha : WithinColumns K columns a) (hb : WithinColumns K columns b)
    (hc : WithinColumns K columns c) :
    Composes (casOrder columns a b) (casOrder columns b c) (casOrder columns a c) := by
  induction columns with
  | nil => exact fun _ => rfl
  | cons column rest ih =>
    have hhead := List.mem_cons_self (a := column) (l := rest)
    refine composes_then (Value.order_composes hK _ _ _ (within_getD (ha column hhead))
      (within_getD (hb column hhead)) (within_getD (hc column hhead))) fun _ _ => ?_
    exact ih (fun other h => ha other (List.mem_cons_of_mem _ h))
      (fun other h => hb other (List.mem_cons_of_mem _ h))
      (fun other h => hc other (List.mem_cons_of_mem _ h))

/-- One row supersedes another, both having values of the given measures. -/
def Supersedes (K : Measure → Prop) (columns : List String) (new old : Document) : Prop :=
  WithinColumns K columns new ∧ WithinColumns K columns old ∧ casOrder columns new old = .gt

/-- Among rows of uniform measures, a row supersedes all that come before it in a chain. -/
theorem supersedes_of_transGen (hK : Uniform K) {columns : List String} {new old : Document}
    (h : Relation.TransGen (Supersedes K columns) new old) : Supersedes K columns new old := by
  induction h with
  | single h => exact h
  | tail _ hlast ih =>
    obtain ⟨hnew, hmiddle, hgt⟩ := ih
    exact ⟨hnew, hlast.2.1, (casOrder_composes hK hnew hmiddle hlast.2.1).gt hgt hlast.2.2⟩

theorem not_transGen_supersedes_self (hK : Uniform K) (columns : List String) (row : Document) :
    ¬ Relation.TransGen (Supersedes K columns) row row := fun h => by
  have hgt := (supersedes_of_transGen hK h).2.2
  rw [casOrder_self] at hgt
  cases hgt

/-! ## Mixtures -/

/-- Three values whose comparisons do not compose. -/
structure Tangle (K : Measure → Prop) (u v w : Value) : Prop where
  within : u.Within K ∧ v.Within K ∧ w.Within K
  first : u.order v ≠ .gt
  second : v.order w ≠ .gt
  across : u.order w = .gt

/-- Every mixture of measures that is not uniform has a tangle: `2 ^ 53 + 1`, which as a float is
`2 ^ 53`; a time and two clock readings around it, whose seconds are their milliseconds; and a text
between two strings that read as numbers of seconds or milliseconds. -/
theorem uniform_of_not_tangle (h : ∀ u v w, ¬ Tangle K u v w) : Uniform K where
  number hmixed := h (.number (.integer 9007199254740993 (by decide)))
    (.number (.float (.ofInt 9007199254740992))) (.number (.integer 9007199254740992 (by decide)))
    ⟨⟨hmixed.1, hmixed.2, hmixed.1⟩, by decide, by decide, by decide⟩
  clockTime hmixed := h (.string "0.2") (.string "1970-01-01 00:00:00") (.string "0.1")
    ⟨⟨hmixed.1, hmixed.2, hmixed.1⟩, by decide, by decide, by decide⟩
  clockText hmixed := h (.string "10.0") (.string "5x") (.string "9.0")
    ⟨⟨hmixed.1, hmixed.2, hmixed.1⟩, by decide, by decide, by decide⟩
  timeText hmixed := h (.string "10") (.string "5x") (.string "9")
    ⟨⟨hmixed.1, hmixed.2, hmixed.1⟩, by decide, by decide, by decide⟩

/-- A row with a value in the first of two columns, and perhaps a flag in the second. -/
def flaggedRow (v : Value) (flag : Option Bool) : Document :=
  (Document.empty.insert "a" v).insertAll (flag.toList.map fun b => ("b", .bool b))

theorem get?_flaggedRow (v : Value) (flag : Option Bool) :
    (flaggedRow v flag).get? "a" = some v ∧
      (flaggedRow v flag).get? "b" = flag.map .bool := by
  cases flag <;> simp [flaggedRow, Document.insertAll, Document.get?_insert]

theorem supersedes_flaggedRow {new old : Value} {newFlag oldFlag : Option Bool}
    (hnew : new.Within K) (hold : old.Within K) (horder : new.order old ≠ .lt)
    (hflag : new.order old = .eq →
      valueOrder (newFlag.map .bool) (oldFlag.map .bool) = .gt) :
    Supersedes K ["a", "b"] (flaggedRow new newFlag) (flaggedRow old oldFlag) := by
  have hwithin {v : Value} (hv : v.Within K) (flag : Option Bool) :
      WithinColumns K ["a", "b"] (flaggedRow v flag) := by
    intro column hcolumn w hw
    have hcolumns : column = "a" ∨ column = "b" := by simpa using hcolumn
    rcases hcolumns with rfl | rfl
    · rw [(get?_flaggedRow v flag).1] at hw
      cases hw
      exact hv
    · rw [(get?_flaggedRow v flag).2] at hw
      obtain ⟨b, -, rfl⟩ := Option.map_eq_some_iff.1 hw
      trivial
  refine ⟨hwithin hnew newFlag, hwithin hold oldFlag, ?_⟩
  have hhead : valueOrder (some new) (some old) = new.order old := rfl
  simp only [casOrder, get?_flaggedRow, hhead]
  cases ho : new.order old with
  | lt => exact absurd ho horder
  | gt => rfl
  | eq => rw [hflag ho]; rfl

/-- The values of a tangle, in rows whose flags tell apart what compares as equal, make a cycle. -/
theorem Tangle.cycle {u v w : Value} (h : Tangle K u v w) :
    Relation.TransGen (Supersedes K ["a", "b"]) (flaggedRow w (some true))
      (flaggedRow w (some true)) := by
  obtain ⟨hu, hv, hw⟩ := h.within
  have hturned {x y : Value} (hxy : x.order y ≠ .gt) : y.order x ≠ .lt := by
    rw [Value.order_swap]
    cases hx : x.order y <;> simp_all
  have hwv : Supersedes K ["a", "b"] (flaggedRow w (some true)) (flaggedRow v (some false)) :=
    supersedes_flaggedRow hw hv (hturned h.second) fun _ => rfl
  have hvu : Supersedes K ["a", "b"] (flaggedRow v (some false)) (flaggedRow u none) :=
    supersedes_flaggedRow hv hu (hturned h.first) fun _ => rfl
  have huw : Supersedes K ["a", "b"] (flaggedRow u none) (flaggedRow w (some true)) :=
    supersedes_flaggedRow hu hw (by rw [h.across]; decide) fun heq => by
      rw [h.across] at heq
      cases heq
  exact ((Relation.TransGen.single hwv).tail hvu).tail huw

/-- The order of values of some measures is transitive exactly if the measures are uniform, and exactly
then no rows of such values supersede one another in a cycle. -/
theorem not_newer_trans_iff_uniform (K : Measure → Prop) :
    ((∀ a b c : Option Value, (∀ v, a = some v → v.Within K) → (∀ v, b = some v → v.Within K) →
        (∀ v, c = some v → v.Within K) →
        valueOrder a b ≠ .gt → valueOrder b c ≠ .gt → valueOrder a c ≠ .gt) ↔ Uniform K) ∧
      ((∀ columns row, ¬ Relation.TransGen (Supersedes K columns) row row) ↔ Uniform K) := by
  refine ⟨⟨fun htrans => ?_, fun hK a b c ha hb hc => ?_⟩, ⟨fun hacyclic => ?_, fun hK => ?_⟩⟩
  · refine uniform_of_not_tangle fun u v w htangle => ?_
    obtain ⟨hu, hv, hw⟩ := htangle.within
    exact htrans (some u) (some v) (some w) (fun _ h => by cases h; exact hu)
      (fun _ h => by cases h; exact hv) (fun _ h => by cases h; exact hw) htangle.first
      htangle.second htangle.across
  · exact (Value.order_composes hK _ _ _ (within_getD ha) (within_getD hb) (within_getD hc)).ne_gt
  · exact uniform_of_not_tangle fun u v w htangle => hacyclic _ _ htangle.cycle
  · exact not_transGen_supersedes_self hK

/-- The text `5x` supersedes the clock reading `10.0`, the reading `9.0` supersedes the text, and `10.0`
supersedes `9.0` again: so the order is not transitive on all values. -/
theorem strings_supersede_in_a_cycle :
    let row (s : String) := Document.empty.insert "version" (.string s)
    casOrder ["version"] (row "5x") (row "10.0") = .gt ∧
      casOrder ["version"] (row "9.0") (row "5x") = .gt ∧
      casOrder ["version"] (row "10.0") (row "9.0") = .gt ∧
      ¬ ∀ a b c : Option Value,
        valueOrder a b ≠ .gt → valueOrder b c ≠ .gt → valueOrder a c ≠ .gt := by
  refine ⟨by decide, by decide, by decide, fun htrans => ?_⟩
  exact htrans (some (.string "10.0")) (some (.string "5x")) (some (.string "9.0")) (by decide)
    (by decide) (by decide)

end Tributary
