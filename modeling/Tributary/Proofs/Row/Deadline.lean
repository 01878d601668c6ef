import Tributary.Fault.Remedy
import Tributary.Row.Deadline

/-!
# Which rows meet their deadlines

Without leap seconds, instants are points on a line of nanoseconds. A row meets a deadline if its column is missing or
null, or holds a time that is in the future or not too long ago. A row passes the check if it meets all deadlines, and
once it does not, it never will again.

* `Instant.point`: the line.
* `Deadline.Met`: the four ways to meet a deadline.
* `check_eq_none_iff`: the check accepts exactly the rows that meet all deadlines.
* `Met.earlier`: what is met later is met before.
* `kind_of_check_error`: all other faults of the check are of a kind for which mutations are dropped.
-/

namespace Tributary

/-! ## The line of instants -/

namespace Instant

/-- The nanoseconds since the epoch, if there are no leap seconds. -/
def point (t : Instant) : Int := t.secs * 1000000000 + t.nanos

/-- The instant is in no leap second. -/
def IsPlain (t : Instant) : Prop := t.nanos < 1000000000

instance (t : Instant) : Decidable t.IsPlain := inferInstanceAs (Decidable (_ < _))

theorem difference_eq {a b : Instant} (ha : a.IsPlain) (hb : b.IsPlain) : difference a b = a.point - b.point := by
  have hleap : leapBetween a b = 0 := by
    unfold leapBetween
    rw [if_neg fun h => Nat.not_le_of_lt hb h.2, if_neg fun h => Nat.not_le_of_lt ha h.2]
  unfold difference point
  rw [hleap]
  omega

end Instant

theorem Timestamp.ofValue_eq_none_iff {v : Value} : Timestamp.ofValue v = .ok none ↔ v = .null := by
  cases v with
  | null => exact ⟨fun _ => rfl, fun _ => rfl⟩
  | number n =>
    refine ⟨fun h => ?_, Value.noConfusion⟩
    rw [Timestamp.ofValue] at h
    cases hn : Timestamp.ofNumber n <;> rw [hn] at h <;> cases h
  | string raw =>
    refine ⟨fun h => ?_, Value.noConfusion⟩
    rw [Timestamp.ofValue] at h
    split at h <;> cases h
  | bool _ => exact ⟨fun h => (by cases h), Value.noConfusion⟩
  | array _ => exact ⟨fun h => (by cases h), Value.noConfusion⟩
  | document _ => exact ⟨fun h => (by cases h), Value.noConfusion⟩

namespace Deadline

/-! ## Deadlines that are met -/

/-- A row meets the deadline of a column. -/
inductive Met (row : Document) (now : Instant) (column : String) (maxAge : Span) : Prop
  | missing (h : row.get? column = none)
  | null (h : row.get? column = some .null)
  | future {v : Value} {t : Instant} (h : row.get? column = some v) (ht : Timestamp.ofValue v = .ok (some t))
    (hlater : now.point < t.point)
  | young {v : Value} {t : Instant} (h : row.get? column = some v) (ht : Timestamp.ofValue v = .ok (some t))
    (hage : now.point - t.point ≤ maxAge.toNanos)

/-- None of the times in columns with deadlines is in a leap second. -/
def PlainTimes (row : Document) (deadlines : List (String × Span)) : Prop :=
  ∀ d ∈ deadlines, ∀ v t, row.get? d.1 = some v → Timestamp.ofValue v = .ok (some t) → t.IsPlain

variable {row : Document} {now later : Instant} {column : String} {maxAge : Span} {deadlines : List (String × Span)}

/-- A deadline that is met later is met before. -/
theorem Met.earlier (h : Met row later column maxAge) (hle : now.point ≤ later.point) :
    Met row now column maxAge := by
  cases h with
  | missing h => exact .missing h
  | null h => exact .null h
  | future h ht hlater => exact .future h ht (by omega)
  | young h ht hage => exact .young h ht (by omega)

/-- The age of a column is known, and not too high if there is any. -/
def Passes (row : Document) (now : Instant) (column : String) (maxAge : Span) : Prop :=
  ∃ age, age? row now column = .ok age ∧ ∀ span ∈ age, span.toNanos ≤ maxAge.toNanos

/-- A time passes if it is in the future or not too long ago. -/
theorem since?_passes_iff (maxAge : Span) {t : Instant} (hnow : now.IsPlain) (ht : t.IsPlain) :
    (∀ span ∈ now.since? t, span.toNanos ≤ maxAge.toNanos) ↔
      now.point < t.point ∨ now.point - t.point ≤ maxAge.toNanos := by
  unfold Instant.since?
  rw [Instant.difference_eq hnow ht]
  split
  · next hneg => exact ⟨fun _ => .inl (by omega), fun _ _ hspan => by cases hspan⟩
  · next hpos =>
    have hspan : (Span.ofNanos (now.point - t.point).toNat).toNanos = (now.point - t.point).toNat :=
      Span.toNanos_ofNanos _
    constructor
    · intro h
      have hle := h _ rfl
      exact .inr (by omega)
    · rintro h span ⟨rfl⟩
      omega

theorem met_iff_of_value {v : Value} (hcolumn : row.get? column = some v) :
    Met row now column maxAge ↔ v = .null ∨ ∃ t, Timestamp.ofValue v = .ok (some t) ∧
      (now.point < t.point ∨ now.point - t.point ≤ maxAge.toNanos) := by
  constructor
  · intro h
    cases h with
    | missing h => cases hcolumn.symm.trans h
    | null h =>
      cases hcolumn.symm.trans h
      exact .inl rfl
    | future h ht hlater =>
      cases hcolumn.symm.trans h
      exact .inr ⟨_, ht, .inl hlater⟩
    | young h ht hage =>
      cases hcolumn.symm.trans h
      exact .inr ⟨_, ht, .inr hage⟩
  · rintro (rfl | ⟨t, ht, hlater | hage⟩)
    · exact .null hcolumn
    · exact .future hcolumn ht hlater
    · exact .young hcolumn ht hage

theorem passes_iff_met (hnow : now.IsPlain)
    (hplain : ∀ v t, row.get? column = some v → Timestamp.ofValue v = .ok (some t) → t.IsPlain) :
    Passes row now column maxAge ↔ Met row now column maxAge := by
  cases hcolumn : row.get? column with
  | none =>
    refine ⟨fun _ => .missing hcolumn, fun _ => ⟨none, ?_, fun _ h => by cases h⟩⟩
    rw [age?, hcolumn]
  | some v =>
    rw [met_iff_of_value hcolumn]
    unfold Passes
    cases hread : Timestamp.ofValue v with
    | error fault =>
      have hage : age? row now column = .error (.deadlineUnreadable column fault) := by
        simp only [age?, hcolumn, hread]
      rw [hage]
      refine ⟨fun ⟨_, h, _⟩ => (by cases h), ?_⟩
      rintro (rfl | ⟨t, ht, -⟩)
      · cases hread
      · cases ht
    | ok read =>
      cases read with
      | none =>
        have hage : age? row now column = .ok none := by simp only [age?, hcolumn, hread]
        rw [hage]
        refine ⟨fun _ => .inl (Timestamp.ofValue_eq_none_iff.1 hread), fun _ => ⟨none, rfl, fun _ h => ?_⟩⟩
        cases h
      | some t =>
        have hage : age? row now column = .ok (now.since? t) := by simp only [age?, hcolumn, hread]
        rw [hage]
        have htime := since?_passes_iff maxAge hnow (hplain v t hcolumn hread)
        constructor
        · rintro ⟨_, ⟨rfl⟩, hpasses⟩
          exact .inr ⟨t, rfl, htime.1 hpasses⟩
        · rintro (rfl | ⟨_, ⟨rfl⟩, hmet⟩)
          · cases hread
          · exact ⟨_, rfl, htime.2 hmet⟩

/-! ## The check -/

/-- The check goes on behind a deadline exactly if the column passes. -/
theorem check_cons_eq_none_iff :
    check row now ((column, maxAge) :: deadlines) = .ok none ↔
      Passes row now column maxAge ∧ check row now deadlines = .ok none := by
  rw [check]
  unfold Passes
  cases age? row now column with
  | error fault => exact ⟨fun h => (by cases h), fun ⟨⟨_, h, _⟩, _⟩ => (by cases h)⟩
  | ok age =>
    cases age with
    | none => exact ⟨fun h => ⟨⟨none, rfl, fun _ hspan => (by cases hspan)⟩, h⟩, fun h => h.2⟩
    | some span =>
      dsimp only
      split
      · next hold =>
        refine ⟨fun h => (by cases h), fun ⟨⟨age, hage, hpasses⟩, _⟩ => ?_⟩
        cases hage
        exact absurd (hpasses span rfl) (Nat.not_le_of_lt hold)
      · next hyoung =>
        refine ⟨fun h => ⟨⟨_, rfl, fun _ hspan => ?_⟩, h⟩, fun h => h.2⟩
        cases hspan
        exact Nat.le_of_not_lt hyoung

/-- The check accepts exactly the rows that meet all deadlines. -/
theorem check_eq_none_iff (hnow : now.IsPlain) (hplain : PlainTimes row deadlines) :
    check row now deadlines = .ok none ↔ ∀ d ∈ deadlines, Met row now d.1 d.2 := by
  induction deadlines with
  | nil => exact ⟨fun _ _ h => absurd h List.not_mem_nil, fun _ => rfl⟩
  | cons d rest ih =>
    obtain ⟨hfirst, hrest⟩ := List.forall_mem_cons.1 hplain
    rw [check_cons_eq_none_iff, passes_iff_met hnow hfirst, ih hrest, List.forall_mem_cons]

/-- A fault of the check is that a column holds something that is no time. -/
theorem kind_of_check_error {fault : Fault} (h : check row now deadlines = .error fault) :
    fault.kind = .invalidData := by
  induction deadlines with
  | nil => cases h
  | cons d rest ih =>
    rw [check] at h
    cases hage : age? row now d.1 with
    | error cause =>
      rw [hage] at h
      cases h
      unfold age? at hage
      split at hage
      · cases hage
      · split at hage
        · cases hage
          rfl
        · cases hage
        · cases hage
    | ok age =>
      rw [hage] at h
      cases age with
      | none => exact ih h
      | some span =>
        dsimp only at h
        split at h
        · cases h
        · exact ih h

end Deadline

end Tributary
