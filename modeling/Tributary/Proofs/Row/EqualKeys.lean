import Tributary.Proofs.Apply.Schedule
import Tributary.Proofs.Number.Denotation
import Tributary.Proofs.Row.Key

/-!
# Equal values as keys

Values that count as equal need not make the same key. A key tells more numbers apart than equality does:
integers that only share their nearest float, and from the end of the signed range on every integer from the
float that denotes it.

* `Value.facing`: the numbers that stand at one place of two values.
* `Value.canonical_eq_iff_of_same`: when values that count as equal have one canonical form.
* `together_iff`: two mutations of a batch are in one group exactly if they have one row.
* `equal_values_share_key_iff`: when lists of values that count as equal make one key, and so lead to one
  stored row and into one group.
-/

namespace Tributary

namespace Value

/-! ## Canonical forms of equal values -/

mutual

/-- The numbers that stand at one place of two values. -/
def facing : Value → Value → List (Number × Number)
  | .number m, .number n => [(m, n)]
  | .array vs, .array ws => facingItems vs ws
  | .document fs, .document gs => facingFields fs gs
  | _, _ => []

/-- `facing` item by item. -/
def facingItems : List Value → List Value → List (Number × Number)
  | v :: vs, w :: ws => facing v w ++ facingItems vs ws
  | _, _ => []

/-- `facing` property by property. -/
def facingFields : List (String × Value) → List (String × Value) → List (Number × Number)
  | (_, v) :: fs, (_, w) :: gs => facing v w ++ facingFields fs gs
  | _, _ => []

end

/-- Wherever two numbers stand at one place they are aligned. -/
def AlignedItems (vs ws : List Value) : Prop := ∀ p ∈ facingItems vs ws, p.1.Aligned p.2

mutual

/-- Values that count as equal have one canonical form exactly if their numbers are aligned. -/
theorem canonical_eq_iff_of_same : (v w : Value) → v.same w = true →
    (canonical v = canonical w ↔ ∀ p ∈ facing v w, p.1.Aligned p.2)
  | .null, w, h => by cases w <;> simp [same, canonical, facing] at h ⊢
  | .bool a, w, h => by
    cases w <;> simp [same, canonical, facing] at h ⊢
    exact h
  | .number m, w, h => by
    cases w with
    | number n =>
      rw [canonical, canonical, facing, List.forall_mem_singleton, Value.number.injEq]
      exact Number.canonical_eq_iff_of_same h
    | _ => simp [same] at h
  | .string s, w, h => by
    cases w <;> simp [same, canonical, facing] at h ⊢
    exact h
  | .array vs, w, h => by
    cases w with
    | array ws =>
      rw [canonical, canonical, facing, Value.array.injEq]
      exact canonicalItems_eq_iff_of_same vs ws h
    | _ => simp [same] at h
  | .document fs, w, h => by
    cases w with
    | document gs =>
      rw [canonical, canonical, facing, Value.document.injEq]
      exact canonicalFields_eq_iff_of_same fs gs h
    | _ => simp [same] at h

theorem canonicalItems_eq_iff_of_same : (vs ws : List Value) → sameItems vs ws = true →
    (canonicalItems vs = canonicalItems ws ↔ AlignedItems vs ws)
  | [], [], _ => by simp [AlignedItems, facingItems]
  | [], _ :: _, h => by simp [sameItems] at h
  | _ :: _, [], h => by simp [sameItems] at h
  | v :: vs, w :: ws, h => by
    simp only [sameItems, Bool.and_eq_true] at h
    rw [canonicalItems, canonicalItems, AlignedItems, facingItems, List.forall_mem_append, List.cons.injEq]
    exact and_congr (canonical_eq_iff_of_same v w h.1) (canonicalItems_eq_iff_of_same vs ws h.2)

theorem canonicalFields_eq_iff_of_same : (fs gs : List (String × Value)) → sameFields fs gs = true →
    (canonicalFields fs = canonicalFields gs ↔ ∀ p ∈ facingFields fs gs, p.1.Aligned p.2)
  | [], [], _ => by simp [facingFields]
  | [], (_, _) :: _, h => by simp [sameFields] at h
  | (_, _) :: _, [], h => by simp [sameFields] at h
  | (m, v) :: fs, (n, w) :: gs, h => by
    simp only [sameFields, Bool.and_eq_true, beq_iff_eq] at h
    obtain ⟨⟨rfl, hvalue⟩, hrest⟩ := h
    rw [canonicalFields, canonicalFields, facingFields, List.forall_mem_append, List.cons.injEq, Prod.mk.injEq,
      eq_self, true_and]
    exact and_congr (canonical_eq_iff_of_same v w hvalue) (canonicalFields_eq_iff_of_same fs gs hrest)

end

theorem sameItems_of_forall₂ {vs ws : List Value} (h : List.Forall₂ (fun v w => v.same w = true) vs ws) :
    sameItems vs ws = true := by
  induction h with
  | nil => rfl
  | cons hfirst _ ih => rw [sameItems, hfirst, ih, Bool.true_and]

end Value

/-! ## Groups -/

/-- All mutations are of one row. -/
def OneRow (group : List Prepared) : Prop := ∀ p ∈ group, ∀ q ∈ group, p.row.address = q.row.address

theorem oneRow_addToGroups (p : Prepared) {groups : List (List Prepared)} (h : ∀ g ∈ groups, OneRow g) :
    ∀ g ∈ addToGroups p groups, OneRow g := by
  induction groups with
  | nil =>
    intro g hg q hq r hr
    cases List.mem_singleton.1 hg
    rw [List.mem_singleton.1 hq, List.mem_singleton.1 hr]
  | cons first rest ih =>
    obtain ⟨hfirst, hrest⟩ := List.forall_mem_cons.1 h
    rw [addToGroups]
    split
    · rename_i hany
      obtain ⟨member, hmember, hrow⟩ := any_same_iff.1 hany
      -- the mutation has the row of one member, and so that of all
      have hnew : ∀ q ∈ first ++ [p], q.row.address = p.row.address := by
        intro q hq
        rcases List.mem_append.1 hq with hq | hq
        · exact (hfirst q hq member hmember).trans hrow
        · rw [List.mem_singleton.1 hq]
      refine List.forall_mem_cons.2 ⟨?_, hrest⟩
      intro q hq r hr
      exact (hnew q hq).trans (hnew r hr).symm
    · exact List.forall_mem_cons.2 ⟨hfirst, ih hrest⟩

theorem oneRow_groupRows (ps : List Prepared) : ∀ group ∈ groupRows ps, OneRow group := by
  induction ps using List.reverseRecOn with
  | nil => exact fun _ h => absurd h List.not_mem_nil
  | append_singleton ps p ih =>
    rw [groupRows_snoc]
    exact oneRow_addToGroups p ih

/-- Two mutations of a batch are in one group exactly if they have one row. -/
theorem together_iff {ps : List Prepared} {p q : Prepared} (hp : p ∈ ps) (hq : q ∈ ps) :
    (∃ group ∈ groupRows ps, p ∈ group ∧ q ∈ group) ↔ p.row.address = q.row.address := by
  constructor
  · rintro ⟨group, hgroup, hin, hin'⟩
    exact oneRow_groupRows ps group hgroup p hin q hin'
  · intro hrow
    obtain ⟨group, hgroup, hin⟩ := List.mem_flatten.1 ((flatten_groupRows_perm ps).mem_iff.2 hp)
    obtain ⟨other, hother, hin'⟩ := List.mem_flatten.1 ((flatten_groupRows_perm ps).mem_iff.2 hq)
    refine ⟨group, hgroup, hin, ?_⟩
    by_cases hsame : group = other
    · exact hsame ▸ hin'
    · have hsymm : Std.Symm fun g h : List Prepared => Run.Apart (places g) (places h) := ⟨fun _ _ h => h.symm⟩
      have hapart := (groupRows_spec ps).1.forall hgroup hother hsame
      exact absurd ⟨q, hin', hrow.symm⟩ (hapart _ ⟨p, hin, rfl⟩)

/-! ## The whole statement -/

/-- Lists of values that count as equal make one key exactly if the numbers in them are aligned, and exactly
then mutations of a table with these values as keys have one stored row, and one group in every batch. -/
theorem equal_values_share_key_iff (a b : List Value)
    (h : List.Forall₂ (fun v w => v.same w = true) a b) :
    ((RowKey.mk a).same ⟨b⟩ = true ↔ Value.AlignedItems a b) ∧
      ∀ (batch : List Prepared), ∀ p ∈ batch, ∀ q ∈ batch, p.row.table = q.row.table → p.key = ⟨a⟩ →
        q.key = ⟨b⟩ →
          (p.row.address = q.row.address ↔ Value.AlignedItems a b) ∧
            ((∃ group ∈ groupRows batch, p ∈ group ∧ q ∈ group) ↔ Value.AlignedItems a b) := by
  have hkey : (RowKey.mk a).same ⟨b⟩ = true ↔ Value.AlignedItems a b := by
    rw [RowKey.same_iff_canonical, ← Value.canonicalItems_eq_map, ← Value.canonicalItems_eq_map]
    exact Value.canonicalItems_eq_iff_of_same a b (Value.sameItems_of_forall₂ h)
  refine ⟨hkey, fun batch p hp q hq htable hpkey hqkey => ?_⟩
  have haddress : p.row.address = q.row.address ↔ Value.AlignedItems a b := by
    rw [← RowId.same_iff, RowId.same, htable, beq_self_eq_true, Bool.true_and]
    show (p.key.same q.key) = true ↔ _
    rw [hpkey, hqkey]
    exact hkey
  exact ⟨haddress, (together_iff hp hq).trans haddress⟩

namespace Example

/-- A mutation with a key: an upsert of a row, or a deletion. -/
def keyed (key : List Value) (row : Option Document) : Prepared :=
  ⟨⟨0, 0, orders.name, none, row, key, default, .empty⟩, ⟨key⟩,
    row.elim .delete fun row => .upsert ⟨row, []⟩⟩

/-- A key column that holds an integer. -/
def whole (n : Int) (h : -9223372036854775808 ≤ n ∧ n < 18446744073709551616) : Value := .number (.integer n h)

/-- A key column that holds a float, which is given by its magnitude. -/
def floating (magnitude : Nat) (h : magnitude < binary64Limit) : Value := .number (.float ⟨false, magnitude, h⟩)

end Example

/-- The deletion of the row under `[1.0, {"a": [2]}]` goes into the group of the upsert of `[1, {"a": [2.0]}]`. -/
theorem nested_numbers_share_their_key :
    let a := [Example.whole 1 (by decide),
      .document [("a", .array [Example.floating 4611686018427387904 (by decide)])]]
    let b := [Example.floating 4607182418800017408 (by decide),
      .document [("a", .array [Example.whole 2 (by decide)])]]
    let batch := [Example.keyed a (some .empty), Example.keyed b none]
    List.Forall₂ (fun v w => v.same w = true) a b ∧ Value.AlignedItems a b ∧
      ∃ group ∈ groupRows batch, Example.keyed a (some .empty) ∈ group ∧ Example.keyed b none ∈ group := by
  intro a b batch
  have hsame : List.Forall₂ (fun v w => v.same w = true) a b :=
    .cons (by decide +kernel) (.cons (by decide +kernel) .nil)
  obtain ⟨hkey, hbatch⟩ := equal_values_share_key_iff a b hsame
  have haligned : Value.AlignedItems a b := hkey.1 (by decide +kernel)
  obtain ⟨-, hgroup⟩ := hbatch batch _ List.mem_cons_self _ (List.mem_cons_of_mem _ List.mem_cons_self) rfl rfl rfl
  exact ⟨hsame, haligned, hgroup.2 haligned⟩

/-- The integer `9223372036854775808` and the float that denotes it make two keys, and so do `9007199254740993`
and its nearest float. Either pair counts as equal, so that equal values do not always make one key. -/
theorem equal_numbers_of_two_keys :
    let large := Example.whole 9223372036854775808 (by decide)
    let odd := Example.whole 9007199254740993 (by decide)
    let largeFloat := Example.floating 4890909195324358656 (by decide)
    let nearest := Example.floating 4845873199050653696 (by decide)
    (large.same largeFloat = true ∧ (RowKey.mk [large]).same ⟨[largeFloat]⟩ = false) ∧
      (odd.same nearest = true ∧ (RowKey.mk [odd]).same ⟨[nearest]⟩ = false) ∧
      ¬ ∀ a b : List Value, a.length = b.length → List.Forall₂ (fun v w => v.same w = true) a b →
        (RowKey.mk a).same ⟨b⟩ = true := by
  intro large odd largeFloat nearest
  have hlarge : large.same largeFloat = true := by decide +kernel
  have hkeys : (RowKey.mk [large]).same ⟨[largeFloat]⟩ = false := by decide +kernel
  refine ⟨⟨hlarge, hkeys⟩, ⟨by decide +kernel, by decide +kernel⟩, fun h => ?_⟩
  have hclaimed := h [large] [largeFloat] rfl (.cons hlarge .nil)
  rw [hkeys] at hclaimed
  cases hclaimed

end Tributary
