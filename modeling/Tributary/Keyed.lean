/-!
# Finite maps

A finite map is a list of pairs with different keys.

* `Keyed.get?`: the view of a map; `get?_eq_some_iff` says what it has to do with the pairs.
* `Keyed.put`, `Keyed.drop`: what they do to the view is stated by `get?_put` and `get?_drop`.
-/

namespace Tributary

/-- A finite map from keys to values. -/
structure Keyed (κ α : Type) where
  entries : List (κ × α)
  /-- Every key is there once. -/
  distinct : (entries.map Prod.fst).Nodup
  deriving Repr

namespace Keyed

variable {κ α : Type} [DecidableEq κ]

/-- The map without keys. -/
def empty : Keyed κ α := ⟨[], .nil⟩

instance : Inhabited (Keyed κ α) := ⟨empty⟩

/-- The value under a key. -/
def get? (m : Keyed κ α) (key : κ) : Option α :=
  (m.entries.find? fun e => e.1 = key).map Prod.snd

/-- Whether there is a value under a key. -/
def contains (m : Keyed κ α) (key : κ) : Bool := (m.get? key).isSome

/-- Removes a key. -/
def drop (m : Keyed κ α) (key : κ) : Keyed κ α :=
  ⟨m.entries.filter fun e => e.1 ≠ key, m.distinct.sublist (List.filter_sublist.map _)⟩

theorem not_mem_keys_drop (m : Keyed κ α) (key : κ) : key ∉ (m.drop key).entries.map Prod.fst := by
  simp [drop]

/-- Sets the value under a key. -/
def put (m : Keyed κ α) (key : κ) (value : α) : Keyed κ α where
  entries := (m.drop key).entries ++ [(key, value)]
  distinct := by
    rw [List.map_append, List.nodup_append]
    refine ⟨(m.drop key).distinct, List.pairwise_singleton _ _, fun other hother last hlast hsame => ?_⟩
    have hkey : other = key := hsame.trans (List.mem_singleton.1 hlast)
    exact m.not_mem_keys_drop key (hkey ▸ hother)

@[simp] theorem get?_empty (key : κ) : (empty : Keyed κ α).get? key = none := rfl

/-- A value is under a key exactly if the two are a pair of the map. -/
theorem get?_eq_some_iff {m : Keyed κ α} {key : κ} {value : α} :
    m.get? key = some value ↔ (key, value) ∈ m.entries := by
  obtain ⟨entries, distinct⟩ := m
  induction entries with
  | nil => simp [get?]
  | cons e rest ih =>
    obtain ⟨hfirst, hrest⟩ := List.nodup_cons.1 distinct
    have ih := ih hrest
    simp only [get?] at ih ⊢
    by_cases he : e.1 = key
    · subst he
      have hnot : (e.1, value) ∉ rest := fun h => hfirst (List.mem_map.2 ⟨_, h, rfl⟩)
      simp [hnot, Prod.ext_iff, eq_comm]
    · have hne : (key, value) ≠ e := fun h => he (congrArg Prod.fst h).symm
      simpa [List.find?_cons, he, hne] using ih

theorem get?_drop (m : Keyed κ α) (key other : κ) :
    (m.drop key).get? other = if other = key then none else m.get? other := by
  ext value
  rw [get?_eq_some_iff, drop, List.mem_filter]
  by_cases ho : other = key
  · simp [ho]
  · simp [ho, get?_eq_some_iff]

theorem get?_put (m : Keyed κ α) (key : κ) (value : α) (other : κ) :
    (m.put key value).get? other = if other = key then some value else m.get? other := by
  have hdrop := get?_drop m key other
  simp only [put, get?] at hdrop ⊢
  rw [List.find?_append]
  by_cases ho : other = key
  · subst ho
    rw [if_pos rfl] at hdrop ⊢
    rw [Option.map_eq_none_iff] at hdrop
    simp [hdrop]
  · rw [if_neg ho] at hdrop ⊢
    have hne : ¬ key = other := fun h => ho h.symm
    simp [hne, hdrop]

@[simp] theorem get?_put_self (m : Keyed κ α) (key : κ) (value : α) :
    (m.put key value).get? key = some value := by rw [get?_put, if_pos rfl]

end Keyed

end Tributary
