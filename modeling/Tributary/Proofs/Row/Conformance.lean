import Tributary.Apply.Prepare
import Tributary.Merge.Resolve
import Tributary.Proofs.Fault.Containment
import Tributary.Proofs.Merge.Fallback
import Tributary.Proofs.Row.Integral
import Tributary.Proofs.Row.Key

/-!
# Rows that conform to their table and key

A row conforms to a closed table and to a key if it holds nothing but columns of the table, and if the key is
that of its primary key columns, none of which is null. Since keys are compared in canonical form, so are the
columns: a row under the key `1` may hold `1.0`.

* `holdsKey_iff`: the key of a row, column by column. So `Conforms.mix` says that a row conforms if it takes
  each of its values from one of two rows that do.
* `mapRow_inside`, `rowKey_holds`: the rows that mapping makes of documents, and their keys.
* `resolve_conforms`: the row that is left by the standard merge, with and without preferring the stored row.
-/

namespace Tributary

open Logged.Fallible

/-- The primary key columns of a row hold values, none of which is null, and the key is that of these. -/
def Document.HoldsKey (schema : Schema) (key : RowKey) (row : Document) : Prop :=
  ∃ values, schema.primaryKey.mapM row.get? = some values ∧ .null ∉ values ∧
    (RowKey.mk values).same key = true

/-- All properties of a row match columns. -/
def Document.Inside (row : Document) (schema : Schema) : Prop :=
  ∀ name ∈ row.names, schema.hasColumn name = true

/-- A row that belongs into a table under a key. -/
structure Document.Conforms (schema : Schema) (key : RowKey) (row : Document) : Prop where
  columns : row.Inside schema
  key : row.HoldsKey schema key

variable {schema : Schema} {key : RowKey}

/-! ## Keys column by column -/

/-- A column of a row holds what stands in a key for it. -/
def Document.HoldsAt (row : Document) (column : String) (v : Value) : Prop :=
  ∃ held, row.get? column = some held ∧ held ≠ .null ∧ held.canonical = v.canonical

theorem holdsAt_of_mapM {row : Document} {columns : List String} {values vs : List Value}
    (hvalues : columns.mapM row.get? = some values) (hnull : .null ∉ values)
    (hsame : values.map Value.canonical = vs.map Value.canonical) :
    List.Forall₂ row.HoldsAt columns vs := by
  induction columns generalizing values vs with
  | nil =>
    cases hvalues
    have hnil : vs = [] := List.map_eq_nil_iff.1 hsame.symm
    subst hnil
    exact .nil
  | cons column columns ih =>
    rw [List.mapM_cons] at hvalues
    obtain ⟨held, hheld, hrest⟩ := Option.bind_eq_some_iff.1 hvalues
    obtain ⟨rest, hfound, hdone⟩ := Option.bind_eq_some_iff.1 hrest
    cases hdone
    obtain ⟨hne, hnone⟩ := not_or.1 fun h => hnull (List.mem_cons.2 h)
    cases vs with
    | nil => simp at hsame
    | cons v vs =>
      rw [List.map_cons, List.map_cons, List.cons.injEq] at hsame
      exact .cons ⟨held, hheld, fun h => hne h.symm, hsame.1⟩ (ih hfound hnone hsame.2)

theorem mapM_of_holdsAt {row : Document} {columns : List String} {vs : List Value}
    (h : List.Forall₂ row.HoldsAt columns vs) :
    ∃ values, columns.mapM row.get? = some values ∧ .null ∉ values ∧
      values.map Value.canonical = vs.map Value.canonical := by
  induction h with
  | nil => exact ⟨[], rfl, List.not_mem_nil, rfl⟩
  | cons hone _ ih =>
    obtain ⟨held, hheld, hne, hsame⟩ := hone
    obtain ⟨values, hvalues, hnull, hrest⟩ := ih
    refine ⟨held :: values, ?_, ?_, ?_⟩
    · rw [List.mapM_cons, hheld, hvalues]
      rfl
    · rintro (_ | ⟨_, hin⟩)
      · exact hne rfl
      · exact hnull hin
    · rw [List.map_cons, List.map_cons, hsame, hrest]

/-- A row holds a key if each column of the primary key holds what stands in the key for it. -/
theorem holdsKey_iff {row : Document} :
    row.HoldsKey schema key ↔ List.Forall₂ row.HoldsAt schema.primaryKey key.values := by
  constructor
  · rintro ⟨values, hvalues, hnull, hsame⟩
    exact holdsAt_of_mapM hvalues hnull (RowKey.same_iff_canonical.1 hsame)
  · intro h
    obtain ⟨values, hvalues, hnull, hsame⟩ := mapM_of_holdsAt h
    exact ⟨values, hvalues, hnull, RowKey.same_iff_canonical.2 hsame⟩

/-! ## Mixed rows -/

/-- Every value of a row is that of one of two other rows. -/
def Document.Mixes (row a b : Document) : Prop :=
  ∀ name, row.get? name = a.get? name ∨ row.get? name = b.get? name

namespace Document

variable {a b row : Document}

theorem Mixes.left (a b : Document) : a.Mixes a b := fun _ => .inl rfl

theorem Mixes.overlay (a b : Document) : (a.overlay b).Mixes a b := by
  intro name
  rw [get?_overlay]
  cases hb : b.get? name with
  | none => exact .inl (Option.none_or ..)
  | some v => exact .inr (Option.some_or ..)

theorem Mixes.insert (h : row.Mixes a b) {name : String} {v : Value} (hv : b.get? name = some v) :
    (row.insert name v).Mixes a b := by
  intro other
  rw [get?_insert]
  split
  · next heq =>
    rw [heq]
    exact .inr hv.symm
  · exact h other

theorem Conforms.mix (ha : a.Conforms schema key) (hb : b.Conforms schema key) (h : row.Mixes a b) :
    row.Conforms schema key where
  columns name hname := by
    rw [← contains_iff_mem_names, contains] at hname
    rcases h name with hfrom | hfrom
    · rw [hfrom] at hname
      exact ha.columns name ((contains_iff_mem_names ..).1 hname)
    · rw [hfrom] at hname
      exact hb.columns name ((contains_iff_mem_names ..).1 hname)
  key := by
    have hleft := holdsKey_iff.1 ha.key
    have hright := holdsKey_iff.1 hb.key
    refine holdsKey_iff.2 ?_
    generalize schema.primaryKey = columns at hleft hright ⊢
    generalize key.values = vs at hleft hright ⊢
    induction hleft with
    | nil => exact .nil
    | @cons column v _ _ hone _ ih =>
      cases hright with
      | cons hother hrest =>
        refine .cons ?_ (ih hrest)
        rcases h column with hfrom | hfrom
        · obtain ⟨held, hheld, hkept⟩ := hone
          exact ⟨held, hfrom.trans hheld, hkept⟩
        · obtain ⟨held, hheld, hkept⟩ := hother
          exact ⟨held, hfrom.trans hheld, hkept⟩

/-- Under a key that is the same a row conforms as well. -/
theorem Conforms.congr {other : RowKey} (h : row.Conforms schema key) (hsame : key.same other = true) :
    row.Conforms schema other := by
  obtain ⟨values, hvalues, hnull, hkey⟩ := h.key
  refine ⟨h.columns, values, hvalues, hnull, RowKey.same_iff_canonical.2 ?_⟩
  exact (RowKey.same_iff_canonical.1 hkey).trans (RowKey.same_iff_canonical.1 hsame)

end Document

/-! ## Mapping -/

section

variable {config : TableConfig}

/-- The extras column of a table is a column of the table. -/
def CollectsInside (config : TableConfig) (schema : Schema) : Prop :=
  ∀ column, config.extras = some column → schema.hasColumn column = true

theorem Document.Inside.insert {row : Document} (h : row.Inside schema) {name : String}
    (hname : schema.hasColumn name = true) (v : Value) : (row.insert name v).Inside schema := by
  intro other hother
  obtain ⟨field, hfield, rfl⟩ := List.mem_map.1 hother
  rcases Document.mem_insertField hfield with rfl | hin
  · exact hname
  · exact h field.1 (List.mem_map_of_mem hin)

theorem Parted.add_inside {column : String} {p : Parted} (hp : p.known.Inside schema)
    (field : String × Value) :
    Result.Within (fun _ => True) (fun q : Parted => q.known.Inside schema) (p.add schema column field) := by
  unfold Parted.add
  split
  · split
    · exact hp
    · exact hp
    · trivial
  · split
    · next hcolumn => exact hp.insert hcolumn field.2
    · exact hp

theorem partExtras_inside (column : String) (row : Document) :
    Result.Within (fun _ => True) (fun p : Parted => p.known.Inside schema) (partExtras schema column row) := by
  have hempty : Document.empty.Inside schema := fun _ hname => absurd hname List.not_mem_nil
  exact Result.Within.foldlM (fun p field hp => Parted.add_inside hp field) row.fields hempty

theorem collectExtras_inside (hclosed : schema.isOpen = false) (hextras : CollectsInside config schema)
    (row : Document) :
    Result.Within (fun _ => True) (fun row => Document.Inside row schema) (collectExtras config schema row) := by
  unfold collectExtras
  dsimp only
  split
  · next hknown =>
    intro name hname
    have hnone := List.filter_eq_nil_iff.1 (List.isEmpty_iff.1 hknown) name hname
    simpa using hnone
  · cases hcolumn : config.extras with
    | some column =>
      have hparted : Result.Within (fun _ => True) (fun p : Parted => p.known.Inside schema)
          (partExtras schema column row) := partExtras_inside column row
      exact hparted.map fun p hp => hp.insert (hextras column hcolumn) p.extras.toValue
    | none =>
      rw [hclosed]
      trivial

/-- The row of a document has nothing but columns of a closed table. -/
theorem mapRow_inside (hclosed : schema.isOpen = false) (hextras : CollectsInside config schema)
    (timeout : Span) (doc origin : Document) :
    Within (fun _ => True) (fun mapped => ∀ row : MappedRow, mapped = some row → row.row.Inside schema)
      (mapRow config schema timeout doc origin) := by
  have hdocument : Within (fun _ => True) (fun _ => True) (mapDocument config timeout doc origin) :=
    ⟨.trivially _⟩
  unfold mapRow
  refine hdocument.bind fun found _ => ?_
  cases found with
  | none => exact .pure fun _ h => by cases h
  | some doc =>
    have hclean : Result.Within (fun _ => True) (fun mapped : MappedRow => mapped.row.Inside schema)
        (cleanRow config schema doc) :=
      (collectExtras_inside hclosed hextras _).map fun _ hrow => hrow
    exact (Within.liftM hclean).bind fun mapped hmapped =>
      .pure fun row hrow => Option.some.inj hrow ▸ hmapped

end

/-! ## Keys of rows -/

theorem keyColumn_holds {row : Document} {column : String} {v : Value}
    (h : keyColumn schema row column = .ok v) : row.HoldsAt column v := by
  unfold keyColumn at h
  split at h
  · cases h
  · cases h
  · next held hheld =>
    cases h
    exact ⟨v, hheld, fun hnull => by simp_all, rfl⟩

theorem keyColumns_hold {row : Document} {columns : List String} {vs : List Value}
    (h : columns.mapM (keyColumn schema row) = .ok vs) : List.Forall₂ row.HoldsAt columns vs := by
  induction columns generalizing vs with
  | nil =>
    cases h
    exact .nil
  | cons column columns ih =>
    rw [List.mapM_cons] at h
    cases hone : keyColumn schema row column with
    | error fault =>
      rw [hone] at h
      cases h
    | ok v =>
      rw [hone] at h
      cases hrest : columns.mapM (keyColumn schema row) with
      | error fault =>
        rw [hrest] at h
        cases h
      | ok rest =>
        rw [hrest] at h
        cases h
        exact .cons (keyColumn_holds hone) (ih hrest)

/-- A row that has a key holds it. -/
theorem rowKey_holds (hkey : schema.primaryKey ≠ []) {row : Document} {m : Mutation}
    (h : rowKey schema row m = .ok key) : row.HoldsKey schema key := by
  refine holdsKey_iff.2 ?_
  unfold rowKey at h
  split at h
  · cases h
  · next v vs hvalues =>
    cases h
    exact keyColumns_hold hvalues
  · next hnone =>
    -- without key columns the key would be that of the mutation
    have hlength := (keyColumns_hold hnone).length_eq
    exact absurd (List.eq_nil_of_length_eq_zero hlength) hkey

/-! ## Merges -/

section

variable {op : MergeOperation} {timeout : Span}

/-- The standard merge takes every value from the stored row or from the proposed one. -/
theorem standardMerge_mixes (op : MergeOperation) :
    (standardMerge op).merged.Mixes op.target op.proposed := by
  have hall (fields : List (String × Value)) (hfields : fields ⊆ op.proposed.fields) (c : Classification)
      (hc : c.merged.Mixes op.target op.proposed) :
      (fields.foldl (mergeProperty op) c).merged.Mixes op.target op.proposed := by
    induction fields generalizing c with
    | nil => exact hc
    | cons field rest ih =>
      obtain ⟨hfield, hrest⟩ := List.cons_subset.1 hfields
      refine ih hrest _ ?_
      unfold mergeProperty
      split
      · exact hc
      · split
        · exact hc.insert ((Document.mem_fields_iff ..).1 hfield)
        · exact hc
  exact hall op.proposed.fields (List.Subset.refl _) ⟨op.target, []⟩
    (Document.Mixes.left op.target op.proposed)

theorem preferredRow_mixes (op : MergeOperation) : (preferredRow op).Mixes op.target op.proposed := by
  intro name
  rw [preferredRow, Document.get?_overlay, Document.get?_filter]
  cases op.proposed.get? name with
  | none => exact .inl (Option.none_or ..)
  | some v =>
    rw [Option.filter_some]
    cases !op.unmerged.contains name with
    | true => exact .inr (Option.some_or ..)
    | false => exact .inl (Option.none_or ..)

/-- A table leaves its rows alone on conflicts, or lets every value be one of the stored or of the proposed
row. -/
def TableConfig.Selects (config : TableConfig) : Prop :=
  config.merge = none ∨ config.merge = some (.standard none) ∨
    config.merge = some (.standard (some preferTarget))

theorem runMerge_preferTarget (op : MergeOperation) :
    Yields (fun result => result = .apply (preferredRow op)) (runMerge timeout preferTarget op) := by
  refine (invoke_yields ..).bind fun v hv => ?_
  cases hv
  refine .liftM fun result hresult => ?_
  cases (ofValue_preferTarget _).symm.trans hresult
  rfl

theorem run_mixes {strategy : MergeStrategy}
    (h : strategy = .standard none ∨ strategy = .standard (some preferTarget)) (op : MergeOperation) :
    Yields (fun result => ∀ row, result = .apply row → row.Mixes op.target op.proposed)
      (strategy.run timeout op) := by
  have hmerged : Yields (fun result => ∀ row, result = .apply row → row.Mixes op.target op.proposed)
      (pure (.apply (standardMerge op).merged) : Logged.Fallible MergeResult) := by
    refine .pure fun row hrow => ?_
    cases hrow
    exact standardMerge_mixes op
  rcases h with rfl | rfl
  · unfold MergeStrategy.run runStandard
    dsimp only
    split
    · exact hmerged
    · exact .pure fun _ h => by cases h
  · unfold MergeStrategy.run runStandard
    dsimp only
    split
    · exact hmerged
    · refine ⟨fun result hresult row hrow => ?_⟩
      cases (runMerge_preferTarget _).result result hresult
      cases hrow
      exact preferredRow_mixes { op with unmerged := (standardMerge op).unmerged }

theorem resolveConflict_mixes {config : TableConfig} (hmerge : config.Selects) {row : Document}
    (h : (resolveConflict config timeout op).value = .apply row) : row.Mixes op.target op.proposed := by
  unfold resolveConflict at h
  cases hstrategy : config.merge with
  | none =>
    rw [hstrategy] at h
    cases h
  | some strategy =>
    have hselects : strategy = .standard none ∨ strategy = .standard (some preferTarget) := by
      rcases hmerge with hnone | hplain | hprefer
      · cases hstrategy.symm.trans hnone
      · exact .inl (Option.some.inj (hstrategy.symm.trans hplain))
      · exact .inr (Option.some.inj (hstrategy.symm.trans hprefer))
    rw [hstrategy] at h
    have hmixes : Yields (fun result => ∀ row, result = .apply row → row.Mixes op.target op.proposed)
        (strategy.run timeout op) := run_mixes hselects op
    have hresult := hmixes.result
    rw [Logged.value_bind, Logged.value_pure] at h
    generalize (strategy.run timeout op).attempt.value = result at h hresult
    cases result with
    | ok decision =>
      cases decision <;> cases h
      exact hresult _ rfl _ rfl
    | error cause => cases h

/-- What is decided to be written conforms, if the stored and the proposed row do. -/
theorem resolve_conforms {config : TableConfig} (hmerge : config.Selects) {p : Proposal}
    {target : Option Document} {row : Document} (hproposed : p.proposed.Conforms schema key)
    (htarget : ∀ stored, target = some stored → stored.Conforms schema key)
    (h : (resolve config timeout p target).value = .apply row) : row.Conforms schema key := by
  unfold resolve at h
  split at h
  · cases h
    exact hproposed
  · next stored =>
    split at h
    · exact (htarget stored rfl).mix hproposed (resolveConflict_mixes hmerge h)
    · cases h
      exact hproposed

end

end Tributary
