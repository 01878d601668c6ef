import Tributary.Proofs.Row.Extras

/-!
# Mapped rows are in normal form

A table without a map function makes a row of a document by leaving out and by collecting properties. Whichever of
the two it has to do, it has nothing to do for the row that it has made: a row that was parted holds nothing but
columns, so that its properties are not parted again.

* `MappedRow.Normal`: what holds of the rows of a table.
* `MappedRow.Normal.fixed`: such a row is mapped to itself.
* `cleanRow_normal`, `cleanRow_keeps`: a document becomes such a row, in which its columns keep their values.
* `mapRow_in_normal_form`: the three together.
-/

namespace Tributary

variable {config : TableConfig} {schema : Schema} {timeout : Span} {doc origin : Document} {mapped : MappedRow}

/-- The extras column of a table is one of its columns, and not ignored. -/
def KeepsExtras (config : TableConfig) (schema : Schema) : Prop :=
  ∀ column, config.extras = some column → schema.hasColumn column = true ∧ column ∉ config.ignore

/-- A row of a table, with expressions for the columns that it has. Only an open table that does not collect extras
lets properties stand that match no column. -/
structure MappedRow.Normal (config : TableConfig) (schema : Schema) (mapped : MappedRow) : Prop where
  heeds : ∀ name ∈ config.ignore, mapped.row.get? name = none
  inside : ¬ (schema.isOpen = true ∧ config.extras = none) → mapped.row.Inside schema
  exprs : mapped.exprs = config.exprs.filter fun e => mapped.row.contains e.1

/-! ## Rows in normal form are mapped to themselves -/

theorem removeIgnored_eq_self {row : Document} (h : ∀ name ∈ config.ignore, row.get? name = none) :
    removeIgnored config row = row := by
  refine Document.ext_get? fun name => ?_
  rw [get?_removeIgnored]
  split
  · next hignored => exact (h name hignored).symm
  · rfl

theorem collectExtras_of_inside {row : Document} (h : row.Inside schema) :
    collectExtras config schema row = .ok row := by
  unfold collectExtras
  exact if_pos (Document.no_unknown_iff.2 h)

theorem collectExtras_of_open {row : Document} (hopen : schema.isOpen = true) (hextras : config.extras = none) :
    collectExtras config schema row = .ok row := by
  unfold collectExtras
  simp only [hextras, hopen, if_true, ite_self]

theorem mapDocument_of_no_map (hmap : config.map = none) :
    (mapDocument config timeout doc origin).attempt.value = .ok (some doc) := by
  unfold mapDocument
  rw [hmap]
  rfl

theorem MappedRow.Normal.fixed (h : mapped.Normal config schema) : cleanRow config schema mapped.row = .ok mapped := by
  have hcollected : collectExtras config schema mapped.row = .ok mapped.row := by
    by_cases htolerant : schema.isOpen = true ∧ config.extras = none
    · exact collectExtras_of_open htolerant.1 htolerant.2
    · exact collectExtras_of_inside (h.inside htolerant)
  have hexprs : rowExprs config mapped.row = mapped.exprs := h.exprs.symm
  rw [cleanRow, removeIgnored_eq_self h.heeds, hcollected]
  show Except.ok (MappedRow.mk mapped.row (rowExprs config mapped.row)) = _
  rw [hexprs]

/-! ## Documents become rows in normal form -/

/-- What stands in a row whose properties were parted. -/
theorem get?_parted {column : String} {row : Document} {p : Parted} (h : partExtras schema column row = .ok p)
    (name : String) :
    (p.known.insert column p.extras.toValue).get? name =
      if name = column then some p.extras.toValue
      else if schema.hasColumn name then row.get? name
      else none := by
  rw [Document.get?_insert, (partExtras_takes h).known, Document.get?_empty, Option.or_none, Document.known?]
  by_cases hname : name = column
  · rw [if_pos hname, if_pos hname]
  · simp [hname]

theorem cleanRow_normal (hextras : KeepsExtras config schema) (h : cleanRow config schema doc = .ok mapped) :
    mapped.Normal config schema := by
  obtain ⟨hcollected, hexprs⟩ := cleanRow_eq_ok h
  obtain ⟨hrow, hkept⟩ | ⟨column, p, hcolumn, -, hparted, hrow⟩ := collectExtras_cases hcollected
  · refine ⟨fun name hignored => ?_, fun hstrict => ?_, hexprs⟩
    · rw [hrow, get?_removeIgnored, if_pos hignored]
    · rw [hrow]
      exact hkept.resolve_right fun htolerant => hstrict htolerant.symm
  · obtain ⟨hinside, hheeded⟩ := hextras column hcolumn
    refine ⟨fun name hignored => ?_, fun _ => ?_, hexprs⟩
    · have hname : name ≠ column := fun hname => hheeded (hname ▸ hignored)
      rw [hrow, get?_parted hparted, if_neg hname, get?_removeIgnored, if_pos hignored, ite_self]
    · rw [hrow, Document.inside_iff]
      intro name v hname
      rw [get?_parted hparted] at hname
      split at hname
      · next hsame => rw [hsame, hinside]
      · split at hname
        · next hknown => exact hknown
        · cases hname

/-- Columns that are neither ignored nor collect extras keep what they hold. -/
theorem cleanRow_keeps (h : cleanRow config schema doc = .ok mapped) {name : String}
    (hheeded : name ∉ config.ignore) (hcolumn : schema.hasColumn name = true) (hother : config.extras ≠ some name) :
    mapped.row.get? name = doc.get? name := by
  have hfound : (removeIgnored config doc).get? name = doc.get? name := by
    rw [get?_removeIgnored, if_neg hheeded]
  obtain ⟨hrow, -⟩ | ⟨column, p, hextras, -, hparted, hrow⟩ := collectExtras_cases (cleanRow_eq_ok h).1
  · rw [hrow, hfound]
  · have hname : name ≠ column := fun hname => hother (hname ▸ hextras)
    rw [hrow, get?_parted hparted, if_neg hname, if_pos hcolumn, hfound]

/-- The row that a table without a map function makes of a document is in normal form, its columns have the values
that the document has for them, and mapping it again changes neither the row nor its expressions. -/
theorem mapRow_in_normal_form (hmap : config.map = none) (hextras : KeepsExtras config schema)
    (hmapped : (mapRow config schema timeout doc origin).attempt.value = .ok (some mapped)) :
    mapped.Normal config schema ∧
      (∀ name, name ∉ config.ignore → schema.hasColumn name = true → config.extras ≠ some name →
        mapped.row.get? name = doc.get? name) ∧
      ∀ timeout origin, (mapRow config schema timeout mapped.row origin).attempt.value = .ok (some mapped) := by
  have hclean := cleanRow_of_mapRow (mapDocument_of_no_map hmap) hmapped
  have hnormal := cleanRow_normal hextras hclean
  refine ⟨hnormal, fun name hheeded hcolumn hother => cleanRow_keeps hclean hheeded hcolumn hother, ?_⟩
  intro timeout origin
  rw [mapRow_of_source (mapDocument_of_no_map hmap), hnormal.fixed]
  rfl

namespace Example

def tidying : TableConfig :=
  { collecting with ignore := ["weight"], exprs := [("id", "lower($0)"), ("title", "trim($0)")] }

/-- The article without its weight. It has no title for which there would be an expression. -/
def tidied : MappedRow :=
  ⟨.ofList [("id", .string "a1"), ("extras", .document [("color", .string "blue"), ("weight", .string "light")])],
    [("id", "lower($0)")]⟩

end Example

theorem tidied_article_stays :
    (mapRow Example.tidying Example.articles default Example.article .empty).attempt.value =
        .ok (some Example.tidied) ∧
      Example.tidied.Normal Example.tidying Example.articles ∧
      Example.tidied.row.get? "id" = Example.article.get? "id" ∧
      (mapRow Example.tidying Example.articles default Example.tidied.row .empty).attempt.value =
        .ok (some Example.tidied) := by
  have hextras : KeepsExtras Example.tidying Example.articles := by
    rintro column hcolumn
    cases hcolumn
    exact ⟨rfl, by decide⟩
  have hmapped : (mapRow Example.tidying Example.articles default Example.article .empty).attempt.value =
      .ok (some Example.tidied) := rfl
  obtain ⟨hnormal, hkeeps, hagain⟩ := mapRow_in_normal_form rfl hextras hmapped
  exact ⟨hmapped, hnormal, hkeeps "id" (by decide) rfl (by decide), hagain default .empty⟩

end Tributary
