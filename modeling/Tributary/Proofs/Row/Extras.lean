import Tributary.Proofs.Row.Conformance

/-!
# What the extras column holds

Properties that match no column are collected in the extras column, beside what that column holds already. They
are taken in the order of names, so that on a name which both have, the later of the two stays: a property whose
name comes before that of the extras column is lost to what the column holds.

* `Document.held`: what an extras column holds already.
* `Document.known?`, `Document.stray?`, `Document.collected?`: where the value of a name goes.
* `partExtras_takes`: parted properties, name by name.
* `mapped_of_unknown`: the row of a document with a property that matches no column.
* `extras_keep_property_iff`: whether such a property is found in the extras column.
-/

namespace Tributary

open Logged.Fallible

/-! ## Where properties go -/

namespace Document

theorem get?_insertAll (d : Document) (fields : List (String × Value)) (key : String) :
    (d.insertAll fields).get? key = ((ofList fields).get? key).or (d.get? key) := by
  induction fields generalizing d with
  | nil => rfl
  | cons head rest ih =>
    have hcons (d : Document) : d.insertAll (head :: rest) = (d.insert head.1 head.2).insertAll rest := rfl
    rw [ofList, hcons, hcons, ih, ih (empty.insert _ _), get?_insert, get?_insert, Option.or_assoc]
    split <;> rfl

/-- The first of ascending names has its value, and the others are found behind it. -/
theorem get?_cons {field : String × Value} {rest : List (String × Value)} (h : Value.Ascending (field :: rest))
    (key : String) :
    (Document.mk (field :: rest) h).get? key =
      if key = field.1 then some field.2 else (Document.mk rest (List.pairwise_cons.1 h).2).get? key :=
  lookup_field key field.1 field.2 rest

theorem get?_tail_of_not_lt {field : String × Value} {rest : List (String × Value)}
    (h : Value.Ascending (field :: rest)) {key : String} (hkey : ¬ field.1 < key) :
    (Document.mk rest (List.pairwise_cons.1 h).2).get? key = none := by
  refine Option.eq_none_iff_forall_ne_some.2 fun value hvalue => hkey ?_
  exact (List.pairwise_cons.1 h).1 _ ((mem_fields_iff _ _ _).2 hvalue)

/-- What a column holds if it holds a document, else nothing. -/
def held (row : Document) (column : String) : Document := ((row.get? column).bind ofValue?).getD .empty

theorem held_cons_of_ne {field : String × Value} {rest : List (String × Value)} {column : String}
    (h : Value.Ascending (field :: rest)) (hne : field.1 ≠ column) :
    (Document.mk (field :: rest) h).held column = (Document.mk rest (List.pairwise_cons.1 h).2).held column := by
  rw [held, get?_cons, if_neg hne.symm]
  rfl

/-- The value of a property that has a column, apart from the extras column. -/
def known? (schema : Schema) (column : String) (row : Document) (name : String) : Option Value :=
  if schema.hasColumn name && name != column then row.get? name else none

/-- The value of a property that matches no column. -/
def stray? (schema : Schema) (column : String) (row : Document) (name : String) : Option Value :=
  if schema.hasColumn name || name == column then none else row.get? name

/-- The value that is collected for a name: that of a property, or the one that the extras column holds already,
whichever comes later. -/
def collected? (schema : Schema) (column : String) (row : Document) (name : String) : Option Value :=
  if column < name then (row.stray? schema column name).or ((row.held column).get? name)
  else ((row.held column).get? name).or (row.stray? schema column name)

end Document

variable {schema : Schema} {column : String}

/-- What parted properties come to once those of a document have been taken into account. -/
structure Parted.Takes (schema : Schema) (column : String) (row : Document) (p q : Parted) : Prop where
  known : ∀ name, q.known.get? name = (row.known? schema column name).or (p.known.get? name)
  extras : ∀ name, q.extras.get? name = (row.collected? schema column name).or (p.extras.get? name)

/-- The extras column itself is taken first of some properties. -/
theorem Parted.Takes.extrasColumn {value : Value} {rest : List (String × Value)} {p next q : Parted}
    (h : Value.Ascending ((column, value) :: rest))
    (hq : Takes schema column ⟨rest, (List.pairwise_cons.1 h).2⟩ next q) (hknown : next.known = p.known)
    (hextras : ∀ name, next.extras.get? name =
      (((Document.ofValue? value).getD .empty).get? name).or (p.extras.get? name)) :
    Takes schema column ⟨(column, value) :: rest, h⟩ p q := by
  have htail : (Document.mk rest (List.pairwise_cons.1 h).2).get? column = none :=
    Document.get?_tail_of_not_lt h (String.lt_irrefl column)
  have hnone : (Document.mk rest (List.pairwise_cons.1 h).2).held column = .empty := by
    rw [Document.held, htail]
    rfl
  have hheld : (Document.mk ((column, value) :: rest) h).held column = (Document.ofValue? value).getD .empty := by
    rw [Document.held, Document.get?_cons, if_pos rfl]
    rfl
  refine ⟨fun name => ?_, fun name => ?_⟩
  · rw [hq.known, hknown, Document.known?, Document.known?, Document.get?_cons]
    by_cases hname : name = column
    · simp [hname]
    · simp [hname]
  · rw [hq.extras, hextras, Document.collected?, Document.collected?, hnone, hheld, Document.stray?, Document.stray?,
      Document.get?_cons]
    by_cases hlt : column < name
    · have hne : name ≠ column := (Document.name_ne_of_lt hlt).symm
      simp [hlt, hne, Option.or_assoc]
    · have hnone := Document.get?_tail_of_not_lt h hlt
      by_cases hname : name = column
      · simp [hname]
      · simp [hlt, hname, hnone]

/-- Another column is taken first of some properties. -/
theorem Parted.Takes.knownColumn {field : String × Value} {rest : List (String × Value)} {p q : Parted}
    (h : Value.Ascending (field :: rest))
    (hq : Takes schema column ⟨rest, (List.pairwise_cons.1 h).2⟩ { p with known := p.known.insert field.1 field.2 } q)
    (hne : field.1 ≠ column) (hcolumn : schema.hasColumn field.1 = true) :
    Takes schema column ⟨field :: rest, h⟩ p q := by
  have hheld := Document.held_cons_of_ne h hne
  have hnone := Document.get?_tail_of_not_lt h (String.lt_irrefl field.1)
  refine ⟨fun name => ?_, fun name => ?_⟩
  · rw [hq.known, Document.known?, Document.known?, Document.get?_cons, Document.get?_insert]
    by_cases hname : name = field.1
    · simp [hname, hcolumn, hne, hnone]
    · simp [hname]
  · rw [hq.extras, Document.collected?, Document.collected?, hheld, Document.stray?, Document.stray?,
      Document.get?_cons]
    by_cases hname : name = field.1
    · simp [hname, hcolumn]
    · simp [hname]

/-- A property without a column is taken first of some properties. If it comes behind the extras column, that one
is not among the others. -/
theorem Parted.Takes.strayProperty {field : String × Value} {rest : List (String × Value)} {p q : Parted}
    (h : Value.Ascending (field :: rest))
    (hq : Takes schema column ⟨rest, (List.pairwise_cons.1 h).2⟩
      { p with extras := p.extras.insert field.1 field.2 } q)
    (hne : field.1 ≠ column) (hcolumn : schema.hasColumn field.1 = false) :
    Takes schema column ⟨field :: rest, h⟩ p q := by
  have hheld := Document.held_cons_of_ne h hne
  have hnone := Document.get?_tail_of_not_lt h (String.lt_irrefl field.1)
  refine ⟨fun name => ?_, fun name => ?_⟩
  · rw [hq.known, Document.known?, Document.known?, Document.get?_cons]
    by_cases hname : name = field.1
    · simp [hname, hcolumn]
    · simp [hname]
  · rw [hq.extras, Document.collected?, Document.collected?, hheld, Document.stray?, Document.stray?,
      Document.get?_cons, Document.get?_insert]
    by_cases hname : name = field.1
    · subst hname
      by_cases hlt : column < field.1
      · have hback : ¬ field.1 < column := fun hback => String.lt_irrefl _ (String.lt_trans hlt hback)
        have hempty : (Document.mk rest (List.pairwise_cons.1 h).2).held column = .empty := by
          rw [Document.held, Document.get?_tail_of_not_lt h hback]
          rfl
        simp [hlt, hempty, hcolumn, hne, hnone]
      · simp [hlt, hcolumn, hne, hnone]
    · simp [hname]

theorem Parted.takes_all {fields : List (String × Value)} (h : Value.Ascending fields) {p q : Parted}
    (hq : fields.foldlM (Parted.add schema column) p = .ok q) : Takes schema column ⟨fields, h⟩ p q := by
  induction fields generalizing p with
  | nil =>
    cases hq
    have hnone (name : String) : (Document.mk [] h).get? name = none := rfl
    have hheld : (Document.mk [] h).held column = .empty := rfl
    refine ⟨fun name => ?_, fun name => ?_⟩
    · simp [Document.known?, hnone]
    · simp [Document.collected?, Document.stray?, hheld, hnone]
  | cons field rest ih =>
    have hrest := (List.pairwise_cons.1 h).2
    rw [List.foldlM_cons] at hq
    obtain ⟨name, value⟩ := field
    by_cases hname : name = column
    · subst hname
      cases value with
      | document fields =>
        have hadd : p.add schema name (name, .document fields) =
            .ok { p with extras := p.extras.insertAll fields } := if_pos rfl
        rw [hadd] at hq
        have htaken : Takes schema name ⟨rest, hrest⟩ { p with extras := p.extras.insertAll fields } q := ih hrest hq
        exact htaken.extrasColumn h rfl (Document.get?_insertAll p.extras fields)
      | null =>
        have hadd : p.add schema name (name, .null) = .ok p := if_pos rfl
        rw [hadd] at hq
        exact (ih hrest hq).extrasColumn h rfl fun _ => rfl
      | _ =>
        rw [Parted.add, if_pos rfl] at hq
        cases hq
    · rw [Parted.add, if_neg hname] at hq
      cases hcolumn : schema.hasColumn name with
      | true =>
        rw [if_pos hcolumn] at hq
        exact (ih hrest hq).knownColumn h hname hcolumn
      | false =>
        rw [if_neg (by simp [hcolumn])] at hq
        exact (ih hrest hq).strayProperty h hname hcolumn

/-- The parts of a row, name by name. -/
theorem partExtras_takes {row : Document} {p : Parted} (h : partExtras schema column row = .ok p) :
    Parted.Takes schema column row ⟨.empty, .empty⟩ p :=
  Parted.takes_all row.ascending h

/-! ## Mapped rows -/

section

variable {config : TableConfig} {timeout : Span} {doc origin : Document} {mapped : MappedRow}

/-- Whether a row holds a property among those that its extras column collects. -/
def Document.Collects (row : Document) (column name : String) (v : Value) : Prop :=
  ∃ extras : Document, row.get? column = some extras.toValue ∧ extras.get? name = some v

theorem Document.no_unknown_iff {row : Document} :
    (row.names.filter fun name => !schema.hasColumn name).isEmpty = true ↔ row.Inside schema := by
  rw [List.isEmpty_iff, List.filter_eq_nil_iff]
  exact forall₂_congr fun name _ => by simp

theorem Document.inside_iff {row : Document} :
    row.Inside schema ↔ ∀ name v, row.get? name = some v → schema.hasColumn name = true := by
  refine forall_congr' fun name => ?_
  rw [← contains_iff_mem_names, contains, Option.isSome_iff_exists, forall_exists_index]

/-- A row stays as it is, or its properties are parted. -/
theorem collectExtras_cases {row collected : Document} (h : collectExtras config schema row = .ok collected) :
    (collected = row ∧ (row.Inside schema ∨ config.extras = none ∧ schema.isOpen = true)) ∨
      ∃ column p, config.extras = some column ∧ ¬ row.Inside schema ∧ partExtras schema column row = .ok p ∧
        collected = p.known.insert column p.extras.toValue := by
  unfold collectExtras at h
  dsimp only at h
  split at h
  · next hknown =>
    cases h
    exact .inl ⟨rfl, .inl (Document.no_unknown_iff.1 hknown)⟩
  · next hunknown =>
    cases hextras : config.extras with
    | some column =>
      rw [hextras] at h
      cases hparted : partExtras schema column row with
      | error fault =>
        simp only [hparted] at h
        cases h
      | ok p =>
        simp only [hparted] at h
        cases h
        exact .inr ⟨column, p, rfl, fun hinside => hunknown (Document.no_unknown_iff.2 hinside), hparted, rfl⟩
    | none =>
      simp only [hextras] at h
      split at h
      · next hopen =>
        cases h
        exact .inl ⟨rfl, .inr ⟨rfl, hopen⟩⟩
      · cases h

theorem cleanRow_eq_ok (h : cleanRow config schema doc = .ok mapped) :
    collectExtras config schema (removeIgnored config doc) = .ok mapped.row ∧
      mapped.exprs = rowExprs config mapped.row := by
  unfold cleanRow at h
  cases hcollected : collectExtras config schema (removeIgnored config doc) with
  | error fault =>
    rw [hcollected] at h
    cases h
  | ok row =>
    rw [hcollected] at h
    cases h
    exact ⟨rfl, rfl⟩

/-- The row of a document is the clean form of what the map function makes of it. -/
theorem mapRow_of_source {source : Document}
    (hsource : (mapDocument config timeout doc origin).attempt.value = .ok (some source)) :
    (mapRow config schema timeout doc origin).attempt.value = (cleanRow config schema source).map some := by
  obtain ⟨⟨result, trace⟩, hresult⟩ : ∃ r, (mapDocument config timeout doc origin).attempt = r := ⟨_, rfl⟩
  rw [hresult] at hsource
  cases hsource
  rw [mapRow, attempt_bind, hresult]
  show ((liftM (cleanRow config schema source) : Logged.Fallible MappedRow) >>= fun mapped =>
    pure (some mapped)).attempt.value = _
  rw [attempt_bind, attempt_result]
  cases cleanRow config schema source <;> rfl

theorem cleanRow_of_mapRow {source : Document}
    (hsource : (mapDocument config timeout doc origin).attempt.value = .ok (some source))
    (hmapped : (mapRow config schema timeout doc origin).attempt.value = .ok (some mapped)) :
    cleanRow config schema source = .ok mapped := by
  rw [mapRow_of_source hsource] at hmapped
  cases hclean : cleanRow config schema source with
  | error fault =>
    rw [hclean] at hmapped
    cases hmapped
  | ok cleaned =>
    rw [hclean] at hmapped
    cases hmapped
    rfl

theorem get?_removeIgnored (config : TableConfig) (row : Document) (name : String) :
    (removeIgnored config row).get? name = if name ∈ config.ignore then none else row.get? name := by
  rw [removeIgnored, Document.get?_filter]
  cases row.get? name <;> simp [Option.filter_some]

theorem Document.collects_insert (row extras : Document) {column name : String} {v : Value} :
    (row.insert column extras.toValue).Collects column name v ↔ extras.get? name = some v := by
  rw [Collects, get?_insert_self]
  constructor
  · rintro ⟨found, hfound, hvalue⟩
    have hsame := congrArg (Option.bind · ofValue?) hfound
    simp only [Option.bind_some, ofValue?_toValue, Option.some.injEq] at hsame
    rwa [hsame]
  · exact fun hvalue => ⟨extras, rfl, hvalue⟩

/-- The properties of a document are parted if one of them, which is not ignored, matches no column. -/
theorem cleanRow_of_unknown {column name : String} {v : Value} (hextras : config.extras = some column)
    (hclean : cleanRow config schema doc = .ok mapped) (hname : (removeIgnored config doc).get? name = some v)
    (hunknown : schema.hasColumn name = false) :
    ∃ p, partExtras schema column (removeIgnored config doc) = .ok p ∧
      mapped.row = p.known.insert column p.extras.toValue := by
  obtain ⟨-, hinside | ⟨hnone, -⟩⟩ | ⟨column', p, hcolumn, -, hparted, hrow⟩ :=
    collectExtras_cases (cleanRow_eq_ok hclean).1
  · rw [Document.inside_iff.1 hinside _ _ hname] at hunknown
    cases hunknown
  · rw [hextras] at hnone
    cases hnone
  · cases hextras.symm.trans hcolumn
    exact ⟨p, hparted, hrow⟩

/-- A property that matches no column is found in the extras column exactly if it comes behind that column, or if
the column holds no other value for its name. -/
theorem extras_keep_property_iff {column name : String} {source : Document} {v : Value}
    (hextras : config.extras = some column) (hcolumn : schema.hasColumn column = true)
    (hkept : column ∉ config.ignore)
    (hsource : (mapDocument config timeout doc origin).attempt.value = .ok (some source))
    (hmapped : (mapRow config schema timeout doc origin).attempt.value = .ok (some mapped))
    (hname : source.get? name = some v) (hheeded : name ∉ config.ignore)
    (hunknown : schema.hasColumn name = false) :
    mapped.row.Collects column name v ↔
      (name < column → ∀ w, (source.held column).get? name = some w → w = v) := by
  have hfound : (removeIgnored config source).get? name = some v := by
    rw [get?_removeIgnored, if_neg hheeded, hname]
  have hheld : (removeIgnored config source).held column = source.held column := by
    rw [Document.held, Document.held, get?_removeIgnored, if_neg hkept]
  have hother : name ≠ column := by
    rintro rfl
    rw [hcolumn] at hunknown
    cases hunknown
  have hstray : (removeIgnored config source).stray? schema column name = some v := by
    rw [Document.stray?, if_neg (by simp [hunknown, hother]), hfound]
  obtain ⟨p, hparted, hrow⟩ := cleanRow_of_unknown hextras (cleanRow_of_mapRow hsource hmapped) hfound hunknown
  rw [hrow, Document.collects_insert, (partExtras_takes hparted).extras, Document.collected?, hheld, hstray,
    Document.get?_empty, Option.or_none]
  by_cases hlt : column < name
  · have hback : ¬ name < column := fun h => String.lt_irrefl _ (String.lt_trans h hlt)
    simp [hlt, hback]
  · have hbefore : name < column := Document.name_lt_of_not (Ne.symm hother) hlt
    rw [if_neg hlt]
    cases (source.held column).get? name with
    | none => simp
    | some w => simp [hbefore]

end

namespace Example

/-- A table with an extras column. -/
def articles : Schema := ⟨⟨["articles"], by decide, by decide, by decide⟩, [⟨"id", true⟩, ⟨"extras", false⟩], false⟩

def collecting : TableConfig := { TableConfig.plain with extras := some "extras" }

/-- An article with two properties that match no column, while its extras hold other values for both. -/
def article : Document :=
  .ofList [("id", .string "a1"), ("color", .string "red"), ("weight", .string "heavy"),
    ("extras", .document [("color", .string "blue"), ("weight", .string "light")])]

def collected : Document :=
  .ofList [("id", .string "a1"), ("extras", .document [("color", .string "blue"), ("weight", .string "heavy")])]

end Example

/-- The weight comes behind the extras column. -/
theorem weight_is_collected :
    (mapRow Example.collecting Example.articles default Example.article .empty).attempt.value =
        .ok (some ⟨Example.collected, []⟩) ∧
      Example.collected.Collects "extras" "weight" (.string "heavy") := by
  have hmapped : (mapRow Example.collecting Example.articles default Example.article .empty).attempt.value =
      .ok (some ⟨Example.collected, []⟩) := rfl
  have hback : ¬ "weight" < "extras" := by decide
  have hkept := extras_keep_property_iff (rfl : Example.collecting.extras = some "extras") rfl List.not_mem_nil
    rfl hmapped (rfl : Example.article.get? "weight" = some (.string "heavy")) List.not_mem_nil rfl
  exact ⟨hmapped, hkept.2 fun hlt => absurd hlt hback⟩

/-- The color comes before the extras column, and is lost to the one that this holds. -/
theorem color_is_swallowed :
    Example.collecting.map = none ∧ Example.collecting.extras = some "extras" ∧
      Example.articles.hasColumn "extras" = true ∧ Example.collecting.ignore = [] ∧
      (mapRow Example.collecting Example.articles default Example.article .empty).attempt.value =
        .ok (some ⟨Example.collected, []⟩) ∧
      Example.article.get? "color" = some (.string "red") ∧ Example.articles.hasColumn "color" = false ∧
      ¬ Example.collected.Collects "extras" "color" (.string "red") := by
  refine ⟨rfl, rfl, rfl, rfl, rfl, rfl, rfl, ?_⟩
  intro hcollected
  have hcolor := (Document.collects_insert (.ofList [("id", .string "a1")])
    (.ofList [("color", .string "blue"), ("weight", .string "heavy")])).1 hcollected
  exact absurd hcolor (by decide)

end Tributary
