import Mathlib.Data.List.Forall2
import Mathlib.Data.List.Induction
import Mathlib.Data.List.Nodup
import Tributary.Proofs.Table.Spelling
import Tributary.Script.Builder

/-!
# What a script leaves registered

A script makes any calls in any order, and goes on behind a call that fails. What is registered then is sound, and the
fault of a table that was refused says all that is wrong with it.

* `TableProps.faults`: what is wrong with the properties of a table, column by column and property by property.
* `TableConfig.Sound`, `TableConfig.Keeps`: what holds of a table that is accepted.
* `TableProps.config_cases`: properties without fault are accepted, and others are refused for all their faults.
* `Registry.perform_cases`: all that a call does. From it, what a call adds to a registry and what it never changes.
* `Registry.extends_performAll`, `Registry.given_performAll`: what a script keeps, and where its tables come from.
* `registry_is_sound`: all this behind every script.
-/

namespace Tributary

open Text

/-! ## Faults that are gathered -/

/-- Faults that gather no others are told apart again. -/
theorem Fault.parts_gather {faults : List Fault} (h : ∀ fault ∈ faults, fault.isSingle = true) :
    (gather faults).parts = faults := by
  match faults with
  | [] => rfl
  | [.single _ _ _ _] => rfl
  | [.many _] => cases h _ (List.mem_singleton_self _)
  | _ :: _ :: _ => rfl

/-! ## Columns that are compared and set -/

/-- What is wrong with a column, given with its position: it has no name, or an earlier one has the same name. -/
def casFault? (table : String) (columns : List String) (entry : String × Nat) : Option Fault :=
  if entry.1 = "" then some (.emptyCasColumn table)
  else if entry.1 ∈ columns.take entry.2 then some (.repeatedCasColumn table entry.1)
  else none

section
variable {table : String} {seen columns : List String}

theorem isSingle_of_casFault? {entry : String × Nat} {fault : Fault}
    (h : casFault? table columns entry = some fault) : fault.isSingle = true := by
  unfold casFault? at h
  split at h
  · cases h
    rfl
  · split at h
    · cases h
      rfl
    · cases h

theorem mem_checkCas {column : String} :
    column ∈ (checkCas table seen columns).1 ↔ column ∈ seen ∨ column ≠ "" ∧ column ∈ columns := by
  fun_induction checkCas table seen columns with
  | case1 seen => simp
  | case2 seen rest ih => grind
  | case3 seen first rest hfirst hseen ih => grind
  | case4 seen first rest hfirst hseen ih => grind

theorem nodup_checkCas (h : seen.Nodup) : (checkCas table seen columns).1.Nodup := by
  fun_induction checkCas table seen columns with
  | case1 seen => exact h
  | case2 seen rest ih => exact ih h
  | case3 seen first rest hfirst hseen ih => exact ih h
  | case4 seen first rest hfirst hseen ih =>
    apply ih
    rw [← List.concat_eq_append]
    exact List.Nodup.concat hseen h

theorem checkCas_eq_of_faultless (h : (checkCas table seen columns).2 = []) :
    (checkCas table seen columns).1 = seen ++ columns := by
  fun_induction checkCas table seen columns with
  | case1 seen => exact (List.append_nil seen).symm
  | case2 seen rest ih => cases h
  | case3 seen first rest hfirst hseen ih => cases h
  | case4 seen first rest hfirst hseen ih =>
    rw [ih h, List.append_assoc]
    rfl

theorem filterMap_casFault?_cons (before : List String) (first : String) (rest : List String) :
    ((first :: rest).zipIdx before.length).filterMap (casFault? table (before ++ first :: rest)) =
      (if first = "" then [.emptyCasColumn table]
        else if first ∈ before then [.repeatedCasColumn table first] else []) ++
        (rest.zipIdx (before ++ [first]).length).filterMap (casFault? table (before ++ [first] ++ rest)) := by
  have hhead : casFault? table (before ++ first :: rest) (first, before.length) =
      if first = "" then some (.emptyCasColumn table)
      else if first ∈ before then some (.repeatedCasColumn table first) else none := by
    rw [casFault?, List.take_left]
  rw [List.zipIdx_cons, List.filterMap_cons, hhead, List.append_assoc, List.length_append]
  by_cases hempty : first = ""
  · rw [if_pos hempty, if_pos hempty]
    rfl
  · rw [if_neg hempty, if_neg hempty]
    by_cases hbefore : first ∈ before
    · rw [if_pos hbefore, if_pos hbefore]
      rfl
    · rw [if_neg hbefore, if_neg hbefore]
      rfl

/-- The columns that were seen are those that went before, with no name twice and none without a name. -/
theorem faults_checkCas (before : List String) (h : ∀ column, column ≠ "" → (column ∈ seen ↔ column ∈ before)) :
    (checkCas table seen columns).2 =
      (columns.zipIdx before.length).filterMap (casFault? table (before ++ columns)) := by
  fun_induction checkCas table seen columns generalizing before with
  | case1 seen => rfl
  | case2 seen rest ih =>
    rw [filterMap_casFault?_cons, if_pos rfl, ih (before ++ [""]) (by grind)]
    rfl
  | case3 seen first rest hfirst hseen ih =>
    rw [filterMap_casFault?_cons, if_neg hfirst, if_pos ((h first hfirst).1 hseen),
      ih (before ++ [first]) (by grind)]
    rfl
  | case4 seen first rest hfirst hseen ih =>
    rw [filterMap_casFault?_cons, if_neg hfirst, if_neg fun hbefore => hseen ((h first hfirst).2 hbefore),
      ih (before ++ [first]) (by grind)]
    rfl

/-- No column is kept exactly if none has a name. -/
theorem isEmpty_checkCas :
    (checkCas table [] columns).1.isEmpty = true ↔ ∀ column ∈ columns, column = "" := by
  rw [List.isEmpty_iff, List.eq_nil_iff_forall_not_mem]
  constructor
  · intro hnone column hcolumn
    by_contra hne
    exact hnone column (mem_checkCas.2 (.inr ⟨hne, hcolumn⟩))
  · intro hempty column hkept
    rcases mem_checkCas.1 hkept with hseen | ⟨hne, hcolumn⟩
    · cases hseen
    · exact hne (hempty column hcolumn)

end

/-! ## Deadlines -/

/-- What is wrong with a deadline: its text is no span of time. -/
def deadlineFault? (table : String) (entry : String × String) : Option Fault :=
  match Span.parseChars (trimChars entry.2.toList) with
  | .ok _ => none
  | .error flaw => some (.invalidDeadline table entry.1 entry.2 flaw.message)

theorem isSingle_of_deadlineFault? {table : String} {entry : String × String} {fault : Fault}
    (h : deadlineFault? table entry = some fault) : fault.isSingle = true := by
  unfold deadlineFault? at h
  split at h
  · cases h
  · cases h
    rfl

theorem faults_checkDeadlines (table : String) (deadlines : List (String × String)) :
    (checkDeadlines table deadlines).2 = deadlines.filterMap (deadlineFault? table) := by
  induction deadlines with
  | nil => rfl
  | cons entry rest ih =>
    rw [checkDeadlines, List.filterMap_cons, deadlineFault?]
    cases Span.parseChars (trimChars entry.2.toList) with
    | ok span => exact ih
    | error flaw => exact congrArg (_ :: ·) ih

/-- A deadline is kept as the span of time that its text spells. -/
def SpellsDeadline (given : String × String) (kept : String × Span) : Prop :=
  kept.1 = given.1 ∧ Span.parseChars (trimChars given.2.toList) = .ok kept.2

theorem forall₂_checkDeadlines {table : String} {deadlines : List (String × String)}
    (h : (checkDeadlines table deadlines).2 = []) :
    List.Forall₂ SpellsDeadline deadlines (checkDeadlines table deadlines).1 := by
  induction deadlines with
  | nil => exact .nil
  | cons entry rest ih =>
    rw [checkDeadlines] at h ⊢
    cases hspan : Span.parseChars (trimChars entry.2.toList) with
    | ok span =>
      rw [hspan] at h
      exact .cons ⟨rfl, hspan⟩ (ih h)
    | error flaw =>
      rw [hspan] at h
      cases h

/-! ## The properties of a table -/

/-- All that is wrong with the properties of a table. -/
def TableProps.faults (props : TableProps) (table : String) : List Fault :=
  props.cas.zipIdx.filterMap (casFault? table props.cas) ++ props.deadlines.filterMap (deadlineFault? table) ++
    ((if props.merge.isSome = true ∧ ∀ column ∈ props.cas, column = "" then [.mergeWithoutCas table] else []) ++
      if props.extras = some "" then [.emptyExtras table] else [])

/-- What holds of the behaviour of every table. -/
structure TableConfig.Sound (config : TableConfig) : Prop where
  named : "" ∉ config.cas
  distinct : config.cas.Nodup
  cas_of_merge : config.merge.isSome = true → config.cas ≠ []
  extras : config.extras ≠ some ""

/-- The behaviour of a table is what its properties ask for. -/
structure TableConfig.Keeps (config : TableConfig) (props : TableProps) : Prop where
  cas : config.cas = props.cas
  deadlines : List.Forall₂ SpellsDeadline props.deadlines config.deadlines
  exprs : config.exprs = props.exprs
  extras : config.extras = props.extras
  ignore : ∀ column, column ∈ config.ignore ↔ (column, true) ∈ props.ignore
  map : config.map = props.map
  merge : config.merge = props.merge

namespace TableProps
variable (props : TableProps) (table : String)

theorem checkMerge_eq :
    checkMerge table props (checkCas table [] props.cas).1 =
      (if props.merge.isSome = true ∧ ∀ column ∈ props.cas, column = "" then [.mergeWithoutCas table] else []) ++
        if props.extras = some "" then [.emptyExtras table] else [] := by
  rw [checkMerge]
  simp only [Bool.and_eq_true, isEmpty_checkCas]

theorem faults_eq :
    (checkCas table [] props.cas).2 ++ (checkDeadlines table props.deadlines).2 ++
      checkMerge table props (checkCas table [] props.cas).1 = props.faults table := by
  rw [faults_checkCas [] fun _ _ => Iff.rfl, faults_checkDeadlines, checkMerge_eq]
  rfl

theorem isSingle_of_mem_faults {fault : Fault} (h : fault ∈ props.faults table) : fault.isSingle = true := by
  simp only [faults, List.mem_append, List.mem_filterMap] at h
  rcases h with (⟨entry, -, hcas⟩ | ⟨entry, -, hdeadline⟩) | hmerge | hextras
  · exact isSingle_of_casFault? hcas
  · exact isSingle_of_deadlineFault? hdeadline
  · rw [List.mem_ite_nil_right, List.mem_singleton] at hmerge
    rw [hmerge.2]
    rfl
  · rw [List.mem_ite_nil_right, List.mem_singleton] at hextras
    rw [hextras.2]
    rfl

/-- Properties without faults are accepted; otherwise the fault gathers all that there are. -/
theorem config_cases :
    (props.faults table = [] ∧ ∃ config, props.config table = .ok config ∧ config.Sound ∧ config.Keeps props) ∨
      (props.faults table ≠ [] ∧ props.config table = .error (.gather (props.faults table))) := by
  rw [config, faults_eq]
  by_cases hfaults : props.faults table = []
  · refine .inl ⟨hfaults, _, if_pos (List.isEmpty_iff.2 hfaults), ?_⟩
    have hparts := (faults_eq props table).trans hfaults
    rw [List.append_eq_nil_iff, List.append_eq_nil_iff] at hparts
    obtain ⟨⟨hcas, hdeadlines⟩, hmerge⟩ := hparts
    rw [checkMerge_eq, List.append_eq_nil_iff] at hmerge
    have hcolumns : (checkCas table [] props.cas).1 = props.cas := checkCas_eq_of_faultless hcas
    refine ⟨⟨?named, nodup_checkCas List.nodup_nil, ?merge, ?extras⟩,
      ⟨hcolumns, forall₂_checkDeadlines hdeadlines, rfl, rfl, ?ignore, rfl, rfl⟩⟩
    case named =>
      intro hkept
      rcases mem_checkCas.1 hkept with hseen | ⟨hne, -⟩
      · cases hseen
      · exact hne rfl
    case merge =>
      intro hsome hnil
      have hnone : ∀ column ∈ props.cas, column = "" := isEmpty_checkCas.1 (List.isEmpty_iff.2 hnil)
      rw [if_pos ⟨hsome, hnone⟩] at hmerge
      cases hmerge.1
    case extras =>
      intro hextras
      rw [if_pos hextras] at hmerge
      cases hmerge.2
    case ignore =>
      intro column
      simp
  · exact .inr ⟨hfaults, if_neg fun h => hfaults (List.isEmpty_iff.1 h)⟩

variable {props table} in
theorem sound_of_config {made : TableConfig} (h : props.config table = .ok made) : made.Sound ∧ made.Keeps props := by
  rcases props.config_cases table with ⟨-, config, hok, hmade⟩ | ⟨-, herror⟩
  · rw [h] at hok
    cases hok
    exact hmade
  · rw [h] at herror
    cases herror

end TableProps

/-! ## One call -/

namespace Keyed
variable {κ α : Type} [DecidableEq κ]

/-- A map that was without a key has it in another one, which is otherwise the same. -/
def Adds (m : Keyed κ α) (key : κ) (value : α) (more : Keyed κ α) : Prop :=
  m.get? key = none ∧ ∀ other, more.get? other = if other = key then some value else m.get? other

variable {m more : Keyed κ α} {key : κ} {value : α}

theorem adds_put (h : m.contains key = false) : m.Adds key value (m.put key value) :=
  ⟨Option.isNone_iff_eq_none.1 (Option.isSome_eq_false_iff.1 h), m.get?_put key value⟩

theorem Adds.get?_self (h : m.Adds key value more) : more.get? key = some value := (h.2 key).trans (if_pos rfl)

theorem Adds.get?_of_some (h : m.Adds key value more) {other : κ} {held : α} (hother : m.get? other = some held) :
    more.get? other = some held := by
  have hne : other ≠ key := by
    rintro rfl
    rw [h.1] at hother
    cases hother
  rw [h.2, if_neg hne, hother]

end Keyed

namespace Registry
variable {r : Registry}

/-- All that a call does. -/
theorem perform_cases (r : Registry) (call : ScriptCall) :
    (∃ name props destination, call = .source name props ∧ r.sources.contains name = false ∧
      props.destination name = .ok destination ∧
      r.perform call = ({ r with sources := r.sources.put name ⟨name, destination, props.recurse⟩ }, .ok ())) ∨
    (∃ raw props name config, call = .table raw props ∧ TableName.parse raw = .ok name ∧
      r.tables.contains name = false ∧ props.config name.text = .ok config ∧
      r.perform call = ({ r with tables := r.tables.put name config }, .ok ())) ∨
    (∃ settings options result, call = .options settings ∧ r.perform call = ({ r with options }, result)) ∨
    ∃ fault, r.perform call = (r, .error fault) := by
  cases call with
  | source name props =>
    rw [perform, configureSource]
    by_cases hname : name = ""
    · exact .inr (.inr (.inr ⟨_, by rw [if_pos hname]; rfl⟩))
    · rw [if_neg hname]
      cases hcontains : r.sources.contains name with
      | true => exact .inr (.inr (.inr ⟨_, rfl⟩))
      | false =>
        cases hdestination : props.destination name with
        | error fault => exact .inr (.inr (.inr ⟨_, rfl⟩))
        | ok destination => exact .inl ⟨name, props, destination, rfl, hcontains, hdestination, rfl⟩
  | table raw props =>
    rw [perform, configureTable]
    cases hname : TableName.parse raw with
    | error fault => exact .inr (.inr (.inr ⟨_, rfl⟩))
    | ok name =>
      dsimp only
      cases hcontains : r.tables.contains name with
      | true => exact .inr (.inr (.inr ⟨_, rfl⟩))
      | false =>
        cases hconfig : props.config name.text with
        | error fault => exact .inr (.inr (.inr ⟨_, rfl⟩))
        | ok config => exact .inr (.inl ⟨raw, props, name, config, rfl, hname, hcontains, hconfig, rfl⟩)
  | options settings => exact .inr (.inr (.inl ⟨settings, _, _, rfl, rfl⟩))

/-- A call that fails configures no source and no table. -/
theorem configured_of_error {call : ScriptCall} {fault : Fault} (h : (r.perform call).2 = .error fault) :
    (r.perform call).1.sources = r.sources ∧ (r.perform call).1.tables = r.tables := by
  rcases r.perform_cases call with
    ⟨_, _, _, -, -, -, hrun⟩ | ⟨_, _, _, _, -, -, -, -, hrun⟩ | ⟨_, _, _, -, hrun⟩ | ⟨_, hrun⟩
  · rw [hrun] at h
    cases h
  · rw [hrun] at h
    cases h
  · rw [hrun]
    exact ⟨rfl, rfl⟩
  · rw [hrun]
    exact ⟨rfl, rfl⟩

theorem adds_of_source {name : String} {props : SourceProps} (h : (r.perform (.source name props)).2 = .ok ()) :
    (r.perform (.source name props)).1.tables = r.tables ∧
      ∃ destination, props.destination name = .ok destination ∧
        r.sources.Adds name ⟨name, destination, props.recurse⟩ (r.perform (.source name props)).1.sources := by
  rcases r.perform_cases (.source name props) with
    ⟨_, _, destination, hcall, hfree, hdestination, hrun⟩ | ⟨_, _, _, _, hcall, -, -, -, -⟩ | ⟨_, _, _, hcall, -⟩ |
      ⟨_, hrun⟩
  · cases hcall
    rw [hrun]
    exact ⟨rfl, destination, hdestination, Keyed.adds_put hfree⟩
  · cases hcall
  · cases hcall
  · rw [hrun] at h
    cases h

theorem adds_of_table {raw : String} {props : TableProps} (h : (r.perform (.table raw props)).2 = .ok ()) :
    (r.perform (.table raw props)).1.sources = r.sources ∧
      ∃ name config, TableName.parse raw = .ok name ∧ config.Keeps props ∧
        r.tables.Adds name config (r.perform (.table raw props)).1.tables := by
  rcases r.perform_cases (.table raw props) with
    ⟨_, _, _, hcall, -, -, -⟩ | ⟨_, _, name, config, hcall, hname, hfree, hmade, hrun⟩ | ⟨_, _, _, hcall, -⟩ | ⟨_, hrun⟩
  · cases hcall
  · cases hcall
    rw [hrun]
    exact ⟨rfl, name, config, hname, (TableProps.sound_of_config hmade).2, Keyed.adds_put hfree⟩
  · cases hcall
  · rw [hrun] at h
    cases h

/-- A table that is configured is not configured again, in whatever spelling. -/
theorem perform_table_of_configured {raw : String} {name : TableName} {config : TableConfig}
    (hname : TableName.parse raw = .ok name) (hconfig : r.tables.get? name = some config) (props : TableProps) :
    (r.perform (.table raw props)).2 = .error (.tableConfigured name.text) := by
  have hcontains : r.tables.contains name = true := by rw [Keyed.contains, hconfig, Option.isSome_some]
  simp only [perform, configureTable, hname, hcontains, if_true]
  rfl

/-- A table that is not configured yet is refused only if its properties are at fault, and then all faults are told. -/
theorem perform_table_of_free {raw : String} {name : TableName} (hname : TableName.parse raw = .ok name)
    (hfree : r.tables.get? name = none) (props : TableProps) :
    ((r.perform (.table raw props)).2 = .ok () ↔ props.faults name.text = []) ∧
      ∀ fault, (r.perform (.table raw props)).2 = .error fault → fault.parts = props.faults name.text := by
  have hcontains : r.tables.contains name = false := by rw [Keyed.contains, hfree, Option.isSome_none]
  simp only [perform, configureTable, hname, hcontains, Bool.false_eq_true, if_false]
  rcases props.config_cases name.text with ⟨hfaults, config, hconfig, -, -⟩ | ⟨hfaults, hconfig⟩
  · rw [hconfig]
    refine ⟨iff_of_true rfl hfaults, ?_⟩
    intro fault hfault
    cases hfault
  · rw [hconfig]
    refine ⟨iff_of_false ?_ hfaults, ?_⟩
    · intro hok
      cases hok
    · intro fault hfault
      cases hfault
      apply Fault.parts_gather
      intro part hpart
      exact props.isSingle_of_mem_faults name.text hpart

/-! ## Scripts -/

theorem performAll_concat (r : Registry) (script : List ScriptCall) (call : ScriptCall) :
    r.performAll (script ++ [call]) = ((r.performAll script).perform call).1 := List.foldl_concat ..

/-- All that is configured in a registry is configured in another one, in the same way. -/
structure Extends (r more : Registry) : Prop where
  sources {name : String} {config : SourceConfig} :
    r.sources.get? name = some config → more.sources.get? name = some config
  tables {name : TableName} {config : TableConfig} :
    r.tables.get? name = some config → more.tables.get? name = some config

theorem extends_perform (r : Registry) (call : ScriptCall) : r.Extends (r.perform call).1 := by
  rcases r.perform_cases call with
    ⟨_, _, _, -, hfree, -, hrun⟩ | ⟨_, _, _, _, -, -, hfree, -, hrun⟩ | ⟨_, _, _, -, hrun⟩ | ⟨_, hrun⟩
  · rw [hrun]
    exact ⟨(Keyed.adds_put hfree).get?_of_some, id⟩
  · rw [hrun]
    exact ⟨id, (Keyed.adds_put hfree).get?_of_some⟩
  · rw [hrun]
    exact ⟨id, id⟩
  · rw [hrun]
    exact ⟨id, id⟩

theorem extends_performAll (r : Registry) (script : List ScriptCall) : r.Extends (r.performAll script) := by
  induction script using List.reverseRecOn with
  | nil => exact ⟨id, id⟩
  | append_singleton script call ih =>
    rw [performAll_concat]
    have hcall := extends_perform (r.performAll script) call
    exact ⟨hcall.sources ∘ ih.sources, hcall.tables ∘ ih.tables⟩

/-- Every table was configured by a call of a script, is sound and is what the call asked for. -/
def Given (script : List ScriptCall) (r : Registry) : Prop :=
  ∀ name config, r.tables.get? name = some config →
    config.Sound ∧ ∃ raw props, .table raw props ∈ script ∧ TableName.parse raw = .ok name ∧ config.Keeps props

theorem Given.perform {script : List ScriptCall} (h : Given script r) (call : ScriptCall) :
    Given (script ++ [call]) (r.perform call).1 := by
  intro name config hconfig
  have hold (hbefore : r.tables.get? name = some config) :
      config.Sound ∧ ∃ raw props, .table raw props ∈ script ++ [call] ∧ TableName.parse raw = .ok name ∧
        config.Keeps props := by
    obtain ⟨hsound, raw, props, hmem, hgiven⟩ := h name config hbefore
    exact ⟨hsound, raw, props, List.mem_append_left _ hmem, hgiven⟩
  rcases r.perform_cases call with
    ⟨_, _, _, -, -, -, hrun⟩ | ⟨raw, props, added, made, hcall, hname, -, hmade, hrun⟩ | ⟨_, _, _, -, hrun⟩ | ⟨_, hrun⟩
  · rw [hrun] at hconfig
    exact hold hconfig
  · rw [hrun, Keyed.get?_put] at hconfig
    split at hconfig
    · next hadded =>
      cases hconfig
      obtain ⟨hsound, hkeeps⟩ := TableProps.sound_of_config hmade
      rw [hadded]
      exact ⟨hsound, raw, props, by simp [hcall], hname, hkeeps⟩
    · exact hold hconfig
  · rw [hrun] at hconfig
    exact hold hconfig
  · rw [hrun] at hconfig
    exact hold hconfig

theorem given_performAll (options : Options) (script : List ScriptCall) :
    Given script ((ofOptions options).performAll script) := by
  induction script using List.reverseRecOn with
  | nil =>
    intro name config hconfig
    cases hconfig
  | append_singleton script call ih =>
    rw [performAll_concat]
    exact ih.perform call

end Registry

/-- Behind every script: a call that fails configures nothing; a source or a table that is configured was not there
before and stays as it is, under whatever spelling it is configured again; every table is sound and what its call asked
for; and a table whose name is free is refused for all that is wrong with it and for nothing else. -/
theorem registry_is_sound (options : Options) (script : List ScriptCall) :
    let r := (Registry.ofOptions options).performAll script
    (∀ call fault, (r.perform call).2 = .error fault →
        (r.perform call).1.sources = r.sources ∧ (r.perform call).1.tables = r.tables) ∧
      (∀ name props, (r.perform (.source name props)).2 = .ok () →
        let after := (r.perform (.source name props)).1
        after.tables = r.tables ∧ ∃ destination, props.destination name = .ok destination ∧
          r.sources.Adds name ⟨name, destination, props.recurse⟩ after.sources ∧
          ∀ later, (after.performAll later).sources.get? name = some ⟨name, destination, props.recurse⟩) ∧
      (∀ raw props, (r.perform (.table raw props)).2 = .ok () →
        let after := (r.perform (.table raw props)).1
        after.sources = r.sources ∧ ∃ name config, TableName.parse raw = .ok name ∧ config.Keeps props ∧
          r.tables.Adds name config after.tables ∧
          ∀ later, (after.performAll later).tables.get? name = some config ∧
            ∀ spelling again, TableName.parse spelling = .ok name →
              ((after.performAll later).perform (.table spelling again)).2 = .error (.tableConfigured name.text)) ∧
      (∀ name config, r.tables.get? name = some config →
        config.Sound ∧ ∃ raw props, .table raw props ∈ script ∧ TableName.parse raw = .ok name ∧ config.Keeps props) ∧
      ∀ raw name props, TableName.parse raw = .ok name → r.tables.get? name = none →
        ((r.perform (.table raw props)).2 = .ok () ↔ props.faults name.text = []) ∧
          ∀ fault, (r.perform (.table raw props)).2 = .error fault → fault.parts = props.faults name.text := by
  intro r
  refine ⟨?failing, ?source, ?table, Registry.given_performAll options script, ?refused⟩
  case failing =>
    intro call fault herror
    exact Registry.configured_of_error herror
  case source =>
    intro name props hok after
    obtain ⟨htables, destination, hdestination, hadds⟩ := Registry.adds_of_source hok
    refine ⟨htables, destination, hdestination, hadds, ?_⟩
    intro later
    exact (after.extends_performAll later).sources hadds.get?_self
  case table =>
    intro raw props hok after
    obtain ⟨hsources, name, config, hname, hkeeps, hadds⟩ := Registry.adds_of_table hok
    refine ⟨hsources, name, config, hname, hkeeps, hadds, ?_⟩
    intro later
    have hkept := (after.extends_performAll later).tables hadds.get?_self
    refine ⟨hkept, ?_⟩
    intro spelling again hspelling
    exact Registry.perform_table_of_configured hspelling hkept again
  case refused =>
    intro raw name props hname hfree
    exact Registry.perform_table_of_free hname hfree props

namespace Example

/-- The table of the examples. -/
def stock : TableName := ⟨["stock"], by decide, by decide, by decide⟩

/-- Properties that are accepted. -/
def counted : TableProps := ⟨["counted"], [("counted", "5m")], [], some "rest", [("kept", false), ("gone", true)], none,
  some (.standard none)⟩

/-- Properties with four faults. -/
def flawed : TableProps := ⟨["", "a", "a"], [("a", "soon"), ("b", "1h")], [], some "", [], none, none⟩

end Example

open Example in
/-- A table is refused for four faults. With other properties it is configured, and then not once more under a quoted
spelling of its name. -/
theorem flawed_table_is_configured_later :
    let start := Registry.ofOptions .default
    let after := (start.perform (.table "stock" counted)).1
    (∃ fault, (start.perform (.table "stock" flawed)).2 = .error fault ∧ fault.parts =
      [.emptyCasColumn "stock", .repeatedCasColumn "stock" "a",
        .invalidDeadline "stock" "a" "soon" "expected number at 0", .emptyExtras "stock"]) ∧
      (start.perform (.table "stock" flawed)).1.tables = start.tables ∧
      (after.perform (.table " \"stock\"" counted)).2 = .error (.tableConfigured "stock") ∧
      ∃ config, after.tables.get? stock = some config ∧ config.cas = ["counted"] ∧
        "gone" ∈ config.ignore ∧ "kept" ∉ config.ignore := by
  intro start after
  have htext : stock.text = "stock" := by decide
  have hname : TableName.parse "stock" = .ok stock := TableName.parse_text stock
  have htrimmed : trimChars " \"stock\"".toList = '\"' :: (TableName.double "stock".toList ++ ['\"']) := by decide
  have hquoted : TableName.parse " \"stock\"" = .ok stock := by
    rw [TableName.parse_eq_ok_iff, htrimmed]
    exact .last (.quoted (by decide))
  have hcounted : counted.faults stock.text = [] := rfl
  have hsoon : deadlineFault? "stock" ("a", "soon") =
      some (.invalidDeadline "stock" "a" "soon" "expected number at 0") := rfl
  have hhour : deadlineFault? "stock" ("b", "1h") = none := rfl
  have hflawed : flawed.faults stock.text =
      [.emptyCasColumn "stock", .repeatedCasColumn "stock" "a",
        .invalidDeadline "stock" "a" "soon" "expected number at 0", .emptyExtras "stock"] := by
    rw [htext]
    simp [TableProps.faults, flawed, casFault?, hsoon, hhour]
  obtain ⟨hfails, -, htable, -, hfaults⟩ := registry_is_sound .default []
  obtain ⟨hok, -⟩ := hfaults "stock" stock counted hname rfl
  obtain ⟨hrefused, hparts⟩ := hfaults "stock" stock flawed hname rfl
  obtain ⟨-, name, config, hspelled, hkeeps, hadds, hlater⟩ := htable "stock" counted (hok.2 hcounted)
  cases hname.symm.trans hspelled
  have hagain := (hlater []).2 " \"stock\"" counted hquoted
  rw [htext] at hagain
  have hkept : "kept" ∉ config.ignore := by
    intro hmem
    have htrue := (hkeeps.ignore "kept").1 hmem
    simp [counted] at htrue
  cases hrun : (start.perform (.table "stock" flawed)).2 with
  | ok _ =>
    rw [hflawed] at hrefused
    cases hrefused.1 hrun
  | error fault =>
    exact ⟨⟨fault, rfl, (hparts fault hrun).trans hflawed⟩, (hfails _ fault hrun).2, hagain, config, hadds.get?_self,
      hkeeps.cas, (hkeeps.ignore "gone").2 (by decide), hkept⟩

end Tributary
