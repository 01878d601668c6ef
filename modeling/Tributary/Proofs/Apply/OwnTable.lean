import Tributary.Proofs.Apply.Alone
import Tributary.Proofs.Apply.Discards
import Tributary.Proofs.Table.Spelling

/-!
# Tables as sources

A changefeed names its table, and the text of the table names its source. A source that is not configured passes its
mutations on to the table that its name is read as. Since every name is read back from its text, this is the table of
the changefeed.

* `source_of_unconfigured`: the source is found in the text of the table.
* `entries_passing`: all mutations are bound for this table.
* `table_names_survive_their_text`: writing and reading of table names, and what follows for changefeeds.
-/

namespace Tributary

open Run TableName Text

/-- A source that is not configured passes its mutations on to the table of its name. -/
theorem source_of_unconfigured {registry : Registry} {table : TableName}
    (h : registry.sources.get? table.text = none) :
    registry.source table.text = .ok (.passing table.text table) := by
  unfold Registry.source
  rw [h, parse_text]
  rfl

/-- Every mutation is the one entry of its own, bound for the table. -/
theorem entries_passing (registry : Registry) (name : String) (table : TableName) (batch : List Mutation) :
    entries registry (.passing name table) batch = batch.zipIdx.map fun e => ⟨e.2, some table, e.1⟩ := by
  have hentries (e : Mutation × Nat) : RoutedSource.entries ⟨e.2, e.1, (route (.passing name table)
      registry.options.functionTimeout registry.options.maxDepth e.1).attempt.value⟩ = [⟨e.2, some table, e.1⟩] := by
    rw [route_passing]
    rfl
  rw [entries, routedFrom, List.flatMap_map, funext hentries, ← List.map_eq_flatMap]

/-- The outcomes of a changefeed to a table that is no configured source are bound for this table, one for each
mutation. -/
theorem labels_of_changefeed {σ : Type} [TargetStore σ] {registry : Registry} {table : TableName}
    (h : registry.sources.get? table.text = none) {clock : Clock} {body : String} {s s' : Session σ}
    {outcomes : List Outcome} (hrun : (processChangefeed registry clock table body).exec s = (.ok outcomes, s')) :
    ∃ batch, Changefeed.parse body table registry.options.lineLimit = .ok batch ∧
      (outcomes.map fun o => (o.index, o.table)) = (List.range batch.length).map fun i => (i, some table) := by
  obtain ⟨batch, t, hparsed, hbatch⟩ := exec_bind_ok hrun
  rw [exec_liftM] at hparsed
  cases hparse : Changefeed.parse body table registry.options.lineLimit with
  | error fault =>
    rw [hparse] at hparsed
    cases hparsed
  | ok batch =>
    rw [hparse] at hparsed
    cases hparsed
    refine ⟨batch, rfl, ?_⟩
    rw [processBatch_eq_processArranged] at hbatch
    have hindexes : batch.zipIdx.map Prod.snd = List.range batch.length := by
      rw [List.zipIdx_map_snd, ← List.range_eq_range']
    rw [labels_of_run (source_of_unconfigured h) hbatch, entries_passing, List.map_map, ← hindexes, List.map_map]
    rfl

/-- Writing a table name and reading its text gives the name back, whatever characters are in its segments, so that
different names have different texts. A text is read as a name exactly if, blanks at its ends apart, it spells one to
three segments, and these are the segments of the name. A changefeed to a table whose text is no configured source
goes to this table, mutation by mutation. -/
theorem table_names_survive_their_text :
    (∀ segments : List String, segments ≠ [] → segments.length ≤ 3 → "" ∉ segments →
      ∃ t, ofSegments segments = .ok t ∧ t.segments = segments ∧ parse t.text = .ok t) ∧
    (∀ t t' : TableName, t.text = t'.text → t = t') ∧
    (∀ (raw : String) (segments : List String), (∃ t, parse raw = .ok t ∧ t.segments = segments) ↔
      segments.length ≤ 3 ∧ Spells (trimChars raw.toList) (segments.map String.toList)) ∧
    ∀ (registry : Registry) (table : TableName), registry.sources.get? table.text = none →
      (∃ config, registry.source table.text = .ok config ∧ ∀ m : Mutation,
        (route config registry.options.functionTimeout registry.options.maxDepth m).attempt.value =
          .ok [⟨table, m⟩]) ∧
      ∀ (σ : Type) [TargetStore σ] (clock : Clock) (body : String) (s s' : Session σ) (outcomes : List Outcome),
        (processChangefeed registry clock table body).exec s = (.ok outcomes, s') →
          ∃ batch, Changefeed.parse body table registry.options.lineLimit = .ok batch ∧
            (outcomes.map fun o => (o.index, o.table)) = (List.range batch.length).map fun i => (i, some table) := by
  refine ⟨fun segments hne hlength hfilled => ?_, fun t t' => text_injective, fun raw segments => exists_parse_iff,
    fun registry table h => ⟨⟨_, source_of_unconfigured h, fun m => ?_⟩, ?_⟩⟩
  · obtain ⟨t, hname, hsegments⟩ := exists_ofSegments hne hlength hfilled
    exact ⟨t, hname, hsegments, parse_text t⟩
  · rw [route_passing]
    rfl
  · exact fun σ _ clock body s s' outcomes hrun => labels_of_changefeed h hrun

namespace Example

/-- A table whose name needs quotes: there is a dot in its schema, and there are quotes, a blank and a line break in
its own name. -/
def quoted : TableName := ⟨["a.b", "say \"hi\"\n"], by decide, by decide, by decide⟩

/-- A store with this table. -/
def quotedStore : MemoryStore := MemoryStore.empty.createTable ⟨quoted, [⟨"id", true⟩], false⟩

/-- A changefeed with one deletion. -/
def deletion : String := "\x7b\"key\": [true], \"updated\": \"1\"\x7d\n"

/-- A registry without sources and tables. -/
def bare : Registry := ⟨.default, .empty, .empty⟩

end Example

/-- The name is read back from its text, and the deletion goes to the table of this name. -/
theorem deletion_goes_to_quoted_table :
    Example.quoted.text = "\"a.b\".\"say \"\"hi\"\"\n\"" ∧ parse Example.quoted.text = .ok Example.quoted ∧
      ∃ outcomes s', (processChangefeed Example.bare default Example.quoted Example.deletion).exec
          (.ofStore Example.quotedStore) = (.ok outcomes, s') ∧
        (outcomes.map fun o => (o.index, o.table)) = [(0, some Example.quoted)] := by
  obtain ⟨hwritten, -, -, hsources⟩ := table_names_survive_their_text
  obtain ⟨t, hname, -, hread⟩ := hwritten Example.quoted.segments (by decide) (by decide) (by decide)
  obtain rfl : t = Example.quoted := Except.ok.inj (hname.symm.trans (ofSegments_eq_ok_iff.2 rfl))
  obtain ⟨-, hfeed⟩ := hsources Example.bare Example.quoted rfl
  have hok : ((processChangefeed Example.bare default Example.quoted Example.deletion).exec
      (.ofStore Example.quotedStore)).1.isOk = true := by decide +kernel
  have hlength : (Changefeed.parse Example.deletion Example.quoted Example.bare.options.lineLimit).toOption.map
      List.length = some 1 := by decide +kernel
  obtain ⟨outcomes, s', hrun⟩ := exec_of_isOk hok
  obtain ⟨batch, hparse, hlabels⟩ := hfeed MemoryStore default Example.deletion _ s' outcomes hrun
  rw [hparse] at hlength
  rw [Option.some.inj hlength] at hlabels
  exact ⟨by rw [text]; rfl, hread, outcomes, s', hrun, hlabels⟩

end Tributary
