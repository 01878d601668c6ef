import Tributary.Proofs.Apply.Readiness
import Tributary.Proofs.Apply.RowEffects
import Tributary.Proofs.Row.Integral

/-!
# Batches that are delivered twice

A batch may be delivered again after it was processed. On tables without a merge this changes no row, as
long as all numbers are integers: a float that counts as the same as a stored integer would replace it.

* `IntegralBatch`: all numbers of a batch, of what user functions make of it and of stored rows are integers.
* `comparable_of_plan`: so the rows that the plan proposes can be compared with those that are stored.
* `redelivery_changes_nothing`: a batch that succeeded does so again, and leaves the same rows.
-/

namespace Tributary

open Run

variable {registry : Registry} {clock : Clock} {config : SourceConfig} {batch : List Mutation}
  {plan : Numbered × List Prepared} {s s₁ s' : Session MemoryStore}

/-! ## Integers -/

/-- The values that a row has in some columns are integers or null. -/
def IntegerOrNull (columns : List String) (d : Document) : Prop :=
  ∀ column ∈ columns, ∀ v, d.get? column = some v → v = .null ∨ ∃ n h, v = .number (.integer n h)

theorem uniform_integer : Uniform (· = .integer) where
  number h := by cases h.2
  clockTime h := by cases h.1
  clockText h := by cases h.1
  timeText h := by cases h.1

theorem IntegerOrNull.comparable {columns : List String} {d : Document} (h : IntegerOrNull columns d)
    (hd : d.Integral) : RowAction.Comparable (· = .integer) columns d := by
  refine ⟨hd, fun column hcolumn v hv => ?_⟩
  rcases h column hcolumn v hv with rfl | ⟨n, hn, rfl⟩
  · trivial
  · rfl

/-- A batch that arrives in a session has to do with no number that is not an integer. -/
structure IntegralBatch (registry : Registry) (config : SourceConfig) (s : Session MemoryStore)
    (batch : List Mutation) : Prop where
  sent : ∀ m ∈ batch, m.Integral
  dispatched : ∀ function deletesTo, config.destination = .dispatch function deletesTo →
    ∀ e ∈ entries registry config batch, e.mutation.Integral
  mapped : ∀ e ∈ entries registry config batch, ∀ table data function v, e.table = some table →
    e.mutation.data = some data → (registry.table table).map = some function →
      (function data e.mutation.origin).ending = .value v → v.Integral
  stored : ∀ id row, s.store.row? id = some row → row.Integral

/-- The row that a batch proposes for a table when it arrives in a session. -/
def Proposes (registry : Registry) (config : SourceConfig) (s : Session MemoryStore)
    (batch : List Mutation) (table : TableName) (row : MappedRow) : Prop :=
  ∃ e ∈ entries registry config batch, ∃ data schema, e.table = some table ∧
    e.mutation.data = some data ∧ s.shape? table = some schema ∧
    (mapRow (registry.table table) schema registry.options.functionTimeout data
      e.mutation.origin).attempt.value = .ok (some row)

/-- The mutations that were routed carry integral documents as well. -/
theorem IntegralBatch.entries (h : IntegralBatch registry config s batch) :
    ∀ e ∈ entries registry config batch, e.mutation.Integral := by
  intro e he
  cases hdestination : config.destination with
  | dispatch function deletesTo => exact h.dispatched function deletesTo hdestination e he
  | target table =>
    obtain ⟨r, hr, hentry⟩ := List.mem_flatMap.1 he
    obtain ⟨found, hfound, rfl⟩ := List.mem_map.1 hr
    have hsent := h.sent found.1 (List.fst_mem_of_mem_zipIdx hfound)
    have hroutes := (route_yields hdestination registry.options.functionTimeout registry.options.maxDepth
      hsent).result
    unfold RoutedSource.entries at hentry
    dsimp only at hentry
    split at hentry
    · cases List.mem_singleton.1 hentry
      exact hsent
    · cases List.mem_singleton.1 hentry
      exact hsent
    · rename_i routed _ hrouted
      obtain ⟨one, hone, rfl⟩ := List.mem_map.1 hentry
      exact hroutes routed hrouted one hone

theorem Proposes.integral {table : TableName} {row : MappedRow} (h : IntegralBatch registry config s batch)
    (hrow : Proposes registry config s batch table row) : row.row.Integral := by
  obtain ⟨e, he, data, schema, htable, hdata, -, hmapped⟩ := hrow
  have hyields := mapRow_yields schema registry.options.functionTimeout
    (h.entries e he data hdata) fun function v hfunction hv =>
      h.mapped e he table data function v htable hdata hfunction hv
  exact hyields.result _ hmapped row rfl

theorem proposes_of_plan (hplan : (planFrom registry clock config 0 0 batch).exec s = (.ok plan, s₁))
    {p : Prepared} (hp : p ∈ plan.2) {row : MappedRow} (haction : p.action = .upsert row) :
    Proposes registry config s batch p.row.table row := by
  obtain ⟨hentry, hready⟩ := readyAt_of_plan hplan hp
  obtain ⟨data, schema, hdata, hshape, hmapped⟩ := mapRow_of_readyAt hready haction
  exact ⟨p.placed.entry.1, hentry, data, schema, rfl, hdata, hshape, hmapped⟩

/-! ## The whole statement -/

/-- If a batch of changes to tables without a merge succeeds, then processing it once more succeeds and
leaves every row as it is. -/
theorem redelivery_changes_nothing (source : String) (first second : Arrangement)
    {outcomes : List Outcome} (hsource : registry.source source = .ok config)
    (hreach : Reachable s.store)
    (hmerge : ∀ e ∈ entries registry config batch, ∀ table, e.table = some table →
      (registry.table table).merge = none)
    (hintegral : IntegralBatch registry config s batch)
    (hproposed : ∀ table row, Proposes registry config s batch table row →
      IntegerOrNull (registry.table table).cas row.row)
    (hstored : ∀ id row, s.store.row? id = some row → IntegerOrNull (registry.table id.table).cas row)
    (hrun : (processArranged registry clock source first batch).exec s = (.ok outcomes, s')) :
    ∃ again s'', (processArranged registry clock source second batch).exec s' = (.ok again, s'') ∧
      ∀ id, s''.store.row? id = s'.store.row? id := by
  obtain ⟨config', plan, s₁, applied, hsource', hplan, happlied, -⟩ := processArranged_run hrun
  cases hsource.symm.trans hsource'
  have hmerge : ∀ p ∈ plan.2, (registry.table p.row.table).merge = none :=
    fun p hp => hmerge _ (readyAt_of_plan hplan hp).1 _ rfl
  have hmergeIn (arrangement : Arrangement) : ∀ p ∈ (arrangement.arrange (groupRows plan.2)).flatten,
      (registry.table p.row.table).merge = none :=
    fun p hp => hmerge p ((arrangement.flatten_perm plan.2).mem_iff.1 hp)
  obtain ⟨hplanned, hstores⟩ := planFrom_follows hplan
  -- the tables of what reaches its row exist, since the first run has succeeded
  have htables : ∀ p ∈ plan.2, p.action.reaches registry.options = true →
      s₁.store.hasTable p.row.table = true := by
    have hs₁ : RowsHaveTables s₁.store := by
      intro id row hrow
      rw [hstores] at hrow
      rw [← hplanned.hasTable]
      exact hreach.rowsHaveTables id row hrow
    intro p hp
    exact hasTable_of_applyGroup (hmergeIn first) hs₁ happlied p ((first.flatten_perm plan.2).mem_iff.2 hp)
  obtain ⟨letters, hfollows⟩ := (applyGroup_local registry config.name _).follows s₁
  rw [happlied] at hfollows
  have hsame : s.SameTables s' := hplanned.trans hfollows.tables
  obtain ⟨s₂, hplan'⟩ := planFrom_exec_of_sameTables hsame hplan
  obtain ⟨hplanned', -⟩ := planFrom_follows hplan'
  obtain ⟨applied', s'', happlied'⟩ := applyGroup_succeeds config.name (hmergeIn second)
    (s := s₂) fun p hp hreaches => by
      rw [← hplanned'.hasTable, ← hfollows.tables.hasTable]
      exact htables p ((second.flatten_perm plan.2).mem_iff.1 hp) hreaches
  refine ⟨_, s'', processArranged_exec second hsource hplan' happlied', fun id => ?_⟩
  rw [row_of_plan second hplan' hmerge happlied', row_of_plan first hplan hmerge happlied]
  refine RowAction.onAll_onAll uniform_integer (fun proposed hin => ?_) fun old hold => ?_
  · obtain ⟨p, hp, haction⟩ := List.mem_map.1 (List.mem_of_mem_filter hin)
    obtain ⟨hpin, hplace⟩ := List.mem_filter.1 hp
    have hproposes := proposes_of_plan hplan hpin haction
    have htable : p.row.table = id.table := congrArg RowAddress.table (of_decide_eq_true hplace)
    rw [htable] at hproposes
    exact (hproposed _ _ hproposes).comparable (hproposes.integral hintegral)
  · exact (hstored id old hold).comparable (hintegral.stored id old hold)

namespace Example

/-- What was paid for an order. -/
def amount (n : Fin 8) : Document :=
  .ofList [("paid", .number (.integer n (by have := n.isLt; omega)))]

/-- A registry in which a higher amount is newer. -/
def ranked : Registry :=
  ⟨.default, Keyed.empty.put "orders" feed,
    Keyed.empty.put orders.name { TableConfig.plain with cas := ["paid"] }⟩

/-- A payment for one of two orders, or the deletion of the order. -/
def payment (paid : Option (Fin 8)) (second : Bool) : Mutation :=
  ⟨none, paid.map amount, [.bool second], default, .empty⟩

/-- Two payments for one order, the second of which is stale, and one for another that is made anew. -/
def payments : List Mutation :=
  [payment (some 2) true, payment (some 1) true, payment none false, payment (some 1) false]

/-- A store that holds the order. -/
def opened : MemoryStore := StoreOp.runAll [.createTable orders, .insert order (amount 1)] .empty

theorem row?_opened {id : RowId} {row : Document} (h : opened.row? id = some row) :
    id.table = orders.name ∧ row = amount 1 := by
  have hrow : opened.row? id = ((((MemoryStore.empty.createTable orders).advance).putRow order
    (amount 1)).stored? id).map StoredRow.data := rfl
  rw [hrow, MemoryStore.stored?_putRow] at h
  split at h
  · rename_i haddress
    cases h
    exact ⟨congrArg RowAddress.table haddress, rfl⟩
  · cases h

theorem amount_integral (n : Fin 8) : (amount n).Integral :=
  Document.integral_empty.insertAll fun f hf => by
    cases List.mem_singleton.1 hf
    trivial

theorem amount_integerOrNull (n : Fin 8) : IntegerOrNull ["paid"] (amount n) := by
  intro column hcolumn v hv
  cases List.mem_singleton.1 hcolumn
  cases hv
  exact .inr ⟨_, _, rfl⟩

theorem payment_integral (paid : Option (Fin 8)) (second : Bool) : (payment paid second).Integral := by
  intro data hdata
  obtain ⟨n, -, rfl⟩ := Option.map_eq_some_iff.1 hdata
  exact amount_integral n

theorem mem_payments {m : Mutation} (h : m ∈ payments) : ∃ paid second, m = payment paid second := by
  simp only [payments, List.mem_cons, List.not_mem_nil, or_false] at h
  rcases h with rfl | rfl | rfl | rfl <;> exact ⟨_, _, rfl⟩

theorem mem_entries_payments {e : Entry} (h : e ∈ entries ranked feed payments) :
    e.table = some orders.name ∧ ∃ paid second, e.mutation = payment paid second := by
  have hentries : entries ranked feed payments =
    payments.zipIdx.map fun m => ⟨m.2, some orders.name, m.1⟩ := rfl
  rw [hentries] at h
  obtain ⟨m, hm, rfl⟩ := List.mem_map.1 h
  exact ⟨rfl, mem_payments (List.fst_mem_of_mem_zipIdx hm)⟩

theorem payments_integral : IntegralBatch ranked feed (.ofStore opened) payments where
  sent m hm := by
    obtain ⟨paid, second, rfl⟩ := mem_payments hm
    exact payment_integral paid second
  dispatched function deletesTo h := by cases h
  mapped e he table data function v htable hdata hfunction _ := by
    obtain ⟨horders, -⟩ := mem_entries_payments he
    cases horders.symm.trans htable
    cases hfunction
  stored id row hrow := (row?_opened hrow).2 ▸ amount_integral 1

set_option maxRecDepth 4000 in
theorem applyArranged_payments :
    ((applyArranged ranked default feed .asFound payments).exec (.ofStore opened)).1 =
      .ok [(0, outcome 0 true .applied), (1, outcome 1 true (.dropped .stale)),
        (2, outcome 2 false .deleted), (3, outcome 3 false .applied)] := rfl

end Example

/-- Payments that are delivered twice leave what they left the first time. -/
theorem payments_twice_are_payments_once :
    ∃ after again later, (processArranged Example.ranked default "orders" .asFound Example.payments).exec
          (.ofStore Example.opened) =
        (.ok [Example.outcome 0 true .applied, Example.outcome 1 true (.dropped .stale),
          Example.outcome 2 false .deleted, Example.outcome 3 false .applied], after) ∧
      (processArranged Example.ranked default "orders" Example.backwards Example.payments).exec after =
        (.ok again, later) ∧ ∀ id, later.store.row? id = after.store.row? id := by
  have hsource : Example.ranked.source "orders" = .ok Example.feed := rfl
  obtain ⟨after, hrun⟩ : ∃ after, (processArranged Example.ranked default "orders" .asFound
      Example.payments).exec (.ofStore Example.opened) =
        (.ok [Example.outcome 0 true .applied, Example.outcome 1 true (.dropped .stale),
          Example.outcome 2 false .deleted, Example.outcome 3 false .applied], after) := by
    refine ⟨_, exec_of_fst ?_⟩
    rw [processArranged_eq hsource, exec_map, Example.applyArranged_payments]
    exact congrArg Except.ok (inOrder_of_sorted (.refl _) (by decide) (by simp))
  obtain ⟨again, later, hagain, hrows⟩ := redelivery_changes_nothing "orders" .asFound Example.backwards
    hsource ⟨_, rfl⟩
    (fun e he table htable => by
      obtain ⟨horders, -⟩ := Example.mem_entries_payments he
      cases horders.symm.trans htable
      rfl)
    Example.payments_integral
    (fun table row hrow => by
      obtain ⟨e, he, data, schema, htable, hdata, hschema, hmapped⟩ := hrow
      obtain ⟨horders, paid, second, hpayment⟩ := Example.mem_entries_payments he
      cases horders.symm.trans htable
      cases hschema
      rw [hpayment] at hdata hmapped
      obtain ⟨n, -, rfl⟩ := Option.map_eq_some_iff.1 hdata
      cases hmapped
      exact Example.amount_integerOrNull n)
    (fun id row hrow => by
      obtain ⟨htable, rfl⟩ := Example.row?_opened hrow
      rw [htable]
      exact Example.amount_integerOrNull 1)
    hrun
  exact ⟨after, again, later, hrun, hagain, hrows⟩

end Tributary
