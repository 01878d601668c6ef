import Tributary.Proofs.Apply.Attribution
import Tributary.Proofs.Row.Deadline

/-!
# Rows that miss a deadline

An upsert whose row misses a deadline is dropped before any row is touched. No deadline is skipped because of another
one, and nothing behind the check brings the mutation back.

* `Entry.MapsTo`: the row that an upsert is mapped into.
* `discard?_of_check`: an upsert whose row the check does not accept is dropped.
* `every_deadline_is_enforced`: what the check accepts, and what becomes of the mutations that it does not accept.
-/

namespace Tributary

open Run Deadline

/-- The entry of a batch is an upsert to a table, and its document is mapped into a row. -/
structure Entry.MapsTo (registry : Registry) (s : Session MemoryStore) (e : Entry) (table : TableName)
    (row : MappedRow) : Prop where
  bound : e.table = some table
  mapped : ∃ data schema, e.mutation.data = some data ∧ s.shape? table = some schema ∧
    (mapRow (registry.table table) schema registry.options.functionTimeout data e.mutation.origin).attempt.value =
      .ok (some row)

section

variable {registry : Registry} {clock : Clock} {config : SourceConfig} {s : Session MemoryStore} {e : Entry}
  {number : Nat} {table : TableName} {row : MappedRow}

/-- What a check does not accept is dropped: as too late, or as invalid if a column holds something that is no time. -/
theorem discard?_of_check (config : SourceConfig) (hmaps : e.MapsTo registry s table row)
    (hcheck : Deadline.check row.row (clock.time number) (registry.table table).deadlines ≠ .ok none) :
    e.discard? registry clock config s number = some .deadline ∨
      e.discard? registry clock config s number = some .invalid := by
  obtain ⟨data, schema, hdata, hshape, hmapped⟩ := hmaps.mapped
  let placed : Placed := ⟨number, e.index, ⟨table, e.mutation⟩⟩
  have hdiscard : e.discard? registry clock config s number = (preparedAt registry clock s placed).discard? := by
    unfold Entry.discard?
    rw [hmaps.bound]
  have hprepare : ((prepare registry clock placed).exec s).1 =
      ((prepareUpsert registry (clock.time number) placed data).exec s).1 := by
    unfold prepare
    rw [hdata]
  rw [hdiscard, PreparedSource.discard?, preparedAt, hprepare, prepareUpsert_value hshape (clock.time number) data,
    hmapped]
  dsimp only
  cases hresult : Deadline.check row.row (clock.time number) (registry.table table).deadlines with
  | error fault =>
    refine .inr ?_
    show fault.discard? = some .invalid
    rw [Fault.discard?, Fault.action, kind_of_check_error hresult]
    rfl
  | ok expired =>
    cases expired with
    | none => exact absurd hresult hcheck
    | some _ => exact .inl rfl

end

/-- The check accepts exactly the rows that meet all deadlines, and a row that it does not accept is not accepted at
any later time. An upsert whose row misses a deadline is dropped as too late or invalid, wherever in a batch it is, and
leaves nothing in the store, whether or not the batch succeeds. -/
theorem every_deadline_is_enforced :
    (∀ (row : Document) (now : Instant) (deadlines : List (String × Span)), now.IsPlain → PlainTimes row deadlines →
      (Deadline.check row now deadlines = .ok none ↔ ∀ d ∈ deadlines, Met row now d.1 d.2) ∧
      ∀ later : Instant, later.IsPlain → now.point ≤ later.point →
        Deadline.check row now deadlines ≠ .ok none → Deadline.check row later deadlines ≠ .ok none) ∧
    ∀ (registry : Registry) (clock : Clock) (name : String) (config : SourceConfig) (arrangement : Arrangement)
      (batch : List Mutation) (s : Session MemoryStore) (number : Nat) (e : Entry) (table : TableName)
      (row : MappedRow),
      registry.source name = .ok config → (entries registry config batch)[number]? = some e →
        e.MapsTo registry s table row → (clock.time number).IsPlain →
        PlainTimes row.row (registry.table table).deadlines →
        (∃ d ∈ (registry.table table).deadlines, ¬ Met row.row (clock.time number) d.1 d.2) →
      (∀ outcomes s', (processArranged registry clock name arrangement batch).exec s = (.ok outcomes, s') →
        outcomes[number]? = some ⟨e.index, some table, none, .dropped .deadline⟩ ∨
          outcomes[number]? = some ⟨e.index, some table, none, .dropped .invalid⟩) ∧
      LeftNothing registry clock config batch s ((processArranged registry clock name arrangement batch).exec s).2
        number := by
  constructor
  · intro row now deadlines hnow hplain
    refine ⟨check_eq_none_iff hnow hplain, fun later hlater hle hmissed h => ?_⟩
    have hmet := (check_eq_none_iff hlater hplain).1 h
    exact hmissed ((check_eq_none_iff hnow hplain).2 fun d hd => (hmet d hd).earlier hle)
  · intro registry clock name config arrangement batch s number e table row hsource he hmaps hnow hplain hunmet
    obtain ⟨d, hd, hmissed⟩ := hunmet
    have hcheck : Deadline.check row.row (clock.time number) (registry.table table).deadlines ≠ .ok none :=
      fun h => hmissed ((check_eq_none_iff hnow hplain).1 h d hd)
    have hdropped (reason : DropReason) : e.dropped reason = ⟨e.index, some table, none, .dropped reason⟩ := by
      rw [Entry.dropped, hmaps.bound]
    rcases discard?_of_check config hmaps hcheck with hlate | hinvalid
    · refine ⟨fun outcomes s' hrun => .inl ?_, discarded_leaves_nothing hsource arrangement he hlate⟩
      rw [outcome_of_discard hsource hrun he hlate, hdropped]
    · refine ⟨fun outcomes s' hrun => .inr ?_, discarded_leaves_nothing hsource arrangement he hinvalid⟩
      rw [outcome_of_discard hsource hrun he hinvalid, hdropped]

namespace Example

/-- A registry in which payments may be an hour old. -/
def hourly : Registry :=
  ⟨.default, Keyed.empty.put "orders" feed,
    Keyed.empty.put orders.name { TableConfig.plain with deadlines := [("paid", .ofSecs 3600)] }⟩

/-- A payment of the first second. -/
def firstSecond : Document := .ofList [("paid", .string "1970-01-01T00:00:00Z")]

theorem firstSecond_time : Timestamp.ofValue (.string "1970-01-01T00:00:00Z") = .ok (some ⟨0, 0⟩) := by
  have hparse : Timestamp.parse? "1970-01-01T00:00:00Z" = some ⟨0, 0⟩ := by decide +kernel
  rw [Timestamp.ofValue, hparse]

/-- Two hours after it. -/
def twoHours : Clock := .standing ⟨7200, 0⟩

/-- An upsert of this payment. -/
def latePayment : Mutation := ⟨none, some firstSecond, [.bool true], default, .empty⟩

end Example

/-- Two hours later the payment is too old. It is dropped, and the row and the dead letters are as they were. -/
theorem late_payment_is_dropped :
    ∃ outcomes s', (processArranged Example.hourly Example.twoHours "orders" .asFound [Example.latePayment]).exec
        (.ofStore Example.filled) = (.ok outcomes, s') ∧
      (outcomes[0]? = some ⟨0, some Example.orders.name, none, .dropped .deadline⟩ ∨
        outcomes[0]? = some ⟨0, some Example.orders.name, none, .dropped .invalid⟩) ∧
      s'.store.letters = Example.filled.letters ∧
      s'.store.stored? Example.order = Example.filled.stored? Example.order := by
  have hsource : Example.hourly.source "orders" = .ok Example.feed := rfl
  let e : Entry := ⟨0, some Example.orders.name, Example.latePayment⟩
  have hentries : entries Example.hourly Example.feed [Example.latePayment] = [e] := rfl
  have hmaps : e.MapsTo Example.hourly (.ofStore Example.filled) Example.orders.name ⟨Example.firstSecond, []⟩ :=
    ⟨rfl, Example.firstSecond, Example.orders, rfl, rfl, rfl⟩
  have hplain : PlainTimes Example.firstSecond (Example.hourly.table Example.orders.name).deadlines := by
    intro d hd v t hv ht
    cases List.mem_singleton.1 hd
    cases hv
    cases Example.firstSecond_time.symm.trans ht
    decide
  have hunmet : ∃ d ∈ (Example.hourly.table Example.orders.name).deadlines,
      ¬ Met Example.firstSecond (Example.twoHours.time 0) d.1 d.2 := by
    refine ⟨_, List.mem_singleton_self _, fun hmet => ?_⟩
    rcases (met_iff_of_value rfl).1 hmet with h | ⟨t, ht, h⟩
    · cases h
    · cases Example.firstSecond_time.symm.trans ht
      exact absurd h (by decide)
  obtain ⟨houtcome, hnothing⟩ := every_deadline_is_enforced.2 Example.hourly Example.twoHours "orders" Example.feed
    .asFound [Example.latePayment] (.ofStore Example.filled) 0 e Example.orders.name ⟨Example.firstSecond, []⟩ hsource
    (by rw [hentries]; rfl) hmaps (by decide) hplain hunmet
  have hothers (n : Nat) (other : Entry) (hn : n ≠ 0)
      (h : (entries Example.hourly Example.feed [Example.latePayment])[n]? = some other) : False := by
    rw [hentries] at h
    obtain ⟨hn', -⟩ := List.getElem?_eq_some_iff.1 h
    exact hn (Nat.lt_one_iff.1 hn')
  have hok : ((processArranged Example.hourly Example.twoHours "orders" .asFound [Example.latePayment]).exec
      (.ofStore Example.filled)).1.isOk = true := by decide +kernel
  obtain ⟨outcomes, s', hrun⟩ := exec_of_isOk hok
  rw [hrun] at hnothing
  refine ⟨outcomes, s', hrun, houtcome _ _ hrun, ?_, ?_⟩
  · obtain ⟨more, hletters, hof⟩ := hnothing.letters
    cases more with
    | nil => exact hletters.trans (List.append_nil _)
    | cons letter more =>
      obtain ⟨n, other, hn, hother, -⟩ := hof letter List.mem_cons_self
      exact (hothers n other hn hother).elim
  · exact (hnothing.rows Example.order fun n other hn hother => (hothers n other hn hother).elim).1

end Tributary
