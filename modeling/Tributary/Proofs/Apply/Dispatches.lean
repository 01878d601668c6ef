import Tributary.Proofs.Apply.Alone
import Tributary.Proofs.Apply.Attribution
import Tributary.Proofs.Routing.Dispatch
import Tributary.Proofs.Table.Spelling

/-!
# Answers of dispatch functions in batches

An upsert whose dispatch function gives an answer that is not of the grammar is dropped as invalid as a whole: there
is one outcome for it, and nothing of what the answer holds comes to the store.

* `processBatch_of_unrouted`: a batch of one mutation that is not routed, on whatever store.
* `entry_of_unrouted_at`: such a mutation in a batch is one entry.
* `dispatch_answers_are_taken_whole`: the answers that are accepted, what is routed for them, and what becomes of an
  upsert with any other answer.
-/

namespace Tributary

open Run

section

variable {registry : Registry} {clock : Clock} {name : String} {config : SourceConfig} {m : Mutation} {fault : Fault}

/-- A mutation that fails to be routed, with a fault for which mutations are dropped, is all that becomes of its
batch. -/
theorem processBatch_of_unrouted {σ : Type} [TargetStore σ] (hsource : registry.source name = .ok config)
    (hroute : (route config registry.options.functionTimeout registry.options.maxDepth m).attempt.value = .error fault)
    (haction : fault.action = .drop) (s : Session σ) :
    ∃ trace, (processBatch registry clock name [m]).exec s =
      (.ok [⟨0, none, none, .dropped .invalid⟩], { s with trace := trace }) := by
  have hfrom : routedFrom config registry.options 0 [m] = [⟨0, m, .error fault⟩] := by
    show [(⟨0, m, (route config registry.options.functionTimeout registry.options.maxDepth m).attempt.value⟩ :
      RoutedSource)] = _
    rw [hroute]
  obtain ⟨trace, hrouted⟩ : ∃ trace, (routeAll config registry.options 0 [m] : Run σ _).exec s =
      (.ok [⟨0, m, .error fault⟩], { s with trace := trace }) := hfrom ▸ routeAll_exec 0 [m] s
  have hsettle : settleRouted registry.options config.name 0 [⟨0, m, .error fault⟩] =
      (do let outcome ← report 0 none none (.dropped .invalid)
          return ([(0, outcome)], []) : Run σ _) := by
    simp only [settleRouted, handleFailure, haction, pure_bind]
  have hplan : (planFrom registry clock config 0 0 [m]).exec s = (.ok ([(0, ⟨0, none, none, .dropped .invalid⟩)], []),
      Session.counted { s with trace := trace } (.ofDisposition none (.dropped .invalid))) := by
    rw [planFrom, exec_bind_of_ok hrouted, settleFrom, hsettle]
    rfl
  have hconfig : (liftM (registry.source name) : Run σ _).exec s = (.ok config, s) := by
    rw [exec_liftM, hsource]
  refine ⟨trace ++ ⟨[], [.ofDisposition none (.dropped .invalid)]⟩, ?_⟩
  rw [processBatch, exec_bind_of_ok hconfig, exec_bind_of_ok (planBatch_exec hplan)]
  show (pure (inOrder [(0, ⟨0, none, none, .dropped .invalid⟩)]) : Run σ _).exec _ = _
  rw [inOrder_singleton]
  rfl

/-- In a batch such a mutation is one entry. -/
theorem entry_of_unrouted_at (front back : List Mutation)
    (hroute : (route config registry.options.functionTimeout registry.options.maxDepth m).attempt.value =
      .error fault) :
    (routedAt registry config front.length m).entries = [⟨front.length, none, m⟩] ∧
      (entries registry config (front ++ m :: back))[(entries registry config front).length]? =
        some ⟨front.length, none, m⟩ := by
  have hown : (routedAt registry config front.length m).entries = [⟨front.length, none, m⟩] := by
    rw [routedAt, RoutedSource.entries, hroute]
  refine ⟨hown, ?_⟩
  rw [entries_split, hown, List.getElem?_append_right (Nat.le_refl _), Nat.sub_self]
  rfl

/-- The one outcome of an entry that is the only one at its position. -/
theorem outcomes_at {σ : Type} [TargetStore σ] {arrangement : Arrangement} {front back : List Mutation}
    {s s' : Session σ} {outcomes : List Outcome} (hsource : registry.source name = .ok config)
    (hrun : (processArranged registry clock name arrangement (front ++ m :: back)).exec s = (.ok outcomes, s'))
    {e : Entry} (hentries : (routedAt registry config front.length m).entries = [e]) {o : Outcome}
    (ho : o ∈ outcomes) (hindex : o.index = front.length) :
    (outcomes.filter fun o => o.index = front.length) = [o] := by
  have hlabels := labels_of_run hsource hrun
  have hfiltered := congrArg (List.filter fun l : Nat × Option TableName => l.1 = front.length) hlabels
  rw [List.filter_map, List.filter_map] at hfiltered
  have hone : (outcomes.filter fun o => o.index = front.length).length = 1 := by
    have hlength := congrArg List.length hfiltered
    rw [List.length_map, List.length_map] at hlength
    have hown := entries_at registry config front m back
    rw [hentries] at hown
    exact hlength.trans (congrArg List.length hown)
  obtain ⟨single, hsingle⟩ := List.length_eq_one_iff.1 hone
  have hin : o ∈ outcomes.filter fun o => o.index = front.length :=
    List.mem_filter.2 ⟨ho, decide_eq_true hindex⟩
  rw [hsingle] at hin
  rw [hsingle, List.mem_singleton.1 hin]

end

/-- An answer of the grammar routes one mutation for each document in it, in the order of names and positions, with
the document as its data and with nothing before the change. Any other answer makes the route fail with an invalid
document. In a batch the upsert is then dropped as invalid, with one outcome, and leaves nothing in the store, whether
or not the batch succeeds. -/
theorem dispatch_answers_are_taken_whole (registry : Registry) (config : SourceConfig) (m : Mutation) (v : Value)
    (hanswers : config.AnswersWith registry.options.functionTimeout m v) (hordered : v.Ordered) :
    (Dispatchable v → ∃ asked : List Asked,
      (route config registry.options.functionTimeout registry.options.maxDepth m).attempt.value =
        .ok (asked.map fun a => ⟨a.table, ⟨none, some a.data, m.key, m.time, m.origin⟩⟩) ∧
      asked.Pairwise Asked.Before ∧ ∀ a, a ∈ asked ↔ a.In v.listings) ∧
    (¬ Dispatchable v →
      (∃ fault, (route config registry.options.functionTimeout registry.options.maxDepth m).attempt.value =
        .error fault ∧ fault.kind = .invalidDocument) ∧
      ∀ (clock : Clock) (name : String), registry.source name = .ok config →
        (∀ (σ : Type) [TargetStore σ] (s : Session σ), ∃ trace, (processBatch registry clock name [m]).exec s =
          (.ok [⟨0, none, none, .dropped .invalid⟩], { s with trace := trace })) ∧
        ∀ (front back : List Mutation) (arrangement : Arrangement),
          (∀ (σ : Type) [TargetStore σ] (s s' : Session σ) (outcomes : List Outcome),
            (processArranged registry clock name arrangement (front ++ m :: back)).exec s = (.ok outcomes, s') →
              (outcomes.filter fun o => o.index = front.length) =
                [⟨front.length, none, none, .dropped .invalid⟩]) ∧
          ∀ s : Session MemoryStore, LeftNothing registry clock config (front ++ m :: back) s
            ((processArranged registry clock name arrangement (front ++ m :: back)).exec s).2
            (entries registry config front).length) := by
  refine ⟨fun hv => route_dispatched hanswers hordered hv _, fun hv => ?_⟩
  obtain ⟨fault, hroute, hfault⟩ := route_not_dispatched hanswers hv registry.options.maxDepth
  refine ⟨⟨fault, hroute, hfault⟩, fun clock name hsource => ⟨fun σ _ s => ?_, fun front back arrangement => ?_⟩⟩
  · exact processBatch_of_unrouted hsource hroute hfault.action s
  · obtain ⟨hown, hentry⟩ := entry_of_unrouted_at front back hroute
    have hreason : Entry.unrouted? registry config ⟨front.length, none, m⟩ = some .invalid := by
      rw [Entry.unrouted?, routedAt, RoutedSource.discard?, hroute]
      show fault.discard? = _
      rw [Fault.discard?, hfault.action]
    refine ⟨fun σ _ s s' outcomes hrun => ?_, fun s => discarded_leaves_nothing hsource arrangement hentry hreason⟩
    have houtcome := outcome_of_unrouted hsource hrun hentry rfl hreason
    exact outcomes_at hsource hrun hown (List.mem_of_getElem? houtcome) rfl

namespace Example

/-- An answer with a list of orders, and something else under the name of another table. -/
def answer (parts : Value) : Value :=
  .document [("orders", .array [(content true).toValue, (content false).toValue]), ("parts", parts)]

/-- A source whose dispatch function always gives this answer. -/
def fanned (parts : Value) : SourceConfig := ⟨"orders", .dispatch (fun _ _ => ⟨0, .value (answer parts)⟩) none, false⟩

/-- A registry with this source. -/
def fanning (parts : Value) : Registry := ⟨.default, Keyed.empty.put "orders" (fanned parts), .empty⟩

theorem fanned_answersWith (parts : Value) :
    (fanned parts).AnswersWith (fanning parts).options.functionTimeout (change true true) (answer parts) where
  recurse := rfl
  answered := ⟨fun _ _ => ⟨0, .value (answer parts)⟩, none, content true, rfl, rfl, rfl,
    (Nat.zero_mul 1000000).symm ▸ Nat.zero_le _⟩

theorem answer_ordered {parts : Value} (h : parts.Ordered) : (answer parts).Ordered := by
  have hnames : Value.Ascending
      [("orders", .array [(content true).toValue, (content false).toValue]), ("parts", parts)] :=
    List.pairwise_pair.2 (show "orders" < "parts" by decide)
  have horders : (Value.array [(content true).toValue, (content false).toValue]).Ordered :=
    ⟨⟨(content true).ascending, trivial, trivial⟩, ⟨(content false).ascending, trivial, trivial⟩, trivial⟩
  exact ⟨hnames, horders, h, trivial⟩

theorem parse_orders : TableName.parse "orders" = .ok orders.name := by
  have htext : orders.name.text = "orders" := by rw [TableName.text]; rfl
  rw [← htext, TableName.parse_text]

/-- Another table. -/
def parts : TableName := ⟨["parts"], by decide, by decide, by decide⟩

theorem parse_parts : TableName.parse "parts" = .ok parts := by
  have htext : parts.text = "parts" := by rw [TableName.text]; rfl
  rw [← htext, TableName.parse_text]

end Example

/-- Where there is null beside the list, both orders of the list are routed. Where there is something else, none of
them is, and the change is dropped. -/
theorem orders_are_routed_or_dropped :
    (∃ asked : List Asked, (route (Example.fanned .null) (Example.fanning .null).options.functionTimeout
        (Example.fanning .null).options.maxDepth (Example.change true true)).attempt.value =
          .ok (asked.map (Asked.routed (Example.change true true))) ∧
        ⟨"orders", 0, Example.orders.name, Example.content true⟩ ∈ asked ∧
        ⟨"orders", 1, Example.orders.name, Example.content false⟩ ∈ asked) ∧
      ∃ trace, (processBatch (Example.fanning (.bool true)) default "orders" [Example.change true true]).exec
        (.ofStore Example.filled) =
          (.ok [⟨0, none, none, .dropped .invalid⟩], { Session.ofStore Example.filled with trace := trace }) := by
  have hlisting : Listing (.array [(Example.content true).toValue, (Example.content false).toValue]) :=
    .documents (by simp [Value.isDocument, Document.toValue])
  constructor
  · obtain ⟨haccepted, -⟩ := dispatch_answers_are_taken_whole (Example.fanning .null) (Example.fanned .null)
      (Example.change true true) (Example.answer .null) (Example.fanned_answersWith .null)
      (Example.answer_ordered trivial)
    have hgrammar : Dispatchable (Example.answer .null) := by
      refine .tables (List.forall_mem_cons.2 ⟨⟨_, Example.parse_orders⟩, ?_⟩) (List.forall_mem_cons.2 ⟨hlisting, ?_⟩)
      · exact List.forall_mem_singleton.2 ⟨_, Example.parse_parts⟩
      · exact List.forall_mem_singleton.2 .null
    obtain ⟨asked, hroute, -, hmem⟩ := haccepted hgrammar
    exact ⟨asked, hroute, (hmem _).2 ⟨Example.parse_orders, _, List.mem_cons_self, rfl⟩,
      (hmem _).2 ⟨Example.parse_orders, _, List.mem_cons_self, rfl⟩⟩
  · obtain ⟨-, hrejected⟩ := dispatch_answers_are_taken_whole (Example.fanning (.bool true))
      (Example.fanned (.bool true)) (Example.change true true) (Example.answer (.bool true))
      (Example.fanned_answersWith (.bool true)) (Example.answer_ordered trivial)
    have hgrammar : ¬ Dispatchable (Example.answer (.bool true)) := by
      intro h
      cases h with
      | tables _ hlistings => cases hlistings _ (List.mem_cons_of_mem _ List.mem_cons_self)
    exact ((hrejected hgrammar).2 default "orders" rfl).1 MemoryStore (.ofStore Example.filled)

end Tributary
