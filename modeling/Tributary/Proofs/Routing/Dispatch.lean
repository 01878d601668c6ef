import Tributary.Proofs.Fault.Containment
import Tributary.Proofs.Routing.Places

/-!
# What a dispatch function may answer

The answer of a dispatch function is null, or names tables with lists of documents or null under each. Such an answer
is taken apart into its documents, in the order of names and then of positions. Any other answer is a fault as a whole,
whatever it holds beside the part that is wrong.

* `Dispatchable`: the grammar of answers.
* `Asked`: a document that is asked for, with where it stands in the answer.
* `dispatched_within`: only answers of the grammar are accepted.
* `dispatched_value`: these are taken apart into the documents that they ask for.
* `route_dispatched`: what this means for a route.
-/

namespace Tributary

open Document (toValue)

/-! ## The grammar -/

/-- What may stand under the name of a table: null, or documents. -/
inductive Listing : Value → Prop
  | null : Listing .null
  | documents {items : List Value} (h : ∀ item ∈ items, item.isDocument = true) : Listing (.array items)

/-- The answers that a dispatch function may give: null, or listings under names of tables. -/
inductive Dispatchable : Value → Prop
  | null : Dispatchable .null
  | tables {fields : List (String × Value)} (hnames : ∀ f ∈ fields, ∃ table, TableName.parse f.1 = .ok table)
    (hlistings : ∀ f ∈ fields, Listing f.2) : Dispatchable (.document fields)

/-! ## What is accepted -/

/-- The fault is that of a document that is not as it must be. -/
def Fault.OfDocument (fault : Fault) : Prop := fault.kind = .invalidDocument

theorem Fault.OfDocument.action {fault : Fault} (h : fault.OfDocument) : fault.action = .drop := by
  rw [Fault.action, h]
  rfl

/-- If a value of a list can only be accepted with a property, a list that is accepted has it in all places. -/
theorem Result.Within.forall_mapM {α β : Type} {F : Fault → Prop} {R : α → Prop} {f : α → Result β} {as : List α}
    (hf : ∀ a ∈ as, Within F (fun _ => R a) (f a)) : Within F (fun _ => ∀ a ∈ as, R a) (as.mapM f) := by
  induction as with
  | nil => exact fun _ h => absurd h List.not_mem_nil
  | cons a rest ih =>
    rw [List.mapM_cons]
    refine (hf a List.mem_cons_self).bind fun _ ha => ?_
    refine (ih fun c hc => hf c (List.mem_cons_of_mem a hc)).bind fun _ hrest => ?_
    exact List.forall_mem_cons.2 ⟨ha, hrest⟩

theorem dispatchedItem_within (m : Mutation) (table : TableName) (item : Value) :
    Result.Within Fault.OfDocument (fun _ => item.isDocument = true) (dispatchedItem m table item) := by
  unfold dispatchedItem
  cases item with
  | document fields => exact rfl
  | _ => exact rfl

theorem dispatchedTable_within (m : Mutation) (field : String × Value) :
    Result.Within Fault.OfDocument (fun _ => (∃ table, TableName.parse field.1 = .ok table) ∧ Listing field.2)
      (dispatchedTable m field) := by
  obtain ⟨name, v⟩ := field
  unfold dispatchedTable
  cases hname : TableName.parse name with
  | error cause => exact rfl
  | ok table =>
    cases v with
    | null => exact ⟨⟨table, rfl⟩, .null⟩
    | array items =>
      have hitems := Result.Within.forall_mapM fun item (_ : item ∈ items) => dispatchedItem_within m table item
      exact hitems.mono fun _ h => ⟨⟨table, rfl⟩, .documents h⟩
    | _ => exact rfl

/-- Only what the grammar allows is accepted, and everything else is an invalid document. -/
theorem dispatched_within (m : Mutation) (v : Value) :
    Result.Within Fault.OfDocument (fun _ => Dispatchable v) (dispatched m v) := by
  unfold dispatched
  cases v with
  | null => exact .null
  | document fields =>
    have hfields := Result.Within.forall_mapM fun field (_ : field ∈ fields) => dispatchedTable_within m field
    exact hfields.map fun _ h => .tables (fun f hf => (h f hf).1) fun f hf => (h f hf).2
  | _ => exact rfl

/-! ## What is asked for -/

/-- A document that an answer asks for: the name and the position under which it stands, and the table of that name. -/
structure Asked where
  name : String
  index : Nat
  table : TableName
  data : Document

namespace Asked

/-- The document stands in the listings of an answer. -/
structure In (fields : List (String × Value)) (a : Asked) : Prop where
  table : TableName.parse a.name = .ok a.table
  stands : ∃ items, (a.name, .array items) ∈ fields ∧ items[a.index]? = some a.data.toValue

/-- The order in which documents are asked for. -/
def Before (a b : Asked) : Prop := a.name < b.name ∨ a.name = b.name ∧ a.index < b.index

/-- The mutation for a document that is asked for. -/
def routed (m : Mutation) (a : Asked) : Routed := ⟨a.table, ⟨none, some a.data, m.key, m.time, m.origin⟩⟩

end Asked

variable {m : Mutation}

theorem dispatchedItems_value (table : TableName) (ds : List Document) :
    (ds.map toValue).mapM (dispatchedItem m table) = .ok (ds.map fun d => ⟨table, m.carrying d⟩) := by
  induction ds with
  | nil => rfl
  | cons d rest ih =>
    have hfirst : dispatchedItem m table d.toValue = .ok ⟨table, m.carrying d⟩ := by
      rw [dispatchedItem, Document.ofValue?_toValue]
    rw [List.map_cons, List.mapM_cons, hfirst, ih]
    rfl

/-- Items that are documents with ascending names are documents of memory. -/
theorem exists_documents {items : List Value} (hordered : Value.OrderedItems items)
    (hdocuments : ∀ item ∈ items, item.isDocument = true) : ∃ ds : List Document, items = ds.map toValue := by
  induction items with
  | nil => exact ⟨[], rfl⟩
  | cons item rest ih =>
    obtain ⟨hitem, hrest⟩ := List.forall_mem_cons.1 hdocuments
    obtain ⟨ds, rfl⟩ := ih hordered.2 hrest
    cases item with
    | document fields => exact ⟨⟨fields, hordered.1.1⟩ :: ds, rfl⟩
    | _ => cases hitem

theorem toValue_injective {c d : Document} (h : c.toValue = d.toValue) : c = d := by
  have hread := Document.ofValue?_toValue c
  rw [h, Document.ofValue?_toValue] at hread
  exact (Option.some.inj hread).symm

/-- The documents under one name, in their order. -/
theorem dispatchedTable_value {name : String} {v : Value} {table : TableName}
    (hname : TableName.parse name = .ok table) (hlisting : Listing v) (hordered : v.Ordered) :
    ∃ asked : List Asked, dispatchedTable m (name, v) = .ok (asked.map (Asked.routed m)) ∧
      asked.Pairwise Asked.Before ∧ ∀ a, a ∈ asked ↔ a.In [(name, v)] := by
  cases hlisting with
  | null =>
    refine ⟨[], ?_, .nil, fun a => ⟨fun h => absurd h List.not_mem_nil, fun h => ?_⟩⟩
    · rw [dispatchedTable, hname]
      rfl
    · obtain ⟨items, hin, -⟩ := h.stands
      cases List.mem_singleton.1 hin
  | @documents items hdocuments =>
    obtain ⟨ds, rfl⟩ := exists_documents hordered hdocuments
    refine ⟨ds.zipIdx.map fun e => ⟨name, e.2, table, e.1⟩, ?_, ?_, fun a => ⟨fun h => ?_, fun h => ?_⟩⟩
    · have hrouted : ((ds.zipIdx.map fun e => (⟨name, e.2, table, e.1⟩ : Asked)).map (Asked.routed m)) =
          (ds.zipIdx.map Prod.fst).map fun d => ⟨table, m.carrying d⟩ := by
        rw [List.map_map, List.map_map]
        rfl
      rw [dispatchedTable, hname, hrouted, List.zipIdx_map_fst]
      exact dispatchedItems_value table ds
    · have hindexes : (ds.zipIdx.map Prod.snd).Pairwise (· < ·) := by
        rw [List.zipIdx_map_snd, ← List.range_eq_range']
        exact List.pairwise_lt_range
      exact List.pairwise_map.2 ((List.pairwise_map.1 hindexes).imp fun h => .inr ⟨rfl, h⟩)
    · obtain ⟨e, he, rfl⟩ := List.mem_map.1 h
      refine ⟨hname, _, List.mem_singleton_self _, ?_⟩
      rw [List.getElem?_map, List.mem_zipIdx_iff_getElem?.1 he]
      rfl
    · obtain ⟨hparse, items, hin, hitem⟩ := h
      obtain ⟨rfl, hitems⟩ := Prod.mk.inj (List.mem_singleton.1 hin)
      cases hitems
      cases hname.symm.trans hparse
      obtain ⟨d, hd, hdata⟩ := Option.map_eq_some_iff.1 (List.getElem?_map ▸ hitem)
      cases toValue_injective hdata
      exact List.mem_map.2 ⟨(a.data, a.index), List.mem_zipIdx_iff_getElem?.2 hd, rfl⟩

theorem Asked.in_cons {field : String × Value} {fields : List (String × Value)} {a : Asked} :
    a.In (field :: fields) ↔ a.In [field] ∨ a.In fields := by
  constructor
  · rintro ⟨hparse, items, hin, hitem⟩
    rcases List.mem_cons.1 hin with rfl | hin
    · exact .inl ⟨hparse, items, List.mem_singleton_self _, hitem⟩
    · exact .inr ⟨hparse, items, hin, hitem⟩
  · rintro (⟨hparse, items, hin, hitem⟩ | ⟨hparse, items, hin, hitem⟩)
    · exact ⟨hparse, items, List.mem_cons.2 (.inl (List.mem_singleton.1 hin)), hitem⟩
    · exact ⟨hparse, items, List.mem_cons_of_mem _ hin, hitem⟩

/-- The documents under all names, those of earlier names first. -/
theorem dispatchedTables_value {fields : List (String × Value)}
    (hnames : ∀ f ∈ fields, ∃ table, TableName.parse f.1 = .ok table) (hlistings : ∀ f ∈ fields, Listing f.2)
    (hascending : Value.Ascending fields) (hordered : Value.OrderedFields fields) :
    ∃ asked : List Asked, (fields.mapM (dispatchedTable m)).map List.flatten = .ok (asked.map (Asked.routed m)) ∧
      asked.Pairwise Asked.Before ∧ ∀ a, a ∈ asked ↔ a.In fields := by
  induction fields with
  | nil =>
    refine ⟨[], rfl, .nil, fun a => ⟨fun h => absurd h List.not_mem_nil, fun h => ?_⟩⟩
    obtain ⟨items, hin, -⟩ := h.stands
    cases hin
  | cons field rest ih =>
    obtain ⟨⟨table, hname⟩, hrestNames⟩ := List.forall_mem_cons.1 hnames
    obtain ⟨hlisting, hrestListings⟩ := List.forall_mem_cons.1 hlistings
    obtain ⟨hless, hascends⟩ := List.pairwise_cons.1 hascending
    obtain ⟨asked, hvalue, hbefore, hmem⟩ := dispatchedTable_value (m := m) hname hlisting hordered.1
    obtain ⟨others, hothers, hothersBefore, hothersMem⟩ := ih hrestNames hrestListings hascends hordered.2
    refine ⟨asked ++ others, ?_, List.pairwise_append.2 ⟨hbefore, hothersBefore, ?_⟩, fun a => ?_⟩
    · rw [List.mapM_cons, hvalue]
      cases hrest : rest.mapM (dispatchedTable m) with
      | error fault =>
        rw [hrest] at hothers
        cases hothers
      | ok lists =>
        rw [hrest] at hothers
        rw [List.map_append, ← Except.ok.inj hothers]
        rfl
    · intro a ha b hb
      obtain ⟨_, hin, -⟩ := ((hmem a).1 ha).stands
      obtain ⟨_, hin', -⟩ := ((hothersMem b).1 hb).stands
      have hname : a.name = field.1 := congrArg Prod.fst (List.mem_singleton.1 hin)
      exact .inl (hname ▸ hless _ hin')
    · rw [List.mem_append, hmem, hothersMem, ← Asked.in_cons]

/-- The listings of an answer. -/
def Value.listings : Value → List (String × Value)
  | .document fields => fields
  | _ => []

/-- An answer of the grammar is taken apart into the documents that it asks for. -/
theorem dispatched_value {v : Value} (h : Dispatchable v) (hordered : v.Ordered) :
    ∃ asked : List Asked, dispatched m v = .ok (asked.map (Asked.routed m)) ∧ asked.Pairwise Asked.Before ∧
      ∀ a, a ∈ asked ↔ a.In v.listings := by
  cases h with
  | null =>
    refine ⟨[], rfl, .nil, fun a => ⟨fun h => absurd h List.not_mem_nil, fun h => ?_⟩⟩
    obtain ⟨items, hin, -⟩ := h.stands
    cases hin
  | tables hnames hlistings => exact dispatchedTables_value hnames hlistings hordered.1 hordered.2

/-! ## Routes -/

/-- A source dispatches upserts as they are, and its function answers the document of one with a value, in time. -/
structure SourceConfig.AnswersWith (source : SourceConfig) (timeout : Span) (m : Mutation) (v : Value) : Prop where
  recurse : source.recurse = false
  answered : ∃ function deletesTo data, source.destination = .dispatch function deletesTo ∧ m.data = some data ∧
    (function data m.origin).ending = .value v ∧ (function data m.origin).millis * 1000000 ≤ timeout.toNanos

variable {source : SourceConfig} {timeout : Span} {v : Value}

theorem invoke_of_value {kind : FunctionKind} {call : Call} {reply : Reply} (hending : reply.ending = .value v)
    (htime : reply.millis * 1000000 ≤ timeout.toNanos) : (invoke timeout kind call reply).attempt.value = .ok v := by
  have hfault : callFault? kind timeout reply = none := by
    rw [callFault?, if_neg (Nat.not_lt_of_le htime), hending]
  have hvalue : callValue reply = v := by
    rw [callValue, hending]
  rw [invoke, hfault, hvalue]
  rfl

/-- The route of the upsert is what the answer asks for. -/
theorem route_of_answer (h : source.AnswersWith timeout m v) (limit : Nat) :
    (route source timeout limit m).attempt.value = dispatched m v := by
  obtain ⟨hrecurse, function, deletesTo, data, hdestination, hdata, hending, htime⟩ := h
  have hkind : m.kind = .upsert := by
    rw [Mutation.kind, hdata]
    rfl
  have hroute : route source timeout limit m = routeOne source timeout m := by
    rw [route, hkind, hrecurse]
    rfl
  have hone : routeOne source timeout m =
      invoke timeout .dispatch (.dispatch data m.origin) (function data m.origin) >>= fun v => dispatched m v := by
    rw [routeOne, hdestination, hdata]
  rw [hroute, hone, Logged.Fallible.value_bind, invoke_of_value hending htime, Except.bind,
    Logged.Fallible.attempt_result]
  rfl

/-- An answer of the grammar routes a mutation to each document that it asks for, in order. -/
theorem route_dispatched (h : source.AnswersWith timeout m v) (hordered : v.Ordered) (hv : Dispatchable v)
    (limit : Nat) :
    ∃ asked : List Asked, (route source timeout limit m).attempt.value = .ok (asked.map (Asked.routed m)) ∧
      asked.Pairwise Asked.Before ∧ ∀ a, a ∈ asked ↔ a.In v.listings := by
  rw [route_of_answer h]
  exact dispatched_value hv hordered

/-- No other answer routes anything. -/
theorem route_not_dispatched (h : source.AnswersWith timeout m v) (hv : ¬ Dispatchable v) (limit : Nat) :
    ∃ fault, (route source timeout limit m).attempt.value = .error fault ∧ fault.OfDocument := by
  have hwithin := dispatched_within m v
  rw [route_of_answer h]
  cases hvalue : dispatched m v with
  | ok routed =>
    rw [hvalue] at hwithin
    exact absurd hwithin hv
  | error fault =>
    rw [hvalue] at hwithin
    exact ⟨fault, rfl, hwithin⟩

end Tributary
