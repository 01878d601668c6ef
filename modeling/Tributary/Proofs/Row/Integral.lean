import Tributary.Proofs.Value.Integral
import Tributary.Routing.Route
import Tributary.Row.Mapping

/-!
# Integral rows

Routing and mapping bring no number of their own into a document: what they make of integral documents is
integral, as long as the user functions that they call answer with integral values.

* `Yields`: what the result of a computation satisfies, if there is one.
* `route_yields`: a source without a dispatch function passes integral documents on, nested ones as well.
* `mapRow_yields`: the row of an integral document is integral, with its extras.
-/

namespace Tributary

namespace Logged.Fallible

variable {α β : Type}

/-- If there is a result, it has the property. -/
structure Yields (P : α → Prop) (x : Fallible α) : Prop where
  result : ∀ a, x.attempt.value = .ok a → P a

theorem Yields.pure {P : α → Prop} {a : α} (h : P a) : Yields P (pure a) := by
  refine ⟨fun b hb => ?_⟩
  cases hb
  exact h

theorem Yields.throw {P : α → Prop} (fault : Fault) : Yields P (throw fault) :=
  ⟨fun _ h => by cases h⟩

theorem Yields.liftM {P : α → Prop} {r : Result α} (h : ∀ a, r = .ok a → P a) :
    Yields P (liftM r) := by
  refine ⟨fun a ha => h a ?_⟩
  rw [attempt_result] at ha
  exact ha

theorem Yields.true (x : Fallible α) : Yields (fun _ => True) x := ⟨fun _ _ => trivial⟩

theorem Yields.bind {P : α → Prop} {Q : β → Prop} {x : Fallible α} {f : α → Fallible β}
    (hx : Yields P x) (hf : ∀ a, P a → Yields Q (f a)) : Yields Q (x >>= f) := by
  refine ⟨fun b hb => ?_⟩
  have hresult := hx.result
  rw [attempt_bind] at hb
  generalize x.attempt = r at hb hresult
  obtain ⟨result, trace⟩ := r
  cases result with
  | error fault => cases hb
  | ok a => exact (hf a (hresult a rfl)).result b hb

end Logged.Fallible

open Logged.Fallible

/-- A call that succeeds has the value with which the function ends. -/
theorem invoke_yields (timeout : Span) (kind : FunctionKind) (call : Call) (reply : Reply) :
    Yields (fun v => reply.ending = .value v) (invoke timeout kind call reply) := by
  refine (Yields.true _).bind fun _ _ => ?_
  cases hfault : callFault? kind timeout reply with
  | some fault => exact (Yields.true _).bind fun _ _ => .throw fault
  | none =>
    refine .pure ?_
    unfold callFault? at hfault
    split at hfault
    · cases hfault
    · cases hending : reply.ending <;> simp [callValue, hending] at hfault ⊢

/-! ## Routing -/

/-- What the mutation carries is integral. -/
def Mutation.Integral (m : Mutation) : Prop := ∀ data, m.data = some data → data.Integral

namespace Mutation.Integral

variable {m : Mutation}

theorem flat (h : m.Integral) : m.flat.Integral := by
  intro data hdata
  obtain ⟨source, hsource, rfl⟩ := Option.map_eq_some_iff.1 hdata
  exact (h source hsource).filter _

theorem mem_parts {name : String} {v : Value} (hv : v.Integral) :
    ∀ part ∈ parts name v, part.2.Integral := by
  intro part hpart
  cases v with
  | array items =>
    obtain ⟨e, he, rfl⟩ := List.mem_map.1 hpart
    exact Value.integralItems_iff.1 hv e.1 (List.fst_mem_of_mem_zipIdx he)
  | _ =>
    cases List.mem_singleton.1 hpart
    exact hv

theorem nested (h : m.Integral) : ∀ child ∈ m.nested, child.Integral := by
  intro child hchild
  unfold Mutation.nested at hchild
  cases hdata : m.data with
  | none => simp [hdata] at hchild
  | some data =>
    rw [hdata] at hchild
    obtain ⟨field, hfield, hunder⟩ := List.mem_flatMap.1 hchild
    unfold nestedUnder at hunder
    split at hunder
    · obtain ⟨part, hpart, hmade⟩ := List.mem_filterMap.1 hunder
      obtain ⟨document, hdocument, rfl⟩ := Option.map_eq_some_iff.1 hmade
      have hvalue : field.2.Integral := Value.integralFields_iff.1 (h data hdata) field hfield
      intro data' hdata'
      cases hdata'
      exact Document.integral_of_ofValue? (mem_parts hvalue part hpart) hdocument
    · cases hunder

end Mutation.Integral

section

variable {source : SourceConfig} {timeout : Span} {table : TableName}

theorem routeOne_yields (hsource : source.destination = .target table) {m : Mutation} (hm : m.Integral) :
    Yields (fun routed => ∀ r ∈ routed, r.mutation.Integral) (routeOne source timeout m) := by
  unfold routeOne
  rw [hsource]
  refine .pure fun r hr => ?_
  cases List.mem_singleton.1 hr
  exact hm

theorem routeLevel_yields (hsource : source.destination = .target table) (limit : Nat) (last : Bool)
    {ms : List Mutation} (hms : ∀ m ∈ ms, m.Integral) :
    Yields (fun level => (∀ r ∈ level.1, r.mutation.Integral) ∧ ∀ m ∈ level.2, m.Integral)
      (routeLevel source timeout limit last ms) := by
  induction ms with
  | nil => exact .pure ⟨fun _ h => absurd h List.not_mem_nil, fun _ h => absurd h List.not_mem_nil⟩
  | cons m rest ih =>
    have hm := hms m List.mem_cons_self
    have ih := ih fun other hother => hms other (List.mem_cons_of_mem _ hother)
    unfold routeLevel
    have hroutes : Yields (fun level => (∀ r ∈ level.1, r.mutation.Integral) ∧ ∀ m ∈ level.2, m.Integral)
        (do
          let here ← routeOne source timeout m.flat
          let others ← routeLevel source timeout limit last rest
          return (here ++ others.1, m.nested ++ others.2) : Logged.Fallible (List Routed × List Mutation)) := by
      refine (routeOne_yields hsource hm.flat).bind fun here hhere => ih.bind fun others hothers => .pure ?_
      constructor
      · exact fun r hr => (List.mem_append.1 hr).elim (hhere r) (hothers.1 r)
      · exact fun c hc => (List.mem_append.1 hc).elim (hm.nested c) (hothers.2 c)
    split
    · exact (Yields.true _).bind fun _ _ => hroutes
    · exact hroutes

theorem routeLevels_yields (hsource : source.destination = .target table) (limit depth : Nat)
    {ms : List Mutation} (hms : ∀ m ∈ ms, m.Integral) :
    Yields (fun routed => ∀ r ∈ routed, r.mutation.Integral)
      (routeLevels source timeout limit depth ms) := by
  induction depth generalizing ms with
  | zero =>
    cases ms with
    | nil => exact .pure fun _ h => absurd h List.not_mem_nil
    | cons m rest => exact (routeLevel_yields hsource limit _ hms).bind fun level hlevel => .pure hlevel.1
  | succ depth ih =>
    cases ms with
    | nil => exact .pure fun _ h => absurd h List.not_mem_nil
    | cons m rest =>
      refine (routeLevel_yields hsource limit _ hms).bind fun level hlevel => ?_
      refine (ih hlevel.2).bind fun below hbelow => .pure fun r hr => ?_
      exact (List.mem_append.1 hr).elim (hlevel.1 r) (hbelow r)

/-- Where no dispatch function makes documents, integral documents are all that is routed. -/
theorem route_yields (hsource : source.destination = .target table) (timeout : Span) (limit : Nat)
    {m : Mutation} (hm : m.Integral) :
    Yields (fun routed => ∀ r ∈ routed, r.mutation.Integral) (route source timeout limit m) := by
  unfold route
  split
  · refine (Yields.true _).bind fun _ _ => .pure fun r hr => ?_
    cases List.mem_singleton.1 hr
    exact hm
  · split
    · refine routeLevels_yields hsource limit limit fun other hother => ?_
      cases List.mem_singleton.1 hother
      exact hm
    · exact routeOne_yields hsource hm

end

/-! ## Mapping -/

section

variable {config : TableConfig} {schema : Schema}

/-- Both parts of a row are integral. -/
structure Parted.Integral (p : Parted) : Prop where
  known : p.known.Integral
  extras : p.extras.Integral

theorem Parted.Integral.add {column : String} {p q : Parted} (hp : p.Integral) {field : String × Value}
    (hfield : field.2.Integral) (h : p.add schema column field = .ok q) : q.Integral := by
  unfold Parted.add at h
  split at h
  · cases hvalue : field.2 with
    | document fields =>
      rw [hvalue] at h hfield
      cases h
      exact ⟨hp.known, hp.extras.insertAll (Value.integralFields_iff.1 hfield)⟩
    | null =>
      rw [hvalue] at h
      cases h
      exact hp
    | _ =>
      rw [hvalue] at h
      cases h
  · split at h
    · cases h
      exact ⟨hp.known.insert hfield field.1, hp.extras⟩
    · cases h
      exact ⟨hp.known, hp.extras.insert hfield field.1⟩

theorem Parted.Integral.addAll {column : String} {fields : List (String × Value)} {p q : Parted}
    (hp : p.Integral) (hfields : ∀ f ∈ fields, f.2.Integral)
    (h : fields.foldlM (Parted.add schema column) p = .ok q) : q.Integral := by
  induction fields generalizing p with
  | nil =>
    cases h
    exact hp
  | cons f rest ih =>
    rw [List.foldlM_cons] at h
    cases hadd : p.add schema column f with
    | error fault =>
      rw [hadd] at h
      cases h
    | ok next =>
      rw [hadd] at h
      have hnext := hp.add (hfields f List.mem_cons_self) hadd
      exact ih hnext (fun g hg => hfields g (List.mem_cons_of_mem _ hg)) h

theorem partExtras_integral {column : String} {row : Document} {p : Parted} (hrow : row.Integral)
    (h : partExtras schema column row = .ok p) : p.Integral :=
  Parted.Integral.addAll ⟨Document.integral_empty, Document.integral_empty⟩
    (Value.integralFields_iff.1 hrow) h

theorem collectExtras_integral {row collected : Document} (hrow : row.Integral)
    (h : collectExtras config schema row = .ok collected) : collected.Integral := by
  unfold collectExtras at h
  dsimp only at h
  split at h
  · cases h
    exact hrow
  · cases hextras : config.extras with
    | some column =>
      rw [hextras] at h
      cases hparted : partExtras schema column row with
      | error fault =>
        simp only [hparted] at h
        cases h
      | ok p =>
        simp only [hparted] at h
        cases h
        have hp := partExtras_integral hrow hparted
        exact hp.known.insert hp.extras column
    | none =>
      simp only [hextras] at h
      split at h
      · cases h
        exact hrow
      · cases h

theorem cleanRow_integral {doc : Document} {mapped : MappedRow} (hdoc : doc.Integral)
    (h : cleanRow config schema doc = .ok mapped) : mapped.row.Integral := by
  unfold cleanRow at h
  cases hcollected : collectExtras config schema (removeIgnored config doc) with
  | error fault =>
    rw [hcollected] at h
    cases h
  | ok row =>
    rw [hcollected] at h
    cases h
    exact collectExtras_integral (hdoc.filter _) hcollected

/-- The row of an integral document is integral, if the map function answers with an integral value. -/
theorem mapRow_yields (schema : Schema) (timeout : Span) {doc origin : Document} (hdoc : doc.Integral)
    (hmap : ∀ function v, config.map = some function → (function doc origin).ending = .value v →
      v.Integral) :
    Yields (fun mapped => ∀ row, mapped = some row → row.row.Integral)
      (mapRow config schema timeout doc origin) := by
  have hdocument : Yields (fun found => ∀ d, found = some d → d.Integral)
      (mapDocument config timeout doc origin) := by
    unfold mapDocument
    cases hfunction : config.map with
    | none => exact .pure fun d hd => Option.some.inj hd ▸ hdoc
    | some function =>
      refine (invoke_yields ..).bind fun v hv => ?_
      have hvalue := hmap function v hfunction hv
      split
      · exact .pure fun _ h => by cases h
      · rename_i d _ hof
        exact .pure fun _ h => Option.some.inj h ▸ Document.integral_of_ofValue? hvalue hof
      · exact .throw _
  refine hdocument.bind fun found hfound => ?_
  cases found with
  | none => exact .pure fun _ h => by cases h
  | some d =>
    refine Yields.bind (.liftM fun mapped hmapped => cleanRow_integral (hfound d rfl) hmapped)
      fun mapped hmapped => .pure fun row hrow => ?_
    exact Option.some.inj hrow ▸ hmapped

end

end Tributary
