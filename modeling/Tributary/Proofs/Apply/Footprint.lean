import Mathlib.Data.Set.Basic
import Tributary.Apply.Session
import Tributary.Proofs.Store.Versions

/-!
# Footprints

What a step of the engine can read and change of a store in memory. A step is `Run.Local` to a set of
places if it changes no other place, changes no table, only adds dead letters, and if its result, what it
leaves at its places and the letters that it adds depend on nothing but the shapes of tables and on what
stood at its places. Version numbers count neither as read nor as changed at the places of the step.

* `Run.Local.bind`, `Run.Local.attempt`: sequences of local steps are local.
* `Run.Local.mono`: a step that is local to some places is local to more.
* `schemaOf_local`, `park_local`: looking at shapes and parking letters needs no place.
* `deleteRow_local`, `writeRow_local`, `readData_local`: an operation on a row needs the place of the row.
-/

namespace Tributary

/-! ## What a session shows -/

/-- What a place of a store holds, its version apart. -/
structure Cell where
  data : Option Document
  exprs : List (String × String)

namespace MemoryStore

/-- What a place holds. -/
def cell (s : MemoryStore) (place : RowAddress) : Cell :=
  ⟨(s.stored.get? place).map StoredRow.data, (s.exprs.get? place).getD []⟩

theorem cell_address (s : MemoryStore) (id : RowId) : s.cell id.address = ⟨s.row? id, s.rowExprs id⟩ :=
  rfl

end MemoryStore

namespace Session

variable {s t u : Session MemoryStore}

/-- The shape of a table that a session works with: the one that was read, or else the one to read. -/
def shape? (s : Session MemoryStore) (table : TableName) : Option Schema :=
  (s.schemas.get? table).or (s.store.schemas.get? table)

/-- Both sessions work with the same shapes, on stores with the same tables. -/
structure SameTables (s t : Session MemoryStore) : Prop where
  shape : ∀ table, s.shape? table = t.shape? table
  hasTable : ∀ table, s.store.hasTable table = t.store.hasTable table

theorem SameTables.refl (s : Session MemoryStore) : s.SameTables s := ⟨fun _ => rfl, fun _ => rfl⟩

theorem SameTables.symm (h : s.SameTables t) : t.SameTables s :=
  ⟨fun table => (h.shape table).symm, fun table => (h.hasTable table).symm⟩

theorem SameTables.trans (h : s.SameTables t) (h' : t.SameTables u) : s.SameTables u :=
  ⟨fun table => (h.shape table).trans (h'.shape table),
    fun table => (h.hasTable table).trans (h'.hasTable table)⟩

/-- Both sessions show the same tables, and hold the same at some places. -/
structure Alike (places : Set RowAddress) (s t : Session MemoryStore) : Prop where
  tables : s.SameTables t
  cell : ∀ place ∈ places, s.store.cell place = t.store.cell place

theorem Alike.refl (places : Set RowAddress) (s : Session MemoryStore) : Alike places s s :=
  ⟨.refl s, fun _ _ => rfl⟩

theorem Alike.symm {places : Set RowAddress} (h : Alike places s t) : Alike places t s :=
  ⟨h.tables.symm, fun place hplace => (h.cell place hplace).symm⟩

theorem Alike.mono {places more : Set RowAddress} (hsub : places ⊆ more) (h : Alike more s t) :
    Alike places s t := ⟨h.tables, fun place hplace => h.cell place (hsub hplace)⟩

/-- The second session follows from the first by a change at some places, and by parking letters. -/
structure Follows (places : Set RowAddress) (letters : List DeadLetter)
    (s t : Session MemoryStore) : Prop where
  tables : s.SameTables t
  stored : ∀ place ∉ places, t.store.stored.get? place = s.store.stored.get? place
  exprs : ∀ place ∉ places, t.store.exprs.get? place = s.store.exprs.get? place
  letters : t.store.letters = s.store.letters ++ letters

theorem Follows.refl (places : Set RowAddress) (s : Session MemoryStore) : Follows places [] s s :=
  ⟨.refl s, fun _ _ => rfl, fun _ _ => rfl, (List.append_nil _).symm⟩

theorem Follows.trans {places : Set RowAddress} {first second : List DeadLetter}
    (h : Follows places first s t) (h' : Follows places second t u) :
    Follows places (first ++ second) s u where
  tables := h.tables.trans h'.tables
  stored place hplace := (h'.stored place hplace).trans (h.stored place hplace)
  exprs place hplace := (h'.exprs place hplace).trans (h.exprs place hplace)
  letters := by rw [h'.letters, h.letters, List.append_assoc]

theorem Follows.mono {places more : Set RowAddress} {letters : List DeadLetter}
    (hsub : places ⊆ more) (h : Follows places letters s t) : Follows more letters s t where
  tables := h.tables
  stored place hplace := h.stored place fun hin => hplace (hsub hin)
  exprs place hplace := h.exprs place fun hin => hplace (hsub hin)
  letters := h.letters

theorem Follows.cell {places : Set RowAddress} {letters : List DeadLetter}
    (h : Follows places letters s t) {place : RowAddress} (hplace : place ∉ places) :
    t.store.cell place = s.store.cell place := by
  rw [MemoryStore.cell, MemoryStore.cell, h.stored place hplace, h.exprs place hplace]

end Session

/-! ## Local steps -/

namespace Run

variable {α β : Type} {places more : Set RowAddress}

theorem exec_map (f : α → β) (x : Run MemoryStore α) (s : Session MemoryStore) :
    (f <$> x).exec s = ((x.exec s).1.map f, (x.exec s).2) := by
  rw [map_eq_pure_bind, exec_bind]
  generalize x.exec s = r
  obtain ⟨result, s'⟩ := r
  cases result <;> rfl

/-- A step that reads and changes nothing but what stands at some places, and parks letters. -/
structure Local (places : Set RowAddress) (x : Run MemoryStore α) : Prop where
  alike : ∀ s t, Session.Alike places s t → ∃ letters,
    (x.exec s).1 = (x.exec t).1 ∧
    Session.Follows places letters s (x.exec s).2 ∧
    Session.Follows places letters t (x.exec t).2 ∧
    Session.Alike places (x.exec s).2 (x.exec t).2

theorem Local.follows {x : Run MemoryStore α} (hx : Local places x) (s : Session MemoryStore) :
    ∃ letters, Session.Follows places letters s (x.exec s).2 := by
  obtain ⟨letters, -, hfollows, -⟩ := hx.alike s s (.refl places s)
  exact ⟨letters, hfollows⟩

/-- A step that only records. -/
theorem Local.of_trace {x : Run MemoryStore α} (r : Result α) (trace : Trace → Trace)
    (h : ∀ s, x.exec s = (r, { s with trace := trace s.trace })) : Local places x := by
  refine ⟨fun s t halike => ?_⟩
  refine ⟨[], ?_, ?_, ?_, ?_⟩
  · rw [h, h]
  · rw [h]
    exact ⟨⟨fun _ => rfl, fun _ => rfl⟩, fun _ _ => rfl, fun _ _ => rfl, (List.append_nil _).symm⟩
  · rw [h]
    exact ⟨⟨fun _ => rfl, fun _ => rfl⟩, fun _ _ => rfl, fun _ _ => rfl, (List.append_nil _).symm⟩
  · rw [h, h]
    exact ⟨⟨halike.tables.shape, halike.tables.hasTable⟩, halike.cell⟩

theorem Local.pure (a : α) : Local places (pure a) := .of_trace (.ok a) id fun _ => rfl

theorem Local.throw (fault : Fault) : Local places (throw fault : Run MemoryStore α) :=
  .of_trace (.error fault) id fun _ => rfl

theorem Local.liftM (r : Result α) : Local places (liftM r : Run MemoryStore α) :=
  .of_trace r id fun s => exec_liftM r s

theorem Local.logged (x : Logged α) : Local places (logged x : Run MemoryStore α) :=
  .of_trace (.ok x.value) (· ++ x.trace) fun _ => rfl

theorem Local.fallible (x : Logged.Fallible α) : Local places (fallible x : Run MemoryStore α) :=
  .of_trace x.attempt.value (· ++ x.attempt.trace) fun _ => rfl

theorem Local.attempt {x : Run MemoryStore α} (hx : Local places x) : Local places x.attempt := by
  refine ⟨fun s t halike => ?_⟩
  obtain ⟨letters, hresult, hs, ht, hafter⟩ := hx.alike s t halike
  refine ⟨letters, ?_, hs, ht, hafter⟩
  rw [exec_attempt, exec_attempt, hresult]

theorem Local.bind {x : Run MemoryStore α} {f : α → Run MemoryStore β} (hx : Local places x)
    (hf : ∀ a, Local places (f a)) : Local places (x >>= f) := by
  refine ⟨fun s t halike => ?_⟩
  obtain ⟨first, hresult, hs, ht, hafter⟩ := hx.alike s t halike
  rw [exec_bind, exec_bind]
  generalize x.exec s = rs at hresult hs hafter
  generalize x.exec t = rt at hresult ht hafter
  obtain ⟨rs, s'⟩ := rs
  obtain ⟨rt, t'⟩ := rt
  cases hresult
  cases rs with
  | error fault => exact ⟨first, rfl, hs, ht, hafter⟩
  | ok a =>
    obtain ⟨second, hresult', hs', ht', hafter'⟩ := (hf a).alike s' t' hafter
    exact ⟨first ++ second, hresult', hs.trans hs', ht.trans ht', hafter'⟩

theorem Local.map {x : Run MemoryStore α} (f : α → β) (hx : Local places x) :
    Local places (f <$> x) := by
  rw [map_eq_pure_bind]
  exact hx.bind fun a => .pure (f a)

theorem Local.mono (hsub : places ⊆ more) {x : Run MemoryStore α} (hx : Local places x) :
    Local more x := by
  refine ⟨fun s t halike => ?_⟩
  obtain ⟨letters, hresult, hs, ht, hafter⟩ := hx.alike s t (halike.mono hsub)
  refine ⟨letters, hresult, hs.mono hsub, ht.mono hsub, hafter.tables, fun place hplace => ?_⟩
  by_cases hin : place ∈ places
  · exact hafter.cell place hin
  · rw [hs.cell hin, ht.cell hin]
    exact halike.cell place hplace

/-- A step without places is local to any. -/
theorem Local.anywhere {x : Run MemoryStore α} (hx : Local ∅ x) : Local places x :=
  hx.mono (Set.empty_subset places)

end Run

/-! ## Tables and letters -/

open Run

/-- Reading a shape keeps it, which changes no shape that the session works with. -/
theorem schemaOf_exec (table : TableName) (s : Session MemoryStore) :
    ((schemaOf table).exec s).1 =
        (match s.shape? table with
          | some schema => .ok schema
          | none => .error (.noDestinationTable table.text)) ∧
      ((schemaOf table).exec s).2.store = s.store ∧
      s.SameTables ((schemaOf table).exec s).2 := by
  have hshape : s.shape? table = (s.schemas.get? table).or (s.store.schemas.get? table) := rfl
  cases hknown : s.schemas.get? table with
  | some schema =>
    have hexec : (schemaOf table).exec s = (.ok schema, s) := by
      simp [schemaOf, exec_bind, known?, hknown]
    rw [hexec, hshape, hknown]
    exact ⟨rfl, rfl, .refl s⟩
  | none =>
    cases hstored : s.store.schemas.get? table with
    | none =>
      have hexec : (schemaOf table).exec s = (.error (.noDestinationTable table.text), s) := by
        simp [schemaOf, exec_bind, known?, hknown, Run.store, TargetStore.tableSchema, hstored]
      rw [hexec, hshape, hknown, hstored]
      exact ⟨rfl, rfl, .refl s⟩
    | some schema =>
      have hexec : (schemaOf table).exec s =
          (.ok schema, { s with schemas := s.schemas.put table schema }) := by
        simp [schemaOf, exec_bind, known?, hknown, Run.store, TargetStore.tableSchema, hstored,
          remember, -bind_pure_comp]
      rw [hexec, hshape, hknown, hstored]
      refine ⟨rfl, rfl, fun other => ?_, fun _ => rfl⟩
      show _ = ((s.schemas.put table schema).get? other).or (s.store.schemas.get? other)
      rw [Keyed.get?_put]
      by_cases hother : other = table
      · subst hother
        rw [if_pos rfl, Session.shape?, hknown, hstored]
        rfl
      · rw [if_neg hother]
        rfl

theorem schemaOf_local {places : Set RowAddress} (table : TableName) :
    Local places (schemaOf table : Run MemoryStore Schema) := by
  refine ⟨fun s t halike => ?_⟩
  obtain ⟨hresult, hstore, htables⟩ := schemaOf_exec table s
  obtain ⟨hresult', hstore', htables'⟩ := schemaOf_exec table t
  refine ⟨[], ?_, ?_, ?_, ?_⟩
  · rw [hresult, hresult', halike.tables.shape]
  · exact ⟨htables, by simp [hstore], by simp [hstore], by simp [hstore]⟩
  · exact ⟨htables', by simp [hstore'], by simp [hstore'], by simp [hstore']⟩
  · exact ⟨(htables.symm.trans halike.tables).trans htables', by rw [hstore, hstore']; exact halike.cell⟩

theorem park_local {places : Set RowAddress} (letter : DeadLetter) :
    Local places (Run.store (TargetStore.park letter : StoreAction MemoryStore Unit)) := by
  refine ⟨fun s t halike => ?_⟩
  refine ⟨[letter], rfl, ?_, ?_, ?_⟩
  · exact ⟨⟨fun _ => rfl, fun _ => rfl⟩, fun _ _ => rfl, fun _ _ => rfl, rfl⟩
  · exact ⟨⟨fun _ => rfl, fun _ => rfl⟩, fun _ _ => rfl, fun _ _ => rfl, rfl⟩
  · exact ⟨⟨halike.tables.shape, halike.tables.hasTable⟩, halike.cell⟩

/-! ## Rows -/

namespace MemoryStore

theorem cell_overwritten (s : MemoryStore) (id : RowId) (w : RowWrite) :
    (s.overwritten id w).cell id.address =
      ⟨some (((s.row? id).getD .empty).overlay w.data), w.exprs⟩ := by
  rw [cell, get?_stored_overwritten, get?_exprs_overwritten, if_pos rfl, if_pos rfl]
  cases hexprs : w.exprs with
  | nil => rfl
  | cons e rest => rfl

theorem rowExprs_overwritten (s : MemoryStore) (id : RowId) (w : RowWrite) :
    (s.overwritten id w).rowExprs id = w.exprs := congrArg Cell.exprs (s.cell_overwritten id w)

end MemoryStore

/-- Reads the data of a row. -/
def readData (id : RowId) : Run MemoryStore (Option Document) := do
  let current ← Run.store (TargetStore.readRow id)
  return current.map StoredRow.data

/-- Writes a row whatever its version is. -/
def overwriteRow (id : RowId) (w : RowWrite) : Run MemoryStore WriteOutcome :=
  Run.store (TargetStore.writeRow id w .any)

theorem readData_exec (id : RowId) (s : Session MemoryStore) :
    (readData id).exec s = (.ok (s.store.row? id), s) := rfl

theorem overwriteRow_exec (id : RowId) (w : RowWrite) (s : Session MemoryStore) :
    (overwriteRow id w).exec s =
      if s.store.hasTable id.table then (.ok .written, { s with store := s.store.overwritten id w })
      else (.error (.tableNotInStore id.table.text), { s with store := s.store.advance }) := by
  have hwrite : MemoryStore.writeRow id w .any s.store =
      if s.store.hasTable id.table then (.ok .written, s.store.overwritten id w)
      else (.error (.tableNotInStore id.table.text), s.store.advance) :=
    MemoryStore.writeRow_of_admits rfl w
  show ((MemoryStore.writeRow id w .any s.store).1,
    { s with store := (MemoryStore.writeRow id w .any s.store).2 }) = _
  rw [hwrite]
  split <;> rfl

theorem readData_local (id : RowId) : Local {id.address} (readData id) := by
  refine ⟨fun s t halike => ?_⟩
  have hrow : s.store.row? id = t.store.row? id :=
    congrArg Cell.data (halike.cell id.address rfl)
  refine ⟨[], ?_, .refl _ s, .refl _ t, halike⟩
  rw [readData_exec, readData_exec, hrow]

theorem overwriteRow_follows (id : RowId) (w : RowWrite) (s : Session MemoryStore) :
    Session.Follows {id.address} [] s ((overwriteRow id w).exec s).2 := by
  rw [overwriteRow_exec]
  split
  · refine ⟨⟨fun table => ?_, fun table => ?_⟩, fun place hplace => ?_, fun place hplace => ?_, ?_⟩
    · show _ = (s.schemas.get? table).or ((s.store.overwritten id w).schemas.get? table)
      rw [MemoryStore.schemas_overwritten]
      rfl
    · show _ = (s.store.overwritten id w).schemas.contains table
      rw [MemoryStore.schemas_overwritten]
      rfl
    · exact (MemoryStore.get?_stored_overwritten ..).trans (if_neg hplace)
    · exact (MemoryStore.get?_exprs_overwritten ..).trans (if_neg hplace)
    · exact (MemoryStore.letters_overwritten ..).trans (List.append_nil _).symm
  · exact ⟨⟨fun _ => rfl, fun _ => rfl⟩, fun _ _ => rfl, fun _ _ => rfl, (List.append_nil _).symm⟩

theorem overwriteRow_local (id : RowId) (w : RowWrite) : Local {id.address} (overwriteRow id w) := by
  refine ⟨fun s t halike => ?_⟩
  have hs := overwriteRow_follows id w s
  have ht := overwriteRow_follows id w t
  have hrow : s.store.row? id = t.store.row? id :=
    congrArg Cell.data (halike.cell id.address rfl)
  refine ⟨[], ?_, hs, ht, (hs.tables.symm.trans halike.tables).trans ht.tables, ?_⟩
  · rw [overwriteRow_exec, overwriteRow_exec, halike.tables.hasTable]
    split <;> rfl
  · intro place hplace
    cases hplace
    rw [overwriteRow_exec, overwriteRow_exec, halike.tables.hasTable]
    split
    · exact (MemoryStore.cell_overwritten ..).trans
        (hrow ▸ (MemoryStore.cell_overwritten ..).symm)
    · exact halike.cell id.address rfl

theorem deleteRow_follows (id : RowId) (s : Session MemoryStore) :
    Session.Follows {id.address} [] s
      ((Run.store (TargetStore.deleteRow id : StoreAction MemoryStore Unit)).exec s).2 := by
  show Session.Follows _ _ s { s with store := (MemoryStore.deleteRow id s.store).2 }
  unfold MemoryStore.deleteRow
  split
  · refine ⟨⟨fun _ => rfl, fun _ => rfl⟩, fun place hplace => ?_, fun place hplace => ?_,
      (List.append_nil _).symm⟩
    · exact (Keyed.get?_drop ..).trans (if_neg hplace)
    · exact (Keyed.get?_drop ..).trans (if_neg hplace)
  · exact .refl _ s

theorem deleteRow_local (id : RowId) :
    Local {id.address} (Run.store (TargetStore.deleteRow id : StoreAction MemoryStore Unit)) := by
  refine ⟨fun s t halike => ?_⟩
  have hs := deleteRow_follows id s
  have ht := deleteRow_follows id t
  refine ⟨[], ?_, hs, ht, (hs.tables.symm.trans halike.tables).trans ht.tables, ?_⟩
  · show (MemoryStore.deleteRow id s.store).1 = (MemoryStore.deleteRow id t.store).1
    unfold MemoryStore.deleteRow
    rw [halike.tables.hasTable]
    split <;> rfl
  · intro place hplace
    cases hplace
    show (MemoryStore.deleteRow id s.store).2.cell id.address =
      (MemoryStore.deleteRow id t.store).2.cell id.address
    unfold MemoryStore.deleteRow
    rw [halike.tables.hasTable]
    split
    · simp [MemoryStore.cell, Keyed.get?_drop]
    · exact halike.cell id.address rfl

end Tributary
