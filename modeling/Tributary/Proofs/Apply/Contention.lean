import Tributary.Proofs.Apply.Alone
import Tributary.Proofs.Apply.Attempts
import Tributary.Proofs.Merge.ValueOrder

/-!
# Upserts of a contended row

Another writer gets in between reading a row and writing it, a number of times. Each time costs the upsert one
attempt, and leaves the row under what the other writer has written over it. If no compare-and-set column is
among that, a proposal that was newer than the row still is, so that the upsert goes through as soon as the other
writer lets it. It does so exactly if there are more attempts than interferences.

* `ContendedStore.Interfered`: what so many interferences with a row leave of a store.
* `attemptOnce_contested`, `attemptOnce_uncontested`: one attempt, with the other writer and without.
* `upsertWithin_applied`, `upsertWithin_exhausted`: all attempts, by induction on how many are allowed.
* `retry_budget_is_exact`: what becomes of the mutation, of the row and of everything else.
-/

namespace Tributary

open Run

/-! ## The other writer -/

namespace ContendedStore

variable {id : RowId} {m n : Nat} {s t u : ContendedStore}

/-- What so many interferences with a row leave of a store. Each of them uses up one, and all of them together
leave the row under one copy of what the other writer writes. -/
structure Interfered (id : RowId) (n : Nat) (s t : ContendedStore) : Prop where
  races : t.races + n = s.races
  interference : t.interference = s.interference
  versions : VersionsUsed s.inner → VersionsUsed t.inner
  schemas : t.inner.schemas = s.inner.schemas
  letters : t.inner.letters = s.inner.letters
  exprs : t.inner.exprs = s.inner.exprs
  row : t.inner.row? id =
    if n = 0 then s.inner.row? id else (s.inner.row? id).map fun row => row.overlay s.interference
  others : ∀ other : RowId, other.address ≠ id.address → t.inner.row? other = s.inner.row? other

theorem Interfered.refl (id : RowId) (s : ContendedStore) : Interfered id 0 s s :=
  ⟨rfl, rfl, fun h => h, rfl, rfl, rfl, rfl, fun _ _ => rfl⟩

theorem Interfered.trans (hs : Interfered id m s t) (ht : Interfered id n t u) : Interfered id (m + n) s u where
  races := by
    have h := hs.races
    have h' := ht.races
    omega
  interference := ht.interference.trans hs.interference
  versions h := ht.versions (hs.versions h)
  schemas := ht.schemas.trans hs.schemas
  letters := ht.letters.trans hs.letters
  exprs := ht.exprs.trans hs.exprs
  others other hother := (ht.others other hother).trans (hs.others other hother)
  row := by
    rw [ht.row, hs.row, hs.interference]
    by_cases hm : m = 0
    · simp [hm]
    · by_cases hn : n = 0
      · simp [hm, hn]
      · -- what is written over the row twice is there as if it had been written once
        rw [if_neg hm, if_neg hn, if_neg (by omega), Option.map_map]
        congr 1
        funext row
        show (row.overlay s.interference).overlay s.interference = row.overlay s.interference
        rw [Document.overlay_assoc, Document.overlay_self]

theorem Interfered.row_of_stored {stored : Document} (h : Interfered id n s t)
    (hstored : s.inner.row? id = some stored) :
    t.inner.row? id = some (if n = 0 then stored else stored.overlay s.interference) := by
  rw [h.row, hstored]
  split <;> rfl

/-- A write that comes late demands a version that is there no more. -/
theorem writeRow_contested {current : StoredRow} (hversions : VersionsUsed s.inner)
    (hrow : s.inner.stored? id = some current) (htable : s.inner.hasTable id.table = true)
    (hraces : s.races = n + 1) (w : RowWrite) :
    ∃ t, writeRow id w (.exactly current.version) s = (.ok .versionMismatch, t) ∧ Interfered id 1 s t := by
  let data := current.data.overlay s.interference
  let changed := s.inner.advance.putRow id data
  have hinsert : MemoryStore.insertRow id data s.inner = (.ok (s.inner.lastVersion + 1), changed) := by
    simp [MemoryStore.insertRow, htable, changed]
  have hstored (other : RowId) : changed.stored? other =
      if other.address = id.address then some ⟨data, s.inner.lastVersion + 1⟩ else s.inner.stored? other :=
    MemoryStore.stored?_putRow ..
  have hmismatch : (ExpectedVersion.exactly current.version).admits
      ((changed.stored? id).map StoredRow.version) = false := by
    have hused := hversions id current hrow
    rw [hstored, if_pos rfl]
    simp [ExpectedVersion.admits]
    omega
  have hwrite : MemoryStore.writeRow id w (.exactly current.version) changed =
      (.ok .versionMismatch, changed.advance) := by
    have htable' : changed.hasTable id.table = true := htable
    simp [MemoryStore.writeRow, htable', hmismatch]
  have hfound : s.inner.row? id = some current.data := by
    rw [MemoryStore.row?, hrow]
    rfl
  have hraced : interfere id (.exactly current.version) s =
      (.ok (), { s with inner := changed, races := n }) := by
    simp [interfere, hfound, hraces, hinsert, data, Except.map]
  refine ⟨{ s with inner := changed.advance, races := n }, ?_, ?_⟩
  · simp only [writeRow, hraced, within, hwrite]
  · refine ⟨hraces.symm, rfl, fun hused => ?_, rfl, rfl, rfl, ?_, fun other hother => ?_⟩
    · have hlater : VersionsUsed changed := by
        have hrun := hused.run (.insert id data)
        rwa [StoreOp.run, hinsert] at hrun
      exact fun other row hother => Nat.le_succ_of_le (hlater other row hother)
    · show (changed.stored? id).map StoredRow.data = _
      rw [hstored, if_pos rfl, hfound]
      rfl
    · show (changed.stored? other).map StoredRow.data = _
      rw [hstored, if_neg hother]
      rfl

/-- Where the other writer does not interfere any more the row is still what was read. -/
theorem writeRow_uncontested {current : StoredRow} (hrow : s.inner.stored? id = some current)
    (htable : s.inner.hasTable id.table = true) (hraces : s.races = 0) (w : RowWrite) :
    writeRow id w (.exactly current.version) s = (.ok .written, { s with inner := s.inner.overwritten id w }) := by
  have hnone : interfere id (.exactly current.version) s = (.ok (), s) := by
    unfold interfere
    rw [hraces]
    cases s.inner.row? id <;> rfl
  have hadmits : (ExpectedVersion.exactly current.version).admits
      ((s.inner.stored? id).map StoredRow.version) = true := by
    rw [hrow]
    simp [ExpectedVersion.admits]
  simp only [writeRow, hnone, within, MemoryStore.writeRow_of_admits hadmits, if_pos htable]

end ContendedStore

/-! ## One attempt -/

variable {registry : Registry} (source : String) {p : Prepared} {row : MappedRow} {n limit : Nat} (total : Nat)

/-- An upsert whose proposal is newer than the stored row. The other writer writes no compare-and-set column, so
that this stays as it is. -/
structure Outranks (registry : Registry) (p : Prepared) (row : MappedRow) (s : ContendedStore) : Prop where
  isCas : (registry.table p.row.table).isCas = true
  spared : ∀ column ∈ (registry.table p.row.table).cas, s.interference.get? column = none
  versions : VersionsUsed s.inner
  table : s.inner.hasTable p.row.table = true
  newer : ∃ stored, s.inner.row? p.row = some stored ∧
    casOrder (registry.table p.row.table).cas row.row stored = .gt

theorem casOrder_overlay_of_spared {columns : List String} {interference : Document}
    (hspared : ∀ column ∈ columns, interference.get? column = none) (proposed stored : Document) :
    casOrder columns proposed (stored.overlay interference) = casOrder columns proposed stored := by
  have hkept : ∀ column ∈ columns, (stored.overlay interference).get? column = stored.get? column := by
    intro column hcolumn
    rw [Document.get?_overlay, hspared column hcolumn, Option.none_or]
  rw [casOrder_swap, casOrder_congr_left hkept, ← casOrder_swap]

theorem Outranks.interfered {s t : ContendedStore} (h : Outranks registry p row s)
    (ht : ContendedStore.Interfered p.row n s t) : Outranks registry p row t := by
  obtain ⟨stored, hstored, hnewer⟩ := h.newer
  refine ⟨h.isCas, ?_, ht.versions h.versions, ?_, ?_⟩
  · rw [ht.interference]
    exact h.spared
  · rw [MemoryStore.hasTable, ht.schemas]
    exact h.table
  · refine ⟨_, ht.row_of_stored hstored, ?_⟩
    split
    · exact hnewer
    · rw [casOrder_overlay_of_spared h.spared]
      exact hnewer

variable {s : Session ContendedStore}

/-- The row is read, and there is nothing that a merge would have to decide. -/
theorem Outranks.exists_current (h : Outranks registry p row s.store) :
    ∃ current, s.store.inner.stored? p.row = some current ∧
      TargetStore.readRow p.row s.store = (.ok (some current), s.store) ∧
      conflicts (registry.table p.row.table).cas row.row current.data = false := by
  obtain ⟨stored, hstored, hnewer⟩ := h.newer
  obtain ⟨current, hcurrent, rfl⟩ := Option.map_eq_some_iff.1 hstored
  refine ⟨current, hcurrent, ?_, ?_⟩
  · show (Except.ok (s.store.inner.stored? p.row), s.store) = _
    rw [hcurrent]
  · simp [conflicts, hnewer]

theorem attemptOnce_contested (h : Outranks registry p row s.store) (hraces : s.store.races = n + 1) :
    ∃ t, (attemptOnce registry source p row none).exec s = (.ok (none, none), { s with store := t }) ∧
      ContendedStore.Interfered p.row 1 s.store t := by
  obtain ⟨current, hcurrent, hread, hagrees⟩ := h.exists_current
  obtain ⟨t, hwrite, ht⟩ :=
    ContendedStore.writeRow_contested h.versions hcurrent h.table hraces ⟨row.row, row.exprs⟩
  exact ⟨t, attemptOnce_of_agreed source h.isCas hread hagrees hwrite, ht⟩

/-- The store behind a write. -/
def ContendedStore.overwritten (s : ContendedStore) (id : RowId) (w : RowWrite) : ContendedStore :=
  { s with inner := s.inner.overwritten id w }

theorem attemptOnce_uncontested (h : Outranks registry p row s.store) (hraces : s.store.races = 0) :
    (attemptOnce registry source p row none).exec s =
      (.ok (some .applied, none), { s with store := s.store.overwritten p.row ⟨row.row, row.exprs⟩ }) := by
  obtain ⟨current, hcurrent, hread, hagrees⟩ := h.exists_current
  exact attemptOnce_of_agreed source h.isCas hread hagrees
    (ContendedStore.writeRow_uncontested hcurrent h.table hraces ⟨row.row, row.exprs⟩)

/-! ## All attempts -/

/-- With more attempts than interferences, the attempt behind the last interference writes the row. -/
theorem upsertWithin_applied (h : Outranks registry p row s.store) (hraces : s.store.races < limit) :
    ∃ t, ContendedStore.Interfered p.row s.store.races s.store t ∧
      (upsertWithin registry source p row total limit none).exec s =
        (.ok .applied, { s with store := t.overwritten p.row ⟨row.row, row.exprs⟩ }) := by
  induction limit generalizing s with
  | zero => exact absurd hraces (Nat.not_lt_zero _)
  | succ limit ih =>
    rw [upsertWithin_succ]
    cases hpending : s.store.races with
    | zero =>
      refine ⟨s.store, .refl p.row s.store, ?_⟩
      rw [exec_bind_of_ok (attemptOnce_uncontested source h hpending)]
      rfl
    | succ n =>
      obtain ⟨t, hfirst, ht⟩ := attemptOnce_contested source h hpending
      have hleft : t.races = n := by
        have hused := ht.races
        omega
      obtain ⟨u, hu, hlater⟩ := ih (s := { s with store := t }) (h.interfered ht) (by
        show t.races < limit
        omega)
      have hu : ContendedStore.Interfered p.row t.races t u := hu
      refine ⟨u, ?_, ?_⟩
      · rw [Nat.add_comm n 1, ← hleft]
        exact ht.trans hu
      · rw [exec_bind_of_ok hfirst]
        exact hlater

/-- Where the other writer gets in front of every attempt, none of them writes anything. -/
theorem upsertWithin_exhausted (h : Outranks registry p row s.store) (hraces : limit ≤ s.store.races) :
    ∃ t, ContendedStore.Interfered p.row limit s.store t ∧
      (upsertWithin registry source p row total limit none).exec s =
        (.error (.keepsChanging p.row.table.text p.row.key.text total), { s with store := t }) := by
  induction limit generalizing s with
  | zero => exact ⟨s.store, .refl p.row s.store, rfl⟩
  | succ limit ih =>
    obtain ⟨n, hpending⟩ := Nat.exists_eq_add_of_le' (Nat.le_trans (Nat.succ_le_succ (Nat.zero_le limit)) hraces)
    obtain ⟨t, hfirst, ht⟩ := attemptOnce_contested source h hpending
    obtain ⟨u, hu, hlater⟩ := ih (s := { s with store := t }) (h.interfered ht) (by
      have hused := ht.races
      show limit ≤ t.races
      omega)
    refine ⟨u, ?_, ?_⟩
    · rw [Nat.add_comm limit 1]
      exact ht.trans hu
    · rw [upsertWithin_succ, exec_bind_of_ok hfirst]
      exact hlater

/-- An upsert to a table with compare-and-set columns is newer than its row, so that it is not for a merge. Another
writer is to get in between a number of times, each time with the same document, in which none of these columns is. If
that is not more often than the upsert may be retried, which is short of the largest number, the upsert is applied: it
is laid over the row, and over what the other writer has written if there was any, nothing is parked, and the other
writer is through. Else it is parked in the default queue for a stale write. The other writer has then got in between
once for every attempt, and the row is as the other writer has left it. All other rows are as they were in either
case. -/
theorem retry_budget_is_exact (registry : Registry) (source : String)
    (hretries : registry.options.staleRetries.toNat < 4294967295) {p : Prepared} {row : MappedRow}
    (haction : p.action = .upsert row) (hcas : (registry.table p.row.table).isCas = true)
    {s : Session ContendedStore} (hs : Reachable s.store.inner) {stored : Document}
    (hstored : s.store.inner.row? p.row = some stored)
    (hnewer : casOrder (registry.table p.row.table).cas row.row stored = .gt)
    (hspared : ∀ column ∈ (registry.table p.row.table).cas, s.store.interference.get? column = none) :
    let retries := registry.options.staleRetries.toNat
    let changed := stored.overlay s.store.interference
    let fault := Fault.keepsChanging p.row.table.text p.row.key.text (retries + 1)
    ∃ disposition t, (applyGroup registry source [p]).exec s =
        (.ok [(p.placed.number, ⟨p.placed.index, some p.row.table, some p.key, disposition⟩)], t) ∧
      (s.store.races ≤ retries → disposition = .applied ∧ t.store.races = 0 ∧
        t.store.inner.letters = s.store.inner.letters ∧
        t.store.inner.row? p.row = some ((if s.store.races = 0 then stored else changed).overlay row.row) ∧
        t.store.inner.rowExprs p.row = row.exprs) ∧
      (retries < s.store.races → disposition = .parked registry.options.defaultDlq ∧
        t.store.races + (retries + 1) = s.store.races ∧ fault.kind = .staleWrite ∧
        t.store.inner.letters = s.store.inner.letters ++
          [⟨registry.options.defaultDlq, source, some p.row.table, p.mutation, none, some fault.text⟩] ∧
        t.store.inner.row? p.row = some changed ∧
        t.store.inner.rowExprs p.row = s.store.inner.rowExprs p.row) ∧
      ∀ other : RowId, other.address ≠ p.row.address → t.store.inner.row? other = s.store.inner.row? other := by
  intro retries changed fault
  have htable : s.store.inner.hasTable p.row.table = true := by
    obtain ⟨current, hcurrent, -⟩ := Option.map_eq_some_iff.1 hstored
    exact hs.rowsHaveTables p.row current hcurrent
  have h : Outranks registry p row s.store :=
    ⟨hcas, hspared, hs.versionsUsed, htable, stored, hstored, hnewer⟩
  have hupsert : applyPrepared registry source p =
      (upsertWithin registry source p row (retries + 1) (retries + 1) none : Run ContendedStore _) := by
    rw [applyPrepared, haction]
    dsimp only
    rw [applyUpsert, Options.attempts_of_lt hretries]
  rcases Nat.lt_or_ge retries s.store.races with hmore | hfew
  · obtain ⟨t, ht, hexec⟩ := upsertWithin_exhausted source (retries + 1) h hmore
    have happly : (applyPrepared registry source p).exec s = (.error fault, { s with store := t }) := by
      rw [hupsert]
      exact hexec
    refine ⟨_, _, applyGroup_of_parked happly rfl rfl, fun hfew => absurd hmore (Nat.not_lt.2 hfew),
      fun _ => ⟨rfl, ht.races, rfl, ?_, ?_, ?_⟩, ht.others⟩
    · exact congrArg (· ++ [p.failureLetter registry source fault]) ht.letters
    · refine (ht.row_of_stored hstored).trans ?_
      rw [if_neg (Nat.succ_ne_zero retries)]
    · exact congrArg (fun exprs => (exprs.get? p.row.address).getD []) ht.exprs
  · obtain ⟨t, ht, hexec⟩ := upsertWithin_applied source (retries + 1) h (Nat.lt_succ_of_le hfew)
    have happly : (applyPrepared registry source p).exec s =
        (.ok .applied, { s with store := t.overwritten p.row ⟨row.row, row.exprs⟩ }) := by
      rw [hupsert]
      exact hexec
    refine ⟨_, _, applyGroup_of_applied happly, fun _ => ⟨rfl, ?_, ?_, ?_, ?_⟩,
      fun hmore => absurd hmore (Nat.not_lt.2 hfew), fun other hother => ?_⟩
    · have hused := ht.races
      show t.races = 0
      omega
    · exact (MemoryStore.letters_overwritten ..).trans ht.letters
    · refine (MemoryStore.row?_overwritten ..).trans ?_
      rw [if_pos rfl, ht.row_of_stored hstored]
      rfl
    · exact MemoryStore.rowExprs_overwritten ..
    · refine (MemoryStore.row?_overwritten ..).trans ?_
      rw [if_neg hother]
      exact ht.others other hother

namespace Example

/-- A registry in which writes are tried again once. -/
def retriedOnce : Registry :=
  ⟨{ Options.default with staleRetries := 1 }, .empty,
    Keyed.empty.put orders.name { TableConfig.plain with cas := ["paid"] }⟩

/-- A payment, ready for its row. -/
def clearing : Prepared :=
  ⟨⟨0, 0, orders.name, ⟨none, some (content true), [.bool true], default, .empty⟩⟩, ⟨[.bool true]⟩,
    .upsert ⟨content true, []⟩⟩

/-- A session with a row on which another writer is to put a note so many times. -/
def annotated (races : Nat) : Session ContendedStore :=
  .ofStore ⟨filled, races, .ofList [("note", .string "held")]⟩

/-- The row with the note. -/
def held (paid : Bool) : Document := .ofList [("note", .string "held"), ("paid", .bool paid)]

end Example

/-- The payment goes through behind one note, but not with three of them to come. -/
theorem one_retry_takes_one_interference :
    (∃ t, (applyGroup Example.retriedOnce "orders" [Example.clearing]).exec (Example.annotated 1) =
        (.ok [(0, ⟨0, some Example.orders.name, some ⟨[.bool true]⟩, .applied⟩)], t) ∧
      t.store.races = 0 ∧ t.store.inner.row? Example.order = some (Example.held true)) ∧
    ∃ t, (applyGroup Example.retriedOnce "orders" [Example.clearing]).exec (Example.annotated 3) =
        (.ok [(0, ⟨0, some Example.orders.name, some ⟨[.bool true]⟩, .parked "dlq"⟩)], t) ∧
      t.store.races = 1 ∧ t.store.inner.row? Example.order = some (Example.held false) := by
  have hreachable : Reachable Example.filled := ⟨_, rfl⟩
  have hspared : ∀ column ∈ ["paid"], (Document.ofList [("note", .string "held")]).get? column = none := by
    intro column hcolumn
    rw [List.mem_singleton.1 hcolumn]
    rfl
  have hnewer : casOrder ["paid"] (Example.content true) (Example.content false) = .gt := by decide
  have hretries : Example.retriedOnce.options.staleRetries.toNat < 4294967295 := by decide
  have haction : Example.clearing.action = .upsert ⟨Example.content true, []⟩ := rfl
  have hstored (races : Nat) : (Example.annotated races).store.inner.row? Example.clearing.row =
      some (Example.content false) := rfl
  constructor
  · obtain ⟨disposition, t, hexec, happlied, -, -⟩ := retry_budget_is_exact Example.retriedOnce "orders" hretries
      haction rfl hreachable (hstored 1) hnewer hspared
    obtain ⟨rfl, hraces, -, hrow, -⟩ := happlied (Nat.le_refl 1)
    exact ⟨t, hexec, hraces, hrow.trans (by decide)⟩
  · obtain ⟨disposition, t, hexec, -, hparked, -⟩ := retry_budget_is_exact Example.retriedOnce "orders" hretries haction
      rfl hreachable (hstored 3) hnewer hspared
    obtain ⟨rfl, hraces, -, -, hrow, -⟩ := hparked (by decide)
    exact ⟨t, hexec, Nat.add_right_cancel hraces, hrow.trans (by decide)⟩

end Tributary
