import Tributary.Proofs.Routing.Places

/-!
# Putting documents back

Documents that were detached go back to where their keys say. Level by level this gives the document as far as it
has been put back, and in the end the whole document.

* `putBack`, `putAll`: one document, and some documents, put back at their places.
* `Document.cut`: a document without what stands deeper than a level.
* `putAll_cuttings`: the documents of one level put back onto the levels above give the next cut.
* `detached_documents_rebuild_the_data`: a route keeps everything, and what it keeps is flat and well keyed.
-/

namespace Tributary

open Document (toValue)

/-! ## Putting back -/

/-- The items of an array. -/
def Value.elements : Value → List Value
  | .array items => items
  | _ => []

/-- The value with a document put back at a place. Documents and arrays that are missing on the way are filled
in. -/
def putBack (child : Document) : List Value → Option Value → Value
  | [], _ => child.toValue
  | .string name :: rest, old =>
    let parent := (old.bind Document.ofValue?).getD .empty
    (parent.insert name (putBack child rest (parent.get? name))).toValue
  | .number (.integer i _) :: rest, old =>
    let items := (old.map Value.elements).getD []
    .array (items.take i.toNat ++ putBack child rest items[i.toNat]? :: items.drop (i.toNat + 1))
  | _ :: _, old => old.getD .null

/-- The value with documents put back one after another. -/
def putAll (ps : List (List Value × Document)) (old : Option Value) : Option Value :=
  ps.foldl (fun old p => some (putBack p.2 p.1 old)) old

/-- The documents of a route, each put back where its key says, below the key of the source. -/
def reassemble (key : List Value) (routed : List Routed) : Option Value :=
  putAll (routed.filterMap fun r => r.mutation.data.map (r.mutation.key.drop key.length, ·)) none

/-- The documents of all places under one name. -/
def under (name : String) (ps : List (List Value × Document)) : List (List Value × Document) :=
  ps.map fun p => (.string name :: p.1, p.2)

/-- The documents of all places under one index. -/
def atIndex (i : Nat) (ps : List (List Value × Document)) : List (List Value × Document) :=
  ps.map fun p => (.number (.ofNat i) :: p.1, p.2)

/-- An array, or nothing where there are no items yet. -/
def arrayOf : List Value → Option Value
  | [] => none
  | v :: vs => some (.array (v :: vs))

theorem elements_arrayOf (vs : List Value) : ((arrayOf vs).map Value.elements).getD [] = vs := by
  cases vs <;> rfl

theorem putAll_append (ps qs : List (List Value × Document)) (old : Option Value) :
    putAll (ps ++ qs) old = putAll qs (putAll ps old) := List.foldl_append

/-- What is put back under a name changes the value of that name only. -/
theorem putAll_under (name : String) (ps : List (List Value × Document)) (d : Document) :
    ∃ e : Document, putAll (under name ps) (some d.toValue) = some e.toValue ∧
      ∀ key, e.get? key = if key = name then putAll ps (d.get? name) else d.get? key := by
  induction ps generalizing d with
  | nil =>
    refine ⟨d, rfl, fun key => ?_⟩
    split
    · rename_i hkey
      rw [hkey]
      rfl
    · rfl
  | cons p ps ih =>
    obtain ⟨e, hput, hget⟩ := ih (d.insert name (putBack p.2 p.1 (d.get? name)))
    refine ⟨e, ?_, fun key => ?_⟩
    · rw [← hput, under, List.map_cons]
      show putAll _ (some (putBack p.2 (.string name :: p.1) (some d.toValue))) = _
      rw [putBack, Option.bind_some, Document.ofValue?_toValue]
      rfl
    · rw [hget, Document.get?_insert_self]
      by_cases hkey : key = name
      · rw [if_pos hkey, if_pos hkey]
        rfl
      · rw [if_neg hkey, if_neg hkey, Document.get?_insert_of_ne _ _ hkey]

/-- Every property takes what is put back under its own name. -/
theorem putAll_fields (parts : Value → List (List Value × Document)) {fields : List (String × Value)}
    (h : Value.Ascending fields) (d : Document) :
    ∃ e : Document, putAll (fields.flatMap fun f => under f.1 (parts f.2)) (some d.toValue) = some e.toValue ∧
      ∀ key, e.get? key = (fields.lookup key).elim (d.get? key) fun v => putAll (parts v) (d.get? key) := by
  induction fields generalizing d with
  | nil => exact ⟨d, rfl, fun key => rfl⟩
  | cons f fields ih =>
    obtain ⟨hfirst, hrest⟩ := List.pairwise_cons.1 h
    obtain ⟨d₁, hput₁, hget₁⟩ := putAll_under f.1 (parts f.2) d
    obtain ⟨e, hput, hget⟩ := ih hrest d₁
    refine ⟨e, ?_, fun key => ?_⟩
    · rw [List.flatMap_cons, putAll_append, hput₁, hput]
    · rw [hget, hget₁, Document.lookup_field]
      by_cases hkey : key = f.1
      · rw [hkey, Document.lookup_eq_none_of_lt hfirst, if_pos rfl, if_pos rfl]
        rfl
      · rw [if_neg hkey, if_neg hkey]

/-- What is put back under an index changes the item of that index, or it adds the item. -/
theorem putAll_atIndex {done rest : List Value} {item : Option Value} (hrest : item = none → rest = [])
    (hdone : done.length < 18446744073709551616) (ps : List (List Value × Document)) :
    putAll (atIndex done.length ps) (arrayOf (done ++ item.toList ++ rest)) =
      arrayOf (done ++ (putAll ps item).toList ++ rest) := by
  induction ps generalizing item with
  | nil => rfl
  | cons p ps ih =>
    have hitem : (done ++ item.toList ++ rest)[done.length]? = item := by
      rw [List.append_assoc, List.getElem?_append_right le_rfl, Nat.sub_self]
      cases item with
      | none => rw [hrest rfl]; rfl
      | some v => rfl
    have hbefore : (done ++ item.toList ++ rest).take done.length = done := by
      rw [List.append_assoc, List.take_left']
      rfl
    have hafter : (done ++ item.toList ++ rest).drop (done.length + 1) = rest := by
      cases item with
      | none => simp [hrest rfl]
      | some v => rw [Option.toList_some, List.drop_left']; simp
    obtain ⟨_, hindex⟩ := Number.ofNat_of_lt hdone
    have hput : putBack p.2 (.number (.ofNat done.length) :: p.1) (arrayOf (done ++ item.toList ++ rest)) =
        .array (done ++ putBack p.2 p.1 item :: rest) := by
      rw [hindex, putBack, elements_arrayOf, Int.toNat_natCast, hitem, hbefore, hafter]
    rw [atIndex, List.map_cons]
    show putAll (atIndex done.length ps) (some (putBack p.2 _ _)) = _
    rw [hput]
    have harray : some (.array (done ++ putBack p.2 p.1 item :: rest)) =
        arrayOf (done ++ (some (putBack p.2 p.1 item)).toList ++ rest) := by
      rw [Option.toList_some, List.append_assoc]
      cases done <;> rfl
    have hrest' : some (putBack p.2 p.1 item) = none → rest = [] := fun hnone => by cases hnone
    rw [harray, ih hrest']
    rfl

/-! ## Cuts -/

/-- A document is replaced, and any other value stays. -/
def Value.mapDocument (f : Document → Document) (v : Value) : Value :=
  (Document.ofValue? v).elim v fun c => (f c).toValue

/-- The documents of a nested value are replaced. -/
def Value.mapNested (f : Document → Document) : Value → Value
  | .array items => .array (items.map (mapDocument f))
  | v => mapDocument f v

namespace Document

/-- All values are replaced, under the names that they had. -/
def mapValues (f : Value → Value) (d : Document) : Document :=
  ⟨d.fields.map fun e => (e.1, f e.2), List.pairwise_map.2 (d.ascending.imp fun h => h)⟩

theorem get?_mapValues (f : Value → Value) (d : Document) (key : String) :
    (d.mapValues f).get? key = (d.get? key).map f := by
  show (d.fields.map fun e => (e.1, f e.2)).lookup key = (d.fields.lookup key).map f
  induction d.fields with
  | nil => rfl
  | cons e rest ih =>
    rw [List.map_cons, lookup_field, lookup_field, ih]
    split <;> rfl

/-- The document without its nested documents. -/
def flat (d : Document) : Document := d.filter fun _ v => !v.isNested

/-- The document without what stands more than `n` levels deep. -/
def cut : Nat → Document → Document
  | 0, d => d.flat
  | n + 1, d => d.mapValues fun v => if v.isNested then v.mapNested (cut n) else v

/-- The flat documents of one level, each with its place. -/
def cuttings (n : Nat) (d : Document) : List (List Value × Document) := (d.pieces n).map fun p => (p.1, p.2.flat)

/-- What is there before the documents of a level are put back. -/
def before (d : Document) : Nat → Option Value
  | 0 => none
  | n + 1 => some (d.cut n).toValue

end Document

namespace Value

/-- The flat documents inside a nested value, of one level below it. -/
def cuttings (n : Nat) (v : Value) : List (List Value × Document) :=
  v.nestedDocuments.flatMap fun c => (c.2.cuttings n).map fun p => (c.1 ++ p.1, p.2)

/-- What is there of a nested value before the documents of a level below it are put back. -/
def before (v : Value) : Nat → Option Value
  | 0 => none
  | n + 1 => some (v.mapNested (Document.cut n))

theorem mapDocument_toValue (f : Document → Document) (c : Document) :
    mapDocument f c.toValue = (f c).toValue := by
  rw [mapDocument, Document.ofValue?_toValue]
  rfl

theorem mapNested_array (f : Document → Document) (cs : List Document) :
    mapNested f (.array (cs.map toValue)) = .array (cs.map fun c => (f c).toValue) := by
  rw [mapNested, List.map_map]
  exact congrArg _ (List.map_congr_left fun c _ => mapDocument_toValue f c)

end Value

theorem Document.cuttings_succ (n : Nat) (d : Document) :
    d.cuttings (n + 1) = d.fields.flatMap fun f => under f.1 (f.2.cuttings n) := by
  rw [cuttings, pieces, children, List.flatMap_assoc, List.map_flatMap]
  refine List.flatMap_congr fun f _ => ?_
  rw [under, Value.cuttings, List.flatMap_map, List.map_flatMap, List.map_flatMap]
  refine List.flatMap_congr fun c _ => ?_
  rw [cuttings, List.map_map, List.map_map, List.map_map]
  rfl

theorem Document.get?_cut (n : Nat) (d : Document) (key : String) :
    (d.cut n).get? key = (d.get? key).bind fun v => if v.isNested then v.before n else some v := by
  cases n with
  | zero =>
    rw [cut, flat, get?_filter]
    cases d.get? key with
    | none => rfl
    | some v => cases hv : v.isNested <;> simp [hv, Value.before]
  | succ n =>
    rw [cut, get?_mapValues]
    cases d.get? key with
    | none => rfl
    | some v => cases hv : v.isNested <;> simp [hv, Value.before]

/-! ## One level put back -/

/-- The items that are there before a level is put back. -/
def itemsBefore (n : Nat) (cs : List Document) : List Value := cs.flatMap fun c => (c.before n).toList

theorem arrayOf_itemsBefore {cs : List Document} (hcs : cs ≠ []) (n : Nat) :
    (Value.array (cs.map toValue)).before n = arrayOf (itemsBefore n cs) := by
  cases n with
  | zero =>
    have hnone : itemsBefore 0 cs = [] := List.flatMap_eq_nil_iff.2 fun _ _ => rfl
    rw [hnone]
    rfl
  | succ n =>
    have hall : itemsBefore (n + 1) cs = cs.map fun c => (c.cut n).toValue := List.flatMap_pure_eq_map ..
    rw [hall, Value.before, Value.mapNested_array]
    cases cs with
    | nil => exact absurd rfl hcs
    | cons => rfl

/-- The items of an array are put back one after another. -/
theorem putAll_items {n : Nat} {todo : List Document} (done : List Value)
    (hput : ∀ c ∈ todo, putAll (c.cuttings n) (c.before n) = some (c.cut n).toValue)
    (hfits : done.length + todo.length ≤ 18446744073709551616) :
    putAll ((todo.zipIdx done.length).flatMap fun e => atIndex e.2 (e.1.cuttings n))
        (arrayOf (done ++ itemsBefore n todo)) =
      arrayOf (done ++ todo.map fun c => (c.cut n).toValue) := by
  induction todo generalizing done with
  | nil => rfl
  | cons c todo ih =>
    have hrest : c.before n = none → itemsBefore n todo = [] := by
      intro hnone
      cases n with
      | zero => exact List.flatMap_eq_nil_iff.2 fun _ _ => rfl
      | succ n => cases hnone
    have hlength : (done ++ [(c.cut n).toValue]).length = done.length + 1 := List.length_append
    rw [List.length_cons] at hfits
    have hdone : done.length < 18446744073709551616 := by omega
    have hitem := putAll_atIndex hrest hdone (c.cuttings n)
    rw [hput c List.mem_cons_self, Option.toList_some] at hitem
    -- the item that is complete now joins those before it, so that the next index is the length again
    have hothers := ih (done ++ [(c.cut n).toValue]) (fun c hc => hput c (List.mem_cons_of_mem _ hc)) (by omega)
    rw [hlength] at hothers
    rw [List.zipIdx_cons, List.flatMap_cons, putAll_append, itemsBefore, List.flatMap_cons, ← List.append_assoc,
      ← itemsBefore, hitem, hothers, List.append_assoc]
    rfl

/-- The documents of one level inside a nested value are put back if those of each of its documents are. -/
theorem putAll_nested {n : Nat} {v : Value} (h : v.Regular) (hnested : v.isNested = true)
    (hput : ∀ c : Document, c.toValue.Regular → putAll (c.cuttings n) (c.before n) = some (c.cut n).toValue) :
    putAll (v.cuttings n) (v.before n) = some (v.mapNested (Document.cut n)) := by
  rcases h.nested_cases hnested with ⟨c, rfl⟩ | ⟨cs, hcs, hlength, rfl⟩
  · have hbefore : c.toValue.before n = c.before n := by
      cases n with
      | zero => rfl
      | succ n => exact congrArg some (Value.mapDocument_toValue _ c)
    rw [Value.cuttings, Value.nestedDocuments_toValue, List.flatMap_singleton, hbefore]
    simp only [List.nil_append, List.map_id']
    rw [hput c h]
    exact congrArg some (Value.mapDocument_toValue _ c).symm
  · have hregular : ∀ c ∈ cs, c.toValue.Regular := fun c hc => h.item (List.mem_map_of_mem hc)
    have hitems := putAll_items [] (fun c hc => hput c (hregular c hc)) (by simpa using hlength)
    rw [Value.cuttings, Value.nestedDocuments_array hcs, List.flatMap_map, arrayOf_itemsBefore hcs,
      Value.mapNested_array]
    refine hitems.trans ?_
    cases cs with
    | nil => exact absurd rfl hcs
    | cons => rfl

/-- The documents of one level put back onto the levels above give the next cut. -/
theorem putAll_cuttings (n : Nat) {d : Document} (h : d.toValue.Regular) :
    putAll (d.cuttings n) (d.before n) = some (d.cut n).toValue := by
  induction n generalizing d with
  | zero => rfl
  | succ n ih =>
    -- every property takes the documents below it, and of these the induction knows what they give
    obtain ⟨e, hput, hget⟩ := putAll_fields (Value.cuttings n) d.ascending (d.cut n)
    rw [Document.cuttings_succ, Document.before, hput]
    congr 2
    refine Document.ext_get? fun key => ?_
    rw [hget, Document.cut, Document.get?_mapValues, Document.get?_cut]
    show (d.get? key).elim _ _ = _
    cases hv : d.get? key with
    | none => rfl
    | some v =>
      show putAll (v.cuttings n) (if v.isNested then v.before n else some v) =
        some (if v.isNested then v.mapNested (Document.cut n) else v)
      have hregular := h.property ((d.mem_fields_iff key v).2 hv)
      by_cases hnested : v.isNested = true
      · rw [if_pos hnested, if_pos hnested, putAll_nested hregular hnested fun c hc => ih hc]
      · rw [if_neg hnested, if_neg hnested, Value.cuttings, Value.nestedDocuments_of_not_nested hnested]
        rfl

/-- All documents down to a level give the cut at that level. -/
theorem putAll_piecesTo (n : Nat) {d : Document} (h : d.toValue.Regular) :
    putAll ((d.piecesTo n).map fun p => (p.1, p.2.flat)) none = some (d.cut n).toValue := by
  induction n with
  | zero => rfl
  | succ n ih =>
    have hlevels : d.piecesTo (n + 1) = d.piecesTo n ++ d.pieces (n + 1) := by
      rw [Document.piecesTo, List.range_succ, List.flatMap_append, List.flatMap_singleton]
      rfl
    rw [hlevels, List.map_append, putAll_append, ih]
    exact putAll_cuttings (n + 1) h

theorem Value.nestedDocuments_ne_nil {v : Value} (h : v.Regular) (hnested : v.isNested = true) :
    v.nestedDocuments ≠ [] := by
  rcases h.nested_cases hnested with ⟨c, rfl⟩ | ⟨cs, hcs, -, rfl⟩
  · rw [nestedDocuments_toValue]
    exact List.cons_ne_nil _ _
  · rw [nestedDocuments_array hcs]
    simpa using hcs

theorem Value.mapNested_eq_self {f : Document → Document} {v : Value} (h : v.Regular) (hnested : v.isNested = true)
    (hf : ∀ c ∈ v.nestedDocuments, f c.2 = c.2) : v.mapNested f = v := by
  rcases h.nested_cases hnested with ⟨c, rfl⟩ | ⟨cs, hcs, -, rfl⟩
  · rw [nestedDocuments_toValue, List.forall_mem_singleton] at hf
    exact (mapDocument_toValue f c).trans (congrArg _ hf)
  · rw [nestedDocuments_array hcs] at hf
    rw [mapNested_array]
    refine congrArg _ (List.map_congr_left fun c hc => congrArg _ ?_)
    obtain ⟨i, hi⟩ := List.mem_iff_getElem?.1 hc
    have hin : (c, i) ∈ cs.zipIdx := List.mem_zipIdx_iff_getElem?.2 hi
    exact hf _ (List.mem_map_of_mem hin)

theorem Document.mem_children {d : Document} {f : String × Value} (hf : f ∈ d.fields)
    {c : List Value × Document} (hc : c ∈ f.2.nestedDocuments) : (.string f.1 :: c.1, c.2) ∈ d.children := by
  refine List.mem_flatMap.2 ⟨f, hf, ?_⟩
  exact List.mem_map.2 ⟨c, hc, rfl⟩

/-- A document without a level below `n` is its own cut. -/
theorem Document.cut_eq_self {n : Nat} {d : Document} (h : d.toValue.Regular) (hlast : d.pieces (n + 1) = []) :
    d.cut n = d := by
  induction n generalizing d with
  | zero =>
    refine ext_get? fun key => ?_
    rw [get?_cut]
    cases hv : d.get? key with
    | none => rfl
    | some v =>
      have hmem := (d.mem_fields_iff key v).2 hv
      have hflat : ¬ v.isNested = true := by
        intro hnested
        obtain ⟨c, hc⟩ := List.exists_mem_of_ne_nil _ (Value.nestedDocuments_ne_nil (h.property hmem) hnested)
        exact absurd (List.flatMap_eq_nil_iff.1 hlast _ (mem_children hmem hc)) (List.cons_ne_nil _ _)
      rw [Option.bind_some, if_neg hflat]
  | succ n ih =>
    refine ext_get? fun key => ?_
    rw [get?_cut]
    cases hv : d.get? key with
    | none => rfl
    | some v =>
      have hmem := (d.mem_fields_iff key v).2 hv
      rw [Option.bind_some]
      by_cases hnested : v.isNested = true
      · rw [if_pos hnested, Value.before, Value.mapNested_eq_self (h.property hmem) hnested]
        intro c hc
        have hchild := mem_children hmem hc
        obtain ⟨-, -, hregular⟩ := stands_of_mem_children h hchild
        have hbelow := List.flatMap_eq_nil_iff.1 hlast _ hchild
        exact ih hregular (List.map_eq_nil_iff.1 hbelow)
      · rw [if_neg hnested]

/-! ## Routes -/

namespace Document

/-- No property holds a document, or an array that is not empty and holds documents only. -/
def Flat (d : Document) : Prop :=
  ∀ name v, d.get? name = some v → v.isDocument = false ∧
    ∀ items, v = .array items → items ≠ [] → ∃ item ∈ items, item.isDocument = false

theorem flat_flat (d : Document) : d.flat.Flat := by
  intro name v hv
  rw [flat, get?_filter, Option.filter_eq_some_iff] at hv
  have hnot : v.isNested = false := by simpa using hv.2
  constructor
  · cases v with
    | document fields => cases hnot
    | _ => rfl
  · rintro items rfl hitems
    simpa [Value.isNested, hitems] using hnot

end Document

/-- The mutation without a row before the change. -/
def Mutation.bare (m : Mutation) : Mutation := { m with before := none }

section

variable {source : SourceConfig} {table : TableName} {timeout : Span} {limit : Nat} {m : Mutation} {data : Document}
  {routed : List Routed}

theorem map_bare_levels (hdata : m.data = some data) (n : Nat) :
    (levels n [m]).map Mutation.bare = (data.piecesTo n).map fun p => m.child p.1 p.2 := by
  rw [levels, Document.piecesTo, List.map_flatMap, List.map_flatMap]
  refine List.flatMap_congr fun k _ => ?_
  cases k with
  | zero =>
    show [m.bare] = [m.child [] data]
    rw [Mutation.bare, Mutation.child, hdata, List.append_nil]
  | succ k =>
    rw [level_eq_map hdata, List.map_map]
    rfl

/-- All mutations of a route are the flat pieces of the data, but for a row before the change. -/
def OfPieces (m : Mutation) (data : Document) (limit : Nat) (routed : List Routed) : Prop :=
  (routed.map fun r => r.mutation.bare) = (data.piecesTo limit).map fun p => m.child p.1 p.2.flat

theorem OfPieces.exists_piece (h : OfPieces m data limit routed) {r : Routed} (hr : r ∈ routed) :
    ∃ p ∈ data.piecesTo limit, r.mutation.bare = m.child p.1 p.2.flat := by
  have hin : r.mutation.bare ∈ routed.map fun r => r.mutation.bare := List.mem_map.2 ⟨r, hr, rfl⟩
  rw [h] at hin
  obtain ⟨p, hp, hbare⟩ := List.mem_map.1 hin
  exact ⟨p, hp, hbare.symm⟩

/-- Keys are distinct since places are, and places are their own canonical forms. -/
theorem OfPieces.keys_distinct (h : OfPieces m data limit routed) (hregular : data.toValue.Regular) :
    routed.Pairwise fun r r' => (RowKey.mk r.mutation.key).same ⟨r'.mutation.key⟩ = false := by
  have hbare : (routed.map fun r => r.mutation.bare).Pairwise fun a b =>
      (RowKey.mk a.key).same ⟨b.key⟩ = false := by
    rw [h, List.pairwise_map]
    refine (places_distinct hregular limit).imp_of_mem fun {p q} hp hq hne => ?_
    rw [Bool.eq_false_iff]
    intro hsame
    have hkeys := RowKey.same_iff_canonical.1 hsame
    have hp := (stands_of_mem_piecesTo hregular hp).canonical
    have hq := (stands_of_mem_piecesTo hregular hq).canonical
    simp only [Mutation.child, List.map_append, hp, hq] at hkeys
    exact hne (List.append_cancel_left hkeys)
  exact List.pairwise_map.1 hbare

theorem OfPieces.reassemble_eq (h : OfPieces m data limit routed) :
    reassemble m.key routed = putAll ((data.piecesTo limit).map fun p => (p.1, p.2.flat)) none := by
  have hbare := congrArg (List.filterMap fun m' : Mutation => m'.data.map (m'.key.drop m.key.length, ·)) h
  rw [List.filterMap_map, List.filterMap_map] at hbare
  have hparts : (routed.filterMap fun r => r.mutation.data.map (r.mutation.key.drop m.key.length, ·)) =
      (data.piecesTo limit).map fun p => (p.1, p.2.flat) := by
    refine hbare.trans ?_
    rw [← List.filterMap_eq_map]
    refine List.filterMap_congr fun p _ => ?_
    simp [Mutation.child]
  rw [reassemble, hparts]

/-- A route lists the flat documents of all levels, and there is no further level. -/
theorem route_ofPieces (htarget : source.destination = .target table) (hrecurse : source.recurse = true)
    (hdata : m.data = some data) (hroute : (route source timeout limit m).attempt.value = .ok routed) :
    OfPieces m data limit routed ∧ data.pieces (limit + 1) = [] ∧ ∀ r ∈ routed, r.table = table := by
  rw [route_value htarget hrecurse limit (by rw [hdata]; rfl)] at hroute
  split at hroute
  · rename_i hlast
    rw [level_eq_map hdata, List.map_eq_nil_iff] at hlast
    cases hroute
    refine ⟨?_, hlast, ?_⟩
    · have hflat := congrArg (List.map Mutation.flat) (map_bare_levels hdata limit)
      rw [List.map_map, List.map_map] at hflat
      rw [OfPieces, List.map_map]
      exact hflat
    · intro r hr
      obtain ⟨m', -, rfl⟩ := List.mem_map.1 hr
      rfl
  · cases hroute

/-- A route of a recursing source keeps all of an upsert: its documents are flat, their keys are distinct and name
the places where they stood, and putting them back at these places gives the document of the upsert. -/
theorem detached_documents_rebuild_the_data (htarget : source.destination = .target table)
    (hrecurse : source.recurse = true) (hdata : m.data = some data) (hregular : data.toValue.Regular)
    (hroute : (route source timeout limit m).attempt.value = .ok routed) :
    (∀ r ∈ routed, ∃ d, r.mutation.data = some d ∧ d.Flat) ∧
      routed.Pairwise (fun r r' => (RowKey.mk r.mutation.key).same ⟨r'.mutation.key⟩ = false) ∧
      (∀ r ∈ routed, ∃ place d, r.mutation.key = m.key ++ place ∧ Stands data place d ∧
        r.mutation.data = some d.flat) ∧
      reassemble m.key routed = some data.toValue ∧
      ∀ r ∈ routed, r.table = table ∧ r.mutation.time = m.time ∧ r.mutation.origin = m.origin := by
  obtain ⟨hpieces, hlast, htables⟩ := route_ofPieces htarget hrecurse hdata hroute
  refine ⟨fun r hr => ?_, hpieces.keys_distinct hregular, fun r hr => ?_, ?_, fun r hr => ?_⟩
  · obtain ⟨p, -, hbare⟩ := hpieces.exists_piece hr
    exact ⟨p.2.flat, congrArg Mutation.data hbare, p.2.flat_flat⟩
  · obtain ⟨p, hp, hbare⟩ := hpieces.exists_piece hr
    have hstands := stands_of_mem_piecesTo hregular hp
    exact ⟨p.1, p.2, congrArg Mutation.key hbare, hstands, congrArg Mutation.data hbare⟩
  · rw [hpieces.reassemble_eq, putAll_piecesTo limit hregular, Document.cut_eq_self hregular hlast]
  · obtain ⟨p, -, hbare⟩ := hpieces.exists_piece hr
    have htime : r.mutation.bare.time = (m.child p.1 p.2.flat).time := congrArg _ hbare
    have horigin : r.mutation.bare.origin = (m.child p.1 p.2.flat).origin := congrArg _ hbare
    exact ⟨htables r hr, htime, horigin⟩

end

namespace Example

/-- A source of invoices, whose nested documents are detached. -/
def invoices : SourceConfig := ⟨"invoices", .target ⟨["invoices"], by decide, by decide, by decide⟩, true⟩

/-- One line of an invoice. -/
def line (paid : Bool) : Value := .document [("paid", .bool paid)]

/-- An invoice with two lines, a customer with an address, and tags, which are no documents. -/
def invoice : Document :=
  ⟨[("customer", .document [("address", .document [("city", .string "x")])]),
    ("lines", .array [line true, line false]), ("tags", .array [.string "a"])], by decide⟩

/-- The arrival of an invoice. -/
def arrival : Mutation := ⟨none, some invoice, [.string "k"], default, .empty⟩

/-- The documents of the invoice, level by level. -/
def arrived : List Routed :=
  [([], [("tags", .array [.string "a"])]), ([.string "customer"], []),
    ([.string "lines", .number (.ofNat 0)], [("paid", .bool true)]),
    ([.string "lines", .number (.ofNat 1)], [("paid", .bool false)]),
    ([.string "customer", .string "address"], [("city", .string "x")])].map fun p =>
      ⟨⟨["invoices"], by decide, by decide, by decide⟩, arrival.child p.1 (.ofList p.2)⟩

theorem regular_invoice : invoice.toValue.Regular := by
  refine ⟨⟨invoice.ascending, ?_⟩, ?_⟩
  · simp [invoice, line, Value.Ordered, Value.OrderedFields, Value.OrderedItems, Value.Ascending]
  · simp [invoice, line, toValue, Value.Indexed, Value.IndexedFields, Value.IndexedItems]

end Example

/-- An invoice with a customer, an address and two lines is taken apart into five documents and put together. -/
theorem invoice_is_rebuilt_from_five_documents :
    (route Example.invoices .zero 2 Example.arrival).attempt.value = .ok Example.arrived ∧
      Example.arrived.Pairwise (fun r r' => (RowKey.mk r.mutation.key).same ⟨r'.mutation.key⟩ = false) ∧
      reassemble [.string "k"] Example.arrived = some Example.invoice.toValue := by
  have hroute : (route Example.invoices .zero 2 Example.arrival).attempt.value = .ok Example.arrived := rfl
  have htarget : Example.invoices.destination = .target ⟨["invoices"], by decide, by decide, by decide⟩ := rfl
  have hdata : Example.arrival.data = some Example.invoice := rfl
  obtain ⟨-, hdistinct, -, hrebuilt, -⟩ :=
    detached_documents_rebuild_the_data htarget rfl hdata Example.regular_invoice hroute
  exact ⟨hroute, hdistinct, hrebuilt⟩

end Tributary
