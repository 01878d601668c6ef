import Tributary.Proofs.Apply.Footprint

/-!
# Refinement of steps

A step refines another one if, from equivalent sessions, whenever it succeeds the other succeeds too,
with a related result and in an equivalent session. Sessions are equivalent if they show the same tables
and hold the same rows and expressions, whatever the versions are, and the same dead letters in any order.

* `Run.Refines.bind`, `Run.Refines.trans`: refinement of sequences, and chains of refinements.
* `Run.Refines.commute`: steps whose footprints are disjoint may change places.
* `Run.Agrees`: each of two steps refines the other. It has the same rules.
* `Run.Agrees.interleave`: two sequences of two steps that run in turns agree with the sequences that run
  one after the other.
* `Run.Ensures`: what the results of a step have in common, for use in the next steps.
-/

namespace Tributary

/-- Both sessions hold the same rows, and the same dead letters up to their order. -/
structure Session.Equivalent (s t : Session MemoryStore) : Prop where
  alike : Session.Alike Set.univ s t
  letters : s.store.letters.Perm t.store.letters

namespace Session.Equivalent

variable {s t u : Session MemoryStore}

theorem refl (s : Session MemoryStore) : s.Equivalent s := ⟨.refl _ s, .refl _⟩

theorem cell (h : s.Equivalent t) (place : RowAddress) : s.store.cell place = t.store.cell place :=
  h.alike.cell place (Set.mem_univ place)

end Session.Equivalent

namespace Run

variable {σ α β γ δ ε : Type} {R : α → β → Prop} {S : γ → δ → Prop}

/-! ## Results -/

/-- Every result of a step has a property. -/
structure Ensures (P : α → Prop) (x : Run σ α) : Prop where
  result : ∀ s a s', x.exec s = (.ok a, s') → P a

theorem exec_of_fst {x : Run σ α} {s : Session σ} {r : Result α} (h : (x.exec s).1 = r) :
    x.exec s = (r, (x.exec s).2) := by
  rw [← h]

/-- A run without a fault has a result. -/
theorem exec_of_isOk {x : Run σ α} {s : Session σ} (h : (x.exec s).1.isOk = true) :
    ∃ a s', x.exec s = (.ok a, s') := by
  cases hresult : (x.exec s).1 with
  | ok a => exact ⟨a, _, exec_of_fst hresult⟩
  | error fault =>
    rw [hresult] at h
    cases h

theorem exec_bind_ok {x : Run σ α} {f : α → Run σ β} {s s'' : Session σ} {b : β}
    (h : (x >>= f).exec s = (.ok b, s'')) :
    ∃ a s', x.exec s = (.ok a, s') ∧ (f a).exec s' = (.ok b, s'') := by
  rw [exec_bind] at h
  generalize x.exec s = r at h
  obtain ⟨result, s'⟩ := r
  cases result with
  | error fault => cases h
  | ok a => exact ⟨a, s', rfl, h⟩

theorem exec_bind_of_ok {x : Run σ α} {f : α → Run σ β} {s s' : Session σ} {a : α}
    (h : x.exec s = (.ok a, s')) : (x >>= f).exec s = (f a).exec s' := by
  rw [exec_bind, h]

theorem exec_bind_of_error {x : Run σ α} {f : α → Run σ β} {s : Session σ} {fault : Fault}
    (h : (x.exec s).1 = .error fault) : ((x >>= f).exec s).1 = .error fault := by
  rw [exec_bind, exec_of_fst h]

theorem Ensures.pure {P : α → Prop} {a : α} (h : P a) : Ensures P (pure a : Run σ α) := by
  refine ⟨fun s b s' hb => ?_⟩
  cases hb
  exact h

theorem Ensures.true (x : Run σ α) : Ensures (fun _ => True) x := ⟨fun _ _ _ _ => trivial⟩

theorem Ensures.bind {P : α → Prop} {Q : β → Prop} {x : Run σ α} {f : α → Run σ β}
    (hx : Ensures P x) (hf : ∀ a, P a → Ensures Q (f a)) : Ensures Q (x >>= f) := by
  refine ⟨fun s b s'' hb => ?_⟩
  obtain ⟨a, s', ha, hb'⟩ := exec_bind_ok hb
  exact (hf a (hx.result s a s' ha)).result s' b s'' hb'

theorem Ensures.mono {P Q : α → Prop} {x : Run σ α} (hx : Ensures P x)
    (h : ∀ a, P a → Q a) : Ensures Q x := ⟨fun s a s' ha => h a (hx.result s a s' ha)⟩

/-! ## Refinement -/

/-- Where the first step succeeds the second does, with a related result. -/
structure Refines (R : α → β → Prop) (x : Run MemoryStore α) (y : Run MemoryStore β) : Prop where
  run : ∀ s t, s.Equivalent t → ∀ a s', x.exec s = (.ok a, s') →
    ∃ b t', y.exec t = (.ok b, t') ∧ R a b ∧ s'.Equivalent t'

theorem Refines.pure {a : α} {b : β} (h : R a b) : Refines R (pure a) (pure b) := by
  refine ⟨fun s t hst a' s' ha => ?_⟩
  cases ha
  exact ⟨b, t, rfl, h, hst⟩

theorem Refines.mono {R' : α → β → Prop} {x : Run MemoryStore α} {y : Run MemoryStore β}
    (h : Refines R x y) (hR : ∀ a b, R a b → R' a b) : Refines R' x y := by
  refine ⟨fun s t hst a s' ha => ?_⟩
  obtain ⟨b, t', hb, hab, hst'⟩ := h.run s t hst a s' ha
  exact ⟨b, t', hb, hR a b hab, hst'⟩

theorem Refines.trans {T : β → γ → Prop} {U : α → γ → Prop} {x : Run MemoryStore α}
    {y : Run MemoryStore β} {z : Run MemoryStore γ} (hxy : Refines R x y) (hyz : Refines T y z)
    (h : ∀ a b c, R a b → T b c → U a c) : Refines U x z := by
  refine ⟨fun s t hst a s' ha => ?_⟩
  obtain ⟨b, t', hb, hab, hst'⟩ := hxy.run s t hst a s' ha
  obtain ⟨c, u, hc, hbc, htu⟩ := hyz.run t t (.refl t) b t' hb
  refine ⟨c, u, hc, h a b c hab hbc, ⟨?_, ?_⟩, hst'.letters.trans htu.letters⟩
  · exact hst'.alike.tables.trans htu.alike.tables
  · exact fun place _ => (hst'.cell place).trans (htu.cell place)

theorem Refines.eq_trans {x y : Run MemoryStore α} {z : Run MemoryStore β} (hxy : Refines Eq x y)
    (hyz : Refines R y z) : Refines R x z :=
  hxy.trans hyz fun _ _ _ hab hbc => hab ▸ hbc

theorem Refines.bind {x : Run MemoryStore α} {y : Run MemoryStore β} {f : α → Run MemoryStore γ}
    {g : β → Run MemoryStore δ} (hxy : Refines R x y) (hfg : ∀ a b, R a b → Refines S (f a) (g b)) :
    Refines S (x >>= f) (y >>= g) := by
  refine ⟨fun s t hst c s'' hc => ?_⟩
  obtain ⟨a, s', ha, hc'⟩ := exec_bind_ok hc
  obtain ⟨b, t', hb, hab, hst'⟩ := hxy.run s t hst a s' ha
  obtain ⟨d, t'', hd, hcd, hst''⟩ := (hfg a b hab).run s' t' hst' c s'' hc'
  exact ⟨d, t'', (exec_bind_of_ok hb).trans hd, hcd, hst''⟩

theorem Refines.and_left {P : α → Prop} {x : Run MemoryStore α} {y : Run MemoryStore β}
    (hxy : Refines R x y) (hx : Ensures P x) : Refines (fun a b => R a b ∧ P a) x y := by
  refine ⟨fun s t hst a s' ha => ?_⟩
  obtain ⟨b, t', hb, hab, hst'⟩ := hxy.run s t hst a s' ha
  exact ⟨b, t', hb, ⟨hab, hx.result s a s' ha⟩, hst'⟩

theorem Refines.and_right {Q : β → Prop} {x : Run MemoryStore α} {y : Run MemoryStore β}
    (hxy : Refines R x y) (hy : Ensures Q y) : Refines (fun a b => R a b ∧ Q b) x y := by
  refine ⟨fun s t hst a s' ha => ?_⟩
  obtain ⟨b, t', hb, hab, hst'⟩ := hxy.run s t hst a s' ha
  exact ⟨b, t', hb, ⟨hab, hy.result t b t' hb⟩, hst'⟩

theorem Refines.map_of_ensures {P : α → Prop} {x : Run MemoryStore α} {y : Run MemoryStore β} {f : α → γ}
    {g : β → δ} (hxy : Refines R x y) (hx : Ensures P x) (hfg : ∀ a b, R a b → P a → S (f a) (g b)) :
    Refines S (f <$> x) (g <$> y) := by
  rw [map_eq_pure_bind, map_eq_pure_bind]
  exact (hxy.and_left hx).bind fun a b hab => .pure (hfg a b hab.1 hab.2)

theorem Refines.map {x : Run MemoryStore α} {y : Run MemoryStore β} {f : α → γ} {g : β → δ}
    (hxy : Refines R x y) (hfg : ∀ a b, R a b → S (f a) (g b)) : Refines S (f <$> x) (g <$> y) :=
  hxy.map_of_ensures (.true x) fun a b hab _ => hfg a b hab

/-- What the results of a refining step have in common follows from the other step. -/
theorem Refines.ensures {P : β → Prop} {Q : α → Prop} {x : Run MemoryStore α} {y : Run MemoryStore β}
    (hxy : Refines R x y) (hy : Ensures P y) (h : ∀ a b, R a b → P b → Q a) : Ensures Q x := by
  refine ⟨fun s a s' ha => ?_⟩
  obtain ⟨b, t', hb, hab, -⟩ := hxy.run s s (.refl s) a s' ha
  exact h a b hab (hy.result s b t' hb)

/-! ## Local steps -/

/-- No place is in both sets. -/
def Apart (places others : Set RowAddress) : Prop := ∀ place ∈ places, place ∉ others

theorem Apart.symm {places others : Set RowAddress} (h : Apart places others) : Apart others places :=
  fun place hother hplace => h place hplace hother

theorem apart_empty (places : Set RowAddress) : Apart places ∅ := fun place _ => Set.notMem_empty place

variable {places others : Set RowAddress}

/-- A local step does the same in equivalent sessions. -/
theorem Local.refines {x : Run MemoryStore α} (hx : Local places x) : Refines Eq x x := by
  refine ⟨fun s t hst a s' ha => ?_⟩
  obtain ⟨letters, hresult, hs, ht, hafter⟩ := hx.alike s t (hst.alike.mono (Set.subset_univ places))
  rw [ha] at hresult hs hafter
  refine ⟨a, (x.exec t).2, Prod.ext hresult.symm rfl, rfl, ⟨hafter.tables, fun place _ => ?_⟩, ?_⟩
  · by_cases hplace : place ∈ places
    · exact hafter.cell place hplace
    · rw [hs.cell hplace, ht.cell hplace]
      exact hst.cell place
  · rw [hs.letters, ht.letters]
    exact hst.letters.append_right letters

/-- A local step in front of both sides. -/
theorem Local.refines_bind {x : Run MemoryStore α} (hx : Local places x)
    {f : α → Run MemoryStore γ} {g : α → Run MemoryStore δ} (hfg : ∀ a, Refines S (f a) (g a)) :
    Refines S (x >>= f) (x >>= g) :=
  hx.refines.bind fun a _ hab => hab ▸ hfg a

/-- Of two steps with disjoint footprints neither notices the other, so that they leave equivalent
sessions in both orders. -/
theorem exec_commute {x : Run MemoryStore α} {y : Run MemoryStore β} (hx : Local places x)
    (hy : Local others y) (hapart : Apart places others) {s t s₁ s₂ : Session MemoryStore}
    (hst : s.Equivalent t) {a : α} {b : β} (ha : x.exec s = (.ok a, s₁)) (hb : y.exec s₁ = (.ok b, s₂)) :
    ∃ t₁ t₂, y.exec t = (.ok b, t₁) ∧ x.exec t₁ = (.ok a, t₂) ∧ s₂.Equivalent t₂ := by
  -- the second step starts from sessions that differ at the places of the first only
  obtain ⟨before, hbefore⟩ := hx.follows s
  rw [ha] at hbefore
  have hstart : Session.Alike others s₁ t :=
    ⟨hbefore.tables.symm.trans hst.alike.tables,
      fun place hin => (hbefore.cell (hapart.symm place hin)).trans (hst.cell place)⟩
  obtain ⟨second, hresult, hs₂, ht₁, halike⟩ := hy.alike s₁ t hstart
  rw [hb] at hresult hs₂ halike
  generalize hrun : y.exec t = r at hresult ht₁ halike
  obtain ⟨rb, t₁⟩ := r
  cases hresult
  -- and the first step from sessions that differ at the places of the second only
  have hstart' : Session.Alike places s t₁ :=
    ⟨hst.alike.tables.trans ht₁.tables,
      fun place hin => (hst.cell place).trans (ht₁.cell (hapart place hin)).symm⟩
  obtain ⟨first, hresult', hs₁, ht₂, halike'⟩ := hx.alike s t₁ hstart'
  rw [ha] at hresult' hs₁ halike'
  generalize hrun' : x.exec t₁ = r at hresult' ht₂ halike'
  obtain ⟨ra, t₂⟩ := r
  cases hresult'
  refine ⟨t₁, t₂, rfl, hrun', ⟨?_, fun place _ => ?_⟩, ?_⟩
  · exact (hs₂.tables.symm.trans halike'.tables)
  · by_cases hin : place ∈ others
    · rw [halike.cell place hin, ht₂.cell (hapart.symm place hin)]
    · rw [hs₂.cell hin]
      by_cases hplace : place ∈ places
      · exact halike'.cell place hplace
      · rw [hs₁.cell hplace, ht₂.cell hplace, ht₁.cell hin]
        exact hst.cell place
  · rw [hs₂.letters, hs₁.letters, ht₂.letters, ht₁.letters, List.append_assoc, List.append_assoc]
    exact hst.letters.append List.perm_append_comm

/-- Steps with disjoint footprints may change places. -/
theorem Refines.commute {x : Run MemoryStore α} {y : Run MemoryStore β} (hx : Local places x)
    (hy : Local others y) (hapart : Apart places others) {f : α → β → Run MemoryStore γ}
    {g : α → β → Run MemoryStore δ} (hfg : ∀ a b, Refines S (f a b) (g a b)) :
    Refines S (do let a ← x; let b ← y; f a b) (do let b ← y; let a ← x; g a b) := by
  refine ⟨fun s t hst c s' hc => ?_⟩
  obtain ⟨a, s₁, ha, hrest⟩ := exec_bind_ok hc
  obtain ⟨b, s₂, hb, hlast⟩ := exec_bind_ok hrest
  obtain ⟨t₁, t₂, hb', ha', hst₂⟩ := exec_commute hx hy hapart hst ha hb
  obtain ⟨d, t', hd, hcd, hst'⟩ := (hfg a b).run s₂ t₂ hst₂ c s' hlast
  refine ⟨d, t', ?_, hcd, hst'⟩
  rw [exec_bind_of_ok hb', exec_bind_of_ok ha']
  exact hd

/-! ## Agreement -/

/-- Each of two steps refines the other. -/
structure Agrees (R : α → β → Prop) (x : Run MemoryStore α) (y : Run MemoryStore β) : Prop where
  forth : Refines R x y
  back : Refines (fun b a => R a b) y x

theorem Agrees.pure {a : α} {b : β} (h : R a b) : Agrees R (pure a) (pure b) := ⟨.pure h, .pure h⟩

theorem Agrees.trans {T : β → γ → Prop} {U : α → γ → Prop} {x : Run MemoryStore α}
    {y : Run MemoryStore β} {z : Run MemoryStore γ} (hxy : Agrees R x y) (hyz : Agrees T y z)
    (h : ∀ a b c, R a b → T b c → U a c) : Agrees U x z :=
  ⟨hxy.forth.trans hyz.forth h, hyz.back.trans hxy.back fun c b a hbc hab => h a b c hab hbc⟩

theorem Agrees.trans_eq {x : Run MemoryStore α} {y z : Run MemoryStore β} (hxy : Agrees R x y)
    (hyz : Agrees Eq y z) : Agrees R x z :=
  hxy.trans hyz fun _ _ _ hab hbc => hbc ▸ hab

theorem Agrees.eq_trans {x y : Run MemoryStore α} {z : Run MemoryStore β} (hxy : Agrees Eq x y)
    (hyz : Agrees R y z) : Agrees R x z :=
  hxy.trans hyz fun _ _ _ hab hbc => hab ▸ hbc

/-- Sequences agree step by step, where the results of the first step may be used. -/
theorem Agrees.bind_of_ensures {P : α → Prop} {x : Run MemoryStore α} {y : Run MemoryStore β}
    {f : α → Run MemoryStore γ} {g : β → Run MemoryStore δ} (hxy : Agrees R x y) (hx : Ensures P x)
    (hfg : ∀ a b, R a b → P a → Agrees S (f a) (g b)) : Agrees S (x >>= f) (y >>= g) where
  forth := (hxy.forth.and_left hx).bind fun a b h => (hfg a b h.1 h.2).forth
  back := (hxy.back.and_right hx).bind fun b a h => (hfg a b h.1 h.2).back

theorem Agrees.bind {x : Run MemoryStore α} {y : Run MemoryStore β} {f : α → Run MemoryStore γ}
    {g : β → Run MemoryStore δ} (hxy : Agrees R x y) (hfg : ∀ a b, R a b → Agrees S (f a) (g b)) :
    Agrees S (x >>= f) (y >>= g) :=
  hxy.bind_of_ensures (.true x) fun a b hab _ => hfg a b hab

theorem Agrees.bind_pure {x y : Run MemoryStore α} (hxy : Agrees Eq x y) (f : α → γ) :
    Agrees Eq (do let a ← x; return f a) (do let a ← y; return f a) :=
  hxy.bind fun _ _ hab => .pure (congrArg f hab)

theorem Agrees.map_left {x : Run MemoryStore α} {y : Run MemoryStore β} {f : α → γ}
    {T : γ → β → Prop} (hxy : Agrees R x y) (h : ∀ a b, R a b → T (f a) b) : Agrees T (f <$> x) y := by
  have hmap : Agrees T (f <$> x) (id <$> y) := by
    rw [map_eq_pure_bind, map_eq_pure_bind]
    exact hxy.bind fun a b hab => .pure (h a b hab)
  rw [id_map] at hmap
  exact hmap

theorem Local.agrees {x : Run MemoryStore α} (hx : Local places x) : Agrees Eq x x :=
  ⟨hx.refines, hx.refines.mono fun _ _ => Eq.symm⟩

/-- A local step in front of both sides. -/
theorem Local.agrees_bind {x : Run MemoryStore α} (hx : Local places x)
    {f : α → Run MemoryStore γ} {g : α → Run MemoryStore δ} (hfg : ∀ a, Agrees S (f a) (g a)) :
    Agrees S (x >>= f) (x >>= g) :=
  hx.agrees.bind fun a _ hab => hab ▸ hfg a

theorem Agrees.commute {x : Run MemoryStore α} {y : Run MemoryStore β} (hx : Local places x)
    (hy : Local others y) (hapart : Apart places others) {f : α → β → Run MemoryStore γ}
    {g : α → β → Run MemoryStore δ} (hfg : ∀ a b, Agrees S (f a b) (g a b)) :
    Agrees S (do let a ← x; let b ← y; f a b) (do let b ← y; let a ← x; g a b) where
  forth := .commute hx hy hapart fun a b => (hfg a b).forth
  back := .commute hy hx hapart.symm fun b a => (hfg a b).back

/-- Two sequences in turns agree with one sequence after the other, if the second step of one and the first
step of the other have disjoint footprints. -/
theorem Agrees.interleave {x : Run MemoryStore α} {y : Run MemoryStore β} {f : α → Run MemoryStore γ}
    {g : β → Run MemoryStore δ} {k : α → γ → β → δ → ε} {everywhere : Set RowAddress}
    {reach : α → Set RowAddress} {last : β → Set RowAddress} (hx : Local everywhere x)
    (hy : Local others y) (hf : ∀ a, Local (reach a) (f a)) (hg : ∀ b, Local (last b) (g b))
    (hapart : ∀ a, Apart others (reach a)) :
    Agrees Eq
      (do let a ← x; let b ← y; let c ← f a; let d ← g b; return k a c b d)
      (do let a ← x; let c ← f a; let b ← y; let d ← g b; return k a c b d) := by
  refine hx.agrees_bind fun a => .commute hy (hf a) (hapart a) fun b c => ?_
  exact (hg b).agrees_bind fun d => .pure rfl

/-! ## Observations -/

/-- Steps of which one refines the other leave the same rows and expressions, and park the same letters. -/
theorem Refines.observations {x y : Run MemoryStore α} (hxy : Refines Eq x y)
    (hx : Local Set.univ x) (hy : Local Set.univ y) {s : Session MemoryStore} {a : α}
    (hrun : (x.exec s).1 = .ok a) :
    (y.exec s).1 = .ok a ∧
      (∀ id, (x.exec s).2.store.row? id = (y.exec s).2.store.row? id ∧
        (x.exec s).2.store.rowExprs id = (y.exec s).2.store.rowExprs id) ∧
      ∃ letters letters', (x.exec s).2.store.letters = s.store.letters ++ letters ∧
        (y.exec s).2.store.letters = s.store.letters ++ letters' ∧ letters.Perm letters' := by
  obtain ⟨_, t, hy', rfl, hequiv⟩ := hxy.run s s (.refl s) a _ (Prod.ext hrun rfl)
  rw [hy']
  refine ⟨rfl, fun id => ?_, ?_⟩
  · have hcell := hequiv.cell id.address
    rw [MemoryStore.cell_address, MemoryStore.cell_address] at hcell
    exact ⟨congrArg Cell.data hcell, congrArg Cell.exprs hcell⟩
  · obtain ⟨letters, hfollows⟩ := hx.follows s
    obtain ⟨letters', hfollows'⟩ := hy.follows s
    rw [hy'] at hfollows'
    refine ⟨letters, letters', hfollows.letters, hfollows'.letters, ?_⟩
    have hperm := hequiv.letters
    rw [hfollows.letters, hfollows'.letters] at hperm
    exact (List.perm_append_left_iff _).1 hperm

end Run

end Tributary
