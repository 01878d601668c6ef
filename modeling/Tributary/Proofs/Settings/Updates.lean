import Tributary.Proofs.Script.Registration

/-!
# Options that a script sets

Options that satisfy all constraints keep satisfying them, whatever a script tries to set. A pair of a flag and a text
is set or fails by itself: what the other options hold has no part in it, although they are all checked again.

* `Options.get`, `Options.put`: the options as seven fields, one for each flag, and their laws.
* `Options.demand`: what a pair asks for, read off the pair alone. `Options.set_eq`: a pair does what it asks for.
* `Options.outcomes`: what becomes of each pair at its turn. `Options.outcomes_eq` computes it pair by pair.
* `option_updates_are_atomic`: what follows for the options and the faults of a whole list of pairs.
-/

namespace Tributary

open Text

/-! ## Fields -/

namespace Flag

/-- What the option of a flag holds: a text, a span of time, or a count, of which that of retries has 32 bits. -/
abbrev Content : Flag → Type
  | .defaultDlq => String
  | .functionTimeout => Span
  | .staleRetries => UInt32
  | .maxDepth | .parallelism | .lockShards | .lineLimit => Nat

/-- What a text spells for the option of a flag. -/
def read : (flag : Flag) → String → Except OptionFlaw flag.Content
  | .defaultDlq, value => .ok (trim value)
  | .functionTimeout, value => Options.readSpan .functionTimeout value
  | .maxDepth, value => Options.readCount .maxDepth value
  | .parallelism, value => Options.readCount .parallelism value
  | .lockShards, value => Options.readCount .lockShards value
  | .staleRetries, value => (Options.readCount .staleRetries value).map UInt32.ofNat
  | .lineLimit, value => Options.readCount .lineLimit value

/-- Whether a content satisfies the constraint of its flag. -/
def admits : (flag : Flag) → flag.Content → Bool
  | .defaultDlq, queue => queue != ""
  | .functionTimeout, span => span.toNanos != 0
  | .staleRetries, _ => true
  | .maxDepth, n | .parallelism, n | .lockShards, n | .lineLimit, n => n != 0

theorem mem_all (flag : Flag) : flag ∈ all := by cases flag <;> decide

theorem ofName?_eq_some_iff {name : String} {flag : Flag} : ofName? name = some flag ↔ flag.name = name := by
  constructor
  · intro h
    simpa using List.find?_some h
  · rintro rfl
    cases flag <;> decide

end Flag

namespace Options

/-- What the options hold for a flag. -/
def get (o : Options) : (flag : Flag) → flag.Content
  | .defaultDlq => o.defaultDlq
  | .functionTimeout => o.functionTimeout
  | .maxDepth => o.maxDepth
  | .parallelism => o.parallelism
  | .lockShards => o.lockShards
  | .staleRetries => o.staleRetries
  | .lineLimit => o.lineLimit

/-- The options with another content for one flag. -/
def put (o : Options) : (flag : Flag) → flag.Content → Options
  | .defaultDlq, queue => { o with defaultDlq := queue }
  | .functionTimeout, span => { o with functionTimeout := span }
  | .maxDepth, n => { o with maxDepth := n }
  | .parallelism, n => { o with parallelism := n }
  | .lockShards, n => { o with lockShards := n }
  | .staleRetries, n => { o with staleRetries := n }
  | .lineLimit, n => { o with lineLimit := n }

variable {o : Options} {flag other : Flag}

@[simp] theorem get_put_self (o : Options) (flag : Flag) (content : flag.Content) :
    (o.put flag content).get flag = content := by
  cases flag <;> rfl

theorem get_put_of_ne (o : Options) (h : other ≠ flag) (content : flag.Content) :
    (o.put flag content).get other = o.get other := by
  cases flag <;> cases other <;> first | rfl | exact absurd rfl h

/-- Options are what they hold for the flags. -/
theorem ext_get {a b : Options} (h : ∀ flag, a.get flag = b.get flag) : a = b := by
  obtain ⟨queue, timeout, depth, parallel, shards, retries, limit⟩ := a
  obtain rfl : queue = b.defaultDlq := h .defaultDlq
  obtain rfl : timeout = b.functionTimeout := h .functionTimeout
  obtain rfl : depth = b.maxDepth := h .maxDepth
  obtain rfl : parallel = b.parallelism := h .parallelism
  obtain rfl : shards = b.lockShards := h .lockShards
  obtain rfl : retries = b.staleRetries := h .staleRetries
  obtain rfl : limit = b.lineLimit := h .lineLimit
  rfl

theorem put_comm (o : Options) (h : flag ≠ other) (content : flag.Content) (content' : other.Content) :
    (o.put flag content).put other content' = (o.put other content').put flag content := by
  refine ext_get fun third => ?_
  by_cases hother : third = other
  · subst hother
    rw [get_put_self, get_put_of_ne _ h.symm, get_put_self]
  · rw [get_put_of_ne _ hother]
    by_cases hflag : third = flag
    · subst hflag
      rw [get_put_self, get_put_self]
    · rw [get_put_of_ne _ hflag, get_put_of_ne _ hflag, get_put_of_ne _ hother]

/-! ## Constraints -/

theorem satisfies_eq (o : Options) (flag : Flag) : o.satisfies flag = flag.admits (o.get flag) := by
  cases flag <;> rfl

theorem isValid_iff : o.isValid = true ↔ ∀ flag : Flag, flag.admits (o.get flag) = true := by
  simp only [isValid, List.all_eq_true, satisfies_eq]
  exact ⟨fun h flag => h flag flag.mem_all, fun h flag _ => h flag⟩

theorem validate_eq_ok_iff : o.validate = .ok () ↔ o.isValid = true := by
  have hnone : (Flag.all.find? fun flag => !o.satisfies flag) = none ↔ o.isValid = true := by
    simp [isValid]
  rw [← hnone, validate]
  cases Flag.all.find? fun flag => !o.satisfies flag with
  | none => simp
  | some flag => simp

theorem isValid_put (h : o.isValid = true) (content : flag.Content) :
    (o.put flag content).isValid = flag.admits content := by
  rw [Bool.eq_iff_iff, isValid_iff]
  constructor
  · intro hall
    simpa using hall flag
  · intro hown other
    by_cases hother : other = flag
    · subst hother
      rwa [get_put_self]
    · rw [get_put_of_ne o hother]
      exact isValid_iff.1 h other

/-- Valid options with a content that is not admitted break the constraint of its flag, and no other. -/
theorem validate_put (h : o.isValid = true) (content : flag.Content) :
    (o.put flag content).validate =
      if flag.admits content then .ok () else .error (.invalidField flag.field (constraint flag)) := by
  cases hown : flag.admits content with
  | true =>
    rw [if_pos rfl, validate_eq_ok_iff, isValid_put h, hown]
  | false =>
    have hbroken : (fun other => !(o.put flag content).satisfies other) = fun other => other == flag := by
      funext other
      rw [satisfies_eq]
      by_cases hother : other = flag
      · subst hother
        simp [hown]
      · rw [get_put_of_ne o hother, isValid_iff.1 h other]
        simp [hother]
    have hfound : (Flag.all.find? fun other => other == flag) = some flag := by cases flag <;> rfl
    rw [validate, hbroken, hfound]
    simp

/-! ## One pair -/

/-- What a pair of a flag's name and a text asks for: a content that the flag admits. -/
def demand (pair : String × String) : Except OptionFlaw (Σ flag : Flag, flag.Content) :=
  match Flag.ofName? pair.1 with
  | none => .error (.unknownOption pair.1)
  | some flag =>
    match flag.read pair.2 with
    | .error flaw => .error flaw
    | .ok content =>
      if flag.admits content then .ok ⟨flag, content⟩ else .error (.invalidField flag.field (constraint flag))

/-- Why a pair cannot be set, if it cannot. -/
def flaw? (pair : String × String) : Option OptionFlaw :=
  match demand pair with
  | .ok _ => none
  | .error flaw => some flaw

theorem demand_ok {pair : String × String} {asked : Σ flag : Flag, flag.Content} (h : demand pair = .ok asked) :
    Flag.ofName? pair.1 = some asked.1 ∧ asked.1.read pair.2 = .ok asked.2 ∧ asked.1.admits asked.2 = true := by
  unfold demand at h
  split at h
  · cases h
  · next flag hflag =>
    split at h
    · cases h
    · next content hcontent =>
      split at h
      · next hadmits =>
        cases h
        exact ⟨hflag, hcontent, hadmits⟩
      · cases h

theorem replace_eq (o : Options) (flag : Flag) (value : String) :
    o.replace flag value = (flag.read value).map (o.put flag) := by
  cases flag
  case staleRetries =>
    show (readCount .staleRetries value).map _ = ((readCount .staleRetries value).map _).map _
    cases readCount .staleRetries value <;> rfl
  all_goals rfl

/-- On valid options a pair sets what it asks for, and fails only if it asks for nothing that can be set. -/
theorem set_eq (h : o.isValid = true) (pair : String × String) :
    o.set pair.1 pair.2 = (demand pair).map fun asked => o.put asked.1 asked.2 := by
  rw [set, demand]
  cases Flag.ofName? pair.1 with
  | none => rfl
  | some flag =>
    dsimp only
    rw [setFlag, replace_eq]
    cases flag.read pair.2 with
    | error flaw => rfl
    | ok content =>
      simp only [Except.map, validate_put h content]
      cases flag.admits content <;> rfl

/-- What a pair does to valid options. -/
theorem set_cases (h : o.isValid = true) (pair : String × String) :
    (∃ asked, demand pair = .ok asked ∧ o.set pair.1 pair.2 = .ok (o.put asked.1 asked.2) ∧
      (o.put asked.1 asked.2).isValid = true) ∨
    ∃ flaw, demand pair = .error flaw ∧ o.set pair.1 pair.2 = .error flaw := by
  rw [set_eq h]
  cases hdemand : demand pair with
  | ok asked => exact .inl ⟨asked, rfl, rfl, (isValid_put h asked.2).trans (demand_ok hdemand).2.2⟩
  | error flaw => exact .inr ⟨flaw, rfl, rfl⟩

/-- The options behind a pair that is set or fails. -/
def tried (o : Options) (pair : String × String) : Options :=
  match demand pair with
  | .ok asked => o.put asked.1 asked.2
  | .error _ => o

/-- Pairs of different flags do not get in each other's way. -/
theorem tried_comm (o : Options) {first second : String × String} (h : first.1 ≠ second.1) :
    (o.tried first).tried second = (o.tried second).tried first := by
  unfold tried
  cases hfirst : demand first with
  | error flaw => rfl
  | ok asked =>
    cases hsecond : demand second with
    | error flaw => rfl
    | ok asked' =>
      have hname := Flag.ofName?_eq_some_iff.1 (demand_ok hfirst).1
      have hname' := Flag.ofName?_eq_some_iff.1 (demand_ok hsecond).1
      have hflags : asked.1 ≠ asked'.1 := by
        intro hsame
        rw [← hname, ← hname', hsame] at h
        exact h rfl
      exact put_comm o hflags asked.2 asked'.2

/-! ## Many pairs -/

/-- Each pair with the flaw for which it fails at its turn, if it does. -/
def outcomes (o : Options) : List (String × String) → List ((String × String) × Option OptionFlaw)
  | [] => []
  | pair :: rest =>
    match o.set pair.1 pair.2 with
    | .ok updated => (pair, none) :: updated.outcomes rest
    | .error flaw => (pair, some flaw) :: o.outcomes rest

/-- The pairs that are set at their turn. -/
def accepted (o : Options) (pairs : List (String × String)) : List (String × String) :=
  ((o.outcomes pairs).filter fun e => e.2.isNone).map Prod.fst

/-- The flaws of the pairs that fail at their turn. -/
def flaws (o : Options) (pairs : List (String × String)) : List OptionFlaw := (o.outcomes pairs).filterMap Prod.snd

/-- What becomes of a pair is the same at every turn, and whatever the valid options are. -/
theorem outcomes_eq (h : o.isValid = true) (pairs : List (String × String)) :
    o.outcomes pairs = pairs.map fun pair => (pair, flaw? pair) := by
  induction pairs generalizing o with
  | nil => rfl
  | cons pair rest ih =>
    rw [outcomes, List.map_cons, flaw?]
    rcases set_cases h pair with ⟨asked, hdemand, hset, hvalid⟩ | ⟨flaw, hdemand, hset⟩
    · rw [hset, hdemand, ← ih hvalid]
    · rw [hset, hdemand, ← ih h]

theorem outcomes_append (h : o.isValid = true) (before rest : List (String × String)) :
    o.outcomes (before ++ rest) = o.outcomes before ++ rest.map fun pair => (pair, flaw? pair) := by
  rw [outcomes_eq h, outcomes_eq h, List.map_append]

end Options

namespace Registry
variable {o : Options}

theorem applyOptions_cons (o : Options) (pair : String × String) (rest : List (String × String)) :
    applyOptions o (pair :: rest) =
      match o.set pair.1 pair.2 with
      | .ok updated => applyOptions updated rest
      | .error flaw => ((applyOptions o rest).1, flaw.toFault :: (applyOptions o rest).2) := rfl

/-- Each pair that fails adds one fault, and the others add none. -/
theorem faults_applyOptions (o : Options) (pairs : List (String × String)) :
    (applyOptions o pairs).2 = (o.flaws pairs).map OptionFlaw.toFault := by
  induction pairs generalizing o with
  | nil => rfl
  | cons pair rest ih =>
    rw [applyOptions_cons, Options.flaws, Options.outcomes]
    cases o.set pair.1 pair.2 with
    | ok updated => exact ih updated
    | error flaw => exact congrArg (_ :: ·) (ih o)

/-- The pairs that are set can be set one after the other, without those that fail between them. -/
theorem foldlM_accepted (o : Options) (pairs : List (String × String)) :
    (o.accepted pairs).foldlM (fun o pair => o.set pair.1 pair.2) o = .ok (applyOptions o pairs).1 := by
  induction pairs generalizing o with
  | nil => rfl
  | cons pair rest ih =>
    rw [applyOptions_cons, Options.accepted, Options.outcomes]
    cases hset : o.set pair.1 pair.2 with
    | ok updated =>
      show (pair :: updated.accepted rest).foldlM _ o = _
      rw [List.foldlM_cons, hset]
      exact ih updated
    | error flaw => exact ih o

theorem applyOptions_eq (h : o.isValid = true) (pairs : List (String × String)) :
    (applyOptions o pairs).1 = pairs.foldl Options.tried o ∧ (applyOptions o pairs).1.isValid = true := by
  induction pairs generalizing o with
  | nil => exact ⟨rfl, h⟩
  | cons pair rest ih =>
    rw [applyOptions_cons, List.foldl_cons, Options.tried]
    rcases Options.set_cases h pair with ⟨asked, hdemand, hset, hvalid⟩ | ⟨flaw, hdemand, hset⟩
    · rw [hset, hdemand]
      exact ih hvalid
    · rw [hset, hdemand]
      exact ih h

/-- Pairs behind others are tried on what the others have left. -/
theorem applyOptions_append (h : o.isValid = true) (before rest : List (String × String)) :
    (applyOptions o (before ++ rest)).1 = rest.foldl Options.tried (applyOptions o before).1 := by
  rw [(applyOptions_eq h _).1, (applyOptions_eq h _).1, List.foldl_append]

/-- Faults are gathered exactly if pairs fail, one for each of them. -/
theorem setOptions_result (r : Registry) (settings : List (String × String)) :
    ((r.setOptions settings).2 = .ok () ↔ r.options.flaws settings = []) ∧
      ∀ fault, (r.setOptions settings).2 = .error fault →
        fault.parts = (r.options.flaws settings).map OptionFlaw.toFault := by
  rw [setOptions, faults_applyOptions]
  have hsingle : ∀ fault ∈ (r.options.flaws settings).map OptionFlaw.toFault, fault.isSingle = true := by
    intro fault hfault
    obtain ⟨flaw, -, rfl⟩ := List.mem_map.1 hfault
    rfl
  cases hflaws : r.options.flaws settings with
  | nil => exact ⟨⟨fun _ => rfl, fun _ => rfl⟩, fun fault hfault => by cases hfault⟩
  | cons flaw rest =>
    rw [hflaws] at hsingle
    refine ⟨⟨fun hok => ?_, fun hnil => ?_⟩, fun fault hfault => ?_⟩
    · cases hok
    · cases hnil
    · cases hfault
      exact Fault.parts_gather hsingle

end Registry

/-! ## The whole statement -/

/-- A script that sets options one after another, on options that satisfy all constraints, leaves such options and
nothing else changed. They are what comes of setting only the pairs that can be set, and the fault gathers one fault for
each of the others. A pair that is set changes the option of its flag to what its text spells, and no other; a pair that
fails changes nothing. Two neighbours with different flags may change places: the options are the same, and each of the
two is set, or fails for its flaw, in either order. -/
theorem option_updates_are_atomic {r : Registry} (hvalid : r.options.validate = .ok ()) :
    (∀ settings,
      let after := (r.setOptions settings).1
      after = { r with options := after.options } ∧ after.options.validate = .ok () ∧
        (r.options.accepted settings).foldlM (fun o pair => o.set pair.1 pair.2) r.options = .ok after.options ∧
        ((r.setOptions settings).2 = .ok () ↔ r.options.flaws settings = []) ∧
        ∀ fault, (r.setOptions settings).2 = .error fault →
          fault.parts = (r.options.flaws settings).map OptionFlaw.toFault) ∧
    (∀ settings pair,
      let o := (r.setOptions settings).1.options
      let next := (r.setOptions (settings ++ [pair])).1.options
      (∃ flag content, Flag.ofName? pair.1 = some flag ∧ flag.read pair.2 = .ok content ∧
        o.set pair.1 pair.2 = .ok next ∧ next.get flag = content ∧
        (∀ other, other ≠ flag → next.get other = o.get other) ∧
        r.options.outcomes (settings ++ [pair]) = r.options.outcomes settings ++ [(pair, none)]) ∨
      ∃ flaw, o.set pair.1 pair.2 = .error flaw ∧ next = o ∧
        r.options.outcomes (settings ++ [pair]) = r.options.outcomes settings ++ [(pair, some flaw)]) ∧
    ∀ before first second rest, first.1 ≠ second.1 →
      (r.setOptions (before ++ first :: second :: rest)).1 = (r.setOptions (before ++ second :: first :: rest)).1 ∧
        ∃ flaw flaw' later,
          r.options.outcomes (before ++ first :: second :: rest) =
            r.options.outcomes before ++ (first, flaw) :: (second, flaw') :: later ∧
          r.options.outcomes (before ++ second :: first :: rest) =
            r.options.outcomes before ++ (second, flaw') :: (first, flaw) :: later := by
  have h : r.options.isValid = true := Options.validate_eq_ok_iff.1 hvalid
  refine ⟨fun settings => ?all, fun settings pair => ?turn, fun before first second rest hflags => ⟨?options, ?pairs⟩⟩
  case all =>
    exact ⟨rfl, Options.validate_eq_ok_iff.2 (Registry.applyOptions_eq h settings).2,
      Registry.foldlM_accepted r.options settings, Registry.setOptions_result r settings⟩
  case turn =>
    have hthen : (r.setOptions settings).1.options.isValid = true := (Registry.applyOptions_eq h settings).2
    have hnext : (r.setOptions (settings ++ [pair])).1.options = (r.setOptions settings).1.options.tried pair :=
      Registry.applyOptions_append h settings [pair]
    rw [Options.outcomes_append h, List.map_singleton, hnext, Options.tried, Options.flaw?]
    generalize (r.setOptions settings).1.options = o at hthen
    rcases Options.set_cases hthen pair with ⟨asked, hdemand, hset, -⟩ | ⟨flaw, hdemand, hset⟩
    · obtain ⟨hname, hread, -⟩ := Options.demand_ok hdemand
      rw [hdemand]
      exact .inl ⟨asked.1, asked.2, hname, hread, hset, o.get_put_self asked.1 asked.2,
        fun other hother => o.get_put_of_ne hother asked.2, rfl⟩
    · rw [hdemand]
      exact .inr ⟨flaw, hset, rfl, rfl⟩
  case options =>
    show ({ r with options := _ } : Registry) = { r with options := _ }
    rw [Registry.applyOptions_append h, Registry.applyOptions_append h, List.foldl_cons, List.foldl_cons,
      Options.tried_comm _ hflags]
    rfl
  case pairs =>
    exact ⟨Options.flaw? first, Options.flaw? second, rest.map fun pair => (pair, Options.flaw? pair),
      Options.outcomes_append h before _, Options.outcomes_append h before _⟩

namespace Example

/-- A queue that can be set, a flag that does not exist, and a count that is none. -/
def requested : List (String × String) := [("defaultDlq", "dead"), ("bogus", "1"), ("applyParallelism", "many")]

end Example

/-- The queue is set, two faults are gathered, and nothing changes if the unknown flag comes first. -/
theorem valid_queue_is_kept :
    let r := Registry.ofOptions .default
    r.options.validate = .ok () ∧
      (r.setOptions Example.requested).1.options = { Options.default with defaultDlq := "dead" } ∧
      (∃ fault, (r.setOptions Example.requested).2 = .error fault ∧ fault.parts =
        [.invalidOption "unknown option `bogus`",
          .invalidOption "invalid value `many` for option `applyParallelism`: invalid digit found in string"]) ∧
      (r.setOptions [("bogus", "1"), ("defaultDlq", "dead"), ("applyParallelism", "many")]).1 =
        (r.setOptions Example.requested).1 := by
  intro r
  have hvalid : r.options.validate = .ok () := by decide
  obtain ⟨hall, -, hexchange⟩ := option_updates_are_atomic hvalid
  obtain ⟨-, -, hset, hok, hfaults⟩ := hall Example.requested
  have haccepted : r.options.accepted Example.requested = [("defaultDlq", "dead")] := by decide
  have hflaws : r.options.flaws Example.requested = [.unknownOption "bogus",
      .invalidValue "applyParallelism" "many" "invalid digit found in string"] := by decide
  have hdead : r.options.set "defaultDlq" "dead" = .ok { Options.default with defaultDlq := "dead" } := by decide
  rw [hflaws] at hok hfaults
  rw [haccepted, List.foldlM_cons, hdead] at hset
  obtain ⟨hsame, -⟩ := hexchange [] ("bogus", "1") ("defaultDlq", "dead") [("applyParallelism", "many")] (by decide)
  refine ⟨hvalid, (Except.ok.inj hset).symm, ?_, hsame⟩
  cases hresult : (r.setOptions Example.requested).2 with
  | ok _ => cases hok.1 hresult
  | error fault => exact ⟨fault, rfl, hfaults fault hresult⟩

end Tributary
