import Mathlib.Data.List.Forall2
import Tributary.Mutation.Changefeed

/-!
# Changefeeds line by line

A changefeed body is read line by line, and a line is read without a look at the others. So a body can be cut at any
line feed, and carriage returns in front of the line feeds make no difference. The one thing that a line knows about the
lines before it is their number, which a fault may name but which does not decide its kind.

* `byLines`: a body has no line feed, or it has a first one with another body behind it. The lines of the one kind are
  `lines_of_last`, those of the other `lines_of_line`.
* `lines_append_newline`, `lines_withReturns`: the lines of a body that is cut at a line feed, and of one with carriage
  returns.
* `parseLines_append`, `kinds_parseLines`: the mutations of lines, part by part and wherever they are counted from.
* `parseLines_eq_ok_iff`: lines are accepted exactly if each one that is not blank is read as a mutation.
* `changefeeds_parse_line_by_line`: what follows for bodies.
-/

namespace Tributary.Changefeed

open Text

/-! ## Lines of a body -/

/-- What holds of a body without line feeds, and of a line with a body behind it if it holds of that body, holds of
every body. -/
theorem byLines {P : List Char → Prop} (last : ∀ line, '\n' ∉ line → P line)
    (line : ∀ line rest, '\n' ∉ line → P rest → P (line ++ '\n' :: rest)) (body : List Char) : P body := by
  by_cases h : '\n' ∈ body
  · obtain ⟨first, rest, hbody, hfirst⟩ := List.eq_append_cons_of_mem h
    have hshorter : rest.length < body.length := by
      rw [hbody, List.length_append, List.length_cons]
      omega
    exact hbody ▸ line first rest hfirst (byLines last line rest)
  · exact last body h
termination_by body.length

theorem splitLines_cons {c : Char} (hc : ¬ c = '\n') {cs line : List Char} {ended : Bool}
    {rest : List (List Char × Bool)} (h : splitLines cs = (line, ended) :: rest) :
    splitLines (c :: cs) = (c :: line, ended) :: rest := by
  rw [splitLines, if_neg hc, h]

theorem splitLines_of_last {line : List Char} (hne : line ≠ []) (h : '\n' ∉ line) :
    splitLines line = [(line, false)] := by
  induction line with
  | nil => exact absurd rfl hne
  | cons c cs ih =>
    have hc : ¬ c = '\n' := fun e => h (e ▸ List.mem_cons_self)
    cases cs with
    | nil =>
      rw [splitLines, if_neg hc]
      rfl
    | cons d ds => exact splitLines_cons hc (ih (List.cons_ne_nil _ _) fun hin => h (List.mem_cons_of_mem _ hin))

theorem splitLines_of_line {line : List Char} (h : '\n' ∉ line) (rest : List Char) :
    splitLines (line ++ '\n' :: rest) = (line, true) :: splitLines rest := by
  induction line with
  | nil => rw [List.nil_append, splitLines, if_pos rfl]
  | cons c cs ih =>
    exact splitLines_cons (fun e => h (e ▸ List.mem_cons_self)) (ih fun hin => h (List.mem_cons_of_mem _ hin))

/-- A body without line feeds is one line, unless it is empty. -/
theorem lines_of_last {line : List Char} (h : '\n' ∉ line) : lines line = if line = [] then [] else [line] := by
  split
  · next hnil =>
    subst hnil
    rfl
  · next hne =>
    rw [lines, splitLines_of_last hne h]
    rfl

/-- The lines of a body behind its first line feed are its other lines. -/
theorem lines_of_line {line : List Char} (h : '\n' ∉ line) (rest : List Char) :
    lines (line ++ '\n' :: rest) = dropReturn (line, true) :: lines rest := by
  rw [lines, splitLines_of_line h, List.map_cons]
  rfl

theorem dropReturn_of_not_return {line : List Char} (h : line.getLast? ≠ some '\r') :
    dropReturn (line, true) = line := by
  have hlast : (line.getLast? == some '\r') = false := beq_eq_false_iff_ne.2 h
  simp [dropReturn, hlast]

theorem dropReturn_return (line : List Char) : dropReturn (line ++ ['\r'], true) = line := by
  simp [dropReturn]

/-- The lines of two bodies with a line feed in between are those of the one and then those of the other, perhaps with
an empty line in between. -/
theorem lines_append_newline {a : List Char} (ha : a.getLast? ≠ some '\r') (b : List Char) :
    ∃ count, lines (a ++ '\n' :: b) = lines a ++ (List.replicate count [] ++ lines b) := by
  induction a using byLines with
  | last line h =>
    rw [lines_of_line h, lines_of_last h, dropReturn_of_not_return ha]
    by_cases hnil : line = []
    · exact ⟨1, by simp [hnil]⟩
    · exact ⟨0, by simp [hnil]⟩
  | line line rest h ih =>
    have hrest : rest.getLast? ≠ some '\r' := by
      intro hlast
      refine ha ?_
      rw [List.getLast?_append, List.getLast?_cons, hlast]
      rfl
    obtain ⟨count, hcount⟩ := ih hrest
    refine ⟨count, ?_⟩
    rw [List.append_assoc, List.cons_append, lines_of_line h, lines_of_line h, hcount, List.cons_append]

/-! ## Carriage returns -/

/-- A body with a carriage return in front of every line feed. -/
def withReturns (body : List Char) : List Char := body.flatMap fun c => if c = '\n' then ['\r', '\n'] else [c]

theorem withReturns_of_last {line : List Char} (h : '\n' ∉ line) : withReturns line = line := by
  induction line with
  | nil => rfl
  | cons c cs ih =>
    have hc : ¬ c = '\n' := fun e => h (e ▸ List.mem_cons_self)
    have hcs : withReturns cs = cs := ih fun hin => h (List.mem_cons_of_mem _ hin)
    rw [withReturns, List.flatMap_cons, if_neg hc]
    exact congrArg (c :: ·) hcs

theorem withReturns_of_line {line : List Char} (h : '\n' ∉ line) (rest : List Char) :
    withReturns (line ++ '\n' :: rest) = (line ++ ['\r']) ++ '\n' :: withReturns rest := by
  have hline := withReturns_of_last h
  unfold withReturns at hline ⊢
  rw [List.flatMap_append, hline, List.flatMap_cons, if_pos rfl, List.append_assoc]
  rfl

/-- Carriage returns in front of the line feeds are not part of the lines. -/
theorem lines_withReturns {body : List Char} (h : '\r' ∉ body) : lines (withReturns body) = lines body := by
  induction body using byLines with
  | last line hline => rw [withReturns_of_last hline]
  | line line rest hline ih =>
    have hlast : line.getLast? ≠ some '\r' := fun e => h (List.mem_append_left _ (List.mem_of_getLast? e))
    have hreturn : '\n' ∉ line ++ ['\r'] := by simpa using hline
    have hrest : '\r' ∉ rest := fun hin => h (List.mem_append_right _ (List.mem_cons_of_mem _ hin))
    rw [withReturns_of_line hline, lines_of_line hreturn, lines_of_line hline, dropReturn_return,
      dropReturn_of_not_return hlast, ih hrest]

/-! ## Mutations of lines -/

section
variable (table : TableName) (limit : Nat)

/-- A line is read as a mutation that comes from the feed of a table. -/
structure Reads (line : List Char) (m : Mutation) : Prop where
  fits : byteCount line ≤ limit
  parsed : ∃ change, parseLine (String.ofList line).toUTF8.toList = .ok change ∧
    m = { change with origin := sourceMeta sourceName table change.time }

/-- The lines that are not blank. -/
def filledLines (ls : List (List Char)) : List (List Char) := ls.filter fun line => !line.all isBlank

/-- What a line adds to the mutations of its body. -/
def parseNumbered (number : Nat) (line : List Char) : Result (List Mutation) :=
  if line.all isBlank then .ok []
  else if limit < byteCount line then .error (.lineTooLong number (byteCount line) limit)
  else
    (parseLine (String.ofList line).toUTF8.toList).map fun m =>
      [{ m with origin := sourceMeta sourceName table m.time }]

/-- The lines behind a line are parsed on their own, counted on from it. -/
theorem parseLines_cons (number : Nat) (line : List Char) (rest : List (List Char)) :
    parseLines table limit number (line :: rest) = do
      let ms ← parseNumbered table limit number line
      let others ← parseLines table limit (number + 1) rest
      return ms ++ others := by
  rw [parseLines, parseNumbered]
  split
  · exact (bind_pure _).symm
  · split
    · rfl
    · cases parseLine (String.ofList line).toUTF8.toList <;> rfl

theorem parseLines_append (number : Nat) (first second : List (List Char)) :
    parseLines table limit number (first ++ second) = do
      let ms ← parseLines table limit number first
      let others ← parseLines table limit (number + first.length) second
      return ms ++ others := by
  induction first generalizing number with
  | nil => exact (bind_pure _).symm
  | cons line rest ih =>
    have hnumber : number + (line :: rest).length = number + 1 + rest.length := by
      rw [List.length_cons]
      omega
    rw [List.cons_append, parseLines_cons, parseLines_cons, ih, hnumber]
    simp only [bind_assoc, pure_bind, List.append_assoc]

/-- Empty lines only count. -/
theorem parseLines_empty (number count : Nat) (rest : List (List Char)) :
    parseLines table limit number (List.replicate count [] ++ rest) =
      parseLines table limit (number + count) rest := by
  induction count generalizing number with
  | zero => rfl
  | succ count ih =>
    have hnumber : number + 1 + count = number + (count + 1) := by omega
    rw [← hnumber, ← ih]
    rfl

theorem mapError_bind {α β : Type} (x : Result α) (f : α → Result β) :
    (x >>= f).mapError Fault.kind = x.mapError Fault.kind >>= fun a => (f a).mapError Fault.kind := by
  cases x <;> rfl

theorem kinds_parseNumbered (number other : Nat) (line : List Char) :
    (parseNumbered table limit number line).mapError Fault.kind =
      (parseNumbered table limit other line).mapError Fault.kind := by
  unfold parseNumbered
  split
  · rfl
  · split <;> rfl

/-- The numbers of lines decide neither their mutations nor the kind of their fault. -/
theorem kinds_parseLines (number other : Nat) (ls : List (List Char)) :
    (parseLines table limit number ls).mapError Fault.kind = (parseLines table limit other ls).mapError Fault.kind := by
  induction ls generalizing number other with
  | nil => rfl
  | cons line rest ih =>
    rw [parseLines_cons, parseLines_cons, mapError_bind, mapError_bind, kinds_parseNumbered table limit number other]
    refine congrArg _ (funext fun ms => ?_)
    rw [mapError_bind, mapError_bind, ih (number + 1) (other + 1)]

theorem parseNumbered_of_filled {number : Nat} {line : List Char} (h : line.all isBlank = false) {ms : List Mutation} :
    parseNumbered table limit number line = .ok ms ↔ ∃ m, Reads table limit line m ∧ ms = [m] := by
  unfold parseNumbered
  rw [h, if_neg Bool.false_ne_true]
  constructor
  · intro hok
    split at hok
    · cases hok
    · next hfits =>
      cases hparse : parseLine (String.ofList line).toUTF8.toList with
      | error fault =>
        rw [hparse] at hok
        cases hok
      | ok change =>
        rw [hparse] at hok
        cases hok
        exact ⟨_, ⟨Nat.not_lt.1 hfits, change, hparse, rfl⟩, rfl⟩
  · rintro ⟨m, ⟨hfits, change, hparse, rfl⟩, rfl⟩
    rw [if_neg (Nat.not_lt.2 hfits), hparse]
    rfl

/-- Lines are accepted exactly if each one that is not blank is read as a mutation, and these are all. -/
theorem parseLines_eq_ok_iff {number : Nat} {ls : List (List Char)} {ms : List Mutation} :
    parseLines table limit number ls = .ok ms ↔ List.Forall₂ (Reads table limit) (filledLines ls) ms := by
  induction ls generalizing number ms with
  | nil =>
    rw [parseLines, filledLines, List.filter_nil, List.forall₂_nil_left_iff]
    exact ⟨fun h => (Except.ok.inj h).symm, fun h => h ▸ rfl⟩
  | cons line rest ih =>
    rw [filledLines, List.filter_cons]
    cases hblank : line.all isBlank with
    | true =>
      rw [parseLines, if_pos hblank]
      exact ih
    | false =>
      rw [parseLines_cons]
      refine Iff.trans ?_ List.forall₂_cons_left_iff.symm
      constructor
      · intro hok
        cases hfirst : parseNumbered table limit number line with
        | error fault =>
          rw [hfirst] at hok
          cases hok
        | ok first =>
          obtain ⟨m, hreads, rfl⟩ := (parseNumbered_of_filled table limit hblank).1 hfirst
          cases hothers : parseLines table limit (number + 1) rest with
          | error fault =>
            rw [hfirst, hothers] at hok
            cases hok
          | ok others =>
            rw [hfirst, hothers] at hok
            cases hok
            exact ⟨m, others, hreads, ih.1 hothers, rfl⟩
      · rintro ⟨m, others, hreads, hothers, rfl⟩
        rw [(parseNumbered_of_filled table limit hblank).2 ⟨m, hreads, rfl⟩, ih.2 hothers]
        rfl

/-! ## Bodies -/

/-- The mutations of two bodies with a line feed in between. The lines of the second are counted on from the first. -/
theorem parse_append_newline {a : String} (ha : a.toList.getLast? ≠ some '\r') (b : String) :
    ∃ number, parse (a ++ "\n" ++ b) table limit = do
      let ms ← parse a table limit
      let others ← parseLines table limit number (lines b.toList)
      return ms ++ others := by
  obtain ⟨count, hlines⟩ := lines_append_newline ha b.toList
  have hbody : (a ++ "\n" ++ b).toList = a.toList ++ '\n' :: b.toList := by simp
  refine ⟨1 + (lines a.toList).length + count, ?_⟩
  rw [parse, hbody, hlines, parseLines_append, parseLines_empty]
  rfl

end

/-- A body can be cut at any line feed, unless a carriage return stands in front of it. If both parts are accepted, the
whole is, with the mutations of the one and then those of the other; if the first is rejected, the whole is rejected
with the same fault; and if only the second is, the whole is rejected with a fault of the same kind. A body without
carriage returns has the same result if one is put in front of every line feed. A body is accepted exactly if each of
its lines that is not blank is read as a mutation, and then these are its mutations, line by line. -/
theorem changefeeds_parse_line_by_line (table : TableName) (limit : Nat) :
    (∀ a b : String, a.toList.getLast? ≠ some '\r' →
      (∀ ms others, parse a table limit = .ok ms → parse b table limit = .ok others →
        parse (a ++ "\n" ++ b) table limit = .ok (ms ++ others)) ∧
      (∀ fault, parse a table limit = .error fault → parse (a ++ "\n" ++ b) table limit = .error fault) ∧
      ∀ ms fault, parse a table limit = .ok ms → parse b table limit = .error fault →
        ∃ later, parse (a ++ "\n" ++ b) table limit = .error later ∧ later.kind = fault.kind) ∧
    (∀ body : String, '\r' ∉ body.toList →
      parse (String.ofList (withReturns body.toList)) table limit = parse body table limit) ∧
    ∀ (body : String) (ms : List Mutation), parse body table limit = .ok ms ↔
      List.Forall₂ (Reads table limit) (filledLines (lines body.toList)) ms := by
  refine ⟨fun a b ha => ?_, fun body h => ?_, fun body ms => parseLines_eq_ok_iff table limit⟩
  · obtain ⟨number, hwhole⟩ := parse_append_newline table limit ha b
    have hkinds := kinds_parseLines table limit number 1 (lines b.toList)
    refine ⟨fun ms others hms hothers => ?_, fun fault hfault => ?_, fun ms fault hms hfault => ?_⟩
    · rw [← parse, hothers] at hkinds
      cases hlater : parseLines table limit number (lines b.toList) with
      | error later =>
        rw [hlater] at hkinds
        cases hkinds
      | ok read =>
        rw [hlater] at hkinds
        cases hkinds
        rw [hwhole, hms, hlater]
        rfl
    · rw [hwhole, hfault]
      rfl
    · rw [← parse, hfault] at hkinds
      cases hlater : parseLines table limit number (lines b.toList) with
      | error later =>
        rw [hlater] at hkinds
        refine ⟨later, ?_, Except.error.inj hkinds⟩
        rw [hwhole, hms, hlater]
        rfl
      | ok read =>
        rw [hlater] at hkinds
        cases hkinds
  · rw [parse, parse, String.toList_ofList, lines_withReturns h]

namespace Example

/-- A table that changes are read for. -/
def parcels : TableName := ⟨["parcels"], by decide, by decide, by decide⟩

/-- A line that removes a parcel. -/
def removal : String := "\x7b\"key\": [true], \"updated\": \"1.5\"\x7d"

/-- What that line says. -/
def removed : Mutation :=
  let time : Hlc := ⟨1, 5, by decide, by decide⟩
  ⟨none, none, [.bool true], time, sourceMeta sourceName parcels time⟩

/-- The same line with blanks behind it, which make it too long. -/
def lengthy : String := removal ++ "          "

end Example

/-- Two removals are read one after the other, also if there are carriage returns. A line that is too long stops the
body, whether it is the first or not. -/
theorem lengthy_line_stops_its_body :
    parse (Example.removal ++ "\n" ++ Example.removal) Example.parcels 40 = .ok [Example.removed, Example.removed] ∧
      parse (Example.lengthy ++ "\n" ++ Example.removal) Example.parcels 40 = .error (.lineTooLong 1 43 40) ∧
      (∃ later, parse (Example.removal ++ "\n" ++ Example.lengthy) Example.parcels 40 = .error later ∧
        later.kind = .invalidData) ∧
      parse (String.ofList (withReturns (Example.removal ++ "\n" ++ Example.removal).toList)) Example.parcels 40 =
        .ok [Example.removed, Example.removed] := by
  have hremoval : parse Example.removal Example.parcels 40 = .ok [Example.removed] := by
    have hread : (parse Example.removal Example.parcels 40).toOption = some [Example.removed] := by decide +kernel
    cases hparse : parse Example.removal Example.parcels 40 with
    | error fault =>
      rw [hparse] at hread
      cases hread
    | ok ms =>
      rw [hparse] at hread
      exact congrArg Except.ok (Option.some.inj hread)
  have hlengthy : parse Example.lengthy Example.parcels 40 = .error (.lineTooLong 1 43 40) := by
    have hline : lines Example.lengthy.toList = [Example.lengthy.toList] := by decide +kernel
    have hblank : Example.lengthy.toList.all isBlank = false := by decide +kernel
    have hlength : byteCount Example.lengthy.toList = 43 := by decide +kernel
    rw [parse, hline, parseLines, hblank, hlength]
    rfl
  obtain ⟨hcut, hreturns, -⟩ := changefeeds_parse_line_by_line Example.parcels 40
  obtain ⟨hboth, -, -⟩ := hcut Example.removal Example.removal (by decide)
  obtain ⟨-, hfirst, -⟩ := hcut Example.lengthy Example.removal (by decide)
  obtain ⟨-, -, hsecond⟩ := hcut Example.removal Example.lengthy (by decide)
  have hwhole := hboth _ _ hremoval hremoval
  refine ⟨hwhole, hfirst _ hlengthy, hsecond _ _ hremoval hlengthy, ?_⟩
  rw [hreturns _ (by decide)]
  exact hwhole

end Tributary.Changefeed
