import Mathlib.Data.List.Forall2
import Mathlib.Logic.Function.Basic

/-!
# Runs of a partial deterministic system

A system answers a call with a reply and a new state, or it gets stuck and
has no next state.  The rules below lift what one call preserves to what a
sequence of calls preserves, for one system and for two systems in step.
-/

namespace PartialSystem

variable {σ τ α ω ε : Type*}

/-- Perform the calls in order, collecting the replies. -/
def run (next : α → σ → Except ε (ω × σ)) :
    List α → σ → Except ε (List ω × σ)
  | [], state => .ok ([], state)
  | call :: calls, state =>
      match next call state with
      | .error stuck => .error stuck
      | .ok (reply, middle) =>
          match run next calls middle with
          | .error stuck => .error stuck
          | .ok (replies, final) => .ok (reply :: replies, final)

section Run

variable {next : α → σ → Except ε (ω × σ)} {call : α} {calls : List α}
  {start middle : σ} {reply : ω} {stuck : ε}

theorem run_nil : run next [] start = .ok ([], start) := rfl

theorem run_cons :
    run next (call :: calls) start =
      match next call start with
      | .error stuck => .error stuck
      | .ok (reply, middle) =>
          match run next calls middle with
          | .error stuck => .error stuck
          | .ok (replies, final) => .ok (reply :: replies, final) := rfl

theorem run_cons_of_error (failed : next call start = .error stuck) :
    run next (call :: calls) start = .error stuck := by
  rw [run_cons, failed]

theorem run_cons_of_rest_error
    (answered : next call start = .ok (reply, middle))
    (failed : run next calls middle = .error stuck) :
    run next (call :: calls) start = .error stuck := by
  rw [run_cons, answered]
  simp only [failed]

theorem run_cons_of_ok {final : σ} {replies : List ω}
    (answered : next call start = .ok (reply, middle))
    (finished : run next calls middle = .ok (replies, final)) :
    run next (call :: calls) start = .ok (reply :: replies, final) := by
  rw [run_cons, answered]
  simp only [finished]

end Run

/-- Perform one call a number of times, keeping only the state. -/
def iterate (step : σ → Except ε (ω × σ)) : Nat → σ → Except ε σ
  | 0, state => .ok state
  | count + 1, state =>
      match step state with
      | .error stuck => .error stuck
      | .ok (_, next) => iterate step count next

section Iterate

variable {step : σ → Except ε (ω × σ)} {count : Nat} {start middle : σ}

theorem iterate_zero : iterate step 0 start = .ok start := rfl

theorem iterate_succ :
    iterate step (count + 1) start =
      match step start with
      | .error stuck => .error stuck
      | .ok (_, next) => iterate step count next := rfl

theorem iterate_succ_of_error {stuck : ε}
    (failed : step start = .error stuck) :
    iterate step (count + 1) start = .error stuck := by
  rw [iterate_succ, failed]

theorem iterate_succ_of_ok {reply : ω}
    (stepped : step start = .ok (reply, middle)) :
    iterate step (count + 1) start = iterate step count middle := by
  rw [iterate_succ, stepped]

end Iterate

/-- The states that the first `count` steps are taken from. -/
def visited (step : σ → Except ε (ω × σ)) : Nat → σ → List σ
  | 0, _ => []
  | count + 1, state =>
      state ::
        match step state with
        | .error _ => []
        | .ok (_, next) => visited step count next

section Visited

variable {step : σ → Except ε (ω × σ)} {count : Nat} {start middle : σ}

theorem visited_zero : visited step 0 start = [] := rfl

theorem visited_succ_eq_cons :
    visited step (count + 1) start =
      start ::
        match step start with
        | .error _ => []
        | .ok (_, next) => visited step count next := rfl

theorem visited_one : visited step 1 start = [start] := by
  rw [visited_succ_eq_cons]
  cases step start <;> rfl

theorem visited_succ_of_ok {reply : ω}
    (stepped : step start = .ok (reply, middle)) :
    visited step (count + 1) start = start :: visited step count middle := by
  rw [visited_succ_eq_cons, stepped]

end Visited

/-- A property of every state from which one of the first `count` steps is
taken. -/
def Before (step : σ → Except ε (ω × σ)) (start : σ) (count : Nat)
    (property : σ → Prop) : Prop :=
  ∀ index, index < count → ∀ state,
    iterate step index start = .ok state → property state

/-- A property of every state up to the one after `count` steps. -/
def Throughout (step : σ → Except ε (ω × σ)) (start : σ) (count : Nat)
    (property : σ → Prop) : Prop :=
  ∀ index, index ≤ count → ∀ state,
    iterate step index start = .ok state → property state

/-- Repeat a call until an answer to it stops the repetition, at most the
given number of times. -/
def runUntil (next : α → σ → Except ε (ω × σ)) (call : α)
    (stops : ω → σ → Bool) : Nat → σ → Except ε (List ω × σ)
  | 0, state => .ok ([], state)
  | count + 1, state =>
      match next call state with
      | .error stuck => .error stuck
      | .ok (reply, middle) =>
          if stops reply middle then .ok ([reply], middle)
          else
            match runUntil next call stops count middle with
            | .error stuck => .error stuck
            | .ok (replies, final) => .ok (reply :: replies, final)

/-- A condition on every call of a run, in the state it is made in. -/
def Along (next : α → σ → Except ε (ω × σ)) (condition : α → σ → Prop) :
    List α → σ → Prop
  | [], _ => True
  | call :: calls, state =>
      condition call state ∧ ∀ reply middle,
        next call state = .ok (reply, middle) →
          Along next condition calls middle

/-- A property of every state a run reaches, the first one included. -/
def Everywhere (next : α → σ → Except ε (ω × σ)) (property : σ → Prop) :
    List α → σ → Prop
  | [], state => property state
  | call :: calls, state =>
      property state ∧ ∀ reply middle,
        next call state = .ok (reply, middle) →
          Everywhere next property calls middle

section OneSystem

variable {next : α → σ → Except ε (ω × σ)}

/-- A run whose calls all avoid a failure avoids it. -/
theorem run_ne_error {condition : α → σ → Prop} {stuck : ε}
    (avoids : ∀ call state, condition call state →
      next call state ≠ .error stuck)
    {calls : List α} {start : σ} (along : Along next condition calls start) :
    run next calls start ≠ .error stuck := by
  induction calls generalizing start with
  | nil =>
      intro failed
      cases failed
  | cons call calls induction =>
      obtain ⟨here, later⟩ := along
      intro failed
      cases answer : next call start with
      | error reason =>
          rw [run_cons_of_error answer] at failed
          cases failed
          exact avoids call start here answer
      | ok reached =>
          obtain ⟨reply, middle⟩ := reached
          have rest := induction (later reply middle answer)
          cases tail : run next calls middle with
          | error reason =>
              rw [run_cons_of_rest_error answer tail] at failed
              cases failed
              exact rest tail
          | ok finished =>
              rw [run_cons_of_ok answer tail] at failed
              cases failed

theorem Along.mono {first second : α → σ → Prop}
    (implies : ∀ call state, first call state → second call state)
    {calls : List α} {start : σ} (along : Along next first calls start) :
    Along next second calls start := by
  induction calls generalizing start with
  | nil => trivial
  | cons call calls induction =>
      exact ⟨implies call start along.1, fun reply middle answered =>
        induction (along.2 reply middle answered)⟩

theorem Along.and {first second : α → σ → Prop} {calls : List α} {start : σ}
    (left : Along next first calls start)
    (right : Along next second calls start) :
    Along next (fun call state => first call state ∧ second call state) calls
      start := by
  induction calls generalizing start with
  | nil => trivial
  | cons call calls induction =>
      exact ⟨⟨left.1, right.1⟩, fun reply middle answered =>
        induction (left.2 reply middle answered)
          (right.2 reply middle answered)⟩

/-- A condition on calls alone holds along every run. -/
theorem along_of_forall {allowed : α → Prop} {calls : List α} {start : σ}
    (permitted : ∀ call ∈ calls, allowed call) :
    Along next (fun call _ => allowed call) calls start := by
  induction calls generalizing start with
  | nil => trivial
  | cons call calls induction =>
      refine ⟨permitted call List.mem_cons_self, fun reply middle _ => ?_⟩
      apply induction
      intro other member
      exact permitted other (List.mem_cons_of_mem _ member)

theorem run_cons_eq_ok {call : α} {calls : List α} {start final : σ}
    {replies : List ω} :
    run next (call :: calls) start = .ok (replies, final) ↔
      ∃ reply middle rest, next call start = .ok (reply, middle) ∧
        run next calls middle = .ok (rest, final) ∧
        replies = reply :: rest := by
  constructor
  · intro finished
    cases first : next call start with
    | error stuck =>
        rw [run_cons_of_error first] at finished
        cases finished
    | ok answer =>
        obtain ⟨reply, middle⟩ := answer
        cases later : run next calls middle with
        | error stuck =>
            rw [run_cons_of_rest_error first later] at finished
            cases finished
        | ok answer =>
            obtain ⟨rest, last⟩ := answer
            rw [run_cons_of_ok first later] at finished
            cases finished
            exact ⟨reply, middle, rest, rfl, later, rfl⟩
  · rintro ⟨reply, middle, rest, first, later, rfl⟩
    exact run_cons_of_ok first later

/-- Along a run whose calls meet a condition, an invariant that such calls
preserve holds wherever a call is made, and in the last state. -/
theorem Along.invariant {condition : α → σ → Prop} {invariant : σ → Prop}
    (preserved : ∀ call state reply final, condition call state →
      invariant state → next call state = .ok (reply, final) →
        invariant final)
    {calls : List α} {start : σ} (initial : invariant start)
    (along : Along next condition calls start) :
    Along next (fun call state => condition call state ∧ invariant state)
        calls start ∧
      ∀ replies final, run next calls start = .ok (replies, final) →
        invariant final := by
  induction calls generalizing start with
  | nil =>
      refine ⟨trivial, fun replies final finished => ?_⟩
      cases finished
      exact initial
  | cons call calls induction =>
      obtain ⟨here, later⟩ := along
      have kept : ∀ reply middle, next call start = .ok (reply, middle) →
          invariant middle := fun reply middle =>
        preserved call start reply middle here initial
      constructor
      · refine ⟨⟨here, initial⟩, fun reply middle answered => ?_⟩
        exact (induction (kept reply middle answered)
          (later reply middle answered)).1
      · intro replies final finished
        rw [run_cons_eq_ok] at finished
        obtain ⟨reply, middle, rest, answered, tail, _⟩ := finished
        exact (induction (kept reply middle answered)
          (later reply middle answered)).2 rest final tail

theorem Everywhere.start {property : σ → Prop} {calls : List α} {start : σ}
    (everywhere : Everywhere next property calls start) : property start := by
  cases calls with
  | nil => exact everywhere
  | cons call calls => exact everywhere.1

theorem Everywhere.final {property : σ → Prop} {calls : List α}
    {start final : σ} {replies : List ω}
    (everywhere : Everywhere next property calls start)
    (finished : run next calls start = .ok (replies, final)) :
    property final := by
  induction calls generalizing start replies with
  | nil =>
      cases finished
      exact everywhere
  | cons call calls induction =>
      rw [run_cons_eq_ok] at finished
      obtain ⟨reply, middle, rest, answered, tail, _⟩ := finished
      exact induction (everywhere.2 reply middle answered) tail

/-- What the last state of a run guarantees of the states before it. -/
theorem along_of_run_eq_ok {allowed : α → Prop} {condition : α → σ → Prop}
    {property : σ → Prop}
    (back : ∀ call state reply final, allowed call →
      next call state = .ok (reply, final) → property final →
        property state ∧ condition call state)
    {calls : List α} (permitted : ∀ call ∈ calls, allowed call)
    {start final : σ} {replies : List ω}
    (finished : run next calls start = .ok (replies, final))
    (last : property final) :
    property start ∧ Along next condition calls start := by
  induction calls generalizing start replies with
  | nil =>
      cases finished
      exact ⟨last, trivial⟩
  | cons call calls induction =>
      obtain ⟨here, later⟩ := List.forall_mem_cons.mp permitted
      rw [run_cons_eq_ok] at finished
      obtain ⟨reply, middle, rest, answered, tail, _⟩ := finished
      obtain ⟨kept, along⟩ := induction later tail
      obtain ⟨before, met⟩ := back call start reply middle here answered kept
      refine ⟨before, met, fun other otherMiddle again => ?_⟩
      rw [answered] at again
      cases again
      exact along

/-- A property that a call keeps exactly under a condition holds everywhere
in a run exactly when all its calls meet the condition.  An invariant may be
assumed, and a call that gets stuck must meet the condition. -/
theorem everywhere_iff_along {allowed : α → Prop}
    {invariant property : σ → Prop} {condition : α → σ → Prop}
    (preserved : ∀ call state reply final, allowed call → invariant state →
      next call state = .ok (reply, final) → invariant final)
    (decides : ∀ call state reply final, allowed call → invariant state →
      property state → next call state = .ok (reply, final) →
        (property final ↔ condition call state))
    (excused : ∀ call state reason, allowed call → invariant state →
      next call state = .error reason → condition call state)
    {calls : List α} (permitted : ∀ call ∈ calls, allowed call) {start : σ}
    (initial : invariant start) (holds : property start) :
    Everywhere next property calls start ↔
      Along next condition calls start := by
  induction calls generalizing start with
  | nil => exact iff_of_true holds trivial
  | cons call calls induction =>
      have here := permitted call List.mem_cons_self
      have later : ∀ other ∈ calls, allowed other := fun other member =>
        permitted other (List.mem_cons_of_mem _ member)
      cases answer : next call start with
      | error reason =>
          constructor
          · intro everywhere
            refine ⟨excused call start reason here initial answer, ?_⟩
            intro reply middle answered
            rw [answer] at answered
            cases answered
          · intro along
            refine ⟨holds, fun reply middle answered => ?_⟩
            rw [answer] at answered
            cases answered
      | ok reached =>
          obtain ⟨reply, middle⟩ := reached
          have kept := preserved call start reply middle here initial answer
          have same := decides call start reply middle here initial holds answer
          constructor
          · intro everywhere
            have rest := everywhere.2 reply middle answer
            refine ⟨same.mp rest.start, fun other next answered => ?_⟩
            rw [answer] at answered
            cases answered
            exact (induction later kept rest.start).mp rest
          · intro along
            have after := same.mpr along.1
            refine ⟨holds, fun other next answered => ?_⟩
            rw [answer] at answered
            cases answered
            exact (induction later kept after).mpr
              (along.2 reply middle answer)

theorem run_append_eq_ok {calls later : List α} {start final : σ}
    {replies : List ω} :
    run next (calls ++ later) start = .ok (replies, final) ↔
      ∃ first middle second, run next calls start = .ok (first, middle) ∧
        run next later middle = .ok (second, final) ∧
        replies = first ++ second := by
  induction calls generalizing start replies with
  | nil =>
      constructor
      · intro finished
        exact ⟨[], start, replies, rfl, finished, rfl⟩
      · rintro ⟨_, _, second, same, finished, rfl⟩
        cases same
        exact finished
  | cons call calls induction =>
      rw [List.cons_append, run_cons_eq_ok]
      constructor
      · rintro ⟨reply, middle, rest, head, tail, rfl⟩
        obtain ⟨first, last, second, firstRun, secondRun, rfl⟩ :=
          induction.mp tail
        exact ⟨reply :: first, last, second, run_cons_of_ok head firstRun,
          secondRun, rfl⟩
      · rintro ⟨first, last, second, firstRun, secondRun, rfl⟩
        rw [run_cons_eq_ok] at firstRun
        obtain ⟨reply, middle, rest, head, tail, rfl⟩ := firstRun
        exact ⟨reply, middle, rest ++ second, head,
          induction.mpr ⟨rest, last, second, tail, secondRun, rfl⟩, rfl⟩

/-- A repetition is a run of no more calls than it may make. -/
theorem run_of_runUntil {call : α} {stops : ω → σ → Bool} {count : Nat}
    {start final : σ} {replies : List ω}
    (stopped : runUntil next call stops count start = .ok (replies, final)) :
    run next (List.replicate replies.length call) start =
        .ok (replies, final) ∧
      replies.length ≤ count := by
  induction count generalizing start replies with
  | zero =>
      cases stopped
      exact ⟨rfl, Nat.le_refl 0⟩
  | succ count induction =>
      rw [runUntil] at stopped
      cases answer : next call start with
      | error stuck =>
          rw [answer] at stopped
          cases stopped
      | ok reached =>
          obtain ⟨reply, middle⟩ := reached
          rw [answer] at stopped
          by_cases stop : stops reply middle = true
          · simp only [stop, if_true] at stopped
            cases stopped
            exact ⟨run_cons_of_ok answer run_nil, Nat.le_add_left 1 count⟩
          · simp only [stop, Bool.false_eq_true, if_false] at stopped
            cases rest : runUntil next call stops count middle with
            | error stuck =>
                rw [rest] at stopped
                cases stopped
            | ok later =>
                obtain ⟨others, last⟩ := later
                rw [rest] at stopped
                cases stopped
                obtain ⟨finished, bounded⟩ := induction rest
                exact ⟨run_cons_of_ok answer finished,
                  Nat.succ_le_succ bounded⟩

/-- What every call preserves, every run preserves. -/
theorem run_invariant (invariant : σ → Prop) (allowed : α → Prop)
    (preserved : ∀ call state reply final, allowed call → invariant state →
      next call state = .ok (reply, final) → invariant final)
    {calls : List α} (permitted : ∀ call ∈ calls, allowed call)
    {start final : σ} {replies : List ω} (initial : invariant start)
    (finished : run next calls start = .ok (replies, final)) :
    invariant final := by
  induction calls generalizing start replies with
  | nil =>
      cases finished
      exact initial
  | cons call calls induction =>
      rw [run_cons_eq_ok] at finished
      obtain ⟨reply, middle, rest, head, tail, rfl⟩ := finished
      exact induction
        (fun other member => permitted other (List.mem_cons_of_mem _ member))
        (preserved call start reply middle
          (permitted call List.mem_cons_self) initial head) tail

end OneSystem

section Iteration

variable {step : σ → Except ε (ω × σ)}

theorem iterate_succ_eq_ok {count : Nat} {start final : σ} :
    iterate step (count + 1) start = .ok final ↔
      ∃ reply middle, step start = .ok (reply, middle) ∧
        iterate step count middle = .ok final := by
  constructor
  · intro reached
    cases first : step start with
    | error stuck =>
        rw [iterate_succ_of_error first] at reached
        cases reached
    | ok answer =>
        obtain ⟨reply, middle⟩ := answer
        rw [iterate_succ_of_ok first] at reached
        exact ⟨reply, middle, rfl, reached⟩
  · rintro ⟨reply, middle, first, reached⟩
    rw [iterate_succ_of_ok first]
    exact reached

theorem iterate_add_eq_ok {count more : Nat} {start final : σ} :
    iterate step (count + more) start = .ok final ↔
      ∃ middle, iterate step count start = .ok middle ∧
        iterate step more middle = .ok final := by
  induction count generalizing start with
  | zero =>
      rw [Nat.zero_add, iterate_zero]
      constructor
      · intro reached
        exact ⟨start, rfl, reached⟩
      · rintro ⟨middle, same, reached⟩
        cases same
        exact reached
  | succ count induction =>
      rw [Nat.add_right_comm, iterate_succ_eq_ok]
      constructor
      · rintro ⟨reply, next, head, tail⟩
        obtain ⟨middle, first, second⟩ := induction.mp tail
        rw [← iterate_succ_of_ok head] at first
        exact ⟨middle, first, second⟩
      · rintro ⟨middle, first, second⟩
        rw [iterate_succ_eq_ok] at first
        obtain ⟨reply, next, head, tail⟩ := first
        exact ⟨reply, next, head, induction.mpr ⟨middle, tail, second⟩⟩

theorem Throughout.before {property : σ → Prop} {start : σ} {count : Nat}
    (holds : Throughout step start count property) :
    Before step start count property :=
  fun index small => holds index (Nat.le_of_lt small)

theorem Throughout.and {first second : σ → Prop} {start : σ} {count : Nat}
    (left : Throughout step start count first)
    (right : Throughout step start count second) :
    Throughout step start count fun state => first state ∧ second state :=
  fun index small state reached =>
    ⟨left index small state reached, right index small state reached⟩

theorem Throughout.mono {first second : σ → Prop} {start : σ} {count : Nat}
    (holds : Throughout step start count first)
    (implies : ∀ state, first state → second state) :
    Throughout step start count second :=
  fun index small state reached =>
    implies state (holds index small state reached)

/-- The last of several steps. -/
theorem iterate_succ_last {count : Nat} {start final : σ} :
    iterate step (count + 1) start = .ok final ↔
      ∃ middle reply, iterate step count start = .ok middle ∧
        step middle = .ok (reply, final) := by
  rw [iterate_add_eq_ok]
  constructor
  · rintro ⟨middle, first, second⟩
    rw [iterate_succ_eq_ok] at second
    obtain ⟨reply, last, stepped, rest⟩ := second
    cases rest
    exact ⟨middle, reply, first, stepped⟩
  · rintro ⟨middle, reply, first, stepped⟩
    exact ⟨middle, first,
      iterate_succ_eq_ok.mpr ⟨reply, final, stepped, rfl⟩⟩

theorem visited_succ {count : Nat} {start last : σ}
    (reached : iterate step count start = .ok last) :
    visited step (count + 1) start = visited step count start ++ [last] := by
  induction count generalizing start with
  | zero =>
      cases reached
      exact visited_one
  | succ count induction =>
      rw [iterate_succ_eq_ok] at reached
      obtain ⟨reply, middle, stepped, rest⟩ := reached
      rw [visited_succ_of_ok stepped, visited_succ_of_ok stepped,
        List.cons_append]
      exact congrArg (List.cons start) (induction rest)

/-- Along a run whose steps all meet a condition, an invariant that such
steps preserve holds in every state. -/
theorem throughout_of_before (invariant condition : σ → Prop)
    (preserved : ∀ state reply final, invariant state → condition state →
      step state = .ok (reply, final) → invariant final)
    {start : σ} {count : Nat} (initial : invariant start)
    (met : Before step start count condition) :
    Throughout step start count invariant := by
  intro index
  induction index with
  | zero =>
      intro _ state reached
      cases reached
      exact initial
  | succ index induction =>
      intro bounded state reached
      rw [iterate_succ_last] at reached
      obtain ⟨middle, reply, earlier, stepped⟩ := reached
      exact preserved middle reply state
        (induction (by omega) middle earlier)
        (met index (by omega) middle earlier) stepped

/-- A run takes a step in each of its earlier states. -/
theorem step_of_before {start last state : σ} {count index : Nat}
    (reached : iterate step count start = .ok last) (small : index < count)
    (earlier : iterate step index start = .ok state) :
    ∃ reply next, step state = .ok (reply, next) ∧
      iterate step (index + 1) start = .ok next := by
  obtain ⟨more, rfl⟩ : ∃ more, count = index + (more + 1) :=
    ⟨count - index - 1, by omega⟩
  rw [iterate_add_eq_ok] at reached
  obtain ⟨middle, toMiddle, rest⟩ := reached
  rw [earlier] at toMiddle
  cases toMiddle
  rw [iterate_succ_eq_ok] at rest
  obtain ⟨reply, next, stepped, _⟩ := rest
  exact ⟨reply, next, stepped,
    iterate_succ_last.mpr ⟨state, reply, earlier, stepped⟩⟩

/-- Conversely, when a step into the invariant must have met the condition,
a run inside the invariant met it at every step. -/
theorem before_of_throughout {invariant condition : σ → Prop}
    (necessary : ∀ state reply final, invariant state → invariant final →
      step state = .ok (reply, final) → condition state)
    {start last : σ} {count : Nat}
    (reached : iterate step count start = .ok last)
    (inside : Throughout step start count invariant) :
    Before step start count condition := by
  intro index bounded state earlier
  obtain ⟨reply, next, stepped, nextReached⟩ :=
    step_of_before reached bounded earlier
  exact necessary state reply next
    (inside index (by omega) state earlier)
    (inside (index + 1) (by omega) next nextReached) stepped

/-- An invariant of the step is an invariant of every iteration. -/
theorem iterate_invariant {invariant : σ → Prop}
    (preserved : ∀ state reply final, invariant state →
      step state = .ok (reply, final) → invariant final)
    {start final : σ} {count : Nat} (initial : invariant start)
    (reached : iterate step count start = .ok final) :
    invariant final :=
  throughout_of_before invariant (fun _ => True)
    (fun state reply final holds _ => preserved state reply final holds)
    initial (fun _ _ _ _ => trivial) count (Nat.le_refl count) final reached

/-- A run followed step by step by an abstract state. -/
structure Tracks (step : σ → Except ε (ω × σ)) (related : σ → τ → Prop)
    (moves : σ → τ → ω → σ → τ → Prop) (start : σ) (count : Nat)
    (track : Nat → τ) : Prop where
  related : ∀ index, index ≤ count → ∀ state,
    iterate step index start = .ok state → related state (track index)
  moves : ∀ index, index < count → ∀ state reply next,
    iterate step index start = .ok state → step state = .ok (reply, next) →
      moves state (track index) reply next (track (index + 1))

/-- A run that takes no step is followed by resting. -/
theorem Tracks.resting {related : σ → τ → Prop}
    {moves : σ → τ → ω → σ → τ → Prop} {start : σ} {first : τ} {count : Nat}
    (initial : related start first)
    (rests : 0 < count → ∃ stuck, step start = .error stuck) :
    Tracks step related moves start count fun _ => first := by
  constructor
  · intro index small state reached
    cases index with
    | zero =>
        cases reached
        exact initial
    | succ index =>
        obtain ⟨stuck, failed⟩ := rests (Nat.zero_lt_of_lt small)
        rw [iterate_succ_of_error failed] at reached
        cases reached
  · intro index small state reply next reached goes
    obtain ⟨stuck, failed⟩ := rests (Nat.zero_lt_of_lt small)
    cases index with
    | zero =>
        cases reached
        rw [failed] at goes
        cases goes
    | succ index =>
        rw [iterate_succ_of_error failed] at reached
        cases reached

/-- A step that is followed goes before a run that is followed. -/
theorem Tracks.cons {related : σ → τ → Prop}
    {moves : σ → τ → ω → σ → τ → Prop} {start middle : σ} {first : τ}
    {reply : ω} {count : Nat} {track : Nat → τ}
    (initial : related start first)
    (stepped : step start = .ok (reply, middle))
    (move : moves start first reply middle (track 0))
    (tracks : Tracks step related moves middle count track) :
    Tracks step related moves start (count + 1)
      fun index => Nat.casesOn index first track := by
  constructor
  · intro index small state reached
    cases index with
    | zero =>
        cases reached
        exact initial
    | succ index =>
        rw [iterate_succ_of_ok stepped] at reached
        exact tracks.related index (Nat.le_of_succ_le_succ small) state reached
  · intro index small state other next reached goes
    cases index with
    | zero =>
        cases reached
        rw [stepped] at goes
        cases goes
        exact move
    | succ index =>
        rw [iterate_succ_of_ok stepped] at reached
        exact tracks.moves index (Nat.lt_of_succ_lt_succ small) state other
          next reached goes

/-- Forward simulation: when every step can be followed, so can a run. -/
theorem exists_tracks {related : σ → τ → Prop} {condition : σ → Prop}
    {moves : σ → τ → ω → σ → τ → Prop}
    (simulates : ∀ state abstract reply next, related state abstract →
      condition state → step state = .ok (reply, next) →
        ∃ later, moves state abstract reply next later ∧ related next later)
    {start : σ} {first : τ} {count : Nat} (initial : related start first)
    (met : Before step start count condition) :
    ∃ track, track 0 = first ∧
      Tracks step related moves start count track := by
  induction count generalizing start first with
  | zero =>
      have rests : 0 < 0 → ∃ stuck, step start = .error stuck :=
        fun positive => absurd positive (Nat.lt_irrefl 0)
      exact ⟨fun _ => first, rfl, .resting initial rests⟩
  | succ count induction =>
      cases stepped : step start with
      | error stuck =>
          exact ⟨fun _ => first, rfl,
            .resting initial fun _ => ⟨stuck, stepped⟩⟩
      | ok answer =>
          obtain ⟨reply, middle⟩ := answer
          have here := met 0 (Nat.succ_pos count) start rfl
          obtain ⟨second, move, kept⟩ :=
            simulates start first reply middle initial here stepped
          have later : Before step middle count condition := by
            intro index small state reached
            apply met (index + 1) (Nat.succ_lt_succ small) state
            rw [iterate_succ_of_ok stepped]
            exact reached
          obtain ⟨track, begins, tracks⟩ := induction kept later
          rw [← begins] at move
          exact ⟨_, rfl, tracks.cons initial stepped move⟩

end Iteration

section TwoSystems

variable {first : α → σ → Except ε (ω × σ)}
  {second : α → τ → Except ε (ω × τ)}

/-- Two answers to one call: the same reply and related states, or stuck for
the same reason. -/
def Agree (related : σ → τ → Prop) :
    Except ε (ω × σ) → Except ε (ω × τ) → Prop
  | .ok (reply, left), .ok (other, right) => reply = other ∧ related left right
  | .error stuck, .error other => stuck = other
  | _, _ => False

theorem Agree.eq_error {related : σ → τ → Prop} {stuck : ε}
    {right : Except ε (ω × τ)} (agree : Agree related (.error stuck) right) :
    right = .error stuck := by
  cases right with
  | error reason => exact congrArg Except.error agree.symm
  | ok reached => exact agree.elim

theorem Agree.eq_ok {related : σ → τ → Prop} {reply : ω} {left : σ}
    {right : Except ε (ω × τ)}
    (agree : Agree related (.ok (reply, left)) right) :
    ∃ final, right = .ok (reply, final) ∧ related left final := by
  cases right with
  | error reason => exact agree.elim
  | ok reached =>
      obtain ⟨same, finals⟩ := agree
      exact ⟨reached.2, by rw [same], finals⟩

theorem Agree.refl {related : σ → σ → Prop}
    (reflexive : ∀ state, related state state)
    (answer : Except ε (ω × σ)) : Agree related answer answer := by
  cases answer with
  | error stuck => rfl
  | ok reached => exact ⟨rfl, reflexive reached.2⟩

theorem Agree.mono {first second : σ → τ → Prop}
    (implies : ∀ left right, first left right → second left right)
    {left : Except ε (ω × σ)} {right : Except ε (ω × τ)}
    (agree : Agree first left right) : Agree second left right := by
  cases left with
  | error stuck =>
      cases right with
      | error other => exact agree
      | ok reached => exact agree
  | ok reached =>
      cases right with
      | error other => exact agree
      | ok other => exact ⟨agree.1, implies _ _ agree.2⟩

/-- Answers that agree are related by what both of them imply. -/
theorem Agree.strengthen {first second : σ → τ → Prop}
    {left : Except ε (ω × σ)} {right : Except ε (ω × τ)}
    (agree : Agree first left right)
    (implies : ∀ reply final other, left = .ok (reply, final) →
      right = .ok (reply, other) → first final other → second final other) :
    Agree second left right := by
  cases left with
  | error stuck =>
      cases right with
      | error reason => exact agree
      | ok reached => exact agree
  | ok reached =>
      cases right with
      | error reason => exact agree
      | ok other =>
          obtain ⟨reply, final⟩ := reached
          obtain ⟨otherReply, otherFinal⟩ := other
          obtain ⟨rfl, related⟩ := agree
          exact ⟨rfl, implies reply final otherFinal rfl rfl related⟩

/-- Related states also have what the first system guarantees. -/
theorem Agree.and_left {related : σ → τ → Prop} {property : σ → Prop}
    {left : Except ε (ω × σ)} {right : Except ε (ω × τ)}
    (agree : Agree related left right)
    (ensures : ∀ reply final, left = .ok (reply, final) → property final) :
    Agree (fun state other => related state other ∧ property state) left
      right := by
  cases left with
  | error stuck =>
      cases right with
      | error other => exact agree
      | ok reached => exact agree
  | ok reached =>
      cases right with
      | error other => exact agree
      | ok other => exact ⟨agree.1, agree.2, ensures _ _ rfl⟩

/-- Computing the same value first. -/
theorem Agree.bind.{u, v} {σ τ ω β : Type u} {ε : Type v}
    {related : σ → τ → Prop} {read : Except ε β}
    {left : β → Except ε (ω × σ)} {right : β → Except ε (ω × τ)}
    (rest : ∀ value, read = .ok value →
      Agree related (left value) (right value)) :
    Agree related (read >>= left) (read >>= right) := by
  cases read with
  | error stuck => rfl
  | ok value => exact rest value rfl

/-- Going on from answers that agree. -/
theorem Agree.andThen.{u, v} {σ τ ω ω' : Type u} {ε : Type v}
    {related : σ → τ → Prop} {left : Except ε (ω × σ)}
    {right : Except ε (ω × τ)} {next : ω × σ → Except ε (ω' × σ)}
    {other : ω × τ → Except ε (ω' × τ)} (agree : Agree related left right)
    (rest : ∀ reply middle otherMiddle, left = .ok (reply, middle) →
      related middle otherMiddle →
        Agree related (next (reply, middle)) (other (reply, otherMiddle))) :
    Agree related (left >>= next) (right >>= other) := by
  cases left with
  | error stuck =>
      cases right with
      | error reason => exact agree
      | ok reached => exact agree.elim
  | ok reached =>
      cases right with
      | error reason => exact agree.elim
      | ok otherReached =>
          obtain ⟨reply, middle⟩ := reached
          obtain ⟨_, otherMiddle⟩ := otherReached
          obtain ⟨rfl, middles⟩ := agree
          exact rest reply middle otherMiddle rfl middles

/-- Computing equal values first. -/
theorem Agree.bindEq.{u, v} {σ τ ω β : Type u} {ε : Type v}
    {related : σ → τ → Prop} {read other : Except ε β}
    {left : β → Except ε (ω × σ)} {right : β → Except ε (ω × τ)}
    (same : read = other) (rest : ∀ value, read = .ok value →
      Agree related (left value) (right value)) :
    Agree related (read >>= left) (other >>= right) := by
  subst same
  exact .bind rest

/-- Deciding the same condition first. -/
theorem Agree.ite {related : σ → τ → Prop} {condition : Prop}
    [Decidable condition] {left leftElse : Except ε (ω × σ)}
    {right rightElse : Except ε (ω × τ)}
    (yes : condition → Agree related left right)
    (no : ¬ condition → Agree related leftElse rightElse) :
    Agree related (if condition then left else leftElse)
      (if condition then right else rightElse) := by
  by_cases holds : condition
  · rw [if_pos holds, if_pos holds]
    exact yes holds
  · rw [if_neg holds, if_neg holds]
    exact no holds

/-- One more call in front of runs that agree. -/
theorem Agree.cons {β : Type*} {second : β → τ → Except ε (ω × τ)}
    {related : σ → τ → Prop} {call : α} {other : β} {calls : List α}
    {others : List β} {left : σ} {right : τ}
    (head : Agree related (first call left) (second other right))
    (tail : ∀ reply leftNext rightNext,
      first call left = .ok (reply, leftNext) →
      related leftNext rightNext →
        Agree related (run first calls leftNext)
          (run second others rightNext)) :
    Agree related (run first (call :: calls) left)
      (run second (other :: others) right) := by
  cases leftAnswer : first call left with
  | error stuck =>
      rw [leftAnswer] at head
      have rightAnswer := head.eq_error
      rw [run_cons_of_error leftAnswer, run_cons_of_error rightAnswer]
      rfl
  | ok answer =>
      obtain ⟨reply, leftNext⟩ := answer
      rw [leftAnswer] at head
      obtain ⟨rightNext, rightAnswer, nextRelated⟩ := head.eq_ok
      have rest := tail reply leftNext rightNext leftAnswer nextRelated
      cases leftRest : run first calls leftNext with
      | error stuck =>
          rw [leftRest] at rest
          rw [run_cons_of_rest_error leftAnswer leftRest,
            run_cons_of_rest_error rightAnswer rest.eq_error]
          rfl
      | ok answer =>
          obtain ⟨replies, leftLast⟩ := answer
          rw [leftRest] at rest
          obtain ⟨rightLast, rightRest, lastRelated⟩ := rest.eq_ok
          rw [run_cons_of_ok leftAnswer leftRest,
            run_cons_of_ok rightAnswer rightRest]
          exact ⟨rfl, lastRelated⟩

/-- Systems that agree on every call meeting a condition agree on every run
along which the first one meets it. -/
theorem run_agree_along {related : σ → τ → Prop} {condition : α → σ → Prop}
    (simulates : ∀ call left right, condition call left →
      related left right →
        Agree related (first call left) (second call right))
    {calls : List α} {left : σ} {right : τ}
    (along : Along first condition calls left) (initial : related left right) :
    Agree related (run first calls left) (run second calls right) := by
  induction calls generalizing left right with
  | nil => exact ⟨rfl, initial⟩
  | cons call calls induction =>
      obtain ⟨here, later⟩ := along
      have head := simulates call left right here initial
      exact head.cons fun reply leftNext rightNext answered nextRelated =>
        induction (later reply leftNext answered) nextRelated

/-- Systems that agree call by call agree on every run. -/
theorem run_agree {related : σ → τ → Prop} {allowed : α → Prop}
    (simulates : ∀ call left right, allowed call → related left right →
      Agree related (first call left) (second call right))
    {calls : List α} (permitted : ∀ call ∈ calls, allowed call)
    {left : σ} {right : τ} (initial : related left right) :
    Agree related (run first calls left) (run second calls right) :=
  run_agree_along simulates (along_of_forall permitted) initial

/-- Systems that agree on matching calls agree on matching runs. -/
theorem run_agree_forall₂ {β : Type*} {related : σ → τ → Prop}
    {matching : α → β → Prop} {second : β → τ → Except ε (ω × τ)}
    (simulates : ∀ call other left right, matching call other →
      related left right →
        Agree related (first call left) (second other right))
    {calls : List α} {others : List β}
    (pairs : List.Forall₂ matching calls others) {left : σ} {right : τ}
    (initial : related left right) :
    Agree related (run first calls left) (run second others right) := by
  induction pairs generalizing left right with
  | nil => exact ⟨rfl, initial⟩
  | @cons call other calls others here _ induction =>
      have head := simulates call other left right here initial
      exact head.cons fun _ _ _ _ nextRelated => induction nextRelated

end TwoSystems

end PartialSystem
