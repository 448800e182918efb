import T81VM.Library.Run
import T81VM.VM.Execute

/-!
# Call sequences

The calls a host makes on an interpreter object, and the states they reach.
The guest runs through `step` and `run_to_halt`; a host can also write
registers and load programs.
-/

namespace T81VM.VM

open Tisc PartialSystem

inductive Call where
  | loadProgram (program : Program)
  | step
  | runToHalt (maxSteps : Nat)
  | setRegister (idx : Int32) (value : Int64) (tag : ValueTag)

/-- What the host observes of a call; `loadProgram` can throw. -/
inductive Reply where
  | done
  | threw (raised : StdException)
  | result (expected : Expected)
  deriving DecidableEq

/-- The call lets the guest run and nothing else. -/
def Call.guest : Call → Prop
  | .step | .runToHalt _ => True
  | .loadProgram _ | .setRegister .. => False

/-- The call keeps the loaded program. -/
def Call.driving : Call → Prop
  | .loadProgram _ => False
  | .step | .runToHalt _ | .setRegister .. => True

theorem Call.guest.driving {call : Call} (guest : call.guest) :
    call.driving := by
  cases call with
  | loadProgram | setRegister => exact guest.elim
  | step | runToHalt => trivial

namespace Interpreter

/-- Answer one call.  A load that throws leaves the object as it was. -/
def call (host : Host) : Call → Interpreter →
    Except Stuck (Reply × Interpreter)
  | .loadProgram program, vm =>
      match vm.loadProgram program with
      | .ok loaded => .ok (.done, loaded)
      | .error raised => .ok (.threw raised, vm)
  | .step, vm => do
      let (expected, vm) ← vm.step host
      return (.result expected, vm)
  | .runToHalt maxSteps, vm => do
      let (expected, vm) ← runToHalt host maxSteps vm
      return (.result expected, vm)
  | .setRegister idx value tag, vm => .ok (.done, vm.setRegister idx value tag)

theorem call_step {host : Host} {vm : Interpreter} :
    call host .step vm = vm.step host >>= fun answer =>
      .ok (.result answer.1, answer.2) := rfl

theorem call_runToHalt {host : Host} {maxSteps : Nat} {vm : Interpreter} :
    call host (.runToHalt maxSteps) vm =
      runToHalt host maxSteps vm >>= fun answer =>
        .ok (.result answer.1, answer.2) := rfl

/-- A condition on every state in which the loop of `run_to_halt` takes a
step. -/
def LoopAlong (host : Host) (condition : Interpreter → Prop) :
    Nat → Interpreter → Prop
  | 0, _ => True
  | maxSteps + 1, vm =>
      condition vm ∧ ∀ middle, vm.step host = .ok (.ok (), middle) →
        middle.state.halted = false →
          LoopAlong host condition maxSteps middle

/-- A condition on every state in which a call takes a step. -/
def StepsAlong (host : Host) (condition : Interpreter → Prop) :
    Call → Interpreter → Prop
  | .step, vm => condition vm
  | .runToHalt maxSteps, vm => LoopAlong host condition maxSteps vm
  | .loadProgram _, _ | .setRegister .., _ => True

/-- The object state after loading a program, on whatever object. -/
def Loads (program : Program) (vm : Interpreter) : Prop :=
  ∃ old : Interpreter, old.loadProgram program = .ok vm

/-- A state some calls of the given kind reach after loading a program. -/
def ReachableBy (allowed : Call → Prop) (host : Host) (program : Program)
    (vm : Interpreter) : Prop :=
  ∃ loaded calls replies, Loads program loaded ∧
    (∀ call ∈ calls, allowed call) ∧
    run (call host) calls loaded = .ok (replies, vm)

/-- Reachable by `step`, `run_to_halt` and `set_register`. -/
def Reachable (host : Host) (program : Program) (vm : Interpreter) : Prop :=
  ReachableBy Call.driving host program vm

/-- Reachable by `step` and `run_to_halt` alone. -/
def GuestReachable (host : Host) (program : Program)
    (vm : Interpreter) : Prop :=
  ReachableBy Call.guest host program vm

theorem GuestReachable.reachable {host : Host} {program : Program}
    {vm : Interpreter} (reached : GuestReachable host program vm) :
    Reachable host program vm := by
  obtain ⟨loaded, calls, replies, loads, guest, finished⟩ := reached
  exact ⟨loaded, calls, replies, loads,
    fun call member => (guest call member).driving, finished⟩

theorem call_step_eq_ok {host : Host} {vm final : Interpreter}
    {reply : Reply} :
    call host .step vm = .ok (reply, final) ↔
      ∃ expected, vm.step host = .ok (expected, final) ∧
        reply = .result expected := by
  rw [call_step, bind_eq_ok]
  constructor
  · rintro ⟨⟨expected, last⟩, stepped, answered⟩
    cases answered
    exact ⟨expected, stepped, rfl⟩
  · rintro ⟨expected, stepped, rfl⟩
    exact ⟨(expected, final), stepped, rfl⟩

theorem call_runToHalt_eq_ok {host : Host} {maxSteps : Nat}
    {vm final : Interpreter} {reply : Reply} :
    call host (.runToHalt maxSteps) vm = .ok (reply, final) ↔
      ∃ expected, runToHalt host maxSteps vm = .ok (expected, final) ∧
        reply = .result expected := by
  rw [call_runToHalt, bind_eq_ok]
  constructor
  · rintro ⟨⟨expected, last⟩, finished, answered⟩
    cases answered
    exact ⟨expected, finished, rfl⟩
  · rintro ⟨expected, finished, rfl⟩
    exact ⟨(expected, final), finished, rfl⟩

theorem runToHalt_succ {host : Host} {maxSteps : Nat} {vm : Interpreter} :
    runToHalt host (maxSteps + 1) vm = vm.step host >>= fun (result, middle) =>
      match result with
      | .error code => .ok (.error code, middle)
      | .ok () =>
          if middle.state.halted then .ok (.ok (), middle)
          else runToHalt host maxSteps middle := rfl

theorem runToHalt_succ_eq_ok {host : Host} {maxSteps : Nat}
    {vm : Interpreter} {answer : Expected × Interpreter} :
    runToHalt host (maxSteps + 1) vm = .ok answer ↔
      ∃ result middle, vm.step host = .ok (result, middle) ∧
        ((∃ code, result = .error code ∧ answer = (.error code, middle)) ∨
          (result = .ok () ∧ middle.state.halted = true ∧
            answer = (.ok (), middle)) ∨
          (result = .ok () ∧ middle.state.halted = false ∧
            runToHalt host maxSteps middle = .ok answer)) := by
  rw [runToHalt_succ, bind_eq_ok]
  constructor
  · rintro ⟨⟨result, middle⟩, stepped, rest⟩
    refine ⟨result, middle, stepped, ?_⟩
    cases result with
    | error code =>
        cases rest
        exact .inl ⟨code, rfl, rfl⟩
    | ok _ =>
        by_cases halted : middle.state.halted = true
        · simp only [halted, if_true] at rest
          cases rest
          exact .inr (.inl ⟨rfl, halted, rfl⟩)
        · simp only [halted, Bool.false_eq_true, if_false] at rest
          exact .inr (.inr ⟨rfl, Bool.eq_false_iff.mpr halted, rest⟩)
  · rintro ⟨result, middle, stepped, rest⟩
    refine ⟨(result, middle), stepped, ?_⟩
    rcases rest with ⟨code, rfl, rfl⟩ | ⟨rfl, halted, rfl⟩ |
      ⟨rfl, running, rest⟩
    · rfl
    · simp only [halted, if_true]
    · simpa only [running, Bool.false_eq_true, if_false] using rest

/-- What `step` preserves, `run_to_halt` preserves. -/
theorem runToHalt_invariant {host : Host} {invariant : Interpreter → Prop}
    (preserved : ∀ vm result final, invariant vm →
      vm.step host = .ok (result, final) → invariant final)
    {maxSteps : Nat} {vm final : Interpreter} {result : Expected}
    (initial : invariant vm)
    (finished : runToHalt host maxSteps vm = .ok (result, final)) :
    invariant final := by
  induction maxSteps generalizing vm with
  | zero =>
      cases finished
      exact initial
  | succ maxSteps induction =>
      rw [runToHalt_succ_eq_ok] at finished
      obtain ⟨first, middle, stepped, rest⟩ := finished
      have middleHolds := preserved vm first middle initial stepped
      rcases rest with ⟨_, _, same⟩ | ⟨_, _, same⟩ | ⟨_, _, later⟩
      · cases same
        exact middleHolds
      · cases same
        exact middleHolds
      · exact induction middleHolds later

/-- A journal that steps extend and register writes keep is extended by every
call but a load. -/
theorem journal_isPrefix_of_call {α : Type} {host : Host}
    (journal : Interpreter → List α)
    (steps : ∀ vm result final, vm.step host = .ok (result, final) →
      journal vm <+: journal final)
    (sets : ∀ vm idx value tag,
      journal (vm.setRegister idx value tag) = journal vm)
    {request : Call} (driving : request.driving) {vm final : Interpreter}
    {reply : Reply} (answered : call host request vm = .ok (reply, final)) :
    journal vm <+: journal final := by
  cases request with
  | loadProgram => exact driving.elim
  | setRegister idx value tag =>
      cases answered
      exact (sets vm idx value tag).symm ▸ List.prefix_refl (journal vm)
  | step =>
      rw [call_step_eq_ok] at answered
      obtain ⟨result, stepped, _⟩ := answered
      exact steps vm result final stepped
  | runToHalt maxSteps =>
      rw [call_runToHalt_eq_ok] at answered
      obtain ⟨result, finished, _⟩ := answered
      exact @runToHalt_invariant host
        (fun state => journal vm <+: journal state)
        (fun state result next grown stepped =>
          grown.trans (steps state result next stepped))
        maxSteps vm final result (List.prefix_refl _) finished

/-- `run_to_halt` stops after some number of steps. -/
theorem runToHalt_iterate {host : Host} {maxSteps : Nat}
    {vm final : Interpreter} {result : Expected}
    (finished : runToHalt host maxSteps vm = .ok (result, final)) :
    ∃ count, iterate (step host) count vm = .ok final := by
  induction maxSteps generalizing vm with
  | zero =>
      cases finished
      exact ⟨0, rfl⟩
  | succ maxSteps induction =>
      rw [runToHalt_succ_eq_ok] at finished
      obtain ⟨first, middle, stepped, rest⟩ := finished
      rcases rest with ⟨_, _, same⟩ | ⟨_, _, same⟩ | ⟨_, _, later⟩
      · cases same
        exact ⟨1, iterate_succ_eq_ok.mpr ⟨first, final, stepped, rfl⟩⟩
      · cases same
        exact ⟨1, iterate_succ_eq_ok.mpr ⟨first, final, stepped, rfl⟩⟩
      · obtain ⟨count, reached⟩ := induction later
        exact ⟨count + 1,
          iterate_succ_eq_ok.mpr ⟨first, middle, stepped, reached⟩⟩

/-- Guest calls perform some number of single steps. -/
theorem run_guest_iterate {host : Host} {calls : List Call}
    {replies : List Reply} {loaded vm : Interpreter}
    (guest : ∀ call ∈ calls, call.guest)
    (finished : run (call host) calls loaded = .ok (replies, vm)) :
    ∃ count, iterate (step host) count loaded = .ok vm := by
  refine run_invariant
    (fun vm => ∃ count, iterate (step host) count loaded = .ok vm)
    Call.guest ?_ guest ⟨0, rfl⟩ finished
  rintro call state reply final allowed ⟨count, reached⟩ answered
  cases call with
  | loadProgram | setRegister => exact allowed.elim
  | step =>
      rw [call_step_eq_ok] at answered
      obtain ⟨expected, stepped, _⟩ := answered
      exact ⟨count + 1,
        iterate_succ_last.mpr ⟨state, expected, reached, stepped⟩⟩
  | runToHalt maxSteps =>
      rw [call_runToHalt_eq_ok] at answered
      obtain ⟨expected, stopped, _⟩ := answered
      obtain ⟨more, continued⟩ := runToHalt_iterate stopped
      exact ⟨count + more,
        iterate_add_eq_ok.mpr ⟨state, reached, continued⟩⟩

/-- Guest calls reach exactly the states that single steps reach. -/
theorem guestReachable_iff_iterate {host : Host} {program : Program}
    {vm : Interpreter} :
    GuestReachable host program vm ↔
      ∃ loaded count, Loads program loaded ∧
        iterate (step host) count loaded = .ok vm := by
  constructor
  · rintro ⟨loaded, calls, replies, loads, guest, finished⟩
    obtain ⟨count, reached⟩ := run_guest_iterate guest finished
    exact ⟨loaded, count, loads, reached⟩
  · rintro ⟨loaded, count, loads, reached⟩
    suffices finished : ∃ calls replies, (∀ call ∈ calls, Call.guest call) ∧
        run (call host) calls loaded = .ok (replies, vm) by
      obtain ⟨calls, replies, guest, finished⟩ := finished
      exact ⟨loaded, calls, replies, loads, guest, finished⟩
    clear loads
    induction count generalizing loaded with
    | zero =>
        cases reached
        exact ⟨[], [], by simp, rfl⟩
    | succ count induction =>
        obtain ⟨reply, middle, stepped, rest⟩ := iterate_succ_eq_ok.mp reached
        obtain ⟨calls, replies, guest, finished⟩ := induction middle rest
        refine ⟨.step :: calls, .result reply :: replies, ?_, ?_⟩
        · simpa [Call.guest] using guest
        · have answered : call host .step loaded =
              .ok (.result reply, middle) := by
            rw [call_step_eq_ok]
            exact ⟨reply, stepped, rfl⟩
          exact run_cons_of_ok answered finished

theorem loopAlong_of_forall {host : Host} {condition : Interpreter → Prop}
    (always : ∀ vm, condition vm) (maxSteps : Nat) (vm : Interpreter) :
    LoopAlong host condition maxSteps vm := by
  induction maxSteps generalizing vm with
  | zero => trivial
  | succ maxSteps induction =>
      exact ⟨always vm, fun middle _ _ => induction middle⟩

theorem stepsAlong_of_forall {host : Host} {condition : Interpreter → Prop}
    (always : ∀ vm, condition vm) (request : Call) (vm : Interpreter) :
    StepsAlong host condition request vm := by
  cases request with
  | loadProgram | setRegister => trivial
  | step => exact always vm
  | runToHalt maxSteps => exact loopAlong_of_forall always maxSteps vm

theorem LoopAlong.mono {host : Host} {first second : Interpreter → Prop}
    (implies : ∀ vm, first vm → second vm) {maxSteps : Nat}
    {vm : Interpreter} (along : LoopAlong host first maxSteps vm) :
    LoopAlong host second maxSteps vm := by
  induction maxSteps generalizing vm with
  | zero => trivial
  | succ maxSteps induction =>
      exact ⟨implies vm along.1, fun middle stepped running =>
        induction (along.2 middle stepped running)⟩

theorem StepsAlong.mono {host : Host} {first second : Interpreter → Prop}
    (implies : ∀ vm, first vm → second vm) {request : Call}
    {vm : Interpreter} (along : StepsAlong host first request vm) :
    StepsAlong host second request vm := by
  cases request with
  | loadProgram | setRegister => trivial
  | step => exact implies vm along
  | runToHalt maxSteps => exact LoopAlong.mono implies along

/-- The loop keeps an invariant that its steps keep under a condition. -/
theorem LoopAlong.invariant {host : Host}
    {condition invariant : Interpreter → Prop}
    (preserved : ∀ vm result final, condition vm → invariant vm →
      vm.step host = .ok (result, final) → invariant final)
    {maxSteps : Nat} {vm : Interpreter} (initial : invariant vm)
    (along : LoopAlong host condition maxSteps vm) :
    LoopAlong host (fun vm => condition vm ∧ invariant vm) maxSteps vm ∧
      ∀ result final, runToHalt host maxSteps vm = .ok (result, final) →
        invariant final := by
  induction maxSteps generalizing vm with
  | zero =>
      refine ⟨trivial, fun result final finished => ?_⟩
      cases finished
      exact initial
  | succ maxSteps induction =>
      obtain ⟨here, later⟩ := along
      constructor
      · refine ⟨⟨here, initial⟩, fun middle stepped running => ?_⟩
        exact (induction (preserved vm _ middle here initial stepped)
          (later middle stepped running)).1
      · intro result final finished
        rw [runToHalt_succ_eq_ok] at finished
        obtain ⟨first, middle, stepped, rest⟩ := finished
        have kept := preserved vm first middle here initial stepped
        rcases rest with ⟨_, _, same⟩ | ⟨_, _, same⟩ | ⟨rfl, running, rest⟩
        · cases same
          exact kept
        · cases same
          exact kept
        · exact (induction kept (later middle stepped running)).2 result
            final rest

/-- So does every call but a load. -/
theorem StepsAlong.invariant {host : Host}
    {condition invariant : Interpreter → Prop}
    (preserved : ∀ vm result final, condition vm → invariant vm →
      vm.step host = .ok (result, final) → invariant final)
    (sets : ∀ vm idx value tag, invariant vm →
      invariant (vm.setRegister idx value tag))
    {request : Call} (driving : request.driving) {vm : Interpreter}
    (initial : invariant vm) (along : StepsAlong host condition request vm) :
    StepsAlong host (fun vm => condition vm ∧ invariant vm) request vm ∧
      ∀ reply final, call host request vm = .ok (reply, final) →
        invariant final := by
  cases request with
  | loadProgram => exact driving.elim
  | setRegister idx value tag =>
      refine ⟨trivial, fun reply final answered => ?_⟩
      cases answered
      exact sets vm idx value tag initial
  | step =>
      refine ⟨⟨along, initial⟩, fun reply final answered => ?_⟩
      rw [call_step_eq_ok] at answered
      obtain ⟨result, stepped, _⟩ := answered
      exact preserved vm result final along initial stepped
  | runToHalt maxSteps =>
      have loop := LoopAlong.invariant preserved initial along
      refine ⟨loop.1, fun reply final answered => ?_⟩
      rw [call_runToHalt_eq_ok] at answered
      obtain ⟨result, finished, _⟩ := answered
      exact loop.2 result final finished

/-- A run whose steps meet a condition keeps an invariant that such steps
keep: it holds wherever a step is taken, and in the last state. -/
theorem run_stepsAlong {host : Host} {condition invariant : Interpreter → Prop}
    (preserved : ∀ vm result final, condition vm → invariant vm →
      vm.step host = .ok (result, final) → invariant final)
    (sets : ∀ vm idx value tag, invariant vm →
      invariant (vm.setRegister idx value tag))
    {calls : List Call} (driving : ∀ call ∈ calls, call.driving)
    {vm : Interpreter} (initial : invariant vm)
    (along : Along (call host) (StepsAlong host condition) calls vm) :
    Along (call host)
        (StepsAlong host fun vm => condition vm ∧ invariant vm) calls vm ∧
      ∀ replies final, run (call host) calls vm = .ok (replies, final) →
        invariant final := by
  have both := (along_of_forall driving).and along
  have whole := both.invariant
    (fun request state reply final here holds answered =>
      (here.2.invariant preserved sets here.1 holds).2 reply final answered)
    initial
  refine ⟨whole.1.mono fun request state here => ?_, whole.2⟩
  exact (here.1.2.invariant preserved sets here.1.1 here.2).1

/-- An invariant that every step keeps holds wherever a run takes a step, and
in its last state. -/
theorem run_stepsAlways {host : Host} {invariant : Interpreter → Prop}
    (preserved : ∀ vm result final, invariant vm →
      vm.step host = .ok (result, final) → invariant final)
    (sets : ∀ vm idx value tag, invariant vm →
      invariant (vm.setRegister idx value tag))
    {calls : List Call} (driving : ∀ call ∈ calls, call.driving)
    {vm : Interpreter} (initial : invariant vm) :
    Along (call host) (StepsAlong host invariant) calls vm ∧
      ∀ replies final, run (call host) calls vm = .ok (replies, final) →
        invariant final := by
  have always : Along (call host) (StepsAlong host fun _ => True) calls vm :=
    (along_of_forall fun _ _ => trivial).mono fun request state _ =>
      stepsAlong_of_forall (fun _ => trivial) request state
  have kept := run_stepsAlong
    (fun vm result final _ holds stepped => preserved vm result final holds
      stepped) sets driving initial always
  refine ⟨kept.1.mono fun request state steps => ?_, kept.2⟩
  exact steps.mono fun vm here => here.2

/-- Objects whose steps agree under a condition agree on a whole loop. -/
theorem runToHalt_agree {host : Host}
    {related : Interpreter → Interpreter → Prop}
    {condition : Interpreter → Prop}
    (steps : ∀ left right, condition left → related left right →
      Agree related (left.step host) (right.step host))
    (halts : ∀ left right, related left right →
      left.state.halted = right.state.halted)
    {maxSteps : Nat} {left right : Interpreter}
    (along : LoopAlong host condition maxSteps left)
    (initial : related left right) :
    Agree related (runToHalt host maxSteps left)
      (runToHalt host maxSteps right) := by
  induction maxSteps generalizing left right with
  | zero => exact ⟨rfl, initial⟩
  | succ maxSteps induction =>
      obtain ⟨here, later⟩ := along
      apply (steps left right here initial).andThen
      intro result middle otherMiddle stepped middles
      cases result with
      | error code => exact ⟨rfl, middles⟩
      | ok success =>
          show Agree related
            (if middle.state.halted then .ok (.ok (), middle)
              else runToHalt host maxSteps middle)
            (if otherMiddle.state.halted then .ok (.ok (), otherMiddle)
              else runToHalt host maxSteps otherMiddle)
          rw [← halts middle otherMiddle middles]
          refine .ite (fun _ => ⟨rfl, middles⟩) fun running => ?_
          have unhalted := Bool.eq_false_iff.mpr running
          exact induction (later middle stepped unhalted) middles

/-- Objects whose steps agree under a condition agree on the calls along
which it is met. -/
theorem call_agree {host : Host}
    {related : Interpreter → Interpreter → Prop}
    {condition : Interpreter → Prop}
    (steps : ∀ left right, condition left → related left right →
      Agree related (left.step host) (right.step host))
    (halts : ∀ left right, related left right →
      left.state.halted = right.state.halted)
    (sets : ∀ left right idx value tag, related left right →
      related (left.setRegister idx value tag)
        (right.setRegister idx value tag))
    {request : Call} (driving : request.driving) {left right : Interpreter}
    (along : StepsAlong host condition request left)
    (initial : related left right) :
    Agree related (call host request left) (call host request right) := by
  cases request with
  | loadProgram => exact driving.elim
  | setRegister idx value tag =>
      exact ⟨rfl, sets left right idx value tag initial⟩
  | step =>
      apply (steps left right along initial).andThen
      intro result middle otherMiddle _ middles
      exact ⟨rfl, middles⟩
  | runToHalt maxSteps =>
      apply (runToHalt_agree steps halts along initial).andThen
      intro result middle otherMiddle _ middles
      exact ⟨rfl, middles⟩

/-- What `step` and `set_register` preserve holds in every state reachable
from a load that establishes it. -/
theorem Reachable.invariant {host : Host} {program : Program}
    {invariant : Interpreter → Prop}
    (loads : ∀ vm, Loads program vm → invariant vm)
    (steps : ∀ vm result final, invariant vm →
      vm.step host = .ok (result, final) → invariant final)
    (sets : ∀ vm idx value tag, invariant vm →
      invariant (vm.setRegister idx value tag))
    {vm : Interpreter} (reached : Reachable host program vm) :
    invariant vm := by
  obtain ⟨loaded, calls, replies, initial, driving, finished⟩ := reached
  refine run_invariant invariant Call.driving ?_ driving
    (loads loaded initial) finished
  intro call state reply final allowed holds answered
  cases call with
  | loadProgram => exact allowed.elim
  | step =>
      rw [call_step_eq_ok] at answered
      obtain ⟨expected, stepped, _⟩ := answered
      exact steps state expected final holds stepped
  | runToHalt maxSteps =>
      rw [call_runToHalt_eq_ok] at answered
      obtain ⟨expected, stopped, _⟩ := answered
      exact runToHalt_invariant steps holds stopped
  | setRegister idx value tag =>
      cases answered
      exact sets state idx value tag holds

/-- What `step` preserves holds in every state a guest reaches from a load
that establishes it. -/
theorem GuestReachable.invariant {host : Host} {program : Program}
    {invariant : Interpreter → Prop}
    (loads : ∀ vm, Loads program vm → invariant vm)
    (steps : ∀ vm result final, invariant vm →
      vm.step host = .ok (result, final) → invariant final)
    {vm : Interpreter} (reached : GuestReachable host program vm) :
    invariant vm := by
  rw [guestReachable_iff_iterate] at reached
  obtain ⟨loaded, count, initial, iterated⟩ := reached
  exact iterate_invariant steps (loads loaded initial) iterated

end Interpreter

end T81VM.VM
