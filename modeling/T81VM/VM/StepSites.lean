import T81VM.VM.Calls

/-!
# The steps of a run

The states from which a run takes its steps, those inside `run_to_halt`
included.  A property of a state and the steps before it holds at every step
of a run when each step carries it on to the longer list.
-/

namespace T81VM.VM

open Tisc PartialSystem

namespace Interpreter

/-- The states the loop of `run_to_halt` takes a step from. -/
def loopSites (host : Host) : Nat → Interpreter → List Interpreter
  | 0, _ => []
  | maxSteps + 1, vm =>
      vm ::
        match vm.step host with
        | .ok (.ok (), middle) =>
            if middle.state.halted then [] else loopSites host maxSteps middle
        | _ => []

/-- The states a call takes a step from. -/
def callSites (host : Host) : Call → Interpreter → List Interpreter
  | .step, vm => [vm]
  | .runToHalt maxSteps, vm => loopSites host maxSteps vm
  | .loadProgram _, _ | .setRegister .., _ => []

/-- The states a run takes a step from, in order. -/
def runSites (host : Host) : List Call → Interpreter → List Interpreter
  | [], _ => []
  | request :: calls, vm =>
      callSites host request vm ++
        match call host request vm with
        | .ok (_, middle) => runSites host calls middle
        | .error _ => []

/-- A property of the steps taken before a state and the state itself holds
at every step of a list. -/
def SitesHold (property : List Interpreter → Interpreter → Prop)
    (before sites : List Interpreter) : Prop :=
  ∀ earlier site later, sites = earlier ++ site :: later →
    property (before ++ earlier) site

variable {host : Host}
  {property : List Interpreter → Interpreter → Prop}
  {before sites others : List Interpreter}

theorem SitesHold.nil : SitesHold property before [] := by
  intro earlier site later split
  cases earlier <;> cases split

theorem SitesHold.cons {site : Interpreter} (here : property before site)
    (rest : SitesHold property (before ++ [site]) sites) :
    SitesHold property before (site :: sites) := by
  intro earlier other later split
  cases earlier with
  | nil =>
      cases split
      rw [List.append_nil]
      exact here
  | cons first earlier =>
      cases split
      have held := rest earlier other later rfl
      rw [List.append_assoc] at held
      exact held

theorem SitesHold.append (first : SitesHold property before sites)
    (second : SitesHold property (before ++ sites) others) :
    SitesHold property before (sites ++ others) := by
  induction sites generalizing before with
  | nil =>
      rw [List.append_nil] at second
      exact second
  | cons site sites induction =>
      apply SitesHold.cons
      · have here := first [] site sites rfl
        rw [List.append_nil] at here
        exact here
      · apply induction
        · intro earlier other later split
          have held := first (site :: earlier) other later (by rw [split]; rfl)
          rw [List.append_assoc]
          exact held
        · rw [List.append_assoc]
          exact second

/-- The loop takes one step and stops, or goes on behind it. -/
theorem loopSites_succ (host : Host) (maxSteps : Nat) (vm : Interpreter) :
    (loopSites host (maxSteps + 1) vm = [vm] ∧
      ∀ answer, runToHalt host (maxSteps + 1) vm = .ok answer →
        vm.step host = .ok answer) ∨
    ∃ middle, vm.step host = .ok (.ok (), middle) ∧
      loopSites host (maxSteps + 1) vm =
        vm :: loopSites host maxSteps middle ∧
      ∀ answer, runToHalt host (maxSteps + 1) vm = .ok answer →
        runToHalt host maxSteps middle = .ok answer := by
  cases stepped : vm.step host with
  | error stuck =>
      refine .inl ⟨by simp only [loopSites, stepped], ?_⟩
      intro answer finished
      obtain ⟨result, middle, again, _⟩ := runToHalt_succ_eq_ok.mp finished
      rw [stepped] at again
      cases again
  | ok reached =>
      obtain ⟨result, middle⟩ := reached
      cases result with
      | error code =>
          refine .inl ⟨by simp only [loopSites, stepped], ?_⟩
          intro answer finished
          obtain ⟨first, next, again, rest⟩ := runToHalt_succ_eq_ok.mp finished
          rw [stepped] at again
          cases again
          rcases rest with trapped | halted | running
          · obtain ⟨_, same, final⟩ := trapped
            cases same
            rw [final]
          · cases halted.1
          · cases running.1
      | ok completed =>
          by_cases halted : middle.state.halted = true
          · refine .inl ⟨by simp only [loopSites, stepped, halted, if_true], ?_⟩
            intro answer finished
            obtain ⟨first, next, again, rest⟩ :=
              runToHalt_succ_eq_ok.mp finished
            rw [stepped] at again
            cases again
            rcases rest with trapped | stops | running
            · obtain ⟨_, same, _⟩ := trapped
              cases same
            · rw [stops.2.2]
            · rw [running.2.1] at halted
              cases halted
          · refine .inr ⟨middle, rfl, ?_, ?_⟩
            · rw [loopSites]
              simp only [stepped]
              rw [if_neg halted]
            · intro answer finished
              obtain ⟨first, next, again, rest⟩ :=
                runToHalt_succ_eq_ok.mp finished
              rw [stepped] at again
              cases again
              rcases rest with trapped | stops | running
              · obtain ⟨_, same, _⟩ := trapped
                cases same
              · exact absurd stops.2.1 halted
              · exact running.2.2

/-- What every step carries over to the longer list of steps holds at all
steps of a loop, and where it ends. -/
theorem loopSites_hold
    (steps : ∀ before vm result final, property before vm →
      vm.step host = .ok (result, final) → property (before ++ [vm]) final)
    {maxSteps : Nat} {vm : Interpreter} (initial : property before vm) :
    SitesHold property before (loopSites host maxSteps vm) ∧
      ∀ result final, runToHalt host maxSteps vm = .ok (result, final) →
        property (before ++ loopSites host maxSteps vm) final := by
  induction maxSteps generalizing before vm with
  | zero =>
      refine ⟨SitesHold.nil, ?_⟩
      intro result final finished
      cases finished
      rw [loopSites, List.append_nil]
      exact initial
  | succ maxSteps induction =>
      rcases loopSites_succ host maxSteps vm with stops | goes
      · obtain ⟨sites, answers⟩ := stops
        rw [sites]
        refine ⟨SitesHold.cons initial SitesHold.nil, ?_⟩
        intro result final finished
        exact steps before vm result final initial (answers _ finished)
      · obtain ⟨middle, stepped, sites, answers⟩ := goes
        obtain ⟨held, last⟩ :=
          induction (steps before vm (.ok ()) middle initial stepped)
        rw [sites]
        refine ⟨SitesHold.cons initial held, ?_⟩
        intro result final finished
        have reached := last result final (answers _ finished)
        rw [List.append_assoc] at reached
        exact reached

/-- So it does at all steps of a call. -/
theorem callSites_hold
    (steps : ∀ before vm result final, property before vm →
      vm.step host = .ok (result, final) → property (before ++ [vm]) final)
    (sets : ∀ before vm idx value tag, property before vm →
      property before (vm.setRegister idx value tag))
    {request : Call} (driving : request.driving) {vm : Interpreter}
    (initial : property before vm) :
    SitesHold property before (callSites host request vm) ∧
      ∀ reply final, call host request vm = .ok (reply, final) →
        property (before ++ callSites host request vm) final := by
  cases request with
  | loadProgram => exact driving.elim
  | setRegister idx value tag =>
      refine ⟨SitesHold.nil, ?_⟩
      intro reply final answered
      cases answered
      rw [callSites, List.append_nil]
      exact sets before vm idx value tag initial
  | step =>
      refine ⟨SitesHold.cons initial SitesHold.nil, ?_⟩
      intro reply final answered
      obtain ⟨result, stepped, _⟩ := call_step_eq_ok.mp answered
      exact steps before vm result final initial stepped
  | runToHalt maxSteps =>
      have loop : SitesHold property before (loopSites host maxSteps vm) ∧ _ :=
        loopSites_hold steps initial
      refine ⟨loop.1, ?_⟩
      intro reply final answered
      obtain ⟨result, finished, _⟩ := call_runToHalt_eq_ok.mp answered
      exact loop.2 result final finished

/-- And at all steps of a run. -/
theorem runSites_hold
    (steps : ∀ before vm result final, property before vm →
      vm.step host = .ok (result, final) → property (before ++ [vm]) final)
    (sets : ∀ before vm idx value tag, property before vm →
      property before (vm.setRegister idx value tag))
    {calls : List Call} (driving : ∀ call ∈ calls, call.driving)
    {vm : Interpreter} (initial : property before vm) :
    SitesHold property before (runSites host calls vm) := by
  induction calls generalizing before vm with
  | nil => exact SitesHold.nil
  | cons request calls induction =>
      obtain ⟨held, last⟩ := callSites_hold steps sets
        (driving request List.mem_cons_self) initial
      have later : ∀ call ∈ calls, call.driving := fun call member =>
        driving call (List.mem_cons_of_mem _ member)
      rw [runSites]
      apply held.append
      cases answered : call host request vm with
      | error stuck => exact SitesHold.nil
      | ok answer =>
          obtain ⟨reply, middle⟩ := answer
          exact induction later (last reply middle answered)

end Interpreter

end T81VM.VM
