import Mathlib.Data.List.Basic

/-!
# Computations that can fail

`Meets reasons post result` says that a computation fails only for the given
reasons and returns only values with the postcondition.  The rules follow the
structure of the computation.
-/

namespace Fallible

variable {ε α β : Type}

/-- Failure for one of the reasons, or success with the postcondition. -/
def Meets (reasons : ε → Prop) (post : α → Prop) : Except ε α → Prop
  | .ok value => post value
  | .error reason => reasons reason

/-- Failure for one of the reasons, or any success. -/
abbrev FailsOnly (reasons : ε → Prop) (result : Except ε α) : Prop :=
  Meets reasons (fun _ => True) result

variable {reasons : ε → Prop} {post : α → Prop} {result : Except ε α}

theorem Meets.of_error {reason : ε} (meets : Meets reasons post result)
    (failed : result = .error reason) : reasons reason := by
  subst failed
  exact meets

theorem Meets.mono {weaker : α → Prop} (meets : Meets reasons post result)
    (implies : ∀ value, result = .ok value → post value → weaker value) :
    Meets reasons weaker result := by
  cases result with
  | ok value => exact implies value rfl meets
  | error reason => exact meets

theorem Meets.failsOnly (meets : Meets reasons post result) :
    FailsOnly reasons result :=
  meets.mono fun _ _ _ => trivial

theorem failsOnly_of_error (fails : ∀ reason, result = .error reason →
    reasons reason) : FailsOnly reasons result := by
  cases result with
  | ok value => trivial
  | error reason => exact fails reason rfl

/-- Sequencing with an intermediate assertion. -/
theorem Meets.bind {after : β → Prop} {next : α → Except ε β}
    (first : Meets reasons post result)
    (second : ∀ value, post value → Meets reasons after (next value)) :
    Meets reasons after (result >>= next) := by
  cases result with
  | ok value => exact second value first
  | error reason => exact first

/-- Sequencing when only the value of the first computation matters. -/
theorem FailsOnly.bind {after : β → Prop} {next : α → Except ε β}
    (first : FailsOnly reasons result)
    (second : ∀ value, result = .ok value →
      Meets reasons after (next value)) :
    Meets reasons after (result >>= next) := by
  cases result with
  | ok value => exact second value rfl
  | error reason => exact first

/-- A counting loop, by an invariant that each round moves forward. -/
theorem meets_foldlM_range (invariant : Nat → β → Prop) {start : β}
    {body : β → Nat → Except ε β} (bound : Nat)
    (initial : invariant 0 start)
    (round : ∀ index value, index < bound → invariant index value →
      Meets reasons (invariant (index + 1)) (body value index)) :
    Meets reasons (invariant bound) ((List.range bound).foldlM body start) := by
  induction bound with
  | zero => exact initial
  | succ bound induction =>
      rw [List.range_succ, List.foldlM_append]
      have earlier := induction fun index value small =>
        round index value (Nat.lt_succ_of_lt small)
      refine earlier.bind fun value holds => ?_
      have last := round bound value (Nat.lt_succ_self bound) holds
      simpa using last

/-- A loop whose rounds all return computes what a fold computes. -/
theorem foldlM_eq_ok (invariant : β → Prop) {items : List α} {start : β}
    {body : β → α → Except ε β} {next : β → α → β}
    (initial : invariant start)
    (round : ∀ value item, item ∈ items → invariant value →
      body value item = .ok (next value item) ∧
        invariant (next value item)) :
    items.foldlM body start = .ok (items.foldl next start) := by
  induction items generalizing start with
  | nil => rfl
  | cons item items induction =>
      obtain ⟨returned, kept⟩ :=
        round start item List.mem_cons_self initial
      rw [List.foldlM_cons, returned, List.foldl_cons]
      exact induction kept fun value other member holds =>
        round value other (List.mem_cons_of_mem _ member) holds

end Fallible
