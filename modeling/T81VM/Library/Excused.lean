import T81VM.Library.Run

/-!
# Equal unless excused

Two computations agree *unless excused* when they are equal or the first one
fails for a reason that is accepted as an excuse.  A partial specification and
its implementation are related this way: where the first has no meaning, the
second may do as it likes.  The rules lift the relation from the parts of a
computation to the whole, and from single calls to runs.
-/

namespace Excused

variable {ε α β γ σ ω : Type}

/-- The same result, unless the first computation fails for one of the
excused reasons. -/
def EqUnless (excused : ε → Prop) (left right : Except ε α) : Prop :=
  left = right ∨ ∃ reason, left = .error reason ∧ excused reason

variable {excused : ε → Prop} {left right : Except ε α}

theorem EqUnless.refl (result : Except ε α) : EqUnless excused result result :=
  .inl rfl

theorem EqUnless.excuse {reason : ε} (accepted : excused reason) :
    EqUnless excused (.error reason) right :=
  .inr ⟨reason, rfl, accepted⟩

/-- What the first computation returns, the second one returns. -/
theorem EqUnless.of_ok {value : α} (same : EqUnless excused left right)
    (returned : left = .ok value) : right = .ok value := by
  rcases same with equal | ⟨reason, failed, _⟩
  · exact equal.symm.trans returned
  · rw [returned] at failed
    cases failed

/-- Without an excuse the computations are equal. -/
theorem EqUnless.eq (same : EqUnless excused left right)
    (inexcusable : ∀ reason, ¬ excused reason) : left = right := by
  rcases same with equal | ⟨reason, _, accepted⟩
  · exact equal
  · exact absurd accepted (inexcusable reason)

/-- Going on from a returned value. -/
theorem EqUnless.bind {next other : α → Except ε β}
    (same : EqUnless excused left right)
    (rest : ∀ value, left = .ok value →
      EqUnless excused (next value) (other value)) :
    EqUnless excused (left >>= next) (right >>= other) := by
  rcases same with equal | ⟨reason, failed, accepted⟩
  · subst equal
    cases left with
    | error reason => exact .refl _
    | ok value => exact rest value rfl
  · subst failed
    exact .excuse accepted

/-- The same first computation. -/
theorem EqUnless.after {read : Except ε γ} {next other : γ → Except ε β}
    (rest : ∀ value, EqUnless excused (next value) (other value)) :
    EqUnless excused (read >>= next) (read >>= other) :=
  (EqUnless.refl read).bind fun value _ => rest value

theorem EqUnless.ite {condition : Prop} [Decidable condition]
    {leftElse rightElse : Except ε α}
    (yes : EqUnless excused left right)
    (no : EqUnless excused leftElse rightElse) :
    EqUnless excused (if condition then left else leftElse)
      (if condition then right else rightElse) := by
  split
  · exact yes
  · exact no

section Runs

variable {call : Type} {first second : call → σ → Except ε (ω × σ)}
  {invariant : σ → Prop}

open PartialSystem

/-- Systems that agree call by call, in the states that the calls lead to,
agree on every run. -/
theorem run_eqUnless
    (preserved : ∀ request state reply final, invariant state →
      first request state = .ok (reply, final) → invariant final)
    (calls : ∀ request state, invariant state →
      EqUnless excused (first request state) (second request state))
    {requests : List call} {start : σ} (initial : invariant start) :
    EqUnless excused (run first requests start) (run second requests start)
    := by
  induction requests generalizing start with
  | nil => exact .refl _
  | cons request requests induction =>
      rw [run, run]
      rcases calls request start initial with equal | ⟨reason, failed, accepted⟩
      · rw [← equal]
        cases answered : first request start with
        | error reason => exact .refl _
        | ok answer =>
            obtain ⟨reply, middle⟩ := answer
            have kept := preserved request start reply middle initial answered
            rcases induction kept with same | ⟨reason, stuck, accepted⟩
            · simp only [same]
              exact .refl _
            · simp only [stuck]
              exact .excuse accepted
      · simp only [failed]
        exact .excuse accepted

end Runs

end Excused
