import Mathlib.Combinatorics.Enumerative.DyckWord

/-!
# Histories of calls and returns

A history of events, some of which call and some of which return.  It is
balanced when its calls and returns form a Dyck word.  The pending calls of a
history are those that only balanced stretches follow; every event changes
them as it would change a stack of calls.
-/

namespace CallHistory

variable {α : Type} {bracket : α → Option DyckStep}
  {history first second before after pending : List α} {event call : α}

/-- The calls and returns match each other. -/
def Balanced (bracket : α → Option DyckStep) (history : List α) : Prop :=
  ∃ word : DyckWord, word.toList = history.filterMap bracket

/-- The calls without a matching return, the most recent one first. -/
inductive Pending (bracket : α → Option DyckStep) :
    List α → List α → Prop where
  | balanced {history : List α} (matched : Balanced bracket history) :
      Pending bracket history []
  | opened {before after pending : List α} {call : α}
      (opens : bracket call = some .U)
      (earlier : Pending bracket before pending)
      (matched : Balanced bracket after) :
      Pending bracket (before ++ call :: after) (call :: pending)

theorem Balanced.nil : Balanced bracket [] := ⟨0, rfl⟩

theorem Balanced.single (neutral : bracket event = none) :
    Balanced bracket [event] := by
  refine ⟨0, ?_⟩
  simp [neutral]
  rfl

theorem Balanced.append (left : Balanced bracket first)
    (right : Balanced bracket second) :
    Balanced bracket (first ++ second) := by
  obtain ⟨leftWord, leftSame⟩ := left
  obtain ⟨rightWord, rightSame⟩ := right
  refine ⟨leftWord + rightWord, ?_⟩
  rw [List.filterMap_append, ← leftSame, ← rightSame]
  rfl

/-- A call and its return around a balanced stretch. -/
theorem Balanced.wrap (opens : bracket call = some .U)
    (closes : bracket event = some .D) (inner : Balanced bracket history) :
    Balanced bracket (call :: (history ++ [event])) := by
  obtain ⟨word, same⟩ := inner
  refine ⟨word.nest, ?_⟩
  rw [List.filterMap_cons_some opens, List.filterMap_append, ← same,
    List.filterMap_cons_some closes]
  rfl

theorem Pending.append (earlier : Pending bracket history pending)
    (matched : Balanced bracket after) :
    Pending bracket (history ++ after) pending := by
  cases earlier with
  | balanced whole => exact .balanced (whole.append matched)
  | opened opens rest inner =>
      rw [List.append_assoc, List.cons_append]
      exact .opened opens rest (inner.append matched)

/-- Other events leave the pending calls as they are. -/
theorem Pending.other (earlier : Pending bracket history pending)
    (neutral : bracket event = none) :
    Pending bracket (history ++ [event]) pending :=
  earlier.append (.single neutral)

theorem Pending.push (earlier : Pending bracket history pending)
    (opens : bracket event = some .U) :
    Pending bracket (history ++ [event]) (event :: pending) :=
  .opened opens earlier .nil

/-- A return removes the most recent pending call. -/
theorem Pending.pop (earlier : Pending bracket history (call :: pending))
    (closes : bracket event = some .D) :
    Pending bracket (history ++ [event]) pending := by
  cases earlier with
  | opened opens rest inner =>
      rw [List.append_assoc, List.cons_append]
      exact rest.append (inner.wrap opens closes)

/-- A pending call is a call of the history. -/
theorem Pending.mem (stack : Pending bracket history pending)
    (member : call ∈ pending) :
    call ∈ history ∧ bracket call = some .U := by
  induction stack with
  | balanced => cases member
  | opened opens earlier matched induction =>
      rcases List.mem_cons.mp member with rfl | older
      · exact ⟨by simp, opens⟩
      · obtain ⟨inside, calls⟩ := induction older
        exact ⟨List.mem_append_left _ inside, calls⟩

/-- Every pending call is a call too many. -/
theorem Pending.count (stack : Pending bracket history pending) :
    (history.filterMap bracket).count .U =
      (history.filterMap bracket).count .D + pending.length := by
  induction stack with
  | balanced matched =>
      obtain ⟨word, same⟩ := matched
      rw [← same]
      exact word.count_U_eq_count_D
  | opened opens earlier matched induction =>
      obtain ⟨word, same⟩ := matched
      have counts := word.count_U_eq_count_D
      rw [List.filterMap_append, List.filterMap_cons_some opens, ← same]
      simp only [List.count_append, List.count_cons, List.length_cons,
        induction, counts]
      simp
      omega

/-- Nothing is pending exactly when the history is balanced. -/
theorem Pending.eq_nil_iff (stack : Pending bracket history pending) :
    pending = [] ↔ Balanced bracket history := by
  constructor
  · rintro rfl
    cases stack with
    | balanced matched => exact matched
  · rintro ⟨word, same⟩
    have more := stack.count
    have counts := word.count_U_eq_count_D
    rw [← same] at more
    apply List.eq_nil_of_length_eq_zero
    omega

/-- The most recent pending call is followed by a balanced stretch. -/
theorem Pending.most_recent (stack : Pending bracket history (call :: pending)) :
    ∃ before after, history = before ++ call :: after ∧
      bracket call = some .U ∧ Balanced bracket after := by
  cases stack with
  | opened opens earlier matched => exact ⟨_, _, rfl, opens, matched⟩

/-- A balanced stretch contains no call that a balanced stretch follows. -/
theorem Balanced.no_pending (whole : Balanced bracket (before ++ call :: after))
    (opens : bracket call = some .U) : ¬ Balanced bracket after := by
  rintro ⟨inner, same⟩
  obtain ⟨word, split⟩ := whole
  have total := word.count_U_eq_count_D
  have start := word.count_D_le_count_U (before.filterMap bracket).length
  have later := inner.count_U_eq_count_D
  rw [List.filterMap_append, List.filterMap_cons_some opens, ← same] at split
  rw [split, List.take_left'] at start
  · rw [split, List.count_append, List.count_append, List.count_cons,
      List.count_cons] at total
    simp only [beq_self_eq_true, if_true] at total
    simp at total
    omega
  · rfl

/-- Only the most recent pending call is followed by a balanced stretch. -/
theorem Pending.eq_most_recent
    (stack : Pending bracket (before ++ call :: after) pending)
    (opens : bracket call = some .U) (matched : Balanced bracket after) :
    ∃ rest, pending = call :: rest := by
  generalize whole : before ++ call :: after = history at stack
  cases stack with
  | balanced balanced =>
      subst whole
      exact absurd matched (balanced.no_pending opens)
  | @opened earlier later rest recent recentOpens older laterMatched =>
      rcases List.append_eq_append_iff.mp whole with
        ⟨between, _, split⟩ | ⟨between, _, split⟩
      · cases between with
        | nil =>
            cases split
            exact ⟨rest, rfl⟩
        | cons first between =>
            cases split
            exact absurd laterMatched (matched.no_pending recentOpens)
      · cases between with
        | nil =>
            cases split
            exact ⟨rest, rfl⟩
        | cons first between =>
            cases split
            exact absurd matched (laterMatched.no_pending opens)

end CallHistory
