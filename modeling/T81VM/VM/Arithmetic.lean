import T81VM.VM.State

/-!
# Signed arithmetic and the host

The interpreter computes in `std::int64_t`.  An operation whose exact result
is not representable has no defined value in C++; what a host makes of it is
a parameter, and so are the floating-point functions behind the activations.
A call that does not return is `Stuck`.
-/

namespace T81VM.VM

/-- The signed operations the interpreter evaluates. -/
inductive SignedOp where
  | add (lhs rhs : Int64)
  | sub (lhs rhs : Int64)
  | mul (lhs rhs : Int64)
  | div (lhs rhs : Int64)
  | mod (lhs rhs : Int64)
  | neg (value : Int64)
  deriving DecidableEq

/-- An integer that an `std::int64_t` can hold. -/
def Representable (exact : Int) : Prop :=
  -2 ^ 63 ≤ exact ∧ exact < 2 ^ 63

instance (exact : Int) : Decidable (Representable exact) :=
  inferInstanceAs (Decidable (_ ∧ _))

/-- C++ gives the operation a value.  The remainder of the least integer by
`-1` has none because the quotient is not representable. -/
def SignedOp.Defined : SignedOp → Prop
  | .add lhs rhs => Representable (lhs.toInt + rhs.toInt)
  | .sub lhs rhs => Representable (lhs.toInt - rhs.toInt)
  | .mul lhs rhs => Representable (lhs.toInt * rhs.toInt)
  | .div lhs rhs | .mod lhs rhs =>
      rhs ≠ 0 ∧ ¬ (lhs = Int64.minValue ∧ rhs = -1)
  | .neg value => value ≠ Int64.minValue

instance : (op : SignedOp) → Decidable op.Defined
  | .add _ _ => inferInstanceAs (Decidable (Representable _))
  | .sub _ _ => inferInstanceAs (Decidable (Representable _))
  | .mul _ _ => inferInstanceAs (Decidable (Representable _))
  | .div _ _ => inferInstanceAs (Decidable (_ ∧ ¬ (_ ∧ _)))
  | .mod _ _ => inferInstanceAs (Decidable (_ ∧ ¬ (_ ∧ _)))
  | .neg _ => inferInstanceAs (Decidable (¬ _ = _))

/-- The value of an operation in two's complement. -/
def SignedOp.wrapped : SignedOp → Int64
  | .add lhs rhs => lhs + rhs
  | .sub lhs rhs => lhs - rhs
  | .mul lhs rhs => lhs * rhs
  | .div lhs rhs => lhs / rhs
  | .mod lhs rhs => lhs % rhs
  | .neg value => -value

/-- Why a call does not return: undefined behaviour, or an exception. -/
inductive Stuck where
  | signed (op : SignedOp)
  | registerIndex (idx : Int64)
  | memoryIndex (addr : Nat)
  | tensorIndex (idx : Nat)
  | exception (raised : StdException)
  deriving DecidableEq

/-- What the C++ implementation supplies. -/
structure Host where
  /-- The value of a signed operation that C++ leaves undefined, if any. -/
  onOverflow : SignedOp → Option Int64
  /-- `llround(exp(v))`, applied to clamped elements. -/
  roundedExp : Int64 → Int64
  /-- `llround(sqrt(v))`, applied to non-negative elements. -/
  roundedSqrt : Int64 → Int64
  /-- `llround(v * sigmoid(v))`. -/
  roundedSiLU : Int64 → Int64
  /-- The sum of the shifted exponentials is zero. -/
  softmaxVanishes : List Int64 → Bool
  /-- The scaled and rounded softmax at an index. -/
  roundedSoftmax : List Int64 → Nat → Int64
  /-- The root mean square of the elements is zero. -/
  rmsVanishes : List Int64 → Bool
  /-- An element over the root mean square of all of them, rounded. -/
  roundedRms : List Int64 → Int64 → Int64

/-- Evaluate a signed operation. -/
def Host.signed (host : Host) (op : SignedOp) : Except Stuck Int64 :=
  if op.Defined then .ok op.wrapped
  else
    match host.onOverflow op with
    | some value => .ok value
    | none => .error (.signed op)

/-- The C++ abstract machine: undefined operations have no value. -/
def Host.Strict (host : Host) : Prop :=
  ∀ op, host.onOverflow op = none

/-- A strict host whose activations are left at zero. -/
def strictHost : Host where
  onOverflow _ := none
  roundedExp _ := 0
  roundedSqrt _ := 0
  roundedSiLU _ := 0
  softmaxVanishes _ := false
  roundedSoftmax _ _ := 0
  rmsVanishes _ := false
  roundedRms _ _ := 0

theorem Host.signed_of_defined (host : Host) {op : SignedOp}
    (defined : op.Defined) : host.signed op = .ok op.wrapped := by
  rw [Host.signed, if_pos defined]

/-- An evaluated operation fails only as itself. -/
theorem Host.signed_error {host : Host} {op : SignedOp} {stuck : Stuck}
    (failed : host.signed op = .error stuck) :
    stuck = .signed op ∧ ¬ op.Defined := by
  unfold Host.signed at failed
  split at failed
  · contradiction
  · rename_i undefined
    split at failed
    · contradiction
    · exact ⟨(Except.error.inj failed).symm, undefined⟩

end T81VM.VM
