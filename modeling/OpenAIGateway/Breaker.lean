import Mathlib.Algebra.Group.Int.Defs
import Mathlib.Algebra.Group.Nat.Defs
import Mathlib.Data.Int.Basic
import Mathlib.Tactic.Common

/-!
The circuit breaker of one credential: a run of failures opens it, a cooldown
half-opens it, and half-open it lets one probe through.
-/

set_option linter.all false

namespace OpenAIGateway

/-- What claiming a dispatch got you. -/
inductive Admission
  | denied
  | admitted
  | probe
  deriving DecidableEq

inductive BreakerState
  | closed
  | openUntil (untilUnix : ℤ)
  | halfOpen
  deriving DecidableEq

structure Breaker where
  consecutiveFailures : ℕ
  tripThreshold : ℕ
  cooldownSecs : ℕ
  openedUntil : Option ℤ
  halfOpenProbeSent : Bool
  deriving DecidableEq

def i64Max : ℤ := 2 ^ 63 - 1

/-- The sum of two `i64` values, held inside their range. -/
def saturatingAddI64 (a b : ℤ) : ℤ := max (-2 ^ 63) (min (a + b) i64Max)

namespace Breaker

def new (tripThreshold cooldownSecs : ℕ) : Breaker where
  consecutiveFailures := 0
  tripThreshold := max tripThreshold 1
  cooldownSecs := cooldownSecs
  openedUntil := none
  halfOpenProbeSent := false

def state (b : Breaker) (now : ℤ) : BreakerState :=
  match b.openedUntil with
  | some untilUnix => if now < untilUnix then .openUntil untilUnix else .halfOpen
  | none => .closed

/-- Whether a request may be sent, asked without sending one. -/
def permits (b : Breaker) (now : ℤ) : Bool :=
  match b.state now with
  | .closed => true
  | .openUntil _ => false
  | .halfOpen => !b.halfOpenProbeSent

/-- Claim the right to dispatch. -/
def beginRequest (b : Breaker) (now : ℤ) : Admission × Breaker :=
  match b.state now with
  | .closed => (.admitted, b)
  | .openUntil _ => (.denied, b)
  | .halfOpen =>
    if b.halfOpenProbeSent then (.denied, b) else (.probe, { b with halfOpenProbeSent := true })

/-- Hand back a probe whose request never reached the wire. -/
def releaseProbe (b : Breaker) : Breaker := { b with halfOpenProbeSent := false }

def recordSuccess (b : Breaker) : Breaker :=
  { b with consecutiveFailures := 0, openedUntil := none, halfOpenProbeSent := false }

def recordFailure (b : Breaker) (now : ℤ) : Breaker :=
  let failures := min (b.consecutiveFailures + 1) (2 ^ 32 - 1)
  if b.tripThreshold ≤ failures then
    { b with
      consecutiveFailures := failures
      openedUntil := some (saturatingAddI64 now (min b.cooldownSecs i64Max))
      halfOpenProbeSent := false }
  else { b with consecutiveFailures := failures }

/-- A claim is a probe only when none is out, and marks one as out; any other claim changes nothing. -/
theorem beginRequest_cases (b : Breaker) (now : ℤ) :
    (b.halfOpenProbeSent = false ∧
      b.beginRequest now = (.probe, { b with halfOpenProbeSent := true })) ∨
    b.beginRequest now = (.admitted, b) ∨ b.beginRequest now = (.denied, b) := by
  unfold beginRequest
  cases b.state now with
  | closed => exact Or.inr (Or.inl rfl)
  | openUntil untilUnix => exact Or.inr (Or.inr rfl)
  | halfOpen =>
    cases hsent : b.halfOpenProbeSent with
    | true => exact Or.inr (Or.inr rfl)
    | false => exact Or.inl ⟨rfl, rfl⟩

end Breaker

end OpenAIGateway
