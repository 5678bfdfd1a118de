import OpenAIGateway.RoutingPolicy
import OpenAIGateway.SseFraming
import OpenAIGateway.Stream

/-!
When an answer is bad enough to be worth a better model, and which model that
is. The gate reads what a response left in the accumulator; the climb resolves
the rung above, or the nearest one that names another provider.
-/

set_option linter.all false

namespace OpenAIGateway

/-- A buffer of arguments that is not blank and not JSON. -/
def malformedArguments (fromStr : String → Option Json) (buf : String) : Bool :=
  !buf.toList.all Sse.isWhitespace && (fromStr buf).isNone

/-- Whether the response is bad enough to be worth retrying on a better model, and which gate it
tripped. A body nobody could read is not judged. -/
def StreamAccumulator.qualityGate (fromStr : String → Option Json) (acc : StreamAccumulator) :
    Option QualityGate :=
  if acc.unparsed then none
  else if acc.textLen = 0 ∧ acc.toolCalls = 0 then some .emptyResponse
  else
    match acc.stopReason with
    | some .refusal => some .refusal
    | some .maxTokens => some .truncated
    | _ =>
      if acc.toolBuffers.any (fun call => malformedArguments fromStr call.2) then
        some .malformedToolCall
      else none

/-- How many rungs one request may climb. -/
def maxEscalations : ℕ := 1

def escalationAllowed (pressure : BudgetPressure) (escalationsSoFar maxEscalations : ℕ) : Bool :=
  pressure == .normal && decide (escalationsSoFar < maxEscalations)

/-- A caller who named a model is not moved onto another. -/
def climbAllowed (reason : SelectionReason) : Bool := reason != .passthrough

/-- Hitting the output cap the caller set is not a weaker model's failure. -/
def truncatedByClientCap (requestedMax modelMax : ℕ) : Bool := decide (requestedMax ≤ modelMax)

/-- Whether an attempt may be retried one rung up. -/
def shouldClimb (reason : SelectionReason) (gate : QualityGate) (pressure : BudgetPressure)
    (escalations requestedMax modelMax : ℕ) : Bool :=
  climbAllowed reason && !(gate == .truncated && truncatedByClientCap requestedMax modelMax) &&
    escalationAllowed pressure escalations maxEscalations

namespace RoutingPolicy

variable (policy : RoutingPolicy) (signal : RequestSignal) (catalog : Catalog) (maxOutputTokens : ℕ)
  (served : List String)

/-- The decision one rung up; nothing at the ceiling. -/
def escalate (start : Tier) (gate : QualityGate) : Option RoutingDecision :=
  (policy.ladder.escalate start).bind (fun next =>
    let need := signal.requirements maxOutputTokens
    (policy.resolveFrom next (.escalated start.name gate) catalog need
      (policy.baseline catalog served need)).toOption)

/-- A rung is asked again without a provider before it is passed over. -/
def preferAnother (avoid : Provider) (next : RoutingDecision) : RoutingDecision :=
  if next.model.provider = avoid then
    match next.tier.bind (fun tier => policy.ladder.pickWhere tier catalog
        (signal.requirements maxOutputTokens) (fun spec => spec.provider != avoid)) with
    | some spec => { next with model := spec }
    | none => next
  else next

/-- The passes of the walk past a provider; each starts on a higher rung. -/
def climbPast (origin : Tier) (avoid : Provider) : ℕ → Tier → Option RoutingDecision
  | 0, _ => none
  | passes + 1, cursor =>
    (policy.escalate signal catalog maxOutputTokens served cursor .noCredential).bind (fun next =>
      let next := policy.preferAnother signal catalog maxOutputTokens avoid next
      if next.model.provider ≠ avoid then
        some { next with reason := .escalated origin.name .noCredential }
      else next.tier.bind (climbPast origin avoid passes))

/-- The nearest rung above `start` that names a different provider. -/
def escalatePastProvider (start : Tier) (avoid : Provider) : Option RoutingDecision :=
  policy.climbPast signal catalog maxOutputTokens served start avoid (256 - start.rank.val) start

end RoutingPolicy

end OpenAIGateway
