import OpenAIGateway.Errors
import OpenAIGateway.Stream

/-!
One attempt at one rung: credentials are leased and tried until one answers,
nothing about another could help, or the switches run out. What a credential's
answer came to decides which. The upstream's answers and the leases are the
world's; everything the loop makes of them is here.
-/

set_option linter.all false

namespace OpenAIGateway.Failover

/-- A credential held for one request. -/
structure Lease where
  account : String
  /-- Whether the credential is a seat paid for by the month. -/
  flatRate : Bool := false
  deriving DecidableEq, Repr

/-- What the ledger needs about one forwarding attempt, beyond the request's own identity. -/
structure Context where
  decision : RoutingDecision
  account : String
  attempt : ℕ
  flatRate : Bool
  deriving DecidableEq

def meterContext (decision : RoutingDecision) (lease : Lease) (attempt : ℕ) : Context :=
  ⟨decision, lease.account, attempt, lease.flatRate⟩

/-- What one forwarding attempt produced. A stream is read on its own task, which ends with what
the provider sent. -/
inductive Attempt
  | streaming (pumped : StreamAccumulator) (lease : Lease) (attempt : ℕ)
  | collected (accumulator : StreamAccumulator) (lease : Lease) (attempt : ℕ)
  | rejected (e : GatewayError)

/-- What one credential's attempts came to. -/
inductive Outcome
  | ok (attempt : Attempt)
  | switch (e : GatewayError)
  | lost (e : GatewayError) (accumulator : StreamAccumulator)
  | raced
  | escalate (e : GatewayError)
  | fatal (e : GatewayError)

/-- A collected stream that failed: lost once the provider had generated part of the answer,
because that much is invoiced, and a plain failover before that. -/
def collectFailed (e : GatewayError) (accumulator : StreamAccumulator) : Outcome :=
  if 0 < accumulator.usage.outputTokens then .lost e accumulator else .switch e

/-- An answer the stream lost, captured while the lease that identifies it is in hand. -/
structure Lost where
  ctx : Context
  accumulator : StreamAccumulator
  error : GatewayError

/-- How a credential's answer turned out, before the loop puts its name and number to it. -/
inductive Trial
  | streaming (pumped : StreamAccumulator)
  | collected (accumulator : StreamAccumulator)
  | switch (e : GatewayError)
  | lost (e : GatewayError) (accumulator : StreamAccumulator)
  | raced
  | escalate (e : GatewayError)
  | fatal (e : GatewayError)

/-- The attempt carries the lease and the dispatch number it was made under. -/
def Trial.outcome (lease : Lease) (attempt : ℕ) : Trial → Outcome
  | .streaming pumped => .ok (.streaming pumped lease attempt)
  | .collected accumulator => .ok (.collected accumulator lease attempt)
  | .switch e => .switch e
  | .lost e accumulator => .lost e accumulator
  | .raced => .raced
  | .escalate e => .escalate e
  | .fatal e => .fatal e

/-- What the world answers on one pass of the loop: whether the failover budget still allows
another credential, which one is leased given those excluded, and how its trial turns out. -/
structure Pass where
  inBudget : Bool
  lease : List String → Except GatewayError Lease
  trial : Trial

/-- One dispatch that was made: the request's history, which no code reads. -/
structure Dispatch where
  ctx : Context
  trial : Trial

/-- What the loops that dispatch share: the next dispatch number, what was lost so far, and the
history. -/
structure Dispatches where
  next : ℕ := 0
  lost : List Lost := []
  history : List Dispatch := []

/-- The number of the dispatch about to happen, of 8 bits. -/
def Dispatches.take (d : Dispatches) (decision : RoutingDecision) (lease : Lease) (trial : Trial) :
    Dispatches :=
  { d with
    next := min (d.next + 1) 255
    history := d.history ++ [⟨meterContext decision lease d.next, trial⟩] }

def Dispatches.lose (d : Dispatches) (lost : Lost) : Dispatches := { d with lost := d.lost ++ [lost] }

def mayTryAnother (switch : ℕ) (inBudget : Bool) : Bool := switch == 0 || inBudget

/-- The error of a failed lease is the real cause only before anything was tried. -/
def leaseError (lastError e : GatewayError) : GatewayError :=
  match lastError with
  | .noCredential _ => e
  | _ => lastError

/-- The passes that are left, from the switch they begin with. -/
def forwardFrom (decision : RoutingDecision) (world : ℕ → Pass) :
    ℕ → ℕ → List String → GatewayError → Dispatches → Except GatewayError Attempt × Dispatches
  | 0, _, _, lastError, d => (.error lastError, d)
  | left + 1, switch, excluded, lastError, d =>
    let pass := world switch
    if mayTryAnother switch pass.inBudget then
      match pass.lease excluded with
      | .error e => (.error (leaseError lastError e), d)
      | .ok lease =>
        let attempt := d.next
        let d := d.take decision lease pass.trial
        match pass.trial.outcome lease attempt with
        | .ok attempt => (.ok attempt, d)
        | .fatal e => (.error e, d)
        | .escalate e => (.ok (.rejected e), d)
        | .switch e => forwardFrom decision world left (switch + 1) (lease.account :: excluded) e d
        | .lost e accumulator =>
          let captured : Lost := ⟨meterContext decision lease attempt, accumulator, e⟩
          forwardFrom decision world left (switch + 1) (lease.account :: excluded) e (d.lose captured)
        | .raced =>
          forwardFrom decision world left (switch + 1) (lease.account :: excluded) lastError d
    else (.error lastError, d)

/-- Try credentials until one works or the budget of attempts runs out. -/
def forwardWithFailover (maxAccountSwitches : ℕ) (decision : RoutingDecision) (world : ℕ → Pass)
    (d : Dispatches) : Except GatewayError Attempt × Dispatches :=
  forwardFrom decision world (maxAccountSwitches + 1) 0 [] (.noCredential decision.model.provider) d

/-! What a forward adds to the bill. -/

/-- An answer the provider generated: whose, what it held, and whether the stream lost it. -/
structure Bill where
  lost : Bool
  ctx : Context
  accumulator : StreamAccumulator

/-- The bill of a dispatch that produced an answer or part of one. -/
def Dispatch.bill (d : Dispatch) : Option Bill :=
  match d.trial with
  | .streaming pumped => some ⟨false, d.ctx, pumped⟩
  | .collected accumulator => some ⟨false, d.ctx, accumulator⟩
  | .lost _ accumulator => some ⟨true, d.ctx, accumulator⟩
  | _ => none

def Lost.bill (l : Lost) : Bill := ⟨true, l.ctx, l.accumulator⟩

/-- The bill of an attempt that is handed on. -/
def Attempt.bill (decision : RoutingDecision) : Attempt → Option Bill
  | .streaming pumped lease attempt => some ⟨false, meterContext decision lease attempt, pumped⟩
  | .collected accumulator lease attempt =>
      some ⟨false, meterContext decision lease attempt, accumulator⟩
  | .rejected _ => none

/-- What the history owes. -/
def Dispatches.bills (d : Dispatches) : List Bill := d.history.filterMap Dispatch.bill

/-- What a forward returned is billed as its last dispatch is. -/
def resultBill (decision : RoutingDecision) : Except GatewayError Attempt → Option Bill
  | .ok attempt => attempt.bill decision
  | .error _ => none

theorem bills_take (d : Dispatches) (decision : RoutingDecision) (lease : Lease) (trial : Trial) :
    (d.take decision lease trial).bills =
      d.bills ++ (Dispatch.bill ⟨meterContext decision lease d.next, trial⟩).toList := by
  unfold Dispatches.bills Dispatches.take
  rw [List.filterMap_append]
  congr 1

/-- A dispatch that ends the loop is billed with the result. -/
theorem bills_ended (d : Dispatches) (decision : RoutingDecision) (lease : Lease) (trial : Trial)
    (result : Except GatewayError Attempt)
    (h : resultBill decision result = Dispatch.bill ⟨meterContext decision lease d.next, trial⟩) :
    ∃ more : List Lost, (d.take decision lease trial).lost = d.lost ++ more ∧
      (d.take decision lease trial).bills =
        d.bills ++ more.map Lost.bill ++ (resultBill decision result).toList := by
  refine ⟨[], (List.append_nil _).symm, ?_⟩
  rw [h, bills_take, List.map_nil, List.append_nil]

/-- A dispatch that is not billed, and the loop after it. -/
theorem bills_unbilled {d : Dispatches} {decision : RoutingDecision} {lease : Lease} {trial : Trial}
    (h : Dispatch.bill ⟨meterContext decision lease d.next, trial⟩ = none) :
    (d.take decision lease trial).bills = d.bills := by
  rw [bills_take, h, Option.toList_none, List.append_nil]

/-- Every bill a forward runs up is captured as lost or handed on with its result. -/
theorem forwardFrom_bills (decision : RoutingDecision) (world : ℕ → Pass) (left switch : ℕ)
    (excluded : List String) (lastError : GatewayError) (d : Dispatches) :
    ∃ more : List Lost,
      (forwardFrom decision world left switch excluded lastError d).2.lost = d.lost ++ more ∧
      (forwardFrom decision world left switch excluded lastError d).2.bills =
        d.bills ++ more.map Lost.bill ++
          (resultBill decision (forwardFrom decision world left switch excluded lastError d).1).toList := by
  induction left generalizing switch excluded lastError d with
  | zero => exact ⟨[], by simp [forwardFrom], by simp [forwardFrom, resultBill]⟩
  | succ left ih =>
    unfold forwardFrom
    by_cases hbudget : mayTryAnother switch (world switch).inBudget = true
    · simp only [hbudget, if_true]
      cases hlease : (world switch).lease excluded with
      | error e => exact ⟨[], by simp, by simp [resultBill]⟩
      | ok lease =>
        -- A trial either ends the loop, with its bill in the result, or goes on.
        cases htrial : (world switch).trial with
        | streaming pumped =>
          exact bills_ended d decision lease _ (.ok (.streaming pumped lease d.next)) rfl
        | collected accumulator =>
          exact bills_ended d decision lease _ (.ok (.collected accumulator lease d.next)) rfl
        | fatal e => exact bills_ended d decision lease _ (.error e) rfl
        | escalate e => exact bills_ended d decision lease _ (.ok (.rejected e)) rfl
        | switch e =>
          obtain ⟨more, hlost, hbills⟩ := ih (switch + 1) (lease.account :: excluded) e
            (d.take decision lease (.switch e))
          rw [bills_unbilled rfl] at hbills
          exact ⟨more, hlost, hbills⟩
        | raced =>
          obtain ⟨more, hlost, hbills⟩ := ih (switch + 1) (lease.account :: excluded) lastError
            (d.take decision lease .raced)
          rw [bills_unbilled rfl] at hbills
          exact ⟨more, hlost, hbills⟩
        | lost e accumulator =>
          obtain ⟨more, hlost, hbills⟩ := ih (switch + 1) (lease.account :: excluded) e
            ((d.take decision lease (.lost e accumulator)).lose
              ⟨meterContext decision lease d.next, accumulator, e⟩)
          have hlose : ((d.take decision lease (.lost e accumulator)).lose
              ⟨meterContext decision lease d.next, accumulator, e⟩).bills =
              d.bills ++ [⟨true, meterContext decision lease d.next, accumulator⟩] :=
            bills_take d decision lease (.lost e accumulator)
          rw [hlose] at hbills
          refine ⟨⟨meterContext decision lease d.next, accumulator, e⟩ :: more, ?_, ?_⟩
          · simpa [Trial.outcome, Dispatches.lose, Dispatches.take] using hlost
          · simpa [Trial.outcome, Lost.bill] using hbills
    · rw [if_neg hbudget]
      exact ⟨[], by simp, by simp [resultBill]⟩

end OpenAIGateway.Failover
