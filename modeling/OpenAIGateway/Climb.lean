import OpenAIGateway.Escalation
import OpenAIGateway.Failover
import OpenAIGateway.Loop
import Mathlib.Data.List.Perm.Basic

/-!
Climbing the ladder when an answer is not good enough, and metering each
attempt. Attempts that were paid for and not served are held until the request
leaves, and every way out hands each of them to one ledger write.
-/

set_option linter.all false

namespace OpenAIGateway.Climb

open Failover

/-- What was decided about a request before it is forwarded. -/
structure Plan where
  policy : RoutingPolicy
  decision : RoutingDecision
  signal : RequestSignal
  catalog : Catalog
  pressure : BudgetPressure
  served : List String
  maxTokens : ℕ
  maxAccountSwitches : ℕ

/-- An attempt a quality gate condemned, captured when it was given up. -/
structure Abandoned where
  ctx : Context
  accumulator : StreamAccumulator
  gate : QualityGate

/-- What became of the attempt being recorded. -/
inductive Fate
  | served
  | abandoned
  | lost
  deriving DecidableEq, Repr

/-- One ledger write. -/
structure Row where
  fate : Fate
  ctx : Context
  accumulator : StreamAccumulator
  gate : Option QualityGate
  streamed : Bool

def recordAbandoned (a : Abandoned) : Row := ⟨.abandoned, a.ctx, a.accumulator, some a.gate, false⟩

def recordLost (l : Lost) : Row := ⟨.lost, l.ctx, l.accumulator, none, false⟩

/-- The rows a request that served nothing still owes. -/
def spawnUnserved (abandoned : Option Abandoned) (lost : List Lost) : List Row :=
  abandoned.toList.map recordAbandoned ++ lost.map recordLost

/-- What the loop carries from rung to rung. -/
structure State where
  decision : RoutingDecision
  escalations : ℕ := 0
  /-- The gate that caused an escalation. -/
  triggeringGate : Option QualityGate := none
  abandoned : Option Abandoned := none
  dispatches : Dispatches := {}

/-- What the client is answered with. -/
inductive Reply
  | stream
  | json (gate : Option QualityGate)
  | error (e : GatewayError)

/-- How the request left: its ledger writes, its answer, and the state it left in. -/
structure Exit where
  rows : List Row
  reply : Reply
  state : State

section Pass

variable (fromStr : String → Option Json) (plan : Plan) (world : ℕ → ℕ → Failover.Pass)

/-- The rung to climb to when nothing on this one could be dispatched to. -/
def climbPastProvider (s : State) (e : GatewayError) : Option RoutingDecision :=
  if e.disposition = .escalateTier ∧ climbAllowed s.decision.reason ∧
      escalationAllowed plan.pressure s.escalations maxEscalations then
    s.decision.tier.bind (fun start =>
      plan.policy.escalatePastProvider plan.signal plan.catalog plan.maxTokens plan.served start
        s.decision.model.provider)
  else none

/-- The rung to climb to when an answer tripped a gate. -/
def climbForGate (s : State) (gate : QualityGate) : Option RoutingDecision :=
  if shouldClimb s.decision.reason gate plan.pressure s.escalations plan.maxTokens
      s.decision.model.maxOutputTokens then
    s.decision.tier.bind (fun start =>
      plan.policy.escalate plan.signal plan.catalog plan.maxTokens plan.served start gate)
  else none

/-- One rung up. -/
def State.climb (s : State) (next : RoutingDecision) (gate : QualityGate) : State :=
  { s with decision := next, escalations := s.escalations + 1, triggeringGate := some gate }

/-- What a forward came to: another pass one rung up, or the way out. -/
def afterForward (s : State) : Except GatewayError Attempt → Loop.Step State Exit
  | .error e =>
    match climbPastProvider plan s e with
    | some next => .next (s.climb next .noCredential)
    | none => .done ⟨spawnUnserved s.abandoned s.dispatches.lost, .error e, s⟩
  | .ok (.streaming pumped lease attempt) =>
    let served : Row := ⟨.served, meterContext s.decision lease attempt, pumped,
      s.triggeringGate.or (pumped.qualityGate fromStr), true⟩
    .done ⟨spawnUnserved s.abandoned s.dispatches.lost ++ [served], .stream, s⟩
  | .ok (.rejected e) =>
    match climbForGate plan s .contextOverflow with
    | some next => .next (s.climb next .contextOverflow)
    | none => .done ⟨spawnUnserved s.abandoned s.dispatches.lost, .error e, s⟩
  | .ok (.collected accumulator lease attempt) =>
    let gate := accumulator.qualityGate fromStr
    let ctx := meterContext s.decision lease attempt
    match gate.bind (fun g => (climbForGate plan s g).map (fun next => (g, next))) with
    | some (g, next) => .next { s.climb next g with abandoned := some ⟨ctx, accumulator, g⟩ }
    | none =>
      let served : Row := ⟨.served, ctx, accumulator, s.triggeringGate.or gate, false⟩
      .done ⟨served :: spawnUnserved s.abandoned s.dispatches.lost, .json gate, s⟩

/-- One pass: forward on this rung, then climb or leave. `world` answers the passes of the
failover loop, for each number of escalations so far. -/
def pass (s : State) : Loop.Step State Exit :=
  let forwarded :=
    forwardWithFailover plan.maxAccountSwitches s.decision (world s.escalations) s.dispatches
  afterForward fromStr plan { s with dispatches := forwarded.2 } forwarded.1

/-- Forward, failing over between credentials, and escalate a rung if the answer is unusable. -/
def runWithEscalation (passes : ℕ) : Option Exit :=
  Loop.run (fun s => some (pass fromStr plan world s)) passes { decision := plan.decision }

end Pass

/-! Every bill finds its row. -/

def Row.bill (r : Row) : Bill := ⟨r.fate == .lost, r.ctx, r.accumulator⟩

def Abandoned.bill (a : Abandoned) : Bill := ⟨false, a.ctx, a.accumulator⟩

/-- The bills held for the way out: the attempt a climb abandoned and those the stream lost. -/
def State.held (s : State) : List Bill :=
  s.abandoned.toList.map Abandoned.bill ++ s.dispatches.lost.map Lost.bill

theorem map_bill_spawnUnserved (s : State) :
    (spawnUnserved s.abandoned s.dispatches.lost).map Row.bill = s.held := by
  unfold spawnUnserved State.held
  rw [List.map_append, List.map_map, List.map_map]
  rfl

/-- Between passes everything billed is held, and nothing was abandoned before a climb. -/
structure Holds (s : State) : Prop where
  climbs : s.escalations ≤ maxEscalations
  abandoned : s.escalations = 0 → s.abandoned = none
  held : s.dispatches.bills.Perm s.held

/-- On the way out everything billed has been handed to one write. -/
structure Settled (exit : Exit) : Prop where
  climbs : exit.state.escalations ≤ maxEscalations
  rows : (exit.rows.map Row.bill).Perm exit.state.dispatches.bills

theorem eq_zero_of_escalationAllowed {pressure : BudgetPressure} {escalations : ℕ}
    (h : escalationAllowed pressure escalations maxEscalations = true) : escalations = 0 := by
  rw [escalationAllowed, Bool.and_eq_true, decide_eq_true_eq] at h
  exact Nat.lt_one_iff.mp h.2

theorem climbPastProvider_escalations {plan : Plan} {s : State} {e : GatewayError}
    {next : RoutingDecision} (h : climbPastProvider plan s e = some next) : s.escalations = 0 := by
  unfold climbPastProvider at h
  by_cases hallowed : e.disposition = .escalateTier ∧ climbAllowed s.decision.reason = true ∧
      escalationAllowed plan.pressure s.escalations maxEscalations = true
  · exact eq_zero_of_escalationAllowed hallowed.2.2
  · rw [if_neg hallowed] at h
    cases h

theorem climbForGate_escalations {plan : Plan} {s : State} {gate : QualityGate}
    {next : RoutingDecision} (h : climbForGate plan s gate = some next) : s.escalations = 0 := by
  unfold climbForGate at h
  by_cases hclimb : shouldClimb s.decision.reason gate plan.pressure s.escalations plan.maxTokens
      s.decision.model.maxOutputTokens = true
  · rw [shouldClimb, Bool.and_eq_true] at hclimb
    exact eq_zero_of_escalationAllowed hclimb.2
  · rw [if_neg hclimb] at h
    cases h

/-- What a forward runs up is held with the rest, but for the bill of its result. -/
theorem Holds.forward {s : State} (h : Holds s) (plan : Plan) (world : ℕ → Failover.Pass) :
    let forwarded := forwardWithFailover plan.maxAccountSwitches s.decision world s.dispatches
    forwarded.2.bills.Perm
      ({ s with dispatches := forwarded.2 }.held ++ (resultBill s.decision forwarded.1).toList) := by
  intro forwarded
  obtain ⟨more, hlost, hbills⟩ := forwardFrom_bills s.decision world (plan.maxAccountSwitches + 1) 0 []
    (.noCredential s.decision.model.provider) s.dispatches
  have hheld : { s with dispatches := forwarded.2 }.held = s.held ++ more.map Lost.bill := by
    unfold State.held
    rw [List.append_assoc, ← List.map_append]
    exact congrArg (fun lost => _ ++ List.map Lost.bill lost) hlost
  rw [hheld]
  exact (List.Perm.of_eq hbills).trans ((h.held.append_right _).append_right _)

/-- A climb that holds on to what the pass had. -/
theorem Holds.climb {s : State} (hzero : s.escalations = 0)
    (hheld : s.dispatches.bills.Perm s.held) (next : RoutingDecision) (gate : QualityGate) :
    Holds (s.climb next gate) := by
  refine ⟨?_, ?_, hheld⟩
  · show s.escalations + 1 ≤ maxEscalations
    rw [hzero]
    exact Nat.le_refl 1
  · intro hsucc
    exact absurd hsucc (Nat.succ_ne_zero _)

/-- From everything held but the result's own bill, either way on holds or settles all. -/
theorem afterForward_spec (fromStr : String → Option Json) (plan : Plan) {s : State}
    (hclimbs : s.escalations ≤ maxEscalations) (habandoned : s.escalations = 0 → s.abandoned = none)
    (result : Except GatewayError Attempt)
    (hheld : s.dispatches.bills.Perm (s.held ++ (resultBill s.decision result).toList)) :
    (∃ exit, afterForward fromStr plan s result = .done exit ∧ Settled exit) ∨
      ∃ s', afterForward fromStr plan s result = .next s' ∧ Holds s' ∧ s.escalations < s'.escalations := by
  -- With no bill in the result, what is held is all there is.
  have hunserved : ∀ e, resultBill s.decision result = none →
      Settled ⟨spawnUnserved s.abandoned s.dispatches.lost, .error e, s⟩ := by
    intro e hnone
    refine ⟨hclimbs, ?_⟩
    rw [map_bill_spawnUnserved]
    rw [hnone, Option.toList_none, List.append_nil] at hheld
    exact hheld.symm
  have hon : ∀ next gate, s.escalations = 0 → resultBill s.decision result = none →
      Holds (s.climb next gate) := by
    intro next gate hzero hnone
    rw [hnone, Option.toList_none, List.append_nil] at hheld
    exact Holds.climb hzero hheld next gate
  cases result with
  | error e =>
    simp only [afterForward]
    cases hclimb : climbPastProvider plan s e with
    | some next =>
      exact Or.inr ⟨_, rfl, hon _ _ (climbPastProvider_escalations hclimb) rfl, Nat.lt_succ_self _⟩
    | none => exact Or.inl ⟨_, rfl, hunserved e rfl⟩
  | ok attempt =>
    cases attempt with
    | streaming pumped lease attempt =>
      refine Or.inl ⟨_, rfl, hclimbs, ?_⟩
      rw [List.map_append, map_bill_spawnUnserved]
      exact hheld.symm
    | rejected e =>
      simp only [afterForward]
      cases hclimb : climbForGate plan s .contextOverflow with
      | some next =>
        exact Or.inr ⟨_, rfl, hon _ _ (climbForGate_escalations hclimb) rfl, Nat.lt_succ_self _⟩
      | none => exact Or.inl ⟨_, rfl, hunserved e rfl⟩
    | collected accumulator lease attempt =>
      simp only [afterForward]
      cases hclimb : (accumulator.qualityGate fromStr).bind (fun g =>
          (climbForGate plan s g).map (fun next => (g, next))) with
      | some climbed =>
        obtain ⟨g, -, hnext⟩ := Option.bind_eq_some_iff.mp hclimb
        obtain ⟨next, hgate, rfl⟩ := Option.map_eq_some_iff.mp hnext
        have hzero : s.escalations = 0 := climbForGate_escalations hgate
        -- Nothing was abandoned before the one climb, so nothing is overwritten.
        rw [State.held, habandoned hzero] at hheld
        have hholds := Holds.climb (s := { s with
          abandoned := some ⟨meterContext s.decision lease attempt, accumulator, g⟩ }) hzero
          (hheld.trans List.perm_append_comm) next g
        exact Or.inr ⟨_, rfl, hholds, Nat.lt_succ_self _⟩
      | none =>
        refine Or.inl ⟨_, rfl, hclimbs, ?_⟩
        rw [List.map_cons, map_bill_spawnUnserved]
        exact (hheld.trans List.perm_append_comm).symm

theorem pass_spec (fromStr : String → Option Json) (plan : Plan) (world : ℕ → ℕ → Failover.Pass)
    {s : State} (h : Holds s) :
    (∃ exit, pass fromStr plan world s = .done exit ∧ Settled exit) ∨
      ∃ s', pass fromStr plan world s = .next s' ∧ Holds s' ∧ s.escalations < s'.escalations := by
  have hforward := h.forward plan (world s.escalations)
  let forwarded :=
    forwardWithFailover plan.maxAccountSwitches s.decision (world s.escalations) s.dispatches
  have hstep := afterForward_spec (s := { s with dispatches := forwarded.2 }) fromStr plan h.climbs
    h.abandoned forwarded.1 hforward
  exact hstep

/-- Every run leaves within two passes, having climbed at most once, with each attempt the
provider billed handed to exactly one ledger write under its own context. -/
theorem runWithEscalation_settles (fromStr : String → Option Json) (plan : Plan)
    (world : ℕ → ℕ → Failover.Pass) :
    ∃ exit, runWithEscalation fromStr plan world 2 = some exit ∧ exit.state.escalations ≤ 1 ∧
      (exit.rows.map Row.bill).Perm exit.state.dispatches.bills := by
  have hstart : Holds { decision := plan.decision } :=
    ⟨Nat.zero_le _, fun _ => rfl, List.Perm.refl []⟩
  obtain ⟨exit, hrun, hsettled⟩ := Loop.exists_run_of Holds Settled
    (fun s => maxEscalations - s.escalations) (fun s hs => by
      rcases pass_spec fromStr plan world hs with ⟨exit, hexit, hsettled⟩ | ⟨s', hs', hholds, hlt⟩
      · exact Or.inl ⟨exit, congrArg some hexit, hsettled⟩
      · have := hholds.climbs
        exact Or.inr ⟨s', congrArg some hs', hholds, by omega⟩) hstart
    (show maxEscalations - 0 < 2 by decide)
  exact ⟨exit, hrun, hsettled.climbs, hsettled.rows⟩

end OpenAIGateway.Climb
