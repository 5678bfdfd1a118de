import OpenAIGateway.FailoverBounds
import OpenAIGateway.Suspension

/-!
A client that hangs up. The handler's future is dropped at one of the points it
waits at, and the ledger writes it has not started by then are never made. The
handler starts every write after its last point, on one detached task, so it
loses each answer it has by the time it is dropped.
-/

set_option linter.all false

namespace OpenAIGateway.Climb

open Failover Suspension

/-- Where the handler waits, by the rung it is on and the credentials it switched from. -/
inductive Point
  | lease (rung switch : ℕ)
  /-- One credential's attempts, up to an answer that is whole. -/
  | attempt (rung switch : ℕ)
  /-- Giving a credential back after its attempts, until the store's task is done. -/
  | release (rung switch : ℕ)
  /-- Giving back the credential of a collected answer. -/
  | releaseAnswer (rung : ℕ)

/-- What the provider and the handler do: an answer is there that will be billed, or its write
is started. -/
inductive Act
  | answered (b : Bill)
  | started (r : Row)

namespace Act

def bill? : Act → Option Bill
  | .answered b => some b
  | .started _ => none

def row? : Act → Option Row
  | .answered _ => none
  | .started r => some r

@[simp] theorem bill?_answered (b : Bill) : (answered b).bill? = some b := rfl

@[simp] theorem bill?_started (r : Row) : (started r).bill? = none := rfl

@[simp] theorem row?_answered (b : Bill) : (answered b).row? = none := rfl

@[simp] theorem row?_started (r : Row) : (started r).row? = some r := rfl

end Act

section Handler

-- Whether what is awaited at a point is there already, so that the future does not give way.
variable (ready : Point → Bool)

/-- The passes that are left, with the points they wait at. -/
def forwardFrom (decision : RoutingDecision) (rung : ℕ) (world : ℕ → Failover.Pass) :
    ℕ → ℕ → List String → GatewayError → Dispatches →
      Fut Point Act (Except GatewayError Attempt × Dispatches)
  | 0, _, _, lastError, d => pure (.error lastError, d)
  | left + 1, switch, excluded, lastError, d =>
    let pass := world switch
    if mayTryAnother switch pass.inBudget then do
      await ready (.lease rung switch)
      match pass.lease excluded with
      | .error e => pure (.error (leaseError lastError e), d)
      | .ok lease => do
        let attempt := d.next
        let d := d.take decision lease pass.trial
        await ready (.attempt rung switch)
        let made : Failover.Dispatch := ⟨meterContext decision lease attempt, pass.trial⟩
        actAll (made.bill.map Act.answered).toList
        match pass.trial.outcome lease attempt with
        | .ok attempt => pure (.ok attempt, d)
        | .fatal e => do
          await ready (.release rung switch)
          pure (.error e, d)
        | .escalate e => do
          await ready (.release rung switch)
          pure (.ok (.rejected e), d)
        | .switch e => do
          await ready (.release rung switch)
          forwardFrom decision rung world left (switch + 1) (lease.account :: excluded) e d
        | .lost e accumulator => do
          let captured : Lost := ⟨meterContext decision lease attempt, accumulator, e⟩
          await ready (.release rung switch)
          forwardFrom decision rung world left (switch + 1) (lease.account :: excluded) e
            (d.lose captured)
        | .raced => do
          await ready (.release rung switch)
          forwardFrom decision rung world left (switch + 1) (lease.account :: excluded) lastError d
    else pure (.error lastError, d)

/-- A collected answer's credential is given back before what follows. -/
def releaseAnswer (rung : ℕ) : Except GatewayError Attempt → Fut Point Act Unit
  | .ok (.collected _ _ _) => await ready (.releaseAnswer rung)
  | _ => pure ()

variable (fromStr : String → Option Json) (plan : Plan) (world : ℕ → ℕ → Failover.Pass)

/-- The passes of the loop, with the points they wait at. What the request owes the ledger is
held in the future until it leaves. -/
def runFrom : ℕ → State → Fut Point Act (Option Exit)
  | 0, _ => pure none
  | passes + 1, s => do
    let forwarded ← forwardFrom ready s.decision s.escalations (world s.escalations)
      (plan.maxAccountSwitches + 1) 0 [] (.noCredential s.decision.model.provider) s.dispatches
    releaseAnswer ready s.escalations forwarded.1
    match afterForward fromStr plan { s with dispatches := forwarded.2 } forwarded.1 with
    | .next s' => runFrom passes s'
    | .done exit => do
      actAll (exit.rows.map Act.started)
      pure (some exit)

/-- The handler as a future. A request climbs once at most, and so is done in two passes. -/
def handler : Fut Point Act (Option Exit) :=
  runFrom ready fromStr plan world 2 { decision := plan.decision }

end Handler

section Forward

variable (ready : Point → Bool) (decision : RoutingDecision) (rung : ℕ) (world : ℕ → Failover.Pass)

/-- But for its points it is the loop over the credentials. -/
theorem forwardFrom_value (left switch : ℕ) (excluded : List String) (lastError : GatewayError)
    (d : Dispatches) :
    (forwardFrom ready decision rung world left switch excluded lastError d).value =
      Failover.forwardFrom decision world left switch excluded lastError d := by
  induction left generalizing switch excluded lastError d with
  | zero => rfl
  | succ left ih =>
    unfold forwardFrom Failover.forwardFrom
    by_cases hbudget : mayTryAnother switch (world switch).inBudget = true
    · simp only [hbudget, if_true]
      cases hlease : (world switch).lease excluded with
      | error e => simp
      | ok lease => cases (world switch).trial <;> simp [Trial.outcome, ih]
    · rw [if_neg hbudget, if_neg hbudget]
      rfl

/-- A forward starts no write, and every answer it gets is billed. -/
theorem forwardFrom_acts (left switch : ℕ) (excluded : List String) (lastError : GatewayError)
    (d : Dispatches) :
    let forwarded := forwardFrom ready decision rung world left switch excluded lastError d
    (acts forwarded.marks).filterMap Act.row? = [] ∧
      forwarded.value.2.bills = d.bills ++ (acts forwarded.marks).filterMap Act.bill? := by
  induction left generalizing switch excluded lastError d with
  | zero => exact ⟨rfl, (List.append_nil _).symm⟩
  | succ left ih =>
    unfold forwardFrom
    by_cases hbudget : mayTryAnother switch (world switch).inBudget = true
    · simp only [hbudget, if_true]
      cases hlease : (world switch).lease excluded with
      | error e => simp
      | ok lease =>
        have htake := bills_take d decision lease (world switch).trial
        cases htrial : (world switch).trial with
        | streaming pumped =>
          rw [htrial] at htake
          simp [Trial.outcome, Failover.Dispatch.bill, htake]
        | collected accumulator =>
          rw [htrial] at htake
          simp [Trial.outcome, Failover.Dispatch.bill, htake]
        | fatal e =>
          rw [htrial] at htake
          simp [Trial.outcome, Failover.Dispatch.bill, htake]
        | escalate e =>
          rw [htrial] at htake
          simp [Trial.outcome, Failover.Dispatch.bill, htake]
        | switch e =>
          rw [htrial] at htake
          obtain ⟨hrows, hbills⟩ := ih (switch + 1) (lease.account :: excluded) e
            (d.take decision lease (.switch e))
          simp [Trial.outcome, Failover.Dispatch.bill, hrows, hbills, htake]
        | raced =>
          rw [htrial] at htake
          obtain ⟨hrows, hbills⟩ := ih (switch + 1) (lease.account :: excluded) lastError
            (d.take decision lease .raced)
          simp [Trial.outcome, Failover.Dispatch.bill, hrows, hbills, htake]
        | lost e accumulator =>
          rw [htrial] at htake
          obtain ⟨hrows, hbills⟩ := ih (switch + 1) (lease.account :: excluded) e
            ((d.take decision lease (.lost e accumulator)).lose
              ⟨meterContext decision lease d.next, accumulator, e⟩)
          have hlose : ((d.take decision lease (.lost e accumulator)).lose
              ⟨meterContext decision lease d.next, accumulator, e⟩).bills =
              (d.take decision lease (.lost e accumulator)).bills := rfl
          simp [-List.filterMap_eq_nil_iff, List.filterMap_cons, Trial.outcome, Failover.Dispatch.bill,
            hrows, hbills, hlose, htake]
    · rw [if_neg hbudget]
      exact ⟨rfl, (List.append_nil _).symm⟩

end Forward

section Run

variable (ready : Point → Bool) (fromStr : String → Option Json) (plan : Plan)
  (world : ℕ → ℕ → Failover.Pass)

/-- But for its points the future is the loop over the rungs. -/
theorem runFrom_value (passes : ℕ) (s : State) :
    (runFrom ready fromStr plan world passes s).value =
      Loop.run (fun s => some (pass fromStr plan world s)) passes s := by
  induction passes generalizing s with
  | zero => rfl
  | succ passes ih =>
    unfold runFrom Loop.run pass forwardWithFailover
    simp only [value_bind, forwardFrom_value]
    cases afterForward fromStr plan { s with dispatches := (Failover.forwardFrom s.decision
        (world s.escalations) (plan.maxAccountSwitches + 1) 0 []
        (.noCredential s.decision.model.provider) s.dispatches).2 } (Failover.forwardFrom s.decision
        (world s.escalations) (plan.maxAccountSwitches + 1) 0 []
        (.noCredential s.decision.model.provider) s.dispatches).1 with
    | next s' => exact ih s'
    | done exit => rfl

theorem acts_releaseAnswer (rung : ℕ) (result : Except GatewayError Attempt) :
    acts (releaseAnswer ready rung result).marks = [] := by
  cases result with
  | error e => rfl
  | ok attempt =>
    cases attempt with
    | streaming pumped lease attempt => rfl
    | rejected e => rfl
    | collected accumulator lease attempt => exact acts_await ready (.releaseAnswer rung)

/-- Every write is started after the last point, and by then every answer is billed. -/
theorem runFrom_split (passes : ℕ) (s : State) : ∃ before after,
    (runFrom ready fromStr plan world passes s).marks = before ++ after ∧
      (acts before).filterMap Act.row? = [] ∧ waits after = 0 ∧
      ∀ exit, (runFrom ready fromStr plan world passes s).value = some exit →
        acts after = exit.rows.map Act.started ∧
          exit.state.dispatches.bills =
            s.dispatches.bills ++ (acts before).filterMap Act.bill? := by
  induction passes generalizing s with
  | zero =>
    refine ⟨[], [], rfl, rfl, rfl, ?_⟩
    intro exit h
    cases h
  | succ passes ih =>
    obtain ⟨hrows, hbills⟩ := forwardFrom_acts ready s.decision s.escalations (world s.escalations)
      (plan.maxAccountSwitches + 1) 0 [] (.noCredential s.decision.model.provider) s.dispatches
    unfold runFrom
    simp only [marks_bind, value_bind]
    generalize forwardFrom ready s.decision s.escalations (world s.escalations)
      (plan.maxAccountSwitches + 1) 0 [] (.noCredential s.decision.model.provider) s.dispatches =
        forwarded at hrows hbills ⊢
    have hrelease := acts_releaseAnswer ready s.escalations forwarded.value.1
    have hcases := afterForward_cases fromStr plan { s with dispatches := forwarded.value.2 }
      forwarded.value.1
    rcases hcases with ⟨exit, hdone, hstate⟩ | ⟨s', hnext, -, -, hsame⟩
    · rw [hdone]
      refine ⟨forwarded.marks ++ (releaseAnswer ready s.escalations forwarded.value.1).marks, _,
        (List.append_assoc _ _ _).symm, ?_, ?_, ?_⟩
      · rw [acts_append, hrelease, List.append_nil, hrows]
      · simp
      · intro exit' hexit
        cases hexit
        rw [acts_append, hrelease, List.append_nil, hstate]
        exact ⟨by simp, hbills⟩
    · rw [hnext]
      obtain ⟨before, after, hmarks, hrows', hwaits, hexit⟩ := ih s'
      refine ⟨forwarded.marks ++ ((releaseAnswer ready s.escalations forwarded.value.1).marks ++
        before), after, ?_, ?_, hwaits, ?_⟩
      · simp only [hmarks, List.append_assoc]
      · rw [acts_append, acts_append, hrelease, List.nil_append, List.filterMap_append, hrows,
          hrows', List.append_nil]
      · intro exit h
        obtain ⟨hafter, hbills'⟩ := hexit exit h
        refine ⟨hafter, ?_⟩
        rw [hbills', hsame, acts_append, acts_append, hrelease, List.nil_append,
          List.filterMap_append, ← List.append_assoc]
        exact congrArg (· ++ _) hbills

end Run

section Numbers

/-- The answers that were dispatched when the last number had been reached. -/
def lateBills (d : Dispatches) : List Bill := (d.history.drop 255).filterMap Failover.Dispatch.bill

def numbers (bills : List Bill) : List ℕ := bills.map (fun b => b.ctx.attempt)

theorem numbers_sublist (history : List Failover.Dispatch) :
    (numbers (history.filterMap Failover.Dispatch.bill)).Sublist (ordinals history) := by
  induction history with
  | nil => exact List.Sublist.refl []
  | cons made history ih =>
    obtain ⟨ctx, trial⟩ := made
    cases trial with
    | streaming pumped => exact ih.cons_cons ctx.attempt
    | collected accumulator => exact ih.cons_cons ctx.attempt
    | lost e accumulator => exact ih.cons_cons ctx.attempt
    | switch e => exact ih.cons ctx.attempt
    | raced => exact ih.cons ctx.attempt
    | escalate e => exact ih.cons ctx.attempt
    | fatal e => exact ih.cons ctx.attempt

theorem early_ordinals {d : Dispatches} (h : Numbered d) : (ordinals d.history).take 255 =
    (List.range (min 255 d.history.length)).map (min · 255) := by
  rw [h.ordinals, ← List.map_take, List.take_range]

theorem early_lt {d : Dispatches} (h : Numbered d) {n : ℕ}
    (hn : n ∈ (ordinals d.history).take 255) : n < 255 := by
  rw [early_ordinals h, List.mem_map] at hn
  obtain ⟨i, hi, rfl⟩ := hn
  rw [List.mem_range] at hi
  omega

theorem early_nodup {d : Dispatches} (h : Numbered d) :
    ((ordinals d.history).take 255).Nodup := by
  rw [early_ordinals h]
  refine List.Nodup.map_on ?_ List.nodup_range
  intro i hi j hj heq
  rw [List.mem_range] at hi hj
  omega

/-- The counter stays where it saturates. -/
theorem late_eq {d : Dispatches} (h : Numbered d) {n : ℕ}
    (hn : n ∈ numbers (lateBills d)) : n = 255 := by
  have hmem := (numbers_sublist (d.history.drop 255)).subset hn
  rw [ordinals, List.map_drop, ← ordinals, h.ordinals, ← List.map_drop, List.mem_map] at hmem
  obtain ⟨i, hi, rfl⟩ := hmem
  rw [List.range_eq_range', List.drop_range', List.mem_range'] at hi
  obtain ⟨k, -, rfl⟩ := hi
  omega

/-- The numbers of the bills are distinct as long as one of the late ones at most is billed. -/
theorem numbers_nodup_iff {d : Dispatches} (h : Numbered d) :
    (numbers d.bills).Nodup ↔ (lateBills d).length ≤ 1 := by
  have hsplit : numbers d.bills = numbers ((d.history.take 255).filterMap Failover.Dispatch.bill) ++
      numbers (lateBills d) := by
    unfold numbers lateBills Dispatches.bills
    rw [← List.map_append, ← List.filterMap_append, List.take_append_drop]
  have hearly : (numbers ((d.history.take 255).filterMap Failover.Dispatch.bill)).Sublist
      ((ordinals d.history).take 255) := by
    have hsub := numbers_sublist (d.history.take 255)
    rwa [ordinals, List.map_take] at hsub
  have hcount : (numbers (lateBills d)).Nodup ↔ (lateBills d).length ≤ 1 := by
    rw [List.eq_replicate_of_mem (fun n hn => late_eq h hn), List.nodup_replicate, numbers,
      List.length_map]
  rw [hsplit, ← hcount]
  constructor
  · intro hall
    exact (List.nodup_append.mp hall).2.1
  · intro hsome
    refine List.nodup_append.mpr ⟨(early_nodup h).sublist hearly, hsome, ?_⟩
    intro n hn m hm heq
    have hless := early_lt h (hearly.subset hn)
    rw [heq, late_eq h hm] at hless
    omega

end Numbers

section Hangup

/-- Every answer by then has one write started for it, and the writes are of different attempts. -/
def Booked (done : List Act) : Prop :=
  ((done.filterMap Act.row?).map Row.bill).Perm (done.filterMap Act.bill?) ∧
    ((done.filterMap Act.row?).map (fun r => r.ctx.attempt)).Nodup

/-- Where no write is started, it is fine that no answer is there. -/
theorem booked_of_no_rows {done : List Act} (h : done.filterMap Act.row? = []) :
    Booked done ↔ done.filterMap Act.bill? = [] := by
  unfold Booked
  rw [h]
  simp

variable {fromStr : String → Option Json} {plan : Plan} {world : ℕ → ℕ → Failover.Pass}

/-- What ends the loop leaves its dispatches numbered. -/
theorem numbered_run {passes : ℕ} {exit : Exit}
    (hrun : runWithEscalation fromStr plan world passes = some exit) :
    Numbered exit.state.dispatches := by
  have hpass : ∀ s, Numbered s.dispatches →
      (∃ exit, pass fromStr plan world s = .done exit ∧ Numbered exit.state.dispatches) ∨
        ∃ s', pass fromStr plan world s = .next s' ∧ Numbered s'.dispatches := by
    intro s hs
    have hforward : Numbered (forwardWithFailover plan.maxAccountSwitches s.decision
        (world s.escalations) s.dispatches).2 := forwardFrom_numbered hs
    rcases afterForward_cases fromStr plan _ _ with ⟨exit, hdone, hstate⟩ | ⟨s', hnext, -, -, hsame⟩
    · exact Or.inl ⟨exit, hdone, hstate ▸ hforward⟩
    · exact Or.inr ⟨s', hnext, hsame ▸ hforward⟩
  refine Loop.result_of_run (fun s => Numbered s.dispatches)
    (fun exit => Numbered exit.state.dispatches) ?_ ?_ numbered_start hrun
  · intro s s' hs hnext
    rcases hpass s hs with ⟨exit, hexit, -⟩ | ⟨next, hpass, hnext'⟩
    · rw [hexit] at hnext
      cases hnext
    · rw [hpass] at hnext
      cases hnext
      exact hnext'
  · intro s r hs hdone
    rcases hpass s hs with ⟨exit, hexit, hnumbered⟩ | ⟨next, hpass, -⟩
    · rw [hexit] at hdone
      cases hdone
      exact hnumbered
    · rw [hpass] at hdone
      cases hdone

/-- Dropped at a point, a request has lost every answer it had. Run to its end, it has lost none,
and its writes are of different attempts as long as one late answer at most is billed. -/
theorem handler_booked_iff (ready : Point → Bool) (fromStr : String → Option Json) (plan : Plan)
    (world : ℕ → ℕ → Failover.Pass) :
    ∃ exit, (handler ready fromStr plan world).value = some exit ∧ ∀ n,
      let marks := (handler ready fromStr plan world).marks
      Booked (actsBy n marks) ↔
        (n < waits marks → (actsBy n marks).filterMap Act.bill? = []) ∧
          (waits marks ≤ n → (lateBills exit.state.dispatches).length ≤ 1) := by
  obtain ⟨exit, hrun, -, hsettled⟩ := runWithEscalation_settles fromStr plan world
  obtain ⟨before, after, hmarks, hrows, hwaits, hexit⟩ := runFrom_split ready fromStr plan
    world 2 { decision := plan.decision }
  have hvalue : (handler ready fromStr plan world).value = some exit :=
    (runFrom_value ready fromStr plan world 2 _).trans hrun
  refine ⟨exit, hvalue, ?_⟩
  intro n marks
  have hmarks' : marks = before ++ after := hmarks
  obtain ⟨hafter, hbills⟩ := hexit exit hvalue
  by_cases hdropped : n < waits marks
  · have hnone : (actsBy n marks).filterMap Act.row? = [] := by
      rw [hmarks'] at hdropped ⊢
      exact kept_acts hrows hwaits n hdropped
    rw [booked_of_no_rows hnone]
    constructor
    · intro h
      exact ⟨fun _ => h, fun hle => absurd hdropped (Nat.not_lt.mpr hle)⟩
    · intro h
      exact h.1 hdropped
  · have hall : actsBy n marks = acts before ++ exit.rows.map Act.started := by
      rw [actsBy_of_le (Nat.not_lt.mp hdropped), hmarks', acts_append, hafter]
    have hstarted : (actsBy n marks).filterMap Act.row? = exit.rows := by
      rw [hall, List.filterMap_append, hrows, List.nil_append, List.filterMap_map]
      exact List.filterMap_some
    have hanswered : (actsBy n marks).filterMap Act.bill? = exit.state.dispatches.bills := by
      have hnone : (exit.rows.map Act.started).filterMap Act.bill? = [] := by simp
      rw [hall, List.filterMap_append, hnone, List.append_nil, hbills]
      rfl
    have hsame : exit.rows.map (fun r => r.ctx.attempt) = numbers (exit.rows.map Row.bill) := by
      unfold numbers
      rw [List.map_map]
      rfl
    have hnumbers : (exit.rows.map (fun r => r.ctx.attempt)).Nodup ↔
        (lateBills exit.state.dispatches).length ≤ 1 := by
      rw [hsame, ← numbers_nodup_iff (numbered_run hrun)]
      exact (hsettled.map _).nodup_iff
    unfold Booked
    rw [hstarted, hanswered, hnumbers]
    constructor
    · intro h
      exact ⟨fun hlt => absurd hlt hdropped, fun _ => h.2⟩
    · intro h
      exact ⟨hsettled, h.2 (Nat.not_lt.mp hdropped)⟩

end Hangup

end OpenAIGateway.Climb
