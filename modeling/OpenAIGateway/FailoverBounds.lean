import OpenAIGateway.AtCapacity
import OpenAIGateway.Climb
import OpenAIGateway.ManagedRouting

/-!
Failover over a pool. A lease never gives back a credential that already failed
the request, so one forward leases each credential once at most, and makes no
more dispatches than it has switches and one. The dispatches of a request are
numbered in eight bits that saturate: their numbers are distinct as long as
there are no more dispatches than numbers.
-/

set_option linter.all false

namespace OpenAIGateway

namespace Search

variable {AccountId : Type*} {q : Search AccountId} {w : World AccountId}

/-- A row drawn from those with room is one of them. -/
theorem pickWithRedisRoom_mem {rows : List (AccountRow AccountId)} {now : ℤ}
    {room : RoomRead AccountId} {row : AccountRow AccountId}
    (h : pickWithRedisRoom rows now room = some row) : row ∈ rows := by
  unfold pickWithRedisRoom at h
  obtain ⟨-, hpick⟩ := Option.ite_none_left_eq_some.mp h
  unfold pickWithRoom at hpick
  obtain ⟨-, hdrawn⟩ := Option.ite_none_left_eq_some.mp hpick
  obtain ⟨⟨drawn, i⟩, hentry, rfl⟩ := Option.map_eq_some_iff.mp hdrawn
  have hmem := List.mem_of_mem_filter (List.mem_of_getElem? hentry)
  exact List.fst_mem_of_mem_zipIdx hmem

/-- What a lease may end with: a row that did not fail the request, or an error. -/
def Spares (q : Search AccountId) (r : Leasing AccountId) : Prop :=
  ∀ row pinned, r.result = .ok (row, pinned) → row.id ∉ q.excluded

theorem spares_error (e : GatewayError) (claims : Claims AccountId) :
    q.Spares ⟨.error e, claims⟩ := by
  intro row pinned h
  cases h

variable [DecidableEq AccountId]

theorem notMem_excluded {row : AccountRow AccountId} (h : row ∈ q.unexcluded) :
    row.id ∉ q.excluded := by
  have hkept := List.of_mem_filter h
  exact of_decide_eq_true hkept

theorem spares_ok {row : AccountRow AccountId} (h : row ∈ q.unexcluded) (pinned : Bool)
    (claims : Claims AccountId) : q.Spares ⟨.ok (row, pinned), claims⟩ := by
  rintro row' pinned' heq
  cases heq
  exact notMem_excluded h

theorem outOfRows_spares (s : Cascade AccountId) : q.Spares (q.outOfRows w s) := by
  unfold outOfRows
  split
  · split
    next row hpick =>
      split
      · exact spares_ok (pickWithRedisRoom_mem hpick) _ _
      · exact spares_error _ _
    next => exact spares_error _ _
  · exact spares_error _ _

/-- The rows a cascade has left are rows that did not fail the request. -/
def Within (q : Search AccountId) (s : Cascade AccountId) : Prop :=
  ∀ row ∈ s.remaining, row ∈ q.unexcluded

theorem claimRow_spares {pass : Pass AccountId} {row : AccountRow AccountId}
    {s : Cascade AccountId} {r : Leasing AccountId} (hrow : row ∈ q.unexcluded)
    (h : claimRow pass row s = .done r) : q.Spares r := by
  unfold claimRow at h
  by_cases hclaim : claimSlot (pass.claim row.id) = true
  · rw [if_pos hclaim] at h
    cases h
    exact spares_ok hrow _ _
  · rw [if_neg hclaim] at h
    cases h

theorem claimRow_within {pass : Pass AccountId} {row : AccountRow AccountId}
    {s s' : Cascade AccountId} (hs : q.Within s) (h : claimRow pass row s = .next s') :
    q.Within s' := by
  unfold claimRow at h
  by_cases hclaim : claimSlot (pass.claim row.id) = true
  · rw [if_pos hclaim] at h
    cases h
  · rw [if_neg hclaim] at h
    cases h
    intro other hother
    exact hs other (List.mem_of_mem_filter hother)

theorem cascade_spares {s : Cascade AccountId} {r : Leasing AccountId} (hs : q.Within s)
    (hdone : q.cascade w s = .done r) : q.Spares r := by
  rcases cascade_cases q w s with ⟨-, heq⟩ | ⟨-, heq⟩ | ⟨-, -, ⟨full, heq⟩ | ⟨-, heq⟩ |
    ⟨row, hrow, heq⟩⟩
  · rw [heq] at hdone
    cases hdone
    exact outOfRows_spares s
  · rw [heq] at hdone
    cases hdone
    exact spares_error _ _
  · rw [heq] at hdone
    cases hdone
    exact spares_error _ _
  · rw [heq] at hdone
    cases hdone
  · rw [heq] at hdone
    exact claimRow_spares (hs row hrow) hdone

theorem cascade_within {s s' : Cascade AccountId} (hs : q.Within s)
    (hnext : q.cascade w s = .next s') : q.Within s' := by
  rcases cascade_cases q w s with ⟨-, heq⟩ | ⟨-, heq⟩ | ⟨-, -, ⟨full, heq⟩ | ⟨-, heq⟩ |
    ⟨row, hrow, heq⟩⟩
  · rw [heq] at hnext
    cases hnext
  · rw [heq] at hnext
    cases hnext
  · rw [heq] at hnext
    cases hnext
  · rw [heq] at hnext
    cases hnext
    exact hs
  · rw [heq] at hnext
    exact claimRow_within hs hnext

/-- A lease gives no credential that already failed the request. -/
theorem lease_spares {fuel : ℕ} {r : Leasing AccountId} (h : q.lease w fuel = some r) :
    q.Spares r := by
  unfold lease at h
  by_cases hempty : q.rows = []
  · rw [if_pos hempty] at h
    cases h
    exact spares_error _ _
  rw [if_neg hempty] at h
  by_cases hfirst : q.excluded = []
  · -- Nothing failed yet, so any row will do.
    intro row pinned _
    rw [hfirst]
    exact List.not_mem_nil
  · have hpin : q.pinClaims w = (none, []) := if_neg hfirst
    rw [hpin] at h
    refine Loop.result_of_run q.Within q.Spares ?_ ?_ (fun row hrow => hrow) h
    · intro s s' hs hnext
      exact cascade_within hs (Option.some.inj hnext)
    · intro s r hs hdone
      exact cascade_spares hs (Option.some.inj hdone)

theorem lease_isSome (q : Search AccountId) (w : World AccountId) :
    (q.lease w (q.candidates.length + 2)).isSome = true := by
  obtain ⟨r, hr, -⟩ := lease_reports q w (q.candidates.length + 2) (Nat.lt_succ_self _)
  rw [hr]
  rfl

/-- How a lease ends: there are passes enough. -/
def leased (q : Search AccountId) (w : World AccountId) : Leasing AccountId :=
  (q.lease w (q.candidates.length + 2)).get (lease_isSome q w)

theorem leased_spares (q : Search AccountId) (w : World AccountId) : q.Spares (q.leased w) :=
  lease_spares (Option.some_get (lease_isSome q w)).symm

end Search

namespace Failover

/-- What one pass of the loop meets: whether the budget allows another credential, what the
lease asks for, the rows the database has or the error it fails with, everything the selection
reads and claims, and how the trial turns out. -/
structure PoolPass where
  inBudget : Bool
  provider : Provider
  channel : Option CredentialKind
  candidates : Except GatewayError (List (AccountRow String))
  now : ℤ
  world : World String
  trial : Trial

def leaseOf (row : AccountRow String) : Lease :=
  ⟨row.id, decide (CredentialKind.fromColumn row.kind = some .oAuth)⟩

/-- The lease of a pass: a credential chosen from the pool. -/
def PoolPass.lease (pass : PoolPass) (excluded : List String) : Except GatewayError Lease :=
  match pass.candidates with
  | .error e => .error e
  | .ok rows =>
    match (Search.leased ⟨pass.provider, pass.channel, excluded, rows, pass.now⟩ pass.world).result with
    | .error e => .error e
    | .ok (row, _) => .ok (leaseOf row)

def PoolPass.pass (pass : PoolPass) : Failover.Pass := ⟨pass.inBudget, pass.lease, pass.trial⟩

theorem PoolPass.lease_notMem {pass : PoolPass} {excluded : List String} {lease : Lease}
    (h : pass.lease excluded = .ok lease) : lease.account ∉ excluded := by
  unfold PoolPass.lease at h
  split at h
  · cases h
  · split at h
    · cases h
    next row pinned hrow =>
      cases h
      exact Search.leased_spares _ pass.world row pinned hrow

section Loop

variable {decision : RoutingDecision} {world : ℕ → Failover.Pass} {left switch : ℕ}
  {excluded : List String} {lastError : GatewayError} {d : Dispatches}

/-- Everything a pass can do to the dispatches: leave them, or take the next number for a
lease and then end the loop or go on without the credential. -/
theorem forwardFrom_dispatches (decision : RoutingDecision) (world : ℕ → Failover.Pass)
    (left switch : ℕ) (excluded : List String) (lastError : GatewayError) (d : Dispatches) :
    (forwardFrom decision world (left + 1) switch excluded lastError d).2 = d ∨
    ∃ lease d', (world switch).lease excluded = .ok lease ∧ d'.next = min (d.next + 1) 255 ∧
      d'.history = d.history ++ [⟨meterContext decision lease d.next, (world switch).trial⟩] ∧
      ((forwardFrom decision world (left + 1) switch excluded lastError d).2 = d' ∨
        ∃ e, (forwardFrom decision world (left + 1) switch excluded lastError d).2 =
          (forwardFrom decision world left (switch + 1) (lease.account :: excluded) e d').2) := by
  rw [forwardFrom]
  by_cases hbudget : mayTryAnother switch (world switch).inBudget = true
  · simp only [hbudget, if_true]
    cases hlease : (world switch).lease excluded with
    | error e => exact Or.inl rfl
    | ok lease =>
      refine Or.inr ⟨lease, ?_⟩
      cases htrial : (world switch).trial with
      | streaming pumped => exact ⟨_, rfl, rfl, rfl, Or.inl rfl⟩
      | collected accumulator => exact ⟨_, rfl, rfl, rfl, Or.inl rfl⟩
      | fatal e => exact ⟨_, rfl, rfl, rfl, Or.inl rfl⟩
      | escalate e => exact ⟨_, rfl, rfl, rfl, Or.inl rfl⟩
      | switch e => exact ⟨_, rfl, rfl, rfl, Or.inr ⟨e, rfl⟩⟩
      | raced => exact ⟨_, rfl, rfl, rfl, Or.inr ⟨lastError, rfl⟩⟩
      | lost e accumulator =>
        exact ⟨(d.take decision lease (.lost e accumulator)).lose
          ⟨meterContext decision lease d.next, accumulator, e⟩, rfl, rfl, rfl, Or.inr ⟨e, rfl⟩⟩
  · rw [if_neg hbudget]
    exact Or.inl rfl

/-- The accounts of the dispatches, in order. -/
def accounts (history : List Dispatch) : List String := history.map (fun made => made.ctx.account)

/-- The numbers of the dispatches, in order. -/
def ordinals (history : List Dispatch) : List ℕ := history.map (fun made => made.ctx.attempt)

/-- What a loop adds to the history: a dispatch a pass at most, of credentials that are
all different and none of which failed before. -/
theorem forwardFrom_made (hworld : ∀ switch excluded lease,
      (world switch).lease excluded = .ok lease → lease.account ∉ excluded)
    (left switch : ℕ) (excluded : List String) (lastError : GatewayError) (d : Dispatches) :
    ∃ made, (forwardFrom decision world left switch excluded lastError d).2.history =
        d.history ++ made ∧
      made.length ≤ left ∧ (accounts made).Nodup ∧ ∀ account ∈ accounts made, account ∉ excluded := by
  induction left generalizing switch excluded lastError d with
  | zero => exact ⟨[], by simp [forwardFrom, accounts]⟩
  | succ left ih =>
    rcases forwardFrom_dispatches decision world left switch excluded lastError d with
      hsame | ⟨lease, d', hlease, -, hhistory, hdone | ⟨e, hon⟩⟩
    · rw [hsame]
      exact ⟨[], by simp [accounts]⟩
    · rw [hdone, hhistory]
      refine ⟨_, rfl, by simp, by simp [accounts], ?_⟩
      intro account haccount
      rw [accounts, List.map_singleton, List.mem_singleton] at haccount
      exact haccount ▸ hworld switch excluded lease hlease
    · obtain ⟨made, hmade, hlength, hnodup, hfresh⟩ := ih (switch + 1)
        (lease.account :: excluded) e d'
      rw [hon, hmade, hhistory, List.append_assoc]
      refine ⟨_, rfl, ?_, ?_, ?_⟩
      · rw [List.singleton_append, List.length_cons]
        omega
      · rw [List.singleton_append, accounts, List.map_cons, List.nodup_cons]
        refine ⟨fun hmem => ?_, hnodup⟩
        exact hfresh _ hmem List.mem_cons_self
      · intro account haccount
        rw [List.singleton_append, accounts, List.map_cons, List.mem_cons] at haccount
        rcases haccount with rfl | haccount
        · exact hworld switch excluded lease hlease
        · exact fun hmem => hfresh account haccount (List.mem_cons_of_mem _ hmem)

/-- The dispatches are numbered from 0, and the last number is given out again. -/
structure Numbered (d : Dispatches) : Prop where
  next : d.next = min d.history.length 255
  ordinals : ordinals d.history = (List.range d.history.length).map (min · 255)

theorem numbered_start : Numbered {} := ⟨rfl, rfl⟩

theorem Numbered.take {d d' : Dispatches} (h : Numbered d) {made : Dispatch}
    (hattempt : made.ctx.attempt = d.next) (hnext : d'.next = min (d.next + 1) 255)
    (hhistory : d'.history = d.history ++ [made]) : Numbered d' := by
  constructor
  · rw [hnext, h.next, hhistory, List.length_append, List.length_singleton]
    omega
  · rw [hhistory, List.length_append, List.length_singleton, List.range_succ, List.map_append,
      ← h.ordinals, List.map_singleton, ← h.next, ← hattempt]
    unfold Failover.ordinals
    rw [List.map_append, List.map_singleton]

theorem forwardFrom_numbered (h : Numbered d) :
    Numbered (forwardFrom decision world left switch excluded lastError d).2 := by
  induction left generalizing switch excluded lastError d with
  | zero => exact h
  | succ left ih =>
    rcases forwardFrom_dispatches decision world left switch excluded lastError d with
      hsame | ⟨lease, d', -, hnext, hhistory, hdone | ⟨e, hon⟩⟩
    · rwa [hsame]
    · rw [hdone]
      exact h.take rfl hnext hhistory
    · rw [hon]
      exact ih (h.take rfl hnext hhistory)

/-- There are 256 numbers. -/
theorem Numbered.nodup_iff (h : Numbered d) :
    (Failover.ordinals d.history).Nodup ↔ d.history.length ≤ 256 := by
  rw [h.ordinals]
  constructor
  · intro hnodup
    by_contra hmany
    -- The dispatches 255 and 256 get the same number.
    have h255 : 255 < ((List.range d.history.length).map (min · 255)).length := by
      rw [List.length_map, List.length_range]
      omega
    have h256 : 256 < ((List.range d.history.length).map (min · 255)).length := by
      rw [List.length_map, List.length_range]
      omega
    have hsame : ((List.range d.history.length).map (min · 255))[255] =
        ((List.range d.history.length).map (min · 255))[256] := by simp
    have hindex := hnodup.getElem_inj_iff.mp hsame
    omega
  · intro hfew
    refine List.Nodup.map_on ?_ List.nodup_range
    intro i hi j hj heq
    rw [List.mem_range] at hi hj
    omega

end Loop

end Failover

namespace Climb

open Failover

section Request

variable {fromStr : String → Option Json} {plan : Plan} {pools : ℕ → ℕ → PoolPass}

/-- What the passes of each forward answer, from the pools they meet. -/
def poolWorld (pools : ℕ → ℕ → PoolPass) : ℕ → ℕ → Failover.Pass :=
  fun escalations switch => (pools escalations switch).pass

/-- One forward leases no credential twice, and makes a dispatch for each switch and one. -/
theorem forward_made (maxAccountSwitches : ℕ) (decision : RoutingDecision)
    (pools : ℕ → PoolPass) (d : Dispatches) :
    ∃ made, (forwardWithFailover maxAccountSwitches decision (fun switch => (pools switch).pass)
        d).2.history = d.history ++ made ∧
      made.length ≤ maxAccountSwitches + 1 ∧ (accounts made).Nodup := by
  have hworld : ∀ switch excluded lease, (pools switch).pass.lease excluded = .ok lease →
      lease.account ∉ excluded := fun switch excluded lease h => PoolPass.lease_notMem h
  obtain ⟨made, hmade, hlength, hnodup, -⟩ := forwardFrom_made hworld
    (maxAccountSwitches + 1) 0 [] (.noCredential decision.model.provider) d
  exact ⟨made, hmade, hlength, hnodup⟩

/-- What follows a forward dispatches nothing, and climbs once at most. -/
theorem afterForward_cases (fromStr : String → Option Json) (plan : Plan) (s : State)
    (result : Except GatewayError Attempt) :
    (∃ exit, afterForward fromStr plan s result = .done exit ∧ exit.state = s) ∨
      ∃ s', afterForward fromStr plan s result = .next s' ∧ s.escalations = 0 ∧
        s'.escalations = 1 ∧ s'.dispatches = s.dispatches := by
  have hone : s.escalations = 0 → s.escalations + 1 = 1 := fun h => by rw [h]
  cases result with
  | error e =>
    simp only [afterForward]
    cases hclimb : climbPastProvider plan s e with
    | some next =>
      have hzero := climbPastProvider_escalations hclimb
      exact Or.inr ⟨_, rfl, hzero, hone hzero, rfl⟩
    | none => exact Or.inl ⟨_, rfl, rfl⟩
  | ok attempt =>
    cases attempt with
    | streaming pumped lease attempt => exact Or.inl ⟨_, rfl, rfl⟩
    | rejected e =>
      simp only [afterForward]
      cases hclimb : climbForGate plan s .contextOverflow with
      | some next =>
        have hzero := climbForGate_escalations hclimb
        exact Or.inr ⟨_, rfl, hzero, hone hzero, rfl⟩
      | none => exact Or.inl ⟨_, rfl, rfl⟩
    | collected accumulator lease attempt =>
      simp only [afterForward]
      cases hclimb : (accumulator.qualityGate fromStr).bind (fun g =>
          (climbForGate plan s g).map (fun next => (g, next))) with
      | some climbed =>
        obtain ⟨g, -, hnext⟩ := Option.bind_eq_some_iff.mp hclimb
        obtain ⟨next, hgate, rfl⟩ := Option.map_eq_some_iff.mp hnext
        have hzero := climbForGate_escalations hgate
        exact Or.inr ⟨_, rfl, hzero, hone hzero, rfl⟩
      | none => exact Or.inl ⟨_, rfl, rfl⟩

/-- The dispatches of a request between two passes: numbered, and a forward's worth a climb. -/
structure Paced (plan : Plan) (s : State) : Prop where
  numbered : Numbered s.dispatches
  climbs : s.escalations ≤ 1
  length_le : s.dispatches.history.length ≤ (plan.maxAccountSwitches + 1) * s.escalations

theorem paced_start (plan : Plan) : Paced plan { decision := plan.decision } :=
  ⟨numbered_start, Nat.zero_le 1, Nat.zero_le _⟩

/-- After a forward the dispatches are numbered on, with no more than its own added. -/
theorem Paced.forward {s : State} (h : Paced plan s) (pools : ℕ → PoolPass) :
    let forwarded := forwardWithFailover plan.maxAccountSwitches s.decision
      (fun switch => (pools switch).pass) s.dispatches
    Numbered forwarded.2 ∧
      forwarded.2.history.length ≤ (plan.maxAccountSwitches + 1) * (s.escalations + 1) := by
  intro forwarded
  refine ⟨forwardFrom_numbered h.numbered, ?_⟩
  obtain ⟨made, hmade, hlength, -⟩ :=
    forward_made plan.maxAccountSwitches s.decision pools s.dispatches
  have hbefore := h.length_le
  rw [show forwarded.2.history = s.dispatches.history ++ made from hmade, List.length_append,
    Nat.mul_succ]
  omega

/-- The dispatches of a request that has left. -/
structure Counted (plan : Plan) (d : Dispatches) : Prop where
  numbered : Numbered d
  length_le : d.history.length ≤ 2 * (plan.maxAccountSwitches + 1)

theorem Paced.pass {s : State} (h : Paced plan s) (fromStr : String → Option Json)
    (pools : ℕ → ℕ → PoolPass) :
    (∃ exit, Climb.pass fromStr plan (poolWorld pools) s = .done exit ∧
      Counted plan exit.state.dispatches) ∨
      ∃ s', Climb.pass fromStr plan (poolWorld pools) s = .next s' ∧ Paced plan s' := by
  obtain ⟨hnumbered, hlength⟩ := h.forward (pools s.escalations)
  have hclimbs := h.climbs
  let forwarded := forwardWithFailover plan.maxAccountSwitches s.decision
    (poolWorld pools s.escalations) s.dispatches
  rcases afterForward_cases fromStr plan { s with dispatches := forwarded.2 } forwarded.1 with
    ⟨exit, hexit, hstate⟩ | ⟨s', hnext, hzero, hone, hsame⟩
  · refine Or.inl ⟨exit, hexit, ?_⟩
    rw [hstate]
    refine ⟨hnumbered, Nat.le_trans hlength ?_⟩
    rw [Nat.mul_comm]
    exact Nat.mul_le_mul_right _ (Nat.succ_le_succ hclimbs)
  · refine Or.inr ⟨s', hnext, ?_, Nat.le_of_eq hone, ?_⟩
    · rw [hsame]
      exact hnumbered
    · have hclimbed : s'.escalations = s.escalations + 1 :=
        hone.trans (congrArg (· + 1) hzero).symm
      rw [hsame, hclimbed]
      exact hlength

theorem counted_run {passes : ℕ} {exit : Exit}
    (hrun : runWithEscalation fromStr plan (poolWorld pools) passes = some exit) :
    Counted plan exit.state.dispatches := by
  refine Loop.result_of_run (Paced plan) (fun exit => Counted plan exit.state.dispatches)
    ?_ ?_ (paced_start plan) hrun
  · intro s s' hs hnext
    rcases hs.pass fromStr pools with ⟨exit, hexit, -⟩ | ⟨next, hpass, hnext'⟩
    · rw [hexit] at hnext
      cases hnext
    · rw [hpass] at hnext
      cases hnext
      exact hnext'
  · intro s r hs hdone
    rcases hs.pass fromStr pools with ⟨exit, hexit, hcounted⟩ | ⟨next, hpass, -⟩
    · rw [hexit] at hdone
      cases hdone
      exact hcounted
    · rw [hpass] at hdone
      cases hdone

end Request

/-- However the pools answer, a request under this bound numbers its dispatches apart. -/
def DistinctOrdinals (maxAccountSwitches : ℕ) : Prop :=
  ∀ (fromStr : String → Option Json) (plan : Plan) (pools : ℕ → ℕ → PoolPass) (passes : ℕ)
    (exit : Exit), plan.maxAccountSwitches = maxAccountSwitches →
    runWithEscalation fromStr plan (poolWorld pools) passes = some exit →
    (ordinals exit.state.dispatches.history).Nodup

theorem distinctOrdinals_of_le {maxAccountSwitches : ℕ} (h : maxAccountSwitches ≤ 127) :
    DistinctOrdinals maxAccountSwitches := by
  intro fromStr plan pools passes exit hplan hrun
  have hcounted := counted_run hrun
  have hlength := hcounted.length_le
  rw [hplan] at hlength
  exact hcounted.numbered.nodup_iff.mpr (by omega)

/-! A pool of idle credentials, each of which fails in its turn. -/

def idleRow (id : String) : AccountRow String where
  id := id
  provider := "anthropic"
  kind := "api_key"
  priority := 0
  maxConcurrency := 1
  schedulable := true
  cooldownUntil := none
  rateLimitedUntil := none
  windowResetsAt := none
  usageRemainingPct := none
  usageReservePct := none
  lastUsedAt := 0

/-- Nothing is pinned or in use, no breaker is open, and every claim is granted. -/
def idleWorld : World String where
  pin := ⟨none, fun _ => false, none, true, none⟩
  passes _ := ⟨⟨fun _ => true, fun _ => false, fun _ => false, none⟩, 0,
    ⟨fun _ => true, fun _ => false, none, 0⟩, fun _ => some .taken⟩
  room := ⟨fun _ => true, fun _ => false, none, 0⟩
  claim _ := some .taken

def idleSearch (ids excluded : List String) : Search String :=
  ⟨.anthropic, none, excluded, ids.map idleRow, 0⟩

/-- An idle row is in the snapshot, as a candidate that can be picked. -/
theorem idle_candidate {remaining : List (AccountRow String)} {id : String}
    (h : idleRow id ∈ remaining) :
    ∃ c ∈ candidatesFor (idleWorld.passes 0).read remaining 0, c.eligible 0 = true := by
  obtain ⟨c, hc, heligible⟩ : ∃ c, (idleRow id).toCandidate (fun _ => false) 0 0 = some c ∧
      c.eligible 0 = true := ⟨_, rfl, rfl⟩
  have hprobes : (idleWorld.passes 0).read.probes 0 (idleRow id) = true := rfl
  have hprobed : idleRow id ∈ remaining.filter ((idleWorld.passes 0).read.probes 0) :=
    List.mem_filter.mpr ⟨h, hprobes⟩
  refine ⟨c, List.mem_filterMap.mpr ⟨(idleRow id, 0), ?_, hc⟩, heligible⟩
  obtain ⟨inFlight, hentry⟩ := exists_mem_zip hprobed (length_counts none _)
  -- No counts were read, so each one is 0.
  have hzero : inFlight = 0 := List.eq_of_mem_replicate (List.of_mem_zip hentry).2
  exact hzero ▸ hentry

/-- A pool of idle credentials leases one that did not fail yet. -/
theorem idle_leased {ids excluded : List String} {id : String} (hmem : id ∈ ids)
    (hfresh : id ∉ excluded) :
    ∃ row, ((idleSearch ids excluded).leased idleWorld).result = .ok (row, false) := by
  set q := idleSearch ids excluded with hq
  have hrow : idleRow id ∈ q.unexcluded :=
    List.mem_filter.mpr ⟨List.mem_map_of_mem hmem, decide_eq_true hfresh⟩
  have hrows : q.rows ≠ [] := List.ne_nil_of_mem (List.mem_of_mem_filter hrow)
  have hpin : q.pinClaims idleWorld = (none, []) := by
    unfold Search.pinClaims
    split <;> rfl
  obtain ⟨c, hc, heligible⟩ := idle_candidate hrow
  obtain ⟨found, hcascade⟩ : ∃ found, q.cascade idleWorld (q.start []) =
      Search.claimRow (idleWorld.passes 0) found (q.start []) := by
    rcases select_cases (candidatesFor (idleWorld.passes 0).read q.unexcluded 0) 0 0 with
      ⟨-, hnone⟩ | ⟨picked, hpicked, -, stage, hselect⟩
    · rw [hnone c hc] at heligible
      cases heligible
    · obtain ⟨-, row, hrowmem, hid⟩ := mem_candidatesFor hpicked
      cases hfind : q.unexcluded.find? (fun r => r.id = picked.account) with
      | none =>
        have habsent := List.find?_eq_none.mp hfind row hrowmem
        simp [hid] at habsent
      | some found =>
        refine ⟨found, ?_⟩
        unfold Search.cascade
        rw [if_neg (show (q.start []).remaining ≠ [] from List.ne_nil_of_mem hrow)]
        have hpick : select (candidatesFor (idleWorld.passes 0).read q.unexcluded q.now) q.now
            (idleWorld.passes 0).tieBreaker = some ⟨picked.account, stage⟩ := hselect
        simp only [Search.start, hpick, hfind]
  have hlease : q.lease idleWorld (q.candidates.length + 2) =
      some ⟨.ok (found, false), [(found.id, some .taken)]⟩ := by
    unfold Search.lease
    rw [if_neg hrows, hpin]
    exact Loop.run_done (congrArg some hcascade)
  refine ⟨found, ?_⟩
  unfold Search.leased
  simp only [hlease, Option.get_some]

/-- Credential `k` of a pool. -/
def poolIds (size : ℕ) : List String := (List.range size).map toString

theorem length_poolIds (size : ℕ) : (poolIds size).length = size := by
  rw [poolIds, List.length_map, List.length_range]

theorem toString_inj {a b : ℕ} (h : toString a = toString b) : a = b := by
  have hdigits : Nat.toDigits 10 a = Nat.toDigits 10 b := by
    simpa [Nat.toString_eq_repr, Nat.repr] using congrArg String.toList h
  have hvalue := congrArg (fun l => Nat.ofDigitChars 10 l 0) hdigits
  simpa only [Nat.ofDigitChars_ten_toDigits] using hvalue

/-- With fewer failed than there are, one is left. -/
theorem exists_fresh {size : ℕ} {excluded : List String} (h : excluded.length < size) :
    ∃ id ∈ poolIds size, id ∉ excluded := by
  by_contra hall
  have hsub : poolIds size ⊆ excluded := by
    intro id hid
    by_contra hfresh
    exact hall ⟨id, hid, hfresh⟩
  have hnodup : (poolIds size).Nodup := List.nodup_range.map (fun a b hab => toString_inj hab)
  have hle := (hnodup.subperm hsub).length_le
  rw [length_poolIds] at hle
  omega

/-- The upstream is down for every credential but the one of the last switch, for which the
request is too large. -/
def failingTrial (maxAccountSwitches switch : ℕ) : Trial :=
  if switch < maxAccountSwitches then .switch (.upstream .anthropic "" 503 "" none)
  else .escalate (.upstream .anthropic "" 413 "" none)

/-- As many idle credentials as there are dispatches. -/
def failingPool (maxAccountSwitches switch : ℕ) : PoolPass where
  inBudget := true
  provider := .anthropic
  channel := none
  candidates := .ok ((poolIds (maxAccountSwitches + 1)).map idleRow)
  now := 0
  world := idleWorld
  trial := failingTrial maxAccountSwitches switch

theorem failingPool_lease {n switch : ℕ} {excluded : List String} (h : excluded.length ≤ n) :
    ∃ lease, (failingPool n switch).lease excluded = .ok lease := by
  obtain ⟨id, hid, hfresh⟩ := exists_fresh (Nat.lt_succ_of_le h)
  obtain ⟨row, hrow⟩ := idle_leased hid hfresh
  refine ⟨leaseOf row, ?_⟩
  unfold PoolPass.lease
  simp only [failingPool]
  rw [show (Search.leased ⟨.anthropic, none, excluded, (poolIds (n + 1)).map idleRow, 0⟩
    idleWorld).result = .ok (row, false) from hrow]

theorem failingTrial_switch {n switch : ℕ} (h : switch < n) :
    failingTrial n switch = .switch (.upstream .anthropic "" 503 "" none) := if_pos h

theorem failingTrial_escalate (n : ℕ) :
    failingTrial n n = .escalate (.upstream .anthropic "" 413 "" none) := if_neg (Nat.lt_irrefl n)

theorem length_take (d : Dispatches) (decision : RoutingDecision) (lease : Lease) (trial : Trial) :
    (d.take decision lease trial).history.length = d.history.length + 1 := by
  unfold Dispatches.take
  rw [List.length_append, List.length_singleton]

/-- Every switch is used, and the last credential has the request rejected. -/
theorem forward_failing (decision : RoutingDecision) {n left switch : ℕ} {excluded : List String}
    (lastError : GatewayError) (d : Dispatches) (hleft : left + switch = n)
    (hexcluded : excluded.length = switch) :
    ∃ d', forwardFrom decision (fun switch => (failingPool n switch).pass) (left + 1) switch
        excluded lastError d = (.ok (.rejected (.upstream .anthropic "" 413 "" none)), d') ∧
      d'.history.length = d.history.length + (left + 1) := by
  obtain ⟨lease, hlease⟩ : ∃ lease, (failingPool n switch).pass.lease excluded = .ok lease :=
    failingPool_lease (by omega)
  have hbudget : mayTryAnother switch (failingPool n switch).pass.inBudget = true := Bool.or_true _
  induction left generalizing switch excluded lastError d lease with
  | zero =>
    obtain rfl : switch = n := by omega
    have htrial : (failingPool switch switch).pass.trial = _ := failingTrial_escalate switch
    refine ⟨d.take decision lease (.escalate (.upstream .anthropic "" 413 "" none)), ?_,
      length_take _ _ _ _⟩
    rw [forwardFrom]
    simp only [hbudget, if_true, hlease, htrial]
    rfl
  | succ left ih =>
    have htrial : (failingPool n switch).pass.trial = _ := failingTrial_switch (by omega)
    obtain ⟨next, hnext⟩ : ∃ next, (failingPool n (switch + 1)).pass.lease
        (lease.account :: excluded) = .ok next := failingPool_lease (by
          rw [List.length_cons]
          omega)
    obtain ⟨d', hrun, hlength⟩ := ih (.upstream .anthropic "" 503 "" none)
      (d.take decision lease (.switch (.upstream .anthropic "" 503 "" none))) (by omega)
      (by rw [List.length_cons, hexcluded]) next hnext (Bool.or_true _)
    refine ⟨d', ?_, ?_⟩
    · rw [forwardFrom]
      simp only [hbudget, if_true, hlease, htrial]
      exact hrun
    · rw [hlength, length_take]
      omega

/-- A request on the lower of two rungs, and as many switches as it is given. -/
def twoRungPlan (maxAccountSwitches : ℕ) : Plan where
  policy := RoutingPolicy.twoRungs
  decision := ⟨RoutingPolicy.onlyModel, some RoutingPolicy.twoRungs.ladder.floor, .classified, none,
    none⟩
  signal := {}
  catalog := RoutingPolicy.onlyCatalog
  pressure := .normal
  served := []
  maxTokens := 100
  maxAccountSwitches := maxAccountSwitches

theorem forwardWithFailover_failing (n : ℕ) (decision : RoutingDecision) (d : Dispatches) :
    ∃ d', forwardWithFailover n decision (fun switch => (failingPool n switch).pass) d =
        (.ok (.rejected (.upstream .anthropic "" 413 "" none)), d') ∧
      d'.history.length = d.history.length + (n + 1) :=
  forward_failing decision (.noCredential decision.model.provider) d (Nat.add_zero n) List.length_nil

theorem pass_of_forward {fromStr : String → Option Json} {plan : Plan}
    {world : ℕ → ℕ → Failover.Pass} {s : State} {result : Except GatewayError Attempt}
    {d : Dispatches} (h : forwardWithFailover plan.maxAccountSwitches s.decision
      (world s.escalations) s.dispatches = (result, d)) :
    Climb.pass fromStr plan world s = afterForward fromStr plan { s with dispatches := d } result := by
  unfold Climb.pass
  rw [h]

/-- Both forwards of the request use every switch. -/
theorem failing_request (n : ℕ) :
    ∃ exit, runWithEscalation (fun _ => none) (twoRungPlan n)
        (poolWorld (fun _ => failingPool n)) 2 = some exit ∧
      exit.state.dispatches.history.length = 2 * (n + 1) := by
  let start : State := { decision := (twoRungPlan n).decision }
  obtain ⟨d, hfirst, hlength⟩ := forwardWithFailover_failing n start.decision start.dispatches
  obtain ⟨next, hclimb⟩ : ∃ next, climbForGate (twoRungPlan n) { start with dispatches := d }
      .contextOverflow = some next := ⟨_, rfl⟩
  let climbed := { start with dispatches := d }.climb next .contextOverflow
  obtain ⟨d', hsecond, hlength'⟩ := forwardWithFailover_failing n climbed.decision climbed.dispatches
  have hstay : climbForGate (twoRungPlan n) { climbed with dispatches := d' } .contextOverflow =
      none := by
    unfold climbForGate
    exact if_neg (by simp [shouldClimb, escalationAllowed, climbed, State.climb, start,
      maxEscalations])
  have hlower : Climb.pass (fun _ => none) (twoRungPlan n) (poolWorld (fun _ => failingPool n))
      start = .next climbed := by
    rw [pass_of_forward hfirst]
    simp only [afterForward, hclimb]
    rfl
  have hupper : Climb.pass (fun _ => none) (twoRungPlan n) (poolWorld (fun _ => failingPool n))
      climbed = .done ⟨spawnUnserved climbed.abandoned d'.lost,
        .error (.upstream .anthropic "" 413 "" none), { climbed with dispatches := d' }⟩ := by
    rw [pass_of_forward hsecond]
    simp only [afterForward, hstay]
  refine ⟨_, (Loop.run_next (congrArg some hlower)).trans (Loop.run_done (congrArg some hupper)), ?_⟩
  have hempty : start.dispatches.history.length = 0 := rfl
  have hkept : climbed.dispatches = d := rfl
  rw [hkept, hlength, hempty] at hlength'
  show d'.history.length = _
  omega

/-- The last number is given out again when both forwards use more switches than it leaves. -/
theorem not_distinctOrdinals {n : ℕ} (h : 127 < n) : ¬ DistinctOrdinals n := by
  intro hdistinct
  obtain ⟨exit, hrun, hlength⟩ := failing_request n
  have hnodup := hdistinct _ (twoRungPlan n) _ 2 exit rfl hrun
  have hle := (counted_run hrun).numbered.nodup_iff.mp hnodup
  omega

/-- One forward never leases a credential twice and makes at most one dispatch more than it has
switches, over every pool and every outcome. And the numbers of a request's dispatches are
distinct, over every pool and every outcome, exactly when there are at most 127 switches. -/
theorem failover_bounds (maxAccountSwitches : ℕ) :
    (∀ (decision : RoutingDecision) (pools : ℕ → PoolPass) (d : Dispatches),
      ∃ made, (forwardWithFailover maxAccountSwitches decision
          (fun switch => (pools switch).pass) d).2.history = d.history ++ made ∧
        made.length ≤ maxAccountSwitches + 1 ∧ (accounts made).Nodup) ∧
      (DistinctOrdinals maxAccountSwitches ↔ maxAccountSwitches ≤ 127) := by
  refine ⟨forward_made maxAccountSwitches, fun hdistinct => ?_, distinctOrdinals_of_le⟩
  by_contra hmany
  exact not_distinctOrdinals (Nat.lt_of_not_le hmany) hdistinct

/-- With 128 switches both forwards of a request give out the number 255. -/
theorem saturated_ordinal_repeats :
    ∃ exit, runWithEscalation (fun _ => none) (twoRungPlan 128)
        (poolWorld (fun _ => failingPool 128)) 2 = some exit ∧
      exit.state.dispatches.history.length = 258 ∧
      ¬ (ordinals exit.state.dispatches.history).Nodup := by
  obtain ⟨exit, hrun, hlength⟩ := failing_request 128
  refine ⟨exit, hrun, hlength, fun hnodup => ?_⟩
  have hle := (counted_run hrun).numbered.nodup_iff.mp hnodup
  omega

end Climb

end OpenAIGateway
