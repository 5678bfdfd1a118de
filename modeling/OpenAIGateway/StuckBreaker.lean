import OpenAIGateway.Breakers

/-!
The requests of a replica as futures. A request claims a dispatch, waits at one
await after another, and its future may be dropped at each of them; the guard
goes with it. Between sending and recording an outcome the guard has nothing to
give back, so a probe whose future is dropped there stays out. In a run where
that does not happen no breaker is stuck: with nothing in flight and the
cooldown over, a credential is permitted.
-/

set_option linter.all false

namespace OpenAIGateway

/-- What a request that claimed a dispatch waits for. -/
inductive Phase
  /-- A transport, before the request is sent. -/
  | connecting
  /-- The status line of the answer. -/
  | sending
  /-- The rest of an answer that has no recorded outcome yet. -/
  | reading
  /-- Anything after the outcome was recorded: a cooldown write, a body, a backoff. -/
  | settled (success : Bool)
  /-- Nothing: its future returned or was dropped. -/
  | gone
  deriving DecidableEq

/-- A request that claimed a dispatch. It is probing while it was granted the
half-open probe and no outcome of its credential was recorded since. -/
structure Request (AccountId : Type*) where
  account : AccountId
  guard : Dispatch AccountId
  probing : Bool
  phase : Phase
  deriving DecidableEq

/-- The breakers, the clock, the last failure of every credential and every
request that claimed a dispatch so far. -/
structure Pool (AccountId : Type*) where
  breakers : Breakers AccountId
  now : ℤ
  lastFailure : AccountId → Option ℤ
  requests : List (Request AccountId)

/-- What one request does between two awaits. -/
inductive Act
  | send
  | answered
  | record (success : Bool)
  | retry
  /-- The future returns, or is dropped where it waits. -/
  | drop
  deriving DecidableEq

inductive Move (AccountId : Type*)
  | tick (now : ℤ)
  /-- An operator puts a credential back in rotation. -/
  | clear (account : AccountId)
  | claim (account : AccountId)
  | act (request : ℕ) (act : Act)

namespace Pool

variable {AccountId : Type*} [DecidableEq AccountId]

def new (now : ℤ) : Pool AccountId := ⟨fun _ => none, now, fun _ => none, []⟩

/-- An outcome of a credential, after which none of its requests is probing. -/
def recordOutcome (s : Pool AccountId) (account : AccountId) (success : Bool) :
    Pool AccountId where
  breakers :=
    if success then s.breakers.recordSuccess account else s.breakers.recordFailure account s.now
  now := s.now
  lastFailure :=
    if success then s.lastFailure else Function.update s.lastFailure account (some s.now)
  requests :=
    s.requests.map (fun r => if r.account = account then { r with probing := false } else r)

/-- Put a request in another phase. -/
def enter (s : Pool AccountId) (i : ℕ) (r : Request AccountId) (phase : Phase) : Pool AccountId :=
  { s with requests := s.requests.set i { r with phase := phase } }

/-- One act of one request, `none` where its phase does not allow it. -/
def act (s : Pool AccountId) (i : ℕ) (r : Request AccountId) : Act → Option (Pool AccountId)
  | .send =>
    if r.phase = .connecting then some (s.enter i { r with guard := r.guard.sent } .sending)
    else none
  | .answered => if r.phase = .sending then some (s.enter i r .reading) else none
  | .record success =>
    if r.phase = .sending ∨ r.phase = .reading then
      some ((s.recordOutcome r.account success).enter i { r with probing := false }
        (.settled success))
    else none
  | .retry =>
    if r.phase = .settled false ∧ s.breakers.permits r.account s.now = true then
      some (s.enter i r .connecting)
    else none
  | .drop =>
    if r.phase = .gone then none
    else some { s.enter i r .gone with breakers := r.guard.drop s.breakers }

def step (s : Pool AccountId) : Move AccountId → Option (Pool AccountId)
  | .tick now => some { s with now := now }
  | .clear account => some (s.recordOutcome account true)
  | .claim account =>
    match Dispatch.claim s.breakers account s.now with
    | (none, breakers) => some { s with breakers := breakers }
    | (some d, breakers) =>
      some { s with
        breakers := breakers
        requests := s.requests ++ [⟨account, d, d.probe, .connecting⟩] }
  | .act i act => s.requests[i]?.bind (fun r => s.act i r act)

/-- No request that claimed a dispatch on the credential is still there. -/
def Idle (s : Pool AccountId) (account : AccountId) : Prop :=
  ∀ r ∈ s.requests, r.account = account → r.phase = .gone

/-- The cooldown has passed since the last failure of the credential. -/
def Cooled (s : Pool AccountId) (account : AccountId) : Prop :=
  ∀ failed ∈ s.lastFailure account, saturatingAddI64 failed cooldown ≤ s.now

instance (s : Pool AccountId) (account : AccountId) : Decidable (s.Idle account) :=
  inferInstanceAs (Decidable (∀ r ∈ s.requests, r.account = account → r.phase = .gone))

instance (s : Pool AccountId) (account : AccountId) : Decidable (s.Cooled account) :=
  inferInstanceAs (Decidable (∀ failed ∈ s.lastFailure account,
    saturatingAddI64 failed cooldown ≤ s.now))

/-- No future is dropped between sending a probe and recording its outcome. -/
def Spared (s : Pool AccountId) : Move AccountId → Prop
  | .act i .drop =>
    ∀ r ∈ s.requests[i]?, r.probing = true → r.phase ≠ .sending ∧ r.phase ≠ .reading
  | _ => True

instance (s : Pool AccountId) : ∀ move, Decidable (s.Spared move)
  | .act i .drop => inferInstanceAs (Decidable (∀ r ∈ s.requests[i]?,
      r.probing = true → r.phase ≠ .sending ∧ r.phase ≠ .reading))
  | .act _ .send | .act _ .answered | .act _ (.record _) | .act _ .retry => isTrue trivial
  | .tick _ | .clear _ | .claim _ => isTrue trivial

end Pool

/-- The trip settings; a breaker that is not closed counts a run of failures and
opens no later than the last of them asks; a probe is out of such a breaker only. -/
structure Timely (b : Breaker) (lastFailure : Option ℤ) : Prop where
  threshold : b.tripThreshold = tripThreshold
  cooldownSecs : b.cooldownSecs = cooldown
  opened : ∀ untilUnix, b.openedUntil = some untilUnix → tripThreshold ≤ b.consecutiveFailures ∧
    ∃ failed, lastFailure = some failed ∧ untilUnix ≤ saturatingAddI64 failed cooldown
  flagged : b.halfOpenProbeSent = true → ∃ untilUnix, b.openedUntil = some untilUnix

namespace Timely

variable {b : Breaker} {lastFailure : Option ℤ}

theorem new : Timely (Breaker.new tripThreshold cooldown) lastFailure :=
  ⟨rfl, rfl, (fun _ huntil => nomatch huntil), fun hsent => nomatch hsent⟩

theorem beginRequest (h : Timely b lastFailure) (now : ℤ) :
    Timely (b.beginRequest now).2 lastFailure := by
  rcases b.beginRequest_cases now with ⟨-, hbegin⟩ | hbegin | hbegin
  · have hopen : ∃ untilUnix, b.openedUntil = some untilUnix := by
      rw [← Option.ne_none_iff_exists']
      intro hclosed
      simp [Breaker.beginRequest, Breaker.state, hclosed] at hbegin
    rw [hbegin]
    exact ⟨h.threshold, h.cooldownSecs, h.opened, fun _ => hopen⟩
  · rw [hbegin]
    exact h
  · rw [hbegin]
    exact h

theorem releaseProbe (h : Timely b lastFailure) : Timely b.releaseProbe lastFailure :=
  ⟨h.threshold, h.cooldownSecs, h.opened, fun hsent => nomatch hsent⟩

theorem recordSuccess (h : Timely b lastFailure) : Timely b.recordSuccess lastFailure :=
  ⟨h.threshold, h.cooldownSecs, (fun _ huntil => nomatch huntil), fun hsent => nomatch hsent⟩

/-- A failure that does not trip the breaker finds it closed, since an open one is past the threshold. -/
theorem closed_of_untripped (h : Timely b lastFailure)
    (htrip : ¬ b.tripThreshold ≤ min (b.consecutiveFailures + 1) (2 ^ 32 - 1)) :
    b.openedUntil = none := by
  rw [Option.eq_none_iff_forall_ne_some]
  intro untilUnix huntil
  have hpast := (h.opened untilUnix huntil).1
  rw [h.threshold] at htrip
  unfold tripThreshold at hpast htrip
  omega

theorem recordFailure (h : Timely b lastFailure) (now : ℤ) :
    Timely (b.recordFailure now) (some now) := by
  unfold Breaker.recordFailure
  by_cases htrip : b.tripThreshold ≤ min (b.consecutiveFailures + 1) (2 ^ 32 - 1)
  · simp only [if_pos htrip]
    refine ⟨h.threshold, h.cooldownSecs, ?_, fun hsent => nomatch hsent⟩
    intro untilUnix huntil
    obtain rfl := Option.some.inj huntil
    refine ⟨h.threshold ▸ htrip, now, rfl, Int.le_of_eq ?_⟩
    rw [h.cooldownSecs]
    rfl
  · simp only [if_neg htrip]
    have hclosed := h.closed_of_untripped htrip
    refine ⟨h.threshold, h.cooldownSecs, ?_, h.flagged⟩
    intro untilUnix huntil
    rw [hclosed] at huntil
    cases huntil

/-- An outcome leaves no probe out. -/
theorem recordFailure_sent (h : Timely b lastFailure) (now : ℤ) :
    (b.recordFailure now).halfOpenProbeSent = false := by
  unfold Breaker.recordFailure
  by_cases htrip : b.tripThreshold ≤ min (b.consecutiveFailures + 1) (2 ^ 32 - 1)
  · simp only [if_pos htrip]
  · simp only [if_neg htrip]
    rw [Bool.eq_false_iff]
    intro hsent
    obtain ⟨untilUnix, huntil⟩ := h.flagged hsent
    rw [h.closed_of_untripped htrip] at huntil
    cases huntil

/-- With the cooldown over, only a probe that is out keeps a breaker from permitting. -/
theorem permits (h : Timely b lastFailure) {now : ℤ}
    (hcooled : ∀ failed, lastFailure = some failed → saturatingAddI64 failed cooldown ≤ now)
    (hprobe : b.halfOpenProbeSent = false) : b.permits now = true := by
  unfold Breaker.permits Breaker.state
  cases huntil : b.openedUntil with
  | none => rfl
  | some untilUnix =>
    obtain ⟨-, failed, hlast, hle⟩ := h.opened untilUnix huntil
    have hover : ¬ now < untilUnix := by
      have := hcooled failed hlast
      omega
    simp [hover, hprobe]

end Timely

/-- A probing request that has not sent still has the probe in its guard, and
one whose outcome is recorded is not probing. -/
structure Request.Guarded {AccountId : Type*} (r : Request AccountId) : Prop where
  account : r.guard.account = r.account
  unsent : r.probing = true → r.phase = .connecting → r.guard.probe = true
  unsettled : r.probing = true → ∀ success, r.phase ≠ .settled success

/-- Past sending and before recording, a guard has nothing to be in step with. -/
theorem Request.guarded_of_phase {AccountId : Type*} {r : Request AccountId}
    (hacc : r.guard.account = r.account) (hunsent : r.phase ≠ .connecting)
    (hunsettled : ∀ success, r.phase ≠ .settled success) : r.Guarded :=
  ⟨hacc, fun _ hphase => absurd hphase hunsent, fun _ => hunsettled⟩

section Claims

variable {AccountId : Type*} [DecidableEq AccountId] {breakers : Breakers AccountId}
  {account : AccountId}

theorem claim_breakers (breakers : Breakers AccountId) (account : AccountId) (now : ℤ) :
    (Dispatch.claim breakers account now).2 =
      Function.update breakers account (some ((breakers.entry account).beginRequest now).2) := by
  unfold Dispatch.claim Breakers.beginRequest
  rcases (breakers.entry account).beginRequest_cases now with ⟨-, hbegin⟩ | hbegin | hbegin
  · rw [hbegin]
  · rw [hbegin]
  · rw [hbegin]

/-- A probe that is out after a guard is dropped was out before, and is not the guard's. -/
theorem probeOut_drop {d : Dispatch AccountId} (h : (d.drop breakers).ProbeOut account) :
    breakers.ProbeOut account ∧ (d.probe = true → account ≠ d.account) := by
  unfold Dispatch.drop at h
  by_cases hprobe : d.probe = true
  · rw [if_pos hprobe] at h
    have hne : account ≠ d.account := by
      rintro rfl
      unfold Breakers.releaseProbe Breakers.ProbeOut at h
      cases hb : breakers d.account with
      | none =>
        simp [hb, Breakers.entry, Breaker.new] at h
      | some b =>
        rw [hb] at h
        rw [entry_update_self] at h
        cases h
    exact ⟨(probeOut_releaseProbe breakers hne).mp h, fun _ => hne⟩
  · rw [if_neg hprobe] at h
    exact ⟨h, fun hp => absurd hp hprobe⟩

end Claims

theorem getElem?_concat_of_some {α : Type*} {xs : List α} {a x : α} {i : ℕ}
    (h : xs[i]? = some x) : (xs ++ [a])[i]? = some x := by
  rw [List.getElem?_append_left (List.getElem?_eq_some_iff.mp h).1]
  exact h

namespace Pool

variable {AccountId : Type*}

/-- The request that holds the probe of a credential is still there. -/
def Holder (s : Pool AccountId) (account : AccountId) (i : ℕ) (r : Request AccountId) : Prop :=
  s.requests[i]? = some r ∧ r.account = account ∧ r.probing = true ∧ r.phase ≠ .gone

/-- Breakers open no longer than their last failure asks, every request's guard
is in step with it, and a probe that is out belongs to a request that is there. -/
structure Inv (s : Pool AccountId) : Prop where
  timely : ∀ account, Timely (s.breakers.entry account) (s.lastFailure account)
  guarded : ∀ (i : ℕ) (r : Request AccountId), s.requests[i]? = some r → r.Guarded
  held : ∀ account, s.breakers.ProbeOut account → ∃ i r, s.Holder account i r

variable {s s' : Pool AccountId} {i : ℕ} {r : Request AccountId}

theorem inv_new (now : ℤ) : Inv (Pool.new now : Pool AccountId) where
  timely _ := Timely.new
  guarded := by
    intro i r hr
    cases hr
  held := by
    intro account hout
    cases hout

/-- A request that goes on to another phase keeps what it holds. -/
theorem inv_enter {q : Request AccountId} {phase : Phase} (h : Inv s) (hr : s.requests[i]? = some r)
    (hacc : q.account = r.account) (hprobing : q.probing = r.probing) (hphase : phase ≠ .gone)
    (hguarded : Request.Guarded { q with phase := phase }) : Inv (s.enter i q phase) where
  timely := h.timely
  guarded := by
    intro j x hx
    rcases getElem?_set_cases hx with ⟨-, rfl⟩ | ⟨-, hx⟩
    · exact hguarded
    · exact h.guarded j x hx
  held := by
    intro account hout
    obtain ⟨j, x, hx, hxacc, hxprobing, hthere⟩ := h.held account hout
    have hi : i < s.requests.length := (List.getElem?_eq_some_iff.mp hr).1
    by_cases hji : j = i
    · subst hji
      obtain rfl : r = x := Option.some.inj (hr.symm.trans hx)
      exact ⟨j, { q with phase := phase }, List.getElem?_set_self hi, hacc.trans hxacc,
        hprobing.trans hxprobing, hphase⟩
    · refine ⟨j, x, ?_, hxacc, hxprobing, hthere⟩
      exact (List.getElem?_set_ne (Ne.symm hji)).trans hx

/-- With nothing in flight no probe is out, and a cooled breaker permits. -/
theorem Inv.permits {account : AccountId} (h : Inv s) (hidle : s.Idle account)
    (hcooled : s.Cooled account) : s.breakers.permits account s.now = true := by
  have hprobe : (s.breakers.entry account).halfOpenProbeSent = false := by
    rw [Bool.eq_false_iff]
    intro hout
    obtain ⟨i, r, hr, hacc, -, hthere⟩ := h.held account hout
    exact hthere (hidle r (List.mem_of_getElem? hr) hacc)
  have hpermits := (h.timely account).permits hcooled hprobe
  unfold Breakers.permits
  cases hb : s.breakers account with
  | none => rfl
  | some b =>
    unfold Breakers.entry at hpermits
    rw [hb] at hpermits
    exact hpermits

variable [DecidableEq AccountId]

theorem timely_update {breakers : Breakers AccountId} {lastFailure : AccountId → Option ℤ}
    {b : Breaker} {last : Option ℤ}
    (h : ∀ account, Timely (breakers.entry account) (lastFailure account)) (hb : Timely b last)
    (account other : AccountId) :
    Timely (Breakers.entry (Function.update breakers account (some b)) other)
      (Function.update lastFailure account last other) := by
  by_cases hother : other = account
  · subst hother
    rw [entry_update_self, Function.update_self]
    exact hb
  · unfold Breakers.entry
    rw [Function.update_of_ne hother, Function.update_of_ne hother]
    exact h other

theorem timely_update_same {breakers : Breakers AccountId} {lastFailure : AccountId → Option ℤ}
    {account : AccountId} {b : Breaker}
    (h : ∀ account, Timely (breakers.entry account) (lastFailure account))
    (hb : Timely b (lastFailure account)) (other : AccountId) :
    Timely (Breakers.entry (Function.update breakers account (some b)) other)
      (lastFailure other) := by
  have hupdate := timely_update h hb account other
  rwa [Function.update_eq_self] at hupdate

theorem timely_drop (h : Inv s) (d : Dispatch AccountId) (account : AccountId) :
    Timely ((d.drop s.breakers).entry account) (s.lastFailure account) := by
  unfold Dispatch.drop Breakers.releaseProbe
  by_cases hprobe : d.probe = true
  · rw [if_pos hprobe]
    cases hb : s.breakers d.account with
    | none => exact h.timely account
    | some b =>
      refine timely_update_same h.timely ?_ account
      have hentry := h.timely d.account
      unfold Breakers.entry at hentry
      rw [hb] at hentry
      exact hentry.releaseProbe
  · rw [if_neg hprobe]
    exact h.timely account

theorem inv_recordOutcome (h : Inv s) (account : AccountId) (success : Bool) :
    Inv (s.recordOutcome account success) where
  timely := by
    cases success with
    | true => exact timely_update_same h.timely (h.timely account).recordSuccess
    | false => exact timely_update h.timely ((h.timely account).recordFailure s.now) account
  guarded := by
    intro i r hr
    simp only [recordOutcome, List.getElem?_map, Option.map_eq_some_iff] at hr
    obtain ⟨q, hq, rfl⟩ := hr
    have hguarded := h.guarded i q hq
    by_cases hacc : q.account = account
    · rw [if_pos hacc]
      exact ⟨hguarded.account, (fun hprobing => nomatch hprobing), fun hprobing => nomatch hprobing⟩
    · rw [if_neg hacc]
      exact hguarded
  held := by
    intro other hout
    have hne : other ≠ account := by
      rintro rfl
      unfold Breakers.ProbeOut recordOutcome at hout
      cases success with
      | true =>
        rw [if_pos rfl, Breakers.recordSuccess, entry_update_self] at hout
        cases hout
      | false =>
        rw [if_neg Bool.false_ne_true, Breakers.recordFailure, entry_update_self,
          (h.timely other).recordFailure_sent] at hout
        cases hout
    have hbefore : s.breakers.ProbeOut other := by
      cases success with
      | true => exact (probeOut_update_of_ne _ hne).mp hout
      | false => exact (probeOut_update_of_ne _ hne).mp hout
    obtain ⟨i, r, hr, hacc, hprobing, hthere⟩ := h.held other hbefore
    refine ⟨i, r, ?_, hacc, hprobing, hthere⟩
    have hkept : r.account ≠ account := hacc ▸ hne
    simp only [recordOutcome, List.getElem?_map, hr, Option.map_some, if_neg hkept]

theorem inv_send (h : Inv s) (hr : s.requests[i]? = some r) (hact : s.act i r .send = some s') :
    Inv s' := by
  simp only [act, Option.ite_none_right_eq_some, Option.some.injEq] at hact
  obtain ⟨-, rfl⟩ := hact
  exact inv_enter h hr rfl rfl (by simp)
    (Request.guarded_of_phase (h.guarded i r hr).account (by simp) (by simp))

theorem inv_answered (h : Inv s) (hr : s.requests[i]? = some r)
    (hact : s.act i r .answered = some s') : Inv s' := by
  simp only [act, Option.ite_none_right_eq_some, Option.some.injEq] at hact
  obtain ⟨-, rfl⟩ := hact
  exact inv_enter h hr rfl rfl (by simp)
    (Request.guarded_of_phase (h.guarded i r hr).account (by simp) (by simp))

theorem inv_record {success : Bool} (h : Inv s) (hr : s.requests[i]? = some r)
    (hact : s.act i r (.record success) = some s') : Inv s' := by
  simp only [act, Option.ite_none_right_eq_some, Option.some.injEq] at hact
  obtain ⟨-, rfl⟩ := hact
  have hsettled : (s.recordOutcome r.account success).requests[i]? =
      some { r with probing := false } := by
    simp only [recordOutcome, List.getElem?_map, hr, Option.map_some, if_true]
  refine inv_enter (inv_recordOutcome h r.account success) hsettled rfl rfl (by simp) ?_
  exact ⟨(h.guarded i r hr).account, (fun hprobing => nomatch hprobing),
    fun hprobing => nomatch hprobing⟩

theorem inv_retry (h : Inv s) (hr : s.requests[i]? = some r) (hact : s.act i r .retry = some s') :
    Inv s' := by
  simp only [act, Option.ite_none_right_eq_some, Option.some.injEq] at hact
  obtain ⟨⟨hsettled, -⟩, rfl⟩ := hact
  have hguarded := h.guarded i r hr
  -- The outcome is recorded, so there is no probe left to hold.
  refine inv_enter h hr rfl rfl (by simp) ⟨hguarded.account, ?_, by simp⟩
  intro hprobing
  exact absurd hsettled (hguarded.unsettled hprobing false)

/-- A guard that is dropped where the request may wait leaves no probe behind. -/
theorem inv_drop (h : Inv s) (hr : s.requests[i]? = some r)
    (hspared : r.probing = true → r.phase ≠ .sending ∧ r.phase ≠ .reading)
    (hact : s.act i r .drop = some s') : Inv s' := by
  simp only [act, Option.ite_none_left_eq_some, Option.some.injEq] at hact
  obtain ⟨hthere, rfl⟩ := hact
  have hguarded := h.guarded i r hr
  refine ⟨timely_drop h r.guard, ?_, ?_⟩
  · intro j x hx
    rcases getElem?_set_cases hx with ⟨-, rfl⟩ | ⟨-, hx⟩
    · exact Request.guarded_of_phase hguarded.account (by simp) (by simp)
    · exact h.guarded j x hx
  · intro account hout
    obtain ⟨hbefore, hgiven⟩ := probeOut_drop hout
    obtain ⟨j, x, hx, hxacc, hxprobing, hxthere⟩ := h.held account hbefore
    refine ⟨j, x, ?_, hxacc, hxprobing, hxthere⟩
    have hji : j ≠ i := by
      rintro rfl
      obtain rfl : r = x := Option.some.inj (hr.symm.trans hx)
      cases hphase : r.phase with
      | connecting =>
        exact hgiven (hguarded.unsent hxprobing hphase) (hxacc.symm.trans hguarded.account.symm)
      | sending => exact (hspared hxprobing).1 hphase
      | reading => exact (hspared hxprobing).2 hphase
      | settled success => exact hguarded.unsettled hxprobing success hphase
      | gone => exact hthere hphase
    exact (List.getElem?_set_ne (Ne.symm hji)).trans hx

theorem inv_claim {account : AccountId} (h : Inv s) (hstep : s.step (.claim account) = some s') :
    Inv s' := by
  have htimely : ∀ other, Timely ((Dispatch.claim s.breakers account s.now).2.entry other)
      (s.lastFailure other) := by
    intro other
    rw [claim_breakers]
    exact timely_update_same h.timely ((h.timely account).beginRequest s.now) other
  simp only [step] at hstep
  rcases claim_cases s.breakers account s.now with
    ⟨-, breakers', hclaim, hout, hothers⟩ | ⟨d, breakers', hclaim, hd, hsame⟩
  · rw [hclaim] at hstep htimely
    obtain rfl := Option.some.inj hstep
    refine ⟨htimely, ?_, ?_⟩
    · intro i r hr
      rcases getElem?_concat_cases hr with hr | ⟨-, rfl⟩
      · exact h.guarded i r hr
      · exact ⟨rfl, fun _ _ => rfl, by simp⟩
    · intro other hother
      by_cases hacc : other = account
      · exact ⟨s.requests.length, _, List.getElem?_concat_length, hacc.symm, rfl, by simp⟩
      · obtain ⟨i, r, hr, hkept⟩ := h.held other ((hothers other hacc).mp hother)
        exact ⟨i, r, getElem?_concat_of_some hr, hkept⟩
  · rw [hclaim] at hstep htimely
    rcases hd with rfl | rfl
    · obtain rfl := Option.some.inj hstep
      exact ⟨htimely, h.guarded, fun other hother => h.held other ((hsame other).mp hother)⟩
    · obtain rfl := Option.some.inj hstep
      refine ⟨htimely, ?_, ?_⟩
      · intro i r hr
        rcases getElem?_concat_cases hr with hr | ⟨-, rfl⟩
        · exact h.guarded i r hr
        · exact ⟨rfl, (fun hprobing => nomatch hprobing), fun hprobing => nomatch hprobing⟩
      · intro other hother
        obtain ⟨i, r, hr, hkept⟩ := h.held other ((hsame other).mp hother)
        exact ⟨i, r, getElem?_concat_of_some hr, hkept⟩

/-- A step that drops no probe on the wire keeps the invariant. -/
theorem inv_step (s : Pool AccountId) (move : Move AccountId) (s' : Pool AccountId) (h : Inv s)
    (hspared : s.Spared move) (hstep : s.step move = some s') : Inv s' := by
  cases move with
  | tick now =>
    obtain rfl := Option.some.inj hstep
    exact ⟨h.timely, h.guarded, h.held⟩
  | clear account =>
    obtain rfl := Option.some.inj hstep
    exact inv_recordOutcome h account true
  | claim account => exact inv_claim h hstep
  | act i act =>
    obtain ⟨r, hr, hact⟩ := Option.bind_eq_some_iff.mp hstep
    cases act with
    | send => exact inv_send h hr hact
    | answered => exact inv_answered h hr hact
    | record success => exact inv_record h hr hact
    | retry => exact inv_retry h hr hact
    | drop => exact inv_drop h hr (hspared r hr) hact

/-- In every state reached by requests of which none is dropped between sending a
probe and recording its outcome, an idle credential whose cooldown is over is permitted. -/
theorem permits_of_idle (now : ℤ) (moves : List (Move AccountId)) (s : Pool AccountId)
    (account : AccountId) (hspared : Transition.AllSteps step Spared (Pool.new now) moves)
    (hrun : Transition.run step (Pool.new now) moves = some s) (hidle : s.Idle account)
    (hcooled : s.Cooled account) : s.breakers.permits account s.now = true :=
  (Transition.invariant_run inv_step (inv_new now) hspared hrun).permits hidle hcooled

/-- Five requests that fail, and the cooldown they start. -/
def trippedMoves : List (Move ℕ) :=
  [.claim 0, .act 0 .send, .act 0 (.record false), .act 0 .drop,
    .claim 0, .act 1 .send, .act 1 .answered, .act 1 (.record false), .act 1 .drop,
    .claim 0, .act 2 .send, .act 2 (.record false), .act 2 .drop,
    .claim 0, .act 3 .send, .act 3 (.record false), .act 3 .drop,
    .claim 0, .act 4 .send, .act 4 (.record false), .act 4 .drop,
    .tick 60]

/-- A probe that is called off before it is sent goes back with its guard. -/
theorem permits_after_return :
    ∃ s, Transition.run step (Pool.new 0) (trippedMoves ++ [.claim 0, .act 5 .drop]) = some s ∧
      s.Idle 0 ∧ s.Cooled 0 ∧ s.breakers.permits 0 s.now = true := by
  refine ⟨_, rfl, ?idle, ?cooled, permits_of_idle 0 (trippedMoves ++ [.claim 0, .act 5 .drop]) _ 0
    ?spared rfl ?idle ?cooled⟩
  case spared => decide
  case idle => decide
  case cooled => decide

/-- A probe whose future is dropped on the wire stays out: nothing is in flight,
the cooldown is over, and no later clock permits the credential. -/
theorem stranded_probe :
    ∃ s, Transition.run step (Pool.new 0)
        (trippedMoves ++ [.claim 0, .act 5 .send, .act 5 .drop]) = some s ∧
      s.Idle 0 ∧ s.Cooled 0 ∧ s.breakers.permits 0 s.now = false ∧
      ∀ later, s.breakers.permits 0 later = false := by
  refine ⟨_, rfl, by decide, by decide, rfl, ?_⟩
  intro later
  show (Breaker.mk 5 5 60 (some 60) true).permits later = false
  unfold Breaker.permits Breaker.state
  by_cases hlater : later < 60
  · simp [hlater]
  · simp [hlater]

end Pool

end OpenAIGateway
