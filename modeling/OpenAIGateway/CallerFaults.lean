import OpenAIGateway.BreakerHistory
import OpenAIGateway.Breakers
import OpenAIGateway.Errors
import Mathlib.Data.List.TakeWhile

/-!
What an upstream's answers do to the breaker of the credential that asked.
Whose fault a rejection is decides whether another credential is tried; whether
it counts against the breaker is decided before that is asked, so every
rejection counts. A breaker then stays closed exactly while no run of
rejections, of whatever kind, is as long as its threshold.
-/

set_option linter.all false

namespace OpenAIGateway.CallerFaults

/-- The characters that fit in so many bytes of UTF-8. -/
def fitting : ℕ → List Char → List Char
  | _, [] => []
  | max, c :: cs => if c.utf8Size ≤ max then c :: fitting (max - c.utf8Size) cs else []

/-- No character is split. -/
def truncate (s : String) (max : ℕ) : String :=
  if s.utf8ByteSize ≤ max then s else String.ofList (fitting max s.toList) ++ "…"

/-- What an upstream answered with, its body read. -/
structure Response where
  status : ℕ
  body : String
  retryAfter : Option ℕ
  valid : 100 ≤ status ∧ status < 1000
  deriving DecidableEq

namespace Response

def isSuccess (r : Response) : Bool := decide (200 ≤ r.status ∧ r.status < 300)

/-- The error a rejection is. -/
def error (provider : Provider) (account : String) (r : Response) : GatewayError :=
  .upstream provider account r.status (truncate r.body 512) r.retryAfter

/-- Whose fault a rejection is, which does not depend on who asked. -/
def disposition (r : Response) : Disposition :=
  statusDisposition r.status (truncate r.body 512) r.retryAfter

/-- A rejection of the request itself: no other credential is tried. -/
def AboutTheRequest (r : Response) : Prop :=
  r.isSuccess = false ∧ (r.disposition = .fatal ∨ r.disposition = .escalateTier)

instance (r : Response) : Decidable r.AboutTheRequest := inferInstanceAs (Decidable (_ ∧ _))

theorem disposition_error (provider : Provider) (account : String) (r : Response) :
    (r.error provider account).disposition = r.disposition := rfl

end Response

/-- What happens to the breakers for one credential: a request claims a dispatch,
hands an unspent probe back, or is answered at some time. -/
inductive Event (AccountId : Type*)
  | claim (account : AccountId) (now : ℤ)
  | release (account : AccountId)
  | answered (account : AccountId) (response : Response) (now : ℤ)

variable {AccountId : Type*} [DecidableEq AccountId]

/-- Every answer that is no success is recorded as a failure. -/
def step (breakers : Breakers AccountId) : Event AccountId → Breakers AccountId
  | .claim account now => (breakers.beginRequest account now).2
  | .release account => breakers.releaseProbe account
  | .answered account response now =>
    if response.isSuccess then breakers.recordSuccess account
    else breakers.recordFailure account now

/-- The breakers after these events. -/
def run (events : List (Event AccountId)) : Breakers AccountId :=
  events.foldl step (fun _ => none)

def Event.response (account : AccountId) : Event AccountId → Option Response
  | .answered other response _ => if other = account then some response else none
  | _ => none

/-- What a credential was answered, in order. -/
def responses (account : AccountId) (events : List (Event AccountId)) : List Response :=
  events.filterMap (Event.response account)

/-- What an event is to the breaker of one credential. -/
def Event.operation (account : AccountId) : Event AccountId → Option Breaker.Operation
  | .claim other now => if other = account then some (.beginRequest now) else none
  | .release other => if other = account then some .releaseProbe else none
  | .answered other response now =>
    if other = account then
      some (if response.isSuccess then .recordSuccess else .recordFailure now)
    else none

def operations (account : AccountId) (events : List (Event AccountId)) :
    List Breaker.Operation :=
  events.filterMap (Event.operation account)

/-- Every trailing stretch is short exactly when every stretch is. -/
theorem forall_prefix_takeWhile_lt_iff {α : Type*} (p : α → Bool) (xs : List α) (n : ℕ) :
    (∀ past, past <+: xs → (past.reverse.takeWhile p).length < n) ↔
      ∀ stretch, stretch <:+: xs → (∀ x ∈ stretch, p x = true) → stretch.length < n := by
  constructor
  · rintro h stretch ⟨before, later, rfl⟩ hstretch
    have hlast := h (before ++ stretch) (List.prefix_append _ later)
    rw [List.reverse_append, List.takeWhile_append_of_pos (by simpa using hstretch),
      List.length_append, List.length_reverse] at hlast
    omega
  · rintro h past ⟨later, rfl⟩
    have hsuffix : (past.reverse.takeWhile p).reverse <:+ past := by
      rw [← List.reverse_prefix, List.reverse_reverse]
      exact List.takeWhile_prefix p
    have hall : ∀ x ∈ (past.reverse.takeWhile p).reverse, p x = true := by
      intro x hx
      exact List.mem_takeWhile_imp (List.mem_reverse.mp hx)
    have hlast := h _ (hsuffix.isInfix.trans (List.prefix_append past later).isInfix) hall
    rwa [List.length_reverse] at hlast

section Run

variable (account : AccountId)

/-- An event of another credential leaves the breaker, any other is its operation. -/
theorem entry_step (breakers : Breakers AccountId) (event : Event AccountId) :
    (step breakers event).entry account =
      (breakers.entry account).after (event.operation account).toList := by
  have hother : ∀ {other : AccountId} (b : Breaker), other ≠ account →
      Breakers.entry (Function.update breakers other (some b)) account =
        breakers.entry account := by
    intro other b hne
    unfold Breakers.entry
    rw [Function.update_of_ne (Ne.symm hne)]
  cases event with
  | claim other now =>
    by_cases h : other = account
    · subst h
      simp only [Event.operation, if_true, Option.toList_some]
      exact entry_update_self _
    · simp only [Event.operation, if_neg h, Option.toList_none]
      exact hother _ h
  | release other =>
    by_cases h : other = account
    · subst h
      simp only [Event.operation, if_true, Option.toList_some, step, Breakers.releaseProbe]
      cases hb : breakers other with
      | none =>
        -- A breaker that was never made has no probe to give back.
        simp only [Breakers.entry, hb]
        rfl
      | some b =>
        have hentry : breakers.entry other = b := by
          unfold Breakers.entry
          rw [hb, Option.getD_some]
        rw [hentry]
        exact entry_update_self _
    · simp only [Event.operation, if_neg h, Option.toList_none, step, Breakers.releaseProbe]
      cases breakers other with
      | none => rfl
      | some b => exact hother _ h
  | answered other response now =>
    by_cases h : other = account
    · subst h
      simp only [Event.operation, if_true, Option.toList_some, step]
      cases response.isSuccess with
      | true => exact entry_update_self _
      | false => exact entry_update_self _
    · simp only [Event.operation, if_neg h, Option.toList_none, step]
      cases response.isSuccess with
      | true => exact hother _ h
      | false => exact hother _ h

theorem entry_run (events : List (Event AccountId)) :
    (run events).entry account =
      (Breaker.new tripThreshold cooldown).after (operations account events) := by
  induction events using List.reverseRecOn with
  | nil => rfl
  | append_singleton events event ih =>
    unfold run operations at *
    rw [List.foldl_append, List.foldl_cons, List.foldl_nil, entry_step, ih, List.filterMap_append]
    unfold Breaker.after
    rw [List.foldl_append]
    cases h : event.operation account <;> simp [h]

/-- An event is nothing to a credential, no outcome, or one of its answers. -/
theorem Event.cases (event : Event AccountId) :
    (event.operation account = none ∧ event.response account = none) ∨
    (∃ op : Breaker.Operation, event.operation account = some op ∧ op.outcome = false ∧
      event.response account = none) ∨
    ∃ (r : Response) (now : ℤ), event.response account = some r ∧ event.operation account =
      some (if r.isSuccess then .recordSuccess else .recordFailure now) := by
  cases event with
  | claim other now =>
    by_cases h : other = account
    · exact Or.inr (Or.inl ⟨.beginRequest now, if_pos h, rfl, rfl⟩)
    · exact Or.inl ⟨if_neg h, rfl⟩
  | release other =>
    by_cases h : other = account
    · exact Or.inr (Or.inl ⟨.releaseProbe, if_pos h, rfl, rfl⟩)
    · exact Or.inl ⟨if_neg h, rfl⟩
  | answered other r now =>
    by_cases h : other = account
    · exact Or.inr (Or.inr ⟨r, now, if_pos h, if_pos h⟩)
    · exact Or.inl ⟨if_neg h, if_neg h⟩

/-- The failures a breaker counts are the rejections since the last success. -/
theorem failuresSince_operations (events : List (Event AccountId)) :
    Breaker.failuresSince (operations account events) =
      ((responses account events).reverse.takeWhile (fun r => !r.isSuccess)).length := by
  induction events using List.reverseRecOn with
  | nil => rfl
  | append_singleton events event ih =>
    unfold operations responses at *
    rw [List.filterMap_append, List.filterMap_append]
    rcases event.cases account with ⟨hop, hr⟩ | ⟨op, hop, houtcome, hr⟩ | ⟨r, now, hr, hop⟩
    · simpa only [List.filterMap_cons_none hop, List.filterMap_cons_none hr, List.filterMap_nil,
        List.append_nil] using ih
    · rw [List.filterMap_cons_some hop, List.filterMap_cons_none hr, List.filterMap_nil,
        List.filterMap_nil, List.append_nil,
        Breaker.failuresSince_append_of_not_outcome _ houtcome]
      exact ih
    · rw [List.filterMap_cons_some hop, List.filterMap_cons_some hr, List.filterMap_nil,
        List.filterMap_nil, Breaker.failuresSince_append,
        List.reverse_append, List.reverse_singleton, List.singleton_append, List.takeWhile_cons]
      cases hsuccess : r.isSuccess with
      | true => simp
      | false => simpa [Breaker.Operation.failedAt] using ih

/-- A breaker is closed while the rejections since the last success are too few to trip it. -/
theorem state_run_eq_closed_iff (events : List (Event AccountId)) (now : ℤ) :
    ((run events).entry account).state now = .closed ↔
      ((responses account events).reverse.takeWhile (fun r => !r.isSuccess)).length <
        tripThreshold := by
  have htells := Breaker.tells_after (by decide : tripThreshold < 2 ^ 32) cooldown
    (operations account events)
  have hmax : max tripThreshold 1 = tripThreshold := rfl
  rw [entry_run, ← failuresSince_operations]
  constructor
  · intro hclosed
    by_contra htrip
    obtain ⟨failed, -, hstate⟩ := htells.state_of_tripped (by omega) now
    rw [hclosed] at hstate
    by_cases hopen : now < Breaker.halfOpensAt cooldown failed
    · rw [if_pos hopen] at hstate
      cases hstate
    · rw [if_neg hopen] at hstate
      cases hstate
  · intro hbelow
    exact htells.state_of_below (by omega) now

end Run

/-- Where a credential is answered with successes and rejections of the request
alone, its breaker stays closed exactly when fewer rejections than its threshold
ever stand in a row. -/
theorem closed_iff_short_runs (events : List (Event AccountId)) (account : AccountId)
    (hresponses : ∀ r ∈ responses account events, r.isSuccess = true ∨ r.AboutTheRequest) :
    (∀ past, past <+: events → ∀ now, ((run past).entry account).state now = .closed) ↔
      ∀ rejected, rejected <:+: responses account events →
        (∀ r ∈ rejected, r.AboutTheRequest) → rejected.length < tripThreshold := by
  have hruns : (∀ past, past <+: events → ∀ now,
      ((run past).entry account).state now = .closed) ↔
      ∀ past, past <+: responses account events →
        (past.reverse.takeWhile (fun r => !r.isSuccess)).length < tripThreshold := by
    constructor
    · intro h past hpast
      obtain ⟨before, hbefore, rfl⟩ := List.prefix_filterMap_iff.mp hpast
      exact (state_run_eq_closed_iff account before 0).mp (h before hbefore 0)
    · intro h past hpast now
      exact (state_run_eq_closed_iff account past now).mpr (h _ (hpast.filterMap _))
  rw [hruns, forall_prefix_takeWhile_lt_iff]
  constructor
  · intro h rejected hrejected habout
    exact h rejected hrejected fun r hr => by simp [(habout r hr).1]
  · intro h rejected hrejected hfailed
    refine h rejected hrejected fun r hr => ?_
    rcases hresponses r (hrejected.subset hr) with hsuccess | habout
    · have hrejection := hfailed r hr
      rw [hsuccess] at hrejection
      cases hrejection
    · exact habout

/-- A request that no credential could have had answered. -/
def malformed : Response := ⟨400, "invalid_request_error", none, by decide⟩

/-- Four malformed requests leave a breaker closed. -/
theorem closed_after_four :
    (∀ r ∈ responses 0 (List.replicate 4 (Event.answered 0 malformed 7)),
      r.isSuccess = true ∨ r.AboutTheRequest) ∧
    ∀ past, past <+: List.replicate 4 (Event.answered 0 malformed 7) →
      ∀ now, ((run past).entry 0).state now = .closed := by
  have hresponses : ∀ r ∈ responses 0 (List.replicate 4 (Event.answered 0 malformed 7)),
      r.isSuccess = true ∨ r.AboutTheRequest := by
    decide
  refine ⟨hresponses, (closed_iff_short_runs _ 0 hresponses).mpr ?_⟩
  intro rejected hrejected _
  have hlen : rejected.length ≤ 4 := hrejected.length_le
  unfold tripThreshold
  omega

/-- Five malformed requests in a row take a credential out of service. -/
theorem opened_by_malformed_requests :
    (∀ r ∈ responses 0 (List.replicate 5 (Event.answered 0 malformed 7)), r.AboutTheRequest) ∧
      ((run (List.replicate 5 (Event.answered 0 malformed 7))).entry 0).state 7 =
        .openUntil 67 := by
  decide

end OpenAIGateway.CallerFaults
