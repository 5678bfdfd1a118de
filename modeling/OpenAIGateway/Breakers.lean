import OpenAIGateway.Breaker
import OpenAIGateway.Transition
import Mathlib.Logic.Function.Basic

/-!
The breakers of a replica and the requests that go through them. Each request
holds a guard that gives an unspent probe back, while the probe flag lives in
the breaker. A step is one call under the breakers' lock, so a run is any
interleaving of the requests' calls.
-/

set_option linter.all false

namespace OpenAIGateway

variable {AccountId : Type*} [DecidableEq AccountId]

/-- Consecutive failures before a credential is taken out of rotation. -/
def tripThreshold : ℕ := 5

/-- Seconds it stays out before one probe is allowed through. -/
def cooldown : ℕ := 60

/-- The breakers of every credential this replica has talked to. -/
abbrev Breakers (AccountId : Type*) := AccountId → Option Breaker

namespace Breakers

/-- The entry of a credential, made when it is not there. -/
def entry (breakers : Breakers AccountId) (account : AccountId) : Breaker :=
  (breakers account).getD (Breaker.new tripThreshold cooldown)

def permits (breakers : Breakers AccountId) (account : AccountId) (now : ℤ) : Bool :=
  (breakers account).all (fun b => b.permits now)

def beginRequest (breakers : Breakers AccountId) (account : AccountId) (now : ℤ) :
    Admission × Breakers AccountId :=
  let (admission, b) := (breakers.entry account).beginRequest now
  (admission, Function.update breakers account (some b))

def releaseProbe (breakers : Breakers AccountId) (account : AccountId) : Breakers AccountId :=
  match breakers account with
  | some b => Function.update breakers account (some b.releaseProbe)
  | none => breakers

def recordSuccess (breakers : Breakers AccountId) (account : AccountId) : Breakers AccountId :=
  Function.update breakers account (some (breakers.entry account).recordSuccess)

def recordFailure (breakers : Breakers AccountId) (account : AccountId) (now : ℤ) :
    Breakers AccountId :=
  Function.update breakers account (some ((breakers.entry account).recordFailure now))

/-- The half-open probe of a credential is marked as out. -/
def ProbeOut (breakers : Breakers AccountId) (account : AccountId) : Prop :=
  (breakers.entry account).halfOpenProbeSent = true

end Breakers

/-- The right to send one request, held for as long as sending it might be called off. -/
structure Dispatch (AccountId : Type*) where
  account : AccountId
  probe : Bool
  deriving DecidableEq

namespace Dispatch

/-- `none` when the breaker is open or another request has the probe. -/
def claim (breakers : Breakers AccountId) (account : AccountId) (now : ℤ) :
    Option (Dispatch AccountId) × Breakers AccountId :=
  match breakers.beginRequest account now with
  | (.denied, breakers) => (none, breakers)
  | (.admitted, breakers) => (some ⟨account, false⟩, breakers)
  | (.probe, breakers) => (some ⟨account, true⟩, breakers)

/-- The request has gone to the wire. -/
def sent (d : Dispatch AccountId) : Dispatch AccountId := { d with probe := false }

def drop (d : Dispatch AccountId) (breakers : Breakers AccountId) : Breakers AccountId :=
  if d.probe then breakers.releaseProbe d.account else breakers

end Dispatch

/-- A request that claimed a dispatch: whether it was granted the half-open
probe, its guard until that is dropped, and whether it recorded an outcome. -/
structure Flight (AccountId : Type*) where
  account : AccountId
  granted : Bool
  guard : Option (Dispatch AccountId)
  recorded : Bool
  deriving DecidableEq

/-- Granted the probe, and neither dropped nor recorded. -/
def Flight.Unresolved (f : Flight AccountId) : Prop :=
  f.granted = true ∧ f.guard.isSome = true ∧ f.recorded = false

/-- The breakers, the clock and every request that claimed a dispatch so far. -/
structure Replica (AccountId : Type*) where
  breakers : Breakers AccountId
  now : ℤ
  flights : List (Flight AccountId)

/-- One call. An outcome is recorded by the request that claimed a dispatch, or
by something that claimed none (an operator who clears a credential). -/
inductive Call (AccountId : Type*)
  | tick (now : ℤ)
  | permits (account : AccountId)
  | claim (account : AccountId)
  | sent (flight : ℕ)
  | record (owner : Option ℕ) (account : AccountId) (success : Bool)
  | drop (flight : ℕ)

namespace Replica

def new (now : ℤ) : Replica AccountId := ⟨fun _ => none, now, []⟩

/-- The outcome on the breakers. -/
def recordOutcome (s : Replica AccountId) (account : AccountId) (success : Bool) :
    Breakers AccountId :=
  if success then s.breakers.recordSuccess account else s.breakers.recordFailure account s.now

def step (s : Replica AccountId) : Call AccountId → Option (Replica AccountId)
  | .tick now => if s.now ≤ now then some { s with now := now } else none
  | .permits _ => some s
  | .claim account =>
    match Dispatch.claim s.breakers account s.now with
    | (none, breakers) => some { s with breakers := breakers }
    | (some d, breakers) =>
      some { s with
        breakers := breakers
        flights := s.flights ++ [⟨account, d.probe, some d, false⟩] }
  | .sent i =>
    match s.flights[i]? with
    | some f =>
      match f.guard with
      | some d => some { s with flights := s.flights.set i { f with guard := some d.sent } }
      | none => none
    | none => none
  | .record none account success => some { s with breakers := s.recordOutcome account success }
  | .record (some i) account success =>
    match s.flights[i]? with
    | some f =>
      if f.account = account then
        some { s with
          breakers := s.recordOutcome account success
          flights := s.flights.set i { f with recorded := true } }
      else none
    | none => none
  | .drop i =>
    match s.flights[i]? with
    | some f =>
      match f.guard with
      | some d =>
        some { s with
          breakers := d.drop s.breakers
          flights := s.flights.set i { f with guard := none } }
      | none => none
    | none => none

/-- No two requests of one credential have an unresolved probe. -/
def OneProbe (s : Replica AccountId) : Prop :=
  ∀ (i j : ℕ) (f g : Flight AccountId), s.flights[i]? = some f → s.flights[j]? = some g → f.Unresolved → g.Unresolved →
    f.account = g.account → i = j

/-- While a probe is unresolved only its own request records an outcome, and a
request records one only once its guard holds no unspent probe. -/
def Orderly (s : Replica AccountId) : Call AccountId → Prop
  | .record owner account _ =>
    (∀ (i : ℕ) (f : Flight AccountId), s.flights[i]? = some f → f.account = account →
      f.Unresolved → owner = some i) ∧
    (∀ (i : ℕ) (f : Flight AccountId) (d : Dispatch AccountId), owner = some i →
      s.flights[i]? = some f → f.guard = some d → d.probe = false)
  | _ => True

/-- At most one unresolved probe, its flag in the breaker, and every unspent
probe of a guard is unresolved. -/
structure Inv (s : Replica AccountId) : Prop where
  one : s.OneProbe
  out : ∀ (i : ℕ) (f : Flight AccountId), s.flights[i]? = some f → f.Unresolved →
    s.breakers.ProbeOut f.account
  unspent : ∀ (i : ℕ) (f : Flight AccountId) (d : Dispatch AccountId), s.flights[i]? = some f →
    f.guard = some d → d.account = f.account ∧ (d.probe = true → f.Unresolved)

end Replica

section Entries

variable {breakers : Breakers AccountId} {account other : AccountId}

theorem entry_update_self (b : Breaker) :
    Breakers.entry (Function.update breakers account (some b)) account = b := by
  unfold Breakers.entry
  rw [Function.update_self]
  rfl

theorem probeOut_update_of_ne (b : Option Breaker) (h : other ≠ account) :
    Breakers.ProbeOut (Function.update breakers account b) other ↔ breakers.ProbeOut other := by
  unfold Breakers.ProbeOut Breakers.entry
  rw [Function.update_of_ne h]

/-- A claim is granted the probe when none is out; otherwise no probe moves. -/
theorem claim_cases (breakers : Breakers AccountId) (account : AccountId) (now : ℤ) :
    (¬ breakers.ProbeOut account ∧ ∃ breakers', Dispatch.claim breakers account now =
        (some ⟨account, true⟩, breakers') ∧ breakers'.ProbeOut account ∧
        ∀ other, other ≠ account → (breakers'.ProbeOut other ↔ breakers.ProbeOut other)) ∨
    ∃ d breakers', Dispatch.claim breakers account now = (d, breakers') ∧
      (d = none ∨ d = some ⟨account, false⟩) ∧
      ∀ other, breakers'.ProbeOut other ↔ breakers.ProbeOut other := by
  have hsame : ∀ other, Breakers.ProbeOut (Function.update breakers account
      (some (breakers.entry account))) other ↔ breakers.ProbeOut other := by
    intro other
    by_cases h : other = account
    · subst h
      unfold Breakers.ProbeOut
      rw [entry_update_self]
    · exact probeOut_update_of_ne _ h
  unfold Dispatch.claim Breakers.beginRequest
  rcases (breakers.entry account).beginRequest_cases now with ⟨hfree, hbegin⟩ | hbegin | hbegin
  · refine Or.inl ⟨?_, ?_⟩
    · unfold Breakers.ProbeOut
      rw [hfree]
      exact Bool.false_ne_true
    · rw [hbegin]
      refine ⟨_, rfl, ?_, fun other h => probeOut_update_of_ne _ h⟩
      unfold Breakers.ProbeOut
      rw [entry_update_self]
  · rw [hbegin]
    exact Or.inr ⟨_, _, rfl, Or.inr rfl, hsame⟩
  · rw [hbegin]
    exact Or.inr ⟨_, _, rfl, Or.inl rfl, hsame⟩

/-- An outcome moves the probe of its own credential alone. -/
theorem probeOut_recordOutcome (s : Replica AccountId) (success : Bool) (h : other ≠ account) :
    (s.recordOutcome account success).ProbeOut other ↔ s.breakers.ProbeOut other := by
  cases success <;> exact probeOut_update_of_ne _ h

theorem probeOut_releaseProbe (breakers : Breakers AccountId) (h : other ≠ account) :
    (breakers.releaseProbe account).ProbeOut other ↔ breakers.ProbeOut other := by
  unfold Breakers.releaseProbe
  cases breakers account with
  | none => rfl
  | some b => exact probeOut_update_of_ne _ h

end Entries

section Places

variable {α : Type*} {xs : List α} {a x : α} {i j : ℕ}

theorem getElem?_concat_cases (h : (xs ++ [a])[i]? = some x) :
    xs[i]? = some x ∨ (i = xs.length ∧ x = a) := by
  by_cases hi : i < xs.length
  · rw [List.getElem?_append_left hi] at h
    exact Or.inl h
  · rw [List.getElem?_append_right (not_lt.mp hi), List.getElem?_singleton] at h
    by_cases hzero : i - xs.length = 0
    · rw [if_pos hzero] at h
      exact Or.inr ⟨by omega, (Option.some.inj h).symm⟩
    · rw [if_neg hzero] at h
      cases h

theorem getElem?_set_cases (h : (xs.set i a)[j]? = some x) :
    (j = i ∧ x = a) ∨ (j ≠ i ∧ xs[j]? = some x) := by
  rw [List.getElem?_set] at h
  by_cases hij : i = j
  · rw [if_pos hij] at h
    by_cases hlen : i < xs.length
    · rw [if_pos hlen] at h
      exact Or.inl ⟨hij.symm, (Option.some.inj h).symm⟩
    · rw [if_neg hlen] at h
      cases h
  · rw [if_neg hij] at h
    exact Or.inr ⟨fun hji => hij hji.symm, h⟩

end Places

end OpenAIGateway
