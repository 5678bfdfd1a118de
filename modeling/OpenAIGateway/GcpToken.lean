import OpenAIGateway.Transition
import Mathlib.Data.Int.Notation
import Mathlib.Logic.Function.Basic

/-!
The slot one account's Google tokens live in: the token minted last and the
mint that failed last, behind a lock that a mint keeps until it is over. Calls
wait for the lock in any order, mints take any time and end in any way, and
calls are dropped where they wait.
-/

set_option linter.all false

namespace OpenAIGateway.GcpToken

/-- Mint again this long before the cached token expires. -/
def refreshSkewSecs : ℤ := 5 * 60

/-- How long a failed mint is remembered. -/
def failureTtlSecs : ℤ := 15

/-- How long a token must still have to be handed out when a mint failed. -/
def lastResortSecs : ℤ := 30

def i64Max : ℤ := 9223372036854775807

/-- The last second of the year 9999, past which the clock has no readings. -/
def clockMax : ℤ := 253402300799

def saturatingAdd (a : ℤ) (b : ℤ) : ℤ := min (a + b) i64Max

structure Minted where
  accessToken : String
  expiresAt : ℤ
  deriving DecidableEq

/-- What a mint can fail with. -/
inductive MintError
  | upstreamUnavailable (reason : String) (lasting : Bool)
  | config (reason : String)
  | other (text : String)
  deriving DecidableEq

/-- A mint that failed, kept so that the callers behind it are told the same. -/
structure Failed where
  atTime : ℤ
  reason : String
  lasting : Bool
  deriving DecidableEq

/-- A key that cannot be used is lasting, and so is a refusal marked as such. -/
def Failed.new (e : MintError) (atTime : ℤ) : Failed :=
  match e with
  | .upstreamUnavailable reason lasting => ⟨atTime, reason, lasting⟩
  | .config reason => ⟨atTime, reason, true⟩
  | .other text => ⟨atTime, text, false⟩

/-- What a call to `token` comes to. -/
inductive Answer
  | token (accessToken : String)
  | error (reason : String) (lasting : Bool)
  deriving DecidableEq

def Failed.error (failed : Failed) : Answer := .error failed.reason failed.lasting

/-- What a slot holds. -/
structure Held where
  minted : Option Minted := none
  failed : Option Failed := none
  deriving DecidableEq

namespace Held

/-- The token, while it is not yet due to be replaced. -/
def fresh (held : Held) (now : ℤ) : Option Minted :=
  held.minted.filter (fun m => now < m.expiresAt - refreshSkewSecs)

/-- The failure, while it is remembered. -/
def remembered (held : Held) (now : ℤ) : Option Failed :=
  held.failed.filter (fun f => now < saturatingAdd f.atTime failureTtlSecs)

/-- The token in hand, while it is good to set out with. -/
def lastResort (held : Held) (now : ℤ) : Option Minted :=
  held.minted.filter (fun m => now < m.expiresAt - lastResortSecs)

/-- The last resort, or else the failure. -/
def afterFailure (held : Held) (now : ℤ) (failed : Failed) : Answer :=
  match held.lastResort now with
  | some m => .token m.accessToken
  | none => failed.error

/-- What a call finds when it has the lock: its answer, or `none` when it must mint. -/
def token (held : Held) (now : ℤ) : Option Answer :=
  match held.fresh now with
  | some m => some (.token m.accessToken)
  | none => (held.remembered now).map (held.afterFailure now)

/-- A mint that began at `now` brought a token with a lifetime. -/
def settle (accessToken : String) (expiresIn : ℕ) (now : ℤ) : Held × Answer :=
  (⟨some ⟨accessToken, saturatingAdd now expiresIn⟩, none⟩, .token accessToken)

/-- A mint that began at `now` failed. -/
def fail (held : Held) (e : MintError) (now : ℤ) : Held × Answer :=
  let failed := Failed.new e now
  ({ held with failed := some failed }, held.afterFailure now failed)

/-- Drop the token if it is still the one refused. -/
def forget (held : Held) (refused : String) : Held :=
  if held.minted.any (fun m => m.accessToken == refused) then { held with minted := none } else held

end Held

/-- A token Google issued, when it expires by Google's own account, and its lifetime as told. -/
structure Grant where
  accessToken : String
  expiresIn : ℕ
  expiresAt : ℤ
  deriving DecidableEq

/-- Where a call is. A call that mints keeps its clock reading, and what Google
granted it once it has. An answered call keeps its reading and whether it minted. -/
inductive Phase
  | idle
  | wantsToken
  | wantsForget (refused : String)
  | minting (now : ℤ) (grant : Option Grant)
  | answered (now : ℤ) (minted : Bool) (answer : Answer)
  | forgot (refused : String)
  deriving DecidableEq

def Phase.mints : Phase → Bool
  | .minting _ _ => true
  | _ => false

variable {CallId : Type*}

/-- One account's slot, the calls on it, and the grant of the token held last. -/
structure Slot (CallId : Type*) where
  clock : ℤ
  held : Held
  holder : Option CallId
  calls : CallId → Phase
  issue : Option Grant

inductive Event (CallId : Type*)
  | tick (now : ℤ)
  | callToken (id : CallId)
  | callForget (id : CallId) (refused : String)
  | lock (id : CallId)
  | grant (id : CallId) (accessToken : String) (expiresIn : ℕ)
  | mintOk (id : CallId)
  | mintErr (id : CallId) (e : MintError)
  | cancel (id : CallId)

/-- Google issues this very token. -/
def Event.Grants (accessToken : String) : Event CallId → Prop
  | .grant _ issued _ => issued = accessToken
  | _ => False

namespace Slot

def new (clock : ℤ) : Slot CallId := ⟨clock, {}, none, fun _ => .idle, none⟩

variable [DecidableEq CallId]

def setPhase (s : Slot CallId) (id : CallId) (phase : Phase) : Slot CallId :=
  { s with calls := Function.update s.calls id phase }

/-- The call is over, and its lock with it. -/
def finish (s : Slot CallId) (id : CallId) (held : Held) (phase : Phase) : Slot CallId :=
  { s.setPhase id phase with held := held, holder := none }

/-- A call takes the lock and reads the clock. -/
def lock (s : Slot CallId) (id : CallId) : Option (Slot CallId) :=
  match s.holder, s.calls id with
  | none, .wantsToken =>
    match s.held.token s.clock with
    | some answer => some (s.finish id s.held (.answered s.clock false answer))
    | none => some { s.setPhase id (.minting s.clock none) with holder := some id }
  | none, .wantsForget refused => some (s.finish id (s.held.forget refused) (.forgot refused))
  | _, _ => none

def step (s : Slot CallId) : Event CallId → Option (Slot CallId)
  | .tick now => if s.clock ≤ now ∧ now ≤ clockMax then some { s with clock := now } else none
  | .callToken id => if s.calls id = .idle then some (s.setPhase id .wantsToken) else none
  | .callForget id refused =>
    if s.calls id = .idle then some (s.setPhase id (.wantsForget refused)) else none
  | .lock id => s.lock id
  | .grant id accessToken expiresIn =>
    match s.calls id with
    | .minting now none =>
      some (s.setPhase id (.minting now (some ⟨accessToken, expiresIn, s.clock + expiresIn⟩)))
    | _ => none
  | .mintOk id =>
    match s.calls id with
    | .minting now (some grant) =>
      let (held, answer) := Held.settle grant.accessToken grant.expiresIn now
      some { s.finish id held (.answered now true answer) with issue := some grant }
    | _ => none
  | .mintErr id e =>
    match s.calls id with
    | .minting now _ =>
      let (held, answer) := s.held.fail e now
      some (s.finish id held (.answered now false answer))
    | _ => none
  | .cancel id =>
    match s.calls id with
    | .wantsToken | .wantsForget _ => some (s.setPhase id .idle)
    | .minting _ _ => some (s.finish id s.held .idle)
    | _ => none

/-- Everything an event can do. -/
inductive Moves (s : Slot CallId) : Event CallId → Slot CallId → Prop
  | tick (now : ℤ) (hle : s.clock ≤ now) (hmax : now ≤ clockMax) :
    Moves s (.tick now) { s with clock := now }
  | callToken (id : CallId) (hidle : s.calls id = .idle) :
    Moves s (.callToken id) (s.setPhase id .wantsToken)
  | callForget (id : CallId) (refused : String) (hidle : s.calls id = .idle) :
    Moves s (.callForget id refused) (s.setPhase id (.wantsForget refused))
  | answer (id : CallId) (answer : Answer) (hfree : s.holder = none)
    (hcall : s.calls id = .wantsToken) (hanswer : s.held.token s.clock = some answer) :
    Moves s (.lock id) (s.finish id s.held (.answered s.clock false answer))
  | mint (id : CallId) (hfree : s.holder = none) (hcall : s.calls id = .wantsToken)
    (hnone : s.held.token s.clock = none) :
    Moves s (.lock id) { s.setPhase id (.minting s.clock none) with holder := some id }
  | forget (id : CallId) (refused : String) (hfree : s.holder = none)
    (hcall : s.calls id = .wantsForget refused) :
    Moves s (.lock id) (s.finish id (s.held.forget refused) (.forgot refused))
  | grant (id : CallId) (accessToken : String) (expiresIn : ℕ) (now : ℤ)
    (hcall : s.calls id = .minting now none) :
    Moves s (.grant id accessToken expiresIn)
      (s.setPhase id (.minting now (some ⟨accessToken, expiresIn, s.clock + expiresIn⟩)))
  | mintOk (id : CallId) (now : ℤ) (grant : Grant)
    (hcall : s.calls id = .minting now (some grant)) :
    Moves s (.mintOk id) { s.finish id (Held.settle grant.accessToken grant.expiresIn now).1
      (.answered now true (.token grant.accessToken)) with issue := some grant }
  | mintErr (id : CallId) (e : MintError) (now : ℤ) (grant : Option Grant)
    (hcall : s.calls id = .minting now grant) :
    Moves s (.mintErr id e)
      (s.finish id (s.held.fail e now).1 (.answered now false (s.held.fail e now).2))
  | leave (id : CallId) : Moves s (.cancel id) (s.setPhase id .idle)
  | abandon (id : CallId) (now : ℤ) (grant : Option Grant)
    (hcall : s.calls id = .minting now grant) :
    Moves s (.cancel id) (s.finish id s.held .idle)

theorem moves_of_lock {s s' : Slot CallId} {id : CallId} (h : s.lock id = some s') :
    Moves s (.lock id) s' := by
  unfold lock at h
  split at h
  next hfree hcall =>
    split at h
    next answer hanswer =>
      cases h
      exact .answer id answer hfree hcall hanswer
    next hnone =>
      cases h
      exact .mint id hfree hcall hnone
  next refused hfree hcall =>
    cases h
    exact .forget id refused hfree hcall
  next => cases h

theorem moves_of_step {s s' : Slot CallId} {e : Event CallId} (h : s.step e = some s') :
    Moves s e s' := by
  cases e with
  | tick now =>
    obtain ⟨hle, hs⟩ := Option.ite_none_right_eq_some.mp h
    cases hs
    exact .tick now hle.1 hle.2
  | callToken id =>
    obtain ⟨hidle, hs⟩ := Option.ite_none_right_eq_some.mp h
    cases hs
    exact .callToken id hidle
  | callForget id refused =>
    obtain ⟨hidle, hs⟩ := Option.ite_none_right_eq_some.mp h
    cases hs
    exact .callForget id refused hidle
  | lock id => exact moves_of_lock h
  | grant id accessToken expiresIn =>
    simp only [step] at h
    split at h
    next now hcall =>
      cases h
      exact .grant id accessToken expiresIn now hcall
    next => cases h
  | mintOk id =>
    simp only [step] at h
    split at h
    next now grant hcall =>
      cases h
      exact .mintOk id now grant hcall
    next => cases h
  | mintErr id e =>
    simp only [step] at h
    split at h
    next now grant hcall =>
      cases h
      exact .mintErr id e now grant hcall
    next => cases h
  | cancel id =>
    simp only [step] at h
    split at h
    next =>
      cases h
      exact .leave id
    next =>
      cases h
      exact .leave id
    next now grant hcall =>
      cases h
      exact .abandon id now grant hcall
    next => cases h

end Slot

namespace Held

variable {held : Held} {now : ℤ}

theorem fresh_eq_none_iff :
    held.fresh now = none ↔ ∀ m ∈ held.minted, m.expiresAt - now ≤ refreshSkewSecs := by
  unfold fresh
  cases held.minted with
  | none => simp
  | some m =>
    simp only [Option.filter_eq_none_iff, Option.mem_def, Option.some.injEq, forall_eq',
      decide_eq_true_eq]
    omega

theorem lastResort_eq_none_iff :
    held.lastResort now = none ↔ ∀ m ∈ held.minted, m.expiresAt - now ≤ lastResortSecs := by
  unfold lastResort
  cases held.minted with
  | none => simp
  | some m =>
    simp only [Option.filter_eq_none_iff, Option.mem_def, Option.some.injEq, forall_eq',
      decide_eq_true_eq]
    omega

theorem of_lastResort {m : Minted} (h : held.lastResort now = some m) :
    m ∈ held.minted ∧ lastResortSecs < m.expiresAt - now := by
  obtain ⟨hmem, hlt⟩ := Option.filter_eq_some_iff.mp h
  have hlast : now < m.expiresAt - lastResortSecs := by simpa using hlt
  exact ⟨hmem, by omega⟩

theorem of_fresh {m : Minted} (h : held.fresh now = some m) :
    m ∈ held.minted ∧ lastResortSecs < m.expiresAt - now := by
  obtain ⟨hmem, hlt⟩ := Option.filter_eq_some_iff.mp h
  have hfresh : now < m.expiresAt - refreshSkewSecs := by simpa using hlt
  have hless : lastResortSecs < refreshSkewSecs := by decide
  exact ⟨hmem, by omega⟩

/-- A failure nobody remembers is old, on any clock short of its last readings. -/
theorem remembered_eq_none_iff (hnow : now < i64Max) :
    held.remembered now = none ↔ ∀ f ∈ held.failed, failureTtlSecs ≤ now - f.atTime := by
  unfold remembered saturatingAdd
  cases held.failed with
  | none => simp
  | some f =>
    simp only [Option.filter_eq_none_iff, Option.mem_def, Option.some.injEq, forall_eq',
      decide_eq_true_eq]
    omega

/-- What the last resort allows an answer to be. -/
structure Allows (held : Held) (now : ℤ) (answer : Answer) : Prop where
  token : ∀ t, answer = .token t →
    ∃ m ∈ held.minted, m.accessToken = t ∧ lastResortSecs < m.expiresAt - now
  error : ∀ reason lasting, answer = .error reason lasting →
    ∀ m ∈ held.minted, m.expiresAt - now ≤ lastResortSecs

theorem allows_token {m : Minted} (h : m ∈ held.minted ∧ lastResortSecs < m.expiresAt - now) :
    held.Allows now (.token m.accessToken) where
  token := by
    intro t ht
    cases ht
    exact ⟨m, h.1, rfl, h.2⟩
  error := by
    intro reason lasting herror
    cases herror

theorem allows_afterFailure (failed : Failed) : held.Allows now (held.afterFailure now failed) := by
  unfold afterFailure
  cases hlast : held.lastResort now with
  | some m => exact allows_token (of_lastResort hlast)
  | none =>
    constructor
    · intro t ht
      cases ht
    · intro reason lasting _
      exact lastResort_eq_none_iff.mp hlast

theorem allows_of_token {answer : Answer} (h : held.token now = some answer) :
    held.Allows now answer := by
  unfold token at h
  split at h
  next m hfresh =>
    cases h
    exact allows_token (of_fresh hfresh)
  next hnone =>
    obtain ⟨failed, -, rfl⟩ := Option.map_eq_some_iff.mp h
    exact allows_afterFailure failed

theorem token_eq_none_iff :
    held.token now = none ↔ held.fresh now = none ∧ held.remembered now = none := by
  unfold token
  cases held.fresh now <;> simp

theorem mem_minted_forget_iff {m : Minted} {refused : String} :
    m ∈ (held.forget refused).minted ↔ m ∈ held.minted ∧ m.accessToken ≠ refused := by
  obtain ⟨minted, failed⟩ := held
  cases minted with
  | none => simp [forget]
  | some minted =>
    by_cases h : minted.accessToken = refused
    · simp only [forget, h, Option.any_some, beq_self_eq_true, if_true, Option.mem_def,
        Option.some.injEq, reduceCtorEq, false_iff, not_and, not_not]
      intro heq
      rw [← heq, h]
    · simp only [forget, Option.any_some, beq_iff_eq, h, if_false, Option.mem_def,
        Option.some.injEq]
      constructor
      · intro heq
        exact ⟨heq, by rw [← heq]; exact h⟩
      · intro heq
        exact heq.1

end Held

end OpenAIGateway.GcpToken
