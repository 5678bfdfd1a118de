import OpenAIGateway.SseFraming
import OpenAIGateway.Transition
import Mathlib.Data.Int.Notation
import Mathlib.Logic.Function.Basic

/-!
Keeping OAuth credentials fresh: a process-local gate, then a fleet-wide lock
that expires by itself, then a fresh read, then a compare-and-swap write. Any
number of runs on any number of replicas take their steps in any order, calls
to the stores may fail or lose their reply, and a run may be dropped anywhere
while what it sent is still on its way. Times are milliseconds.
-/

set_option linter.all false

namespace OpenAIGateway.Refresh

/-- How far ahead of expiry a token is refreshed, in seconds. -/
def refreshSkew : ℤ := 300

/-- How long the fleet-wide lock lives. -/
def lockTtl : ℤ := 30000

def i64Max : ℤ := 9223372036854775807

def u64Max : ℕ := 18446744073709551615

/-- Decrypted credential material. -/
structure SecretMaterial where
  accessToken : String
  refreshToken : Option String
  expiresAt : Option ℤ
  version : ℕ
  clientId : Option String
  accountId : Option String
  deriving DecidableEq

def trim (s : String) : String := String.ofList (Sse.trim s.toList)

namespace SecretMaterial

def trimmed (m : SecretMaterial) : SecretMaterial :=
  { m with
    accessToken := trim m.accessToken
    refreshToken := m.refreshToken.map trim
    clientId := m.clientId.map trim }

def expiresWithin (m : SecretMaterial) (now skew : ℤ) : Bool :=
  m.expiresAt.any (fun expiry => expiry - skew ≤ now)

/-- What an adapter returned, as the successor of the material it was refreshed from. -/
def succeeding (fresh current : SecretMaterial) : SecretMaterial :=
  { fresh with version := min (current.version + 1) u64Max }

end SecretMaterial

/-- The columns of an account a refresh reads and writes; the material is sealed at rest. -/
structure CredentialRow where
  material : SecretMaterial
  tokenVersion : ℤ
  tokenExpiresAt : Option ℤ
  deriving DecidableEq

/-- The seconds a timestamp column can hold. -/
def toTimestamp (seconds : ℤ) : Option ℤ :=
  if -377705116800 ≤ seconds ∧ seconds ≤ 253402300799 then some seconds else none

inductive RefreshError
  | internal (message : String)
  | upstream
  deriving DecidableEq

abbrev Result := Except RefreshError SecretMaterial

/-- What a refresh at the provider came to. -/
inductive Refreshed
  | fresh (material : SecretMaterial)
  | unsupported
  | refused

/-- Where a run is. After the lock each phase carries when it was acquired, and
before the swap the row that was read. A stray phase is a run that was dropped
with a command on its way. -/
inductive Phase
  | idle
  | gated (now : ℤ)
  | inside (now : ℤ)
  | asking (now : ℤ)
  | losing
  | locked (acquired now : ℤ)
  | refreshing (acquired : ℤ) (row : CredentialRow)
  | storing (acquired : ℤ) (row : CredentialRow) (fresh : SecretMaterial)
  | rereading (acquired : ℤ)
  | checking (acquired : ℤ) (row : CredentialRow)
  | releasing (acquired : ℤ) (result : Result)
  | done (result : Result)
  | strayAsk
  | strayStore (row : CredentialRow) (fresh : SecretMaterial)
  | strayRelease (acquired : ℤ)

namespace Phase

/-- When the run acquired the lock it has yet to release. -/
def acquiredAt : Phase → Option ℤ
  | .locked acquired _ | .refreshing acquired _ | .storing acquired _ _ | .rereading acquired
  | .checking acquired _ | .releasing acquired _ | .strayRelease acquired => some acquired
  | _ => none

/-- The row a write of the run will be checked against. -/
def snapshot : Phase → Option CredentialRow
  | .refreshing _ row | .storing _ row _ | .checking _ row | .strayStore row _ => some row
  | _ => none

/-- The write on its way: the row it was derived from and the new material. -/
def pending : Phase → Option (CredentialRow × SecretMaterial)
  | .storing _ row fresh | .strayStore row fresh => some (row, fresh)
  | _ => none

/-- The run has its replica's gate. -/
def hasGate : Phase → Bool
  | .inside _ | .asking _ | .losing | .locked _ _ | .refreshing _ _ | .storing _ _ _
  | .rereading _ | .checking _ _ | .releasing _ _ => true
  | _ => false

end Phase

/-- What happens to a run next. `ok` says that the database answered, and
`replied` that the reply to an executed command arrived. -/
inductive Act
  | start (row : CredentialRow)
  | enter
  | look (ok : Bool)
  | ask (replied : Bool)
  | askFailed
  | takeTheirs (ok : Bool)
  | read (ok : Bool)
  | refreshed (outcome : Refreshed)
  | store (replied : Bool)
  | reread (ok : Bool)
  | check (ok : Bool)
  | release
  | releaseFailed
  | drop

variable {RunId Replica : Type*}

/-- The fleet-wide lock: whose it is, and when it goes by itself. -/
structure Lock (RunId : Type*) where
  owner : RunId
  expiresAt : ℤ

/-- The stores and the runs. `stored` are the rows the account had, the newest first,
and `refreshes` what providers gave for what. -/
structure World (RunId Replica : Type*) where
  clock : ℤ
  lock : Option (Lock RunId)
  row : Option CredentialRow
  gates : Replica → Option RunId
  phases : RunId → Phase
  stored : List CredentialRow
  refreshes : List (SecretMaterial × SecretMaterial)

inductive Event (RunId : Type*)
  | tick (clock : ℤ)
  | vanish
  | act (id : RunId) (act : Act)

namespace World

/-- The account as it was created, and no run yet. -/
def new (clock : ℤ) (row : CredentialRow) : World RunId Replica where
  clock := clock
  lock := none
  row := some row
  gates := fun _ => none
  phases := fun _ => .idle
  stored := [row]
  refreshes := []

/-- The lock, while it has not expired. -/
def liveLock (w : World RunId Replica) : Option (Lock RunId) :=
  w.lock.filter (fun lock => w.clock < lock.expiresAt)

/-- The material now in the database. -/
def current (w : World RunId Replica) : Option SecretMaterial :=
  w.row.map (fun row => row.material.trimmed)

def databaseError : Result := .error (.internal "database")

/-- What a run that reads the database at its end returns. -/
def rereadResult (w : World RunId Replica) (ok : Bool) (vanished : String) : Result :=
  if ok then
    match w.current with
    | some material => .ok material
    | none => .error (.internal vanished)
  else databaseError

/-- `SET NX EX`: whether the lock was acquired, and the world after. -/
def acquireRefreshLock (w : World RunId Replica) (id : RunId) : Bool × World RunId Replica :=
  match w.liveLock with
  | none => (true, { w with lock := some ⟨id, w.clock + lockTtl⟩ })
  | some _ => (false, w)

/-- `DEL`: whatever lock is there goes. -/
def releaseRefreshLock (w : World RunId Replica) : World RunId Replica := { w with lock := none }

/-- Whether a write was the one to win. -/
inductive Swap
  | won
  | lost
  | failed

/-- The compare-and-swap on `token_version`; past the column's range it fails. -/
def storeCredentials (w : World RunId Replica) (fresh : SecretMaterial) (expected : ℤ) :
    Swap × World RunId Replica :=
  match w.row with
  | some row =>
    if row.tokenVersion = expected then
      if row.tokenVersion = i64Max then (.failed, w)
      else
        let stored := ⟨fresh, row.tokenVersion + 1, fresh.expiresAt.bind toTimestamp⟩
        (.won, { w with row := some stored, stored := stored :: w.stored })
    else (.lost, w)
  | none => (.lost, w)

/-- The next phase of a run and what it does to the stores. -/
def move (w : World RunId Replica) (id : RunId) :
    Phase → Act → Option (World RunId Replica × Phase)
  | .idle, .start row =>
    let now := w.clock / 1000
    let material := row.material.trimmed
    some (w, if material.expiresWithin now refreshSkew then .gated now else .done (.ok material))
  | .gated now, .enter => some (w, .inside now)
  | .inside now, .look ok =>
    if ok then
      match w.current with
      | some current =>
        some (w, if current.expiresWithin now refreshSkew then .asking now else .done (.ok current))
      | none => some (w, .asking now)
    else some (w, .done databaseError)
  | .asking now, .ask replied =>
    let (acquired, w') := w.acquireRefreshLock id
    some (w', if acquired && replied then .locked w.clock now else .losing)
  | .asking _, .askFailed => some (w, .losing)
  | .losing, .takeTheirs ok =>
    some (w, .done (w.rereadResult ok "credential vanished during refresh"))
  | .locked acquired now, .read ok =>
    if ok then
      match w.row with
      | some row =>
        let current := row.material.trimmed
        some (w, if current.expiresWithin now refreshSkew then .refreshing acquired row
          else .releasing acquired (.ok current))
      | none =>
        some (w, .releasing acquired (.error (.internal "credential vanished during refresh")))
    else some (w, .releasing acquired databaseError)
  | .refreshing acquired row, .refreshed outcome =>
    let current := row.material.trimmed
    match outcome with
    | .fresh material =>
      some ({ w with refreshes := (current, material) :: w.refreshes },
        .storing acquired row (material.succeeding current))
    | .unsupported => some (w, .releasing acquired (.ok current))
    | .refused => some (w, .checking acquired row)
  | .storing acquired row fresh, .store replied =>
    let (swap, w') := w.storeCredentials fresh row.tokenVersion
    match swap, replied with
    | .won, true => some (w', .releasing acquired (.ok fresh))
    | .lost, true => some (w', .rereading acquired)
    | _, _ => some (w', .releasing acquired databaseError)
  | .strayStore row fresh, .store _ => some ((w.storeCredentials fresh row.tokenVersion).2, .idle)
  | .rereading acquired, .reread ok =>
    some (w, .releasing acquired (w.rereadResult ok "credential vanished"))
  | .checking acquired row, .check ok =>
    match w.rereadResult ok "credential vanished" with
    | .ok after =>
      -- Somebody else rotated the token the provider refused.
      if row.material.version < after.version then some (w, .releasing acquired (.ok after))
      else some (w, .releasing acquired (.error .upstream))
    | .error _ => some (w, .releasing acquired (.error .upstream))
  | .releasing _ result, .release => some (w.releaseRefreshLock, .done result)
  | .releasing _ result, .releaseFailed => some (w, .done result)
  | .strayRelease _, .release => some (w.releaseRefreshLock, .idle)
  | .strayAsk, .ask _ => some ((w.acquireRefreshLock id).2, .idle)
  | .asking _, .drop => some (w, .strayAsk)
  | .storing _ row fresh, .drop => some (w, .strayStore row fresh)
  | .releasing acquired _, .drop => some (w, .strayRelease acquired)
  | _, .drop => some (w, .idle)
  | _, _ => none

variable [DecidableEq RunId] [DecidableEq Replica] (replica : RunId → Replica)

/-- A run goes to a phase, and takes or leaves its replica's gate. -/
def setPhase (w : World RunId Replica) (id : RunId) (phase : Phase) : World RunId Replica :=
  { w with
    phases := Function.update w.phases id phase
    gates :=
      if phase.hasGate then Function.update w.gates (replica id) (some id)
      else if w.gates (replica id) = some id then Function.update w.gates (replica id) none
      else w.gates }

/-- The gate is free, or the run has it. -/
def gateOpen (w : World RunId Replica) (id : RunId) (phase : Phase) : Prop :=
  phase.hasGate = true → w.gates (replica id) = none ∨ w.gates (replica id) = some id

instance (w : World RunId Replica) (id : RunId) (phase : Phase) :
    Decidable (w.gateOpen replica id phase) :=
  inferInstanceAs (Decidable (_ → _))

def step (w : World RunId Replica) : Event RunId → Option (World RunId Replica)
  | .tick clock => if w.clock ≤ clock then some { w with clock := clock } else none
  | .vanish => some { w with row := none }
  | .act id act =>
    match w.move id (w.phases id) act with
    | some (w', phase) =>
      if w.gateOpen replica id phase then some (w'.setPhase replica id phase) else none
    | none => none

end World

/-- The phase carries no more than the one before it did. -/
structure Phase.Within (before after : Phase) : Prop where
  acquiredAt : after.acquiredAt = none ∨ after.acquiredAt = before.acquiredAt
  snapshot : after.snapshot = none ∨ after.snapshot = before.snapshot
  pending : after.pending = none ∨ after.pending = before.pending

namespace World

/-- Everything a move can do to the stores. -/
inductive Moves (w : World RunId Replica) (id : RunId) (phase : Phase) :
    Act → World RunId Replica → Phase → Prop
  | quiet {act : Act} {phase' : Phase} (hwithin : phase.Within phase') :
    Moves w id phase act w phase'
  | asks {act : Act} {phase' : Phase} (hfree : w.liveLock = none)
    (hacquired : phase'.acquiredAt = none ∨ phase'.acquiredAt = some w.clock)
    (hsnapshot : phase'.snapshot = none) (hpending : phase'.pending = none) :
    Moves w id phase act { w with lock := some ⟨id, w.clock + lockTtl⟩ } phase'
  | reads {act : Act} (acquired now : ℤ) (row : CredentialRow)
    (hbefore : phase = .locked acquired now) (hrow : w.row = some row) :
    Moves w id phase act w (.refreshing acquired row)
  | learns {act : Act} (acquired : ℤ) (row : CredentialRow) (material : SecretMaterial)
    (hbefore : phase = .refreshing acquired row) :
    Moves w id phase act { w with refreshes := (row.material.trimmed, material) :: w.refreshes }
      (.storing acquired row (material.succeeding row.material.trimmed))
  | stores {phase' : Phase} (replied : Bool) (row : CredentialRow) (fresh : SecretMaterial)
    (hbefore : phase.pending = some (row, fresh))
    (hacquired : phase'.acquiredAt = none ∨ phase'.acquiredAt = phase.acquiredAt)
    (hsnapshot : phase'.snapshot = none) (hpending : phase'.pending = none) :
    Moves w id phase (.store replied) (w.storeCredentials fresh row.tokenVersion).2 phase'
  | frees {phase' : Phase} (acquired : ℤ) (hbefore : phase.acquiredAt = some acquired)
    (hacquired : phase'.acquiredAt = none) (hsnapshot : phase'.snapshot = none)
    (hpending : phase'.pending = none) : Moves w id phase .release w.releaseRefreshLock phase'

theorem within_of_none {before after : Phase} (hacquired : after.acquiredAt = none)
    (hsnapshot : after.snapshot = none) (hpending : after.pending = none) : before.Within after :=
  ⟨Or.inl hacquired, Or.inl hsnapshot, Or.inl hpending⟩

theorem acquireRefreshLock_cases (w : World RunId Replica) (id : RunId) :
    (w.liveLock = none ∧ w.acquireRefreshLock id =
      (true, { w with lock := some ⟨id, w.clock + lockTtl⟩ })) ∨
    w.acquireRefreshLock id = (false, w) := by
  unfold acquireRefreshLock
  cases hlock : w.liveLock with
  | none => exact Or.inl ⟨rfl, rfl⟩
  | some lock => exact Or.inr rfl

variable {w w' : World RunId Replica} {id : RunId} {phase phase' : Phase} {act : Act}

theorem moves_of_move (h : w.move id phase act = some (w', phase')) :
    w.Moves id phase act w' phase' := by
  unfold move at h
  split at h
  next row =>
    cases h
    refine .quiet (within_of_none ?_ ?_ ?_) <;> split_ifs <;> rfl
  next now =>
    cases h
    exact .quiet (within_of_none rfl rfl rfl)
  next now ok =>
    split_ifs at h
    · split at h
      · cases h
        refine .quiet (within_of_none ?_ ?_ ?_) <;> split_ifs <;> rfl
      · cases h
        exact .quiet (within_of_none rfl rfl rfl)
    · cases h
      exact .quiet (within_of_none rfl rfl rfl)
  next now replied =>
    rcases w.acquireRefreshLock_cases id with ⟨hfree, heq⟩ | heq
    · rw [heq] at h
      cases h
      cases replied
      · exact .asks hfree (Or.inl rfl) rfl rfl
      · exact .asks hfree (Or.inr rfl) rfl rfl
    · rw [heq] at h
      cases h
      exact .quiet (within_of_none rfl rfl rfl)
  next =>
    cases h
    exact .quiet (within_of_none rfl rfl rfl)
  next =>
    cases h
    exact .quiet (within_of_none rfl rfl rfl)
  next acquired now ok =>
    split_ifs at h
    · split at h
      next row hrow =>
        cases h
        split_ifs
        · exact .reads acquired now row rfl hrow
        · exact .quiet ⟨Or.inr rfl, Or.inl rfl, Or.inl rfl⟩
      next =>
        cases h
        exact .quiet ⟨Or.inr rfl, Or.inl rfl, Or.inl rfl⟩
    · cases h
      exact .quiet ⟨Or.inr rfl, Or.inl rfl, Or.inl rfl⟩
  next acquired row outcome =>
    cases outcome with
    | fresh material =>
      cases h
      exact .learns acquired row material rfl
    | unsupported =>
      cases h
      exact .quiet ⟨Or.inr rfl, Or.inl rfl, Or.inl rfl⟩
    | refused =>
      cases h
      exact .quiet ⟨Or.inr rfl, Or.inr rfl, Or.inl rfl⟩
  next acquired row fresh replied =>
    dsimp only at h
    split at h <;> cases h <;> exact .stores _ row fresh rfl (Or.inr rfl) rfl rfl
  next row fresh replied =>
    cases h
    exact .stores replied row fresh rfl (Or.inl rfl) rfl rfl
  next =>
    cases h
    exact .quiet ⟨Or.inr rfl, Or.inl rfl, Or.inl rfl⟩
  next acquired row ok =>
    split at h
    · split_ifs at h <;> cases h <;> exact .quiet ⟨Or.inr rfl, Or.inl rfl, Or.inl rfl⟩
    · cases h
      exact .quiet ⟨Or.inr rfl, Or.inl rfl, Or.inl rfl⟩
  next acquired result =>
    cases h
    exact .frees acquired rfl rfl rfl rfl
  next =>
    cases h
    exact .quiet (within_of_none rfl rfl rfl)
  next acquired =>
    cases h
    exact .frees acquired rfl rfl rfl rfl
  next =>
    rcases w.acquireRefreshLock_cases id with ⟨hfree, heq⟩ | heq
    · rw [heq] at h
      cases h
      exact .asks hfree (Or.inl rfl) rfl rfl
    · rw [heq] at h
      cases h
      exact .quiet (within_of_none rfl rfl rfl)
  next =>
    cases h
    exact .quiet (within_of_none rfl rfl rfl)
  next row fresh =>
    cases h
    exact .quiet ⟨Or.inl rfl, Or.inr rfl, Or.inr rfl⟩
  next acquired result =>
    cases h
    exact .quiet ⟨Or.inr rfl, Or.inl rfl, Or.inl rfl⟩
  next =>
    cases h
    exact .quiet (within_of_none rfl rfl rfl)
  next => cases h

/-- A credential that is due from the start. -/
def due : CredentialRow where
  material := ⟨"access", some "refresh", some 0, 0, none, none⟩
  tokenVersion := 0
  tokenExpiresAt := some 0

/-- A run that is due comes to ask for the lock. -/
def asking (id : ℕ) : List (Event ℕ) :=
  [.act id (.start due), .act id .enter, .act id (.look true), .act id (.ask true)]

end World

end OpenAIGateway.Refresh
