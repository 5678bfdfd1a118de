import OpenAIGateway.Errors
import OpenAIGateway.Loop
import OpenAIGateway.Schedule
import OpenAIGateway.SlotSet

/-!
Picking a credential for a request: the sticky pin first, then the cascade over
what is left, again after every claim that was refused. The database rows and
the clock are read once; breakers, endpoints, slot counts and claims are asked
again on every pass and may answer anything.
-/

set_option linter.all false

namespace OpenAIGateway

variable {AccountId : Type*}

def CredentialKind.fromColumn : String → Option CredentialKind
  | "api_key" => some .apiKey
  | "oauth" => some .oAuth
  | "bedrock" => some .bedrock
  | "service_account" => some .serviceAccount
  | _ => none

/-- The built-in provider a name or alias spells. -/
def Provider.builtin : String → Option Provider
  | "anthropic" => some .anthropic
  | "openai" => some .openAI
  | "gemini" => some .gemini
  | "kimi" | "moonshot" => some .kimi
  | "deepseek" => some .deepSeek
  | "zhipu" | "glm" => some .zhipu
  | "xai" | "grok" => some .xAI
  | "bedrock" => some .bedrock
  | "jev" | "typesafe" => some .jev
  | _ => none

/-- The built-ins first, then the endpoints registered at that moment. -/
def Provider.fromStr (registry : String → Bool) (s : String) : Option Provider :=
  (Provider.builtin s).or (if registry s then some (.custom s) else none)

/-- Whole seconds of a time in nanoseconds. -/
def unixTimestamp (t : ℤ) : ℤ := t / 1000000000

/-- An upstream credential, as stored. Times are in nanoseconds. -/
structure AccountRow (AccountId : Type*) where
  id : AccountId
  provider : String
  kind : String
  priority : ℤ
  maxConcurrency : ℤ
  schedulable : Bool
  cooldownUntil : Option ℤ
  rateLimitedUntil : Option ℤ
  windowResetsAt : Option ℤ
  usageRemainingPct : Option Decimal
  usageReservePct : Option ℤ
  lastUsedAt : ℤ
  deriving DecidableEq

namespace AccountRow

/-- What the scheduler consumes; `none` while no provider has the row's name. -/
def toCandidate (row : AccountRow AccountId) (registry : String → Bool) (inFlight waiting : ℕ) :
    Option (Candidate AccountId) :=
  (Provider.fromStr registry row.provider).map (fun provider =>
    { account := row.id
      provider := provider
      priority := if 0 ≤ row.priority ∧ row.priority ≤ 255 then row.priority.toNat else 255
      maxConcurrency := row.maxConcurrency.toNat
      inFlight := inFlight
      waiting := waiting
      schedulable := row.schedulable
      cooldownUntil := row.cooldownUntil.map unixTimestamp
      rateLimitedUntil := row.rateLimitedUntil.map unixTimestamp
      windowResetsAt := row.windowResetsAt.map unixTimestamp
      usageRemainingPct := row.usageRemainingPct
      usageReservePct := row.usageReservePct.map (fun pct => Decimal.new pct 0)
      lastUsedAt := unixTimestamp row.lastUsedAt })

def heldByReserve (row : AccountRow AccountId) : Bool :=
  OpenAIGateway.heldByReserve row.usageRemainingPct
    (row.usageReservePct.map (fun pct => Decimal.new pct 0))

end AccountRow

/-- Whether the credential could take a request at all, before asking whether it has room. -/
def isLive (c : Candidate AccountId) (now : ℤ) : Bool :=
  c.schedulable && c.cooldownUntil.all (· ≤ now) && c.rateLimitedUntil.all (· ≤ now) &&
    !heldByReserve c.usageRemainingPct c.usageReservePct

def isEligible (c : Candidate AccountId) (now : ℤ) : Bool :=
  isLive c now && decide (c.inFlight < c.maxConcurrency)

/-- How many candidates there were, when each was live and simply full. -/
def everyCandidateIsFull (candidates : List (Candidate AccountId)) (now : ℤ) : Option ℕ :=
  let full := (candidates.filter (fun c =>
    isLive c now && decide (c.maxConcurrency ≤ c.inFlight))).length
  if 0 < full ∧ full = candidates.length then some full else none

/-- A slot count to act on, or `none` for a reply that does not cover every credential. -/
def usableCounts (read : Option (List ℕ)) (asked : ℕ) : Option (List ℕ) :=
  read.filter (fun counts => counts.length = asked)

/-- What is read while a snapshot is taken: the breakers, the endpoints when the
rows are sifted and again when the candidates are built, and the slot counts. -/
structure SnapshotRead (AccountId : Type*) where
  permits : AccountId → Bool
  registry : String → Bool
  registryAfter : String → Bool
  counts : Option (List ℕ)

/-- The row may go into a snapshot: its breaker permits, and it could take a request if idle. -/
def SnapshotRead.probes (read : SnapshotRead AccountId) (now : ℤ) (row : AccountRow AccountId) :
    Bool :=
  read.permits row.id && (row.toCandidate read.registry 0 0).any (isEligible · now)

/-- Everything local first, then the counts of whoever survives. -/
def candidatesFor (read : SnapshotRead AccountId) (remaining : List (AccountRow AccountId))
    (now : ℤ) : List (Candidate AccountId) :=
  let probe := remaining.filter (read.probes now)
  let counts := (usableCounts read.counts probe.length).getD (List.replicate probe.length 0)
  (probe.zip counts).filterMap (fun entry => entry.1.toCandidate read.registryAfter entry.2 0)

/-- What is read when the store is asked for room: breakers, endpoints, counts and a draw. -/
structure RoomRead (AccountId : Type*) where
  permits : AccountId → Bool
  registry : String → Bool
  counts : Option (List ℕ)
  draw : ℕ

/-- One of the rows that could take a request now, chosen by the draw. -/
def pickWithRoom (rows : List (AccountRow AccountId)) (counts : Option (List ℕ)) (now : ℤ)
    (room : RoomRead AccountId) : Option (AccountRow AccountId) :=
  let eligible := rows.zipIdx.filter (fun entry =>
    let inFlight := match counts with
      | some counts => counts[entry.2]?.getD u32Max
      | none => 0
    (entry.1.toCandidate room.registry inFlight 0).any (isEligible · now) &&
      room.permits entry.1.id)
  if eligible = [] then none else eligible[room.draw % eligible.length]?.map Prod.fst

def pickWithRedisRoom (rows : List (AccountRow AccountId)) (now : ℤ) (room : RoomRead AccountId) :
    Option (AccountRow AccountId) :=
  if rows = [] then none else pickWithRoom rows (usableCounts room.counts rows.length) now room

/-- Only once per selection, and only if the store shows room the snapshot did not. -/
def worthARecount (eligible : List (AccountRow AccountId)) (now : ℤ) (room : RoomRead AccountId)
    (alreadyRecounted : Bool) : Bool :=
  !alreadyRecounted && (pickWithRedisRoom eligible now room).isSome

/-- A refusal is capacity truth; a store that cannot answer admits. -/
def claimSlot : Option SlotClaim → Bool
  | some .taken => true
  | some (.full _) => false
  | none => true

/-- The candidates a channel pin leaves standing. -/
def ofKind (rows : List (AccountRow AccountId)) : Option CredentialKind → List (AccountRow AccountId)
  | none => rows
  | some kind => rows.filter (fun r => CredentialKind.fromColumn r.kind = some kind)

/-- The reserve to name when every candidate is held back by one. -/
def reserveHoldingBack (rows : List (AccountRow AccountId)) : Option ℤ :=
  if rows = [] ∨ ¬ rows.all AccountRow.heldByReserve then none
  else (rows.filterMap AccountRow.usageReservePct).max?

/-- The error for nothing to dispatch to. -/
def nothingUsable (provider : Provider) (reserved : Option ℤ) (channel : Option CredentialKind) :
    GatewayError :=
  match reserved, channel with
  | some reservePct, _ => .reserveHeld provider reservePct
  | none, some kind => .noCredentialOfKind provider kind
  | none, none => .noCredential provider

/-- What a lease is asked for, and the rows the database has for it. -/
structure Search (AccountId : Type*) where
  provider : Provider
  channel : Option CredentialKind
  excluded : List AccountId
  candidates : List (AccountRow AccountId)
  now : ℤ

/-- What the world answers on one pass of the cascade. -/
structure Pass (AccountId : Type*) where
  read : SnapshotRead AccountId
  tieBreaker : ℕ
  room : RoomRead AccountId
  claim : AccountId → Option SlotClaim

/-- What the world answers about the pinned credential; `none` counts as no slot in use. -/
structure PinRead (AccountId : Type*) where
  pinned : Option AccountId
  registry : String → Bool
  inFlight : Option ℕ
  permits : Bool
  claim : Option SlotClaim

structure World (AccountId : Type*) where
  pin : PinRead AccountId
  passes : ℕ → Pass AccountId
  room : RoomRead AccountId
  claim : AccountId → Option SlotClaim

/-- The claims a call made, each with its answer. -/
abbrev Claims (AccountId : Type*) := List (AccountId × Option SlotClaim)

/-- How a lease ended: a credential and whether its pin gave it, or an error. -/
structure Leasing (AccountId : Type*) where
  result : Except GatewayError (AccountRow AccountId × Bool)
  claims : Claims AccountId

/-- The cascade before a pass. -/
structure Cascade (AccountId : Type*) where
  remaining : List (AccountRow AccountId)
  exhausted : ℕ
  ghostRetry : Bool
  pass : ℕ
  claims : Claims AccountId

namespace Search

variable [DecidableEq AccountId] (q : Search AccountId) (w : World AccountId)

def rows : List (AccountRow AccountId) := ofKind q.candidates q.channel

def noneLeft : GatewayError := nothingUsable q.provider (reserveHoldingBack q.rows) q.channel

/-- The rows that did not already fail this request. -/
def unexcluded : List (AccountRow AccountId) := q.rows.filter (fun r => r.id ∉ q.excluded)

/-- Reuse the conversation's pinned credential, if it is still usable. -/
def tryPinned (pin : PinRead AccountId) : Option (AccountRow AccountId) × Claims AccountId :=
  match pin.pinned.bind (fun pinned => q.rows.find? (fun r => r.id = pinned)) with
  | none => (none, [])
  | some row =>
    match row.toCandidate pin.registry (pin.inFlight.getD 0) 0 with
    | none => (none, [])
    | some candidate =>
      if !isEligible candidate q.now || !pin.permits then (none, [])
      else (if claimSlot pin.claim then some row else none, [(row.id, pin.claim)])

/-- After the cascade: everything was busy, or there was nothing to pick from. -/
def outOfRows (s : Cascade AccountId) : Leasing AccountId :=
  if 0 < s.exhausted then
    match pickWithRedisRoom q.unexcluded q.now w.room with
    | some row =>
      let claims := s.claims ++ [(row.id, w.claim row.id)]
      if claimSlot (w.claim row.id) then ⟨.ok (row, false), claims⟩
      else ⟨.error (.atCapacity q.provider s.exhausted), claims⟩
    | none => ⟨.error (.atCapacity q.provider s.exhausted), s.claims⟩
  else ⟨.error q.noneLeft, s.claims⟩

/-- Nothing in the snapshot could be selected: a full one is looked at once more. -/
def unselectable (pass : Pass AccountId) (candidates : List (Candidate AccountId))
    (s : Cascade AccountId) : Loop.Step (Cascade AccountId) (Leasing AccountId) :=
  match everyCandidateIsFull candidates q.now with
  | some full =>
    let eligible := s.remaining.filter (fun row =>
      candidates.any (fun c => isLive c q.now && decide (c.account = row.id)))
    if worthARecount eligible q.now pass.room s.ghostRetry then
      .next { s with ghostRetry := true, pass := s.pass + 1 }
    else .done ⟨.error (.atCapacity q.provider full), s.claims⟩
  | none => .done ⟨.error q.noneLeft, s.claims⟩

/-- Claim a slot of the chosen row; a refused row is dropped. -/
def claimRow (pass : Pass AccountId) (row : AccountRow AccountId) (s : Cascade AccountId) :
    Loop.Step (Cascade AccountId) (Leasing AccountId) :=
  let claims := s.claims ++ [(row.id, pass.claim row.id)]
  if claimSlot (pass.claim row.id) then .done ⟨.ok (row, false), claims⟩
  else
    .next {
      remaining := s.remaining.filter (fun r => r.id ≠ row.id)
      exhausted := s.exhausted + 1
      ghostRetry := s.ghostRetry
      pass := s.pass + 1
      claims := claims }

/-- One pass of the cascade. -/
def cascade (s : Cascade AccountId) : Loop.Step (Cascade AccountId) (Leasing AccountId) :=
  if s.remaining = [] then .done (q.outOfRows w s)
  else
    let pass := w.passes s.pass
    let candidates := candidatesFor pass.read s.remaining q.now
    match select candidates q.now pass.tieBreaker with
    | none => q.unselectable pass candidates s
    | some selection =>
      match s.remaining.find? (fun r => r.id = selection.account) with
      | none => .done ⟨.error q.noneLeft, s.claims⟩
      | some row => claimRow pass row s

def start (claims : Claims AccountId) : Cascade AccountId := ⟨q.unexcluded, 0, false, 0, claims⟩

/-- The claims of the pin, which is skipped during failover. -/
def pinClaims : Option (AccountRow AccountId) × Claims AccountId :=
  if q.excluded = [] then q.tryPinned w.pin else (none, [])

/-- Choose a credential for a request, in at most `fuel` passes. -/
def lease (fuel : ℕ) : Option (Leasing AccountId) :=
  if q.rows = [] then some ⟨.error q.noneLeft, []⟩
  else
    match q.pinClaims w with
    | (some row, claims) => some ⟨.ok (row, true), claims⟩
    | (none, claims) => Loop.run (fun s => some (q.cascade w s)) fuel (q.start claims)

end Search

end OpenAIGateway
