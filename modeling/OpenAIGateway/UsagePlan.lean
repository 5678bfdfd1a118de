import OpenAIGateway.Appending
import OpenAIGateway.CatalogTable
import OpenAIGateway.Errors
import OpenAIGateway.Savings
import OpenAIGateway.UsageVerdict

/-!
What an import writes: one row for each call of the sessions it imports, priced
from the catalogue and keyed by what the record calls the call. The same call
read again has the same key.
-/

set_option linter.all false

namespace OpenAIGateway

/-- Whether a monthly fee pays for the tokens. -/
def CredentialKind.flatRate : CredentialKind → Bool
  | .oAuth => true
  | .apiKey | .bedrock | .serviceAccount => false

namespace UsageImport

abbrev Uuid := BitVec 128

def Uuid.version (u : Uuid) : ℕ := (u.extractLsb' 76 4).toNat

/-- The suffix the Grok CLI's own name of a model has. -/
def grokAgentSuffix : String := "-build"

/-- Each name a transcript may use for a model; `some none` is one two models answer to. -/
def Prices := String → Option (Option (String × Pricing))

namespace Prices

def ofRow (row : ModelRow) : String × Pricing :=
  (row.id, ⟨row.inputPerMtok, row.outputPerMtok, row.cacheReadPerMtok, row.cacheWritePerMtok⟩)

/-- A name that another row has already prices neither. -/
def name (row : ModelRow) (prices : Prices) (key : String) : Prices :=
  match prices key with
  | none => Function.update prices key (some (some (ofRow row)))
  | some entry =>
    if entry.any (fun e => e.1 ≠ row.id) then Function.update prices key (some none) else prices

def index (rows : List ModelRow) (provider : String) : Prices :=
  (rows.filter (fun r => r.provider = provider)).foldl
    (fun prices row => [row.upstreamName, row.id, slugTail row.id].foldl (name row) prices)
    (fun _ => none)

def get (prices : Prices) (slug : String) : Option (String × Pricing) := (prices slug).bind id

end Prices

def Source.price (source : Source) (prices : Prices) (slug : String) : Option (String × Pricing) :=
  (prices.get slug).or
    (match source with
    | .claudeCode => none
    | .grokCli =>
      if grokAgentSuffix.toList.isSuffixOf slug.toList then
        prices.get (String.ofList (slug.toList.take (slug.length - grokAgentSuffix.length)))
      else none)

/-- The credential an import is attributed to. -/
structure Seat where
  id : Uuid
  kind : CredentialKind

/-- One row an import would write. -/
structure Pending where
  requestId : Uuid
  sourceRef : String
  occurredAt : ℤ
  modelId : String
  usage : Usage
  /-- What the tokens list for; `none` where the catalogue has no such model. -/
  listed : Option Decimal
  vendorTicks : Option ℕ

/-- What a row books: what it cost, and what the tokens list for. -/
def Pending.booked (row : Pending) (seat : Option Seat) : Decimal × Decimal :=
  let listed := row.listed.getD (.new 0 0)
  if seat.any (fun s => s.kind.flatRate) then (.new 0 0, listed) else (listed, listed)

structure Plan where
  rows : List Pending
  skipped : List (String × Skip)
  /-- The slugs no model answers to, with the messages of each. -/
  unpriced : List (String × ℕ)
  seat : Option Seat
  source : Source
  scan : Scan

/-- The identity of a call. The session is part of it where the message id cannot stand alone. -/
def sourceRef (source : Source) (session externalId : String) : String :=
  if source.messageIdsAreGlobal then source.origin ++ ":" ++ externalId
  else source.origin ++ ":" ++ session ++ ":" ++ externalId

variable (A : Arithmetic) (newV5 : String → Uuid)

/-- The row of one call. The catalogue's prices are small enough for every cost to be a decimal. -/
def pending (prices : Prices) (source : Source) (session : String) (m : Message) : Pending :=
  let priced := source.price prices m.modelSlug
  { requestId := newV5 (sourceRef source session m.externalId)
    sourceRef := sourceRef source session m.externalId
    occurredAt := m.occurredAt
    modelId := priced.elim (source.provider ++ "/" ++ m.modelSlug) Prod.fst
    usage := m.usage
    listed := priced.bind (fun p => p.2.cost A m.usage)
    vendorTicks := m.vendorTicks }

def countUnpriced (unpriced : List (String × ℕ)) (slug : String) : List (String × ℕ) :=
  Keyed.insert Prod.fst (slug, ((Keyed.get? Prod.fst unpriced slug).elim 0 Prod.snd) + 1) unpriced

def planMessage (prices : Prices) (source : Source) (session : String) (out : Plan) (m : Message) :
    Plan :=
  { out with
    rows := out.rows ++ [pending A newV5 prices source session m]
    unpriced := if (source.price prices m.modelSlug).isNone then
      countUnpriced out.unpriced m.modelSlug else out.unpriced }

def planSession (ledger : LedgerIndex) (prices : Prices) (source : Source) (before : Option ℤ)
    (out : Plan) (entry : SessionEntry) : Plan :=
  match judge entry.session ledger source before with
  -- A session with nothing in it.
  | none => out
  | some (.skipped reason) => { out with skipped := out.skipped ++ [(entry.id, reason)] }
  | some .imported => entry.session.messages.foldl (planMessage A newV5 prices source entry.id) out

/-- Turn a scan into a plan. -/
def plan (scan : Scan) (ledger : LedgerIndex) (prices : Prices) (source : Source)
    (before : Option ℤ) : Plan :=
  scan.sessions.foldl (planSession A newV5 ledger prices source before)
    ⟨[], [], [], none, source, scan⟩

/-- The calls of the imported sessions, with the session of each. -/
def imported (scan : Scan) (ledger : LedgerIndex) (source : Source) (before : Option ℤ) :
    List (String × Message) :=
  (scan.sessions.filter (fun e => judge e.session ledger source before = some .imported)).flatMap
    (fun e => e.session.messages.map (fun m => (e.id, m)))

variable {scan : Scan} {ledger : LedgerIndex} {prices : Prices} {source : Source}
  {before : Option ℤ}

theorem planSession_rows (out : Plan) (entry : SessionEntry) :
    (planSession A newV5 ledger prices source before out entry).rows = out.rows ++
      (if judge entry.session ledger source before = some .imported then
        entry.session.messages.map (pending A newV5 prices source entry.id) else []) := by
  unfold planSession
  cases judge entry.session ledger source before with
  | none => simp
  | some verdict =>
    cases verdict with
    | skipped reason => simp
    | imported =>
      have happends : ∀ out m, (planMessage A newV5 prices source entry.id out m).rows =
          out.rows ++ [pending A newV5 prices source entry.id m] := fun _ _ => rfl
      rw [if_pos rfl, List.map_eq_flatMap]
      exact Appending.foldl_appends happends out entry.session.messages

/-- The rows of a plan are those of the imported sessions' calls, one each. -/
theorem plan_rows : (plan A newV5 scan ledger prices source before).rows =
    (imported scan ledger source before).map
      (fun call => pending A newV5 prices source call.1 call.2) := by
  unfold plan imported
  rw [Appending.foldl_appends (planSession_rows A newV5), List.nil_append, List.map_flatMap]
  induction scan.sessions with
  | nil => rfl
  | cons e sessions ih =>
    rw [List.flatMap_cons, ih]
    by_cases hjudge : judge e.session ledger source before = some .imported
    · simp [hjudge]
    · simp [hjudge]

theorem mem_imported_iff {id : String} {m : Message} :
    (id, m) ∈ imported scan ledger source before ↔
    ∃ e ∈ scan.sessions, e.id = id ∧ m ∈ e.session.messages ∧
      judge e.session ledger source before = some .imported := by
  unfold imported
  simp only [List.mem_flatMap, List.mem_filter, decide_eq_true_eq, List.mem_map, Prod.mk.injEq]
  constructor
  · rintro ⟨e, ⟨he, hjudge⟩, m', hm, hid, rfl⟩
    exact ⟨e, he, hid, hm, hjudge⟩
  · rintro ⟨e, he, hid, hm, hjudge⟩
    exact ⟨e, ⟨he, hjudge⟩, m, hm, hid, rfl⟩

/-- A call is planned once. -/
theorem nodup_imported : ((imported scan ledger source before).map
    (fun call => (call.1, call.2.externalId))).Nodup := by
  unfold imported
  rw [List.map_flatMap, List.nodup_flatMap]
  constructor
  · intro e he
    rw [List.map_map]
    refine List.pairwise_map.mpr (e.session.sorted.imp ?_)
    intro m m' hlt heq
    exact ne_of_lt hlt (Prod.mk.inj heq).2
  · refine (scan.sorted.filter _).imp ?_
    intro e e' hlt call hcall hcall'
    simp only [List.map_map, List.mem_map] at hcall hcall'
    obtain ⟨m, -, rfl⟩ := hcall
    obtain ⟨m', -, heq⟩ := hcall'
    exact ne_of_lt hlt (Prod.mk.inj heq).1.symm

end UsageImport

end OpenAIGateway
