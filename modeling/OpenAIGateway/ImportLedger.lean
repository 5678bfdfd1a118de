import OpenAIGateway.UsagePlan
import Mathlib.Data.Set.Function

/-!
Writing a plan to the ledger. A row is left out when one that is stored has its
key or its source reference, so the ledger holds a call once however many
sessions it is in and however often it is imported.
-/

set_option linter.all false

namespace OpenAIGateway.UsageImport

/-- A row of the ledger. -/
structure UsageEvent where
  requestId : Uuid
  attempt : ℤ
  occurredAt : ℤ
  accountId : Option Uuid
  modelId : String
  tier : String
  selectionReason : String
  counts : Fingerprint
  costUsd : Decimal
  counterfactualUsd : Decimal
  counterfactualApiUsd : Decimal
  status : ℕ
  streamed : Bool
  origin : String
  sourceRef : Option String
  costKnown : Bool

namespace UsageEvent

/-- Two rows with one primary key, or with one source reference. -/
def conflicts (new old : UsageEvent) : Bool :=
  (new.requestId == old.requestId && new.attempt == old.attempt) ||
    (new.sourceRef.isSome && new.sourceRef == old.sourceRef)

def hasRef (ref : String) (row : UsageEvent) : Bool := row.sourceRef == some ref

end UsageEvent

/-- What an imported row has for a routing decision. -/
def importedLabel : String := "imported"

/-- The ledger, oldest row first. Both of its unique indexes hold. -/
structure Ledger where
  rows : List UsageEvent
  unique : Appending.Free UsageEvent.conflicts rows

namespace Ledger

def empty : Ledger := ⟨[], List.Pairwise.nil⟩

/-- `INSERT .. ON CONFLICT DO NOTHING`. -/
def insert (ledger : Ledger) (rows : List UsageEvent) : Ledger :=
  ⟨Appending.putAll UsageEvent.conflicts ledger.rows rows, Appending.free_putAll ledger.unique rows⟩

/-- The source references it has. -/
def refs (ledger : Ledger) : Set String := {ref | ∃ row ∈ ledger.rows, row.sourceRef = some ref}

/-- How many rows have a source reference. -/
def count (ledger : Ledger) (ref : String) : ℕ :=
  (ledger.rows.filter (UsageEvent.hasRef ref)).length

end Ledger

section Chunks

variable {α : Type*} (n : ℕ)

def chunksFrom : ℕ → List α → List (List α)
  | 0, _ => []
  | fuel + 1, xs => if xs.isEmpty then [] else xs.take n :: chunksFrom fuel (xs.drop n)

/-- `slice::chunks`. -/
def chunks (xs : List α) : List (List α) := chunksFrom n xs.length xs

theorem flatten_chunksFrom {n : ℕ} (hn : 0 < n) (fuel : ℕ) (xs : List α) (h : xs.length ≤ fuel) :
    (chunksFrom n fuel xs).flatten = xs := by
  induction fuel generalizing xs with
  | zero => exact (List.eq_nil_of_length_eq_zero (by omega)).symm
  | succ fuel ih =>
    unfold chunksFrom
    cases xs with
    | nil => rfl
    | cons x xs =>
      have hdrop : ((x :: xs).drop n).length ≤ fuel := by
        rw [List.length_drop]
        simp only [List.length_cons] at h ⊢
        omega
      rw [List.isEmpty_cons, if_neg Bool.false_ne_true, List.flatten_cons, ih _ hdrop,
        List.take_append_drop]

end Chunks

def writeBatch : ℕ := 1000

/-- The row of a planned call. -/
def Pending.event (source : Source) (seat : Option Seat) (row : Pending) : UsageEvent :=
  let (booked, listed) := row.booked seat
  { requestId := row.requestId
    attempt := 0
    occurredAt := row.occurredAt
    accountId := seat.map Seat.id
    modelId := row.modelId
    tier := importedLabel
    selectionReason := importedLabel
    counts := (clamp row.usage.inputTokens, clamp row.usage.outputTokens,
      clamp row.usage.cacheReadTokens, clamp row.usage.cacheWriteTokens)
    costUsd := booked
    counterfactualUsd := listed
    counterfactualApiUsd := listed
    status := 200
    streamed := false
    origin := source.origin
    sourceRef := some row.sourceRef
    costKnown := row.listed.isSome }

section Write

-- Whether the database carries out the statement that inserts some rows.
variable (accepts : List UsageEvent → Bool)

/-- The ledger after the batches, and how many rows they wrote; `none` when one is refused,
and those before it stay. -/
def writeBatches : List (List UsageEvent) → Ledger → ℕ → Ledger × Option ℕ
  | [], ledger, written => (ledger, some written)
  | batch :: batches, ledger, written =>
    if accepts batch then
      let after := ledger.insert batch
      writeBatches batches after (written + (after.rows.length - ledger.rows.length))
    else (ledger, none)

def Plan.events (p : Plan) : List UsageEvent := p.rows.map (Pending.event p.source p.seat)

def write (p : Plan) (ledger : Ledger) : Ledger × Option ℕ :=
  writeBatches accepts (chunks writeBatch p.events) ledger 0

variable {accepts}

theorem writeBatches_rows {batches : List (List UsageEvent)} {ledger : Ledger} {written n : ℕ}
    (h : (writeBatches accepts batches ledger written).2 = some n) :
    (writeBatches accepts batches ledger written).1.rows =
      Appending.putAll UsageEvent.conflicts ledger.rows batches.flatten := by
  induction batches generalizing ledger written with
  | nil => rfl
  | cons batch batches ih =>
    unfold writeBatches at h ⊢
    by_cases haccepts : accepts batch = true
    · rw [if_pos haccepts] at h ⊢
      rw [List.flatten_cons, Appending.putAll_append]
      exact ih h
    · rw [if_neg haccepts] at h
      cases h

/-- A plan that is written puts every one of its rows. -/
theorem write_rows {p : Plan} {ledger : Ledger} {n : ℕ} (h : (write accepts p ledger).2 = some n) :
    (write accepts p ledger).1.rows =
      Appending.putAll UsageEvent.conflicts ledger.rows p.events := by
  have hchunks := flatten_chunksFrom (by decide : 0 < writeBatch) _ p.events le_rfl
  have hrows := writeBatches_rows h
  rw [chunks, hchunks] at hrows
  exact hrows

theorem mem_writeBatches {batches : List (List UsageEvent)} {ledger : Ledger} {written : ℕ}
    {row : UsageEvent} (h : row ∈ (writeBatches accepts batches ledger written).1.rows) :
    row ∈ ledger.rows ∨ row ∈ batches.flatten := by
  induction batches generalizing ledger written with
  | nil => exact Or.inl h
  | cons batch batches ih =>
    unfold writeBatches at h
    rw [List.flatten_cons, List.mem_append]
    by_cases haccepts : accepts batch = true
    · rw [if_pos haccepts] at h
      rcases ih h with h | h
      · exact (Appending.mem_of_mem_putAll h).imp_right Or.inl
      · exact Or.inr (Or.inr h)
    · rw [if_neg haccepts] at h
      exact Or.inl h

/-- A write adds rows of its plan only, also where a batch is refused. -/
theorem mem_write {p : Plan} {ledger : Ledger} {row : UsageEvent}
    (h : row ∈ (write accepts p ledger).1.rows) : row ∈ ledger.rows ∨ row ∈ p.events := by
  have hchunks := flatten_chunksFrom (by decide : 0 < writeBatch) _ p.events le_rfl
  rw [← hchunks]
  exact mem_writeBatches h

end Write

section History

variable (A : Arithmetic) (newV5 : String → Uuid) (accepts : List UsageEvent → Bool)

/-- The rows a revert deletes; without an account, all of the origin's. -/
def reverts (origin : String) (account : Option Uuid) (row : UsageEvent) : Bool :=
  row.origin == origin && (account.isNone || row.accountId == account)

/-- Delete what an importer wrote. The rows the gateway served are not deleted. -/
def revert (origin : String) (account : Option Uuid) (ledger : Ledger) : Option Ledger :=
  if origin = "gateway" then none
  else some ⟨ledger.rows.filter (fun row => !reverts origin account row), ledger.unique.filter _⟩

/-- The ledgers there can be: what writes them is the gateway, imports and reverts. The gateway
makes its request ids by version 7 and has no source for a row. -/
inductive Written : Ledger → Prop
  | empty : Written Ledger.empty
  | recorded {ledger : Ledger} {row : UsageEvent} : Written ledger → row.requestId.version = 7 →
      row.sourceRef = none → Written (ledger.insert [row])
  | imported {ledger : Ledger} (scan : Scan) (index : LedgerIndex) (prices : Prices)
      (source : Source) (before : Option ℤ) (seat : Option Seat) : Written ledger →
      Written (write accepts { plan A newV5 scan index prices source before with seat := seat }
        ledger).1
  | reverted {ledger after : Ledger} {origin : String} {account : Option Uuid} : Written ledger →
      revert origin account ledger = some after → Written after

/-- A row whose key is made from its source reference. -/
def KeyedByRef (row : UsageEvent) : Prop :=
  ∃ ref, row.sourceRef = some ref ∧ row.requestId = newV5 ref

variable {A newV5 accepts} {scan : Scan} {index : LedgerIndex} {prices : Prices} {source : Source}
  {before : Option ℤ} {seat : Option Seat} {row : UsageEvent}

theorem mem_events (h : row ∈
    { plan A newV5 scan index prices source before with seat := seat : Plan }.events) :
    row.attempt = 0 ∧ KeyedByRef newV5 row := by
  unfold Plan.events at h
  rw [plan_rows, List.map_map] at h
  obtain ⟨call, -, rfl⟩ := List.mem_map.mp h
  exact ⟨rfl, _, rfl, rfl⟩

/-- A key is the gateway's own or made from the row's source reference. -/
theorem Written.keys {ledger : Ledger} (h : Written A newV5 accepts ledger) :
    ∀ row ∈ ledger.rows, row.requestId.version = 7 ∨ KeyedByRef newV5 row := by
  induction h with
  | empty => exact fun row hrow => absurd hrow List.not_mem_nil
  | recorded _ hversion _ ih =>
    intro row hrow
    rcases Appending.mem_of_mem_putAll hrow with hrow | hrow
    · exact ih row hrow
    · rw [List.mem_singleton.mp hrow]
      exact Or.inl hversion
  | imported scan index prices source before seat _ ih =>
    intro row hrow
    rcases mem_write hrow with hrow | hrow
    · exact ih row hrow
    · exact Or.inr (mem_events hrow).2
  | reverted _ hrevert ih =>
    intro row hrow
    unfold revert at hrevert
    obtain ⟨-, hafter⟩ := Option.ite_none_left_eq_some.mp hrevert
    rw [← Option.some.inj hafter] at hrow
    exact ih row (List.mem_of_mem_filter hrow)

end History

end OpenAIGateway.UsageImport
