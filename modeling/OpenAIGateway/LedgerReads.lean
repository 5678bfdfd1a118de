import OpenAIGateway.Breaker
import OpenAIGateway.Calendar
import OpenAIGateway.Keyed
import Mathlib.Algebra.BigOperators.Group.Finset.Basic
import Mathlib.Algebra.Order.BigOperators.Group.List
import Mathlib.Data.Rat.Floor
import Mathlib.Order.Lattice.Nat
import Mathlib.Tactic.Linarith

/-!
What the ledger says of a key, read four ways: its windows in one statement, its
models in a window, a principal in a window, and a pool of keys. Amounts are
exact, instants microseconds, and the month the month of UTC. A row earns points
alone, rounded before anything is summed.
-/

set_option linter.all false

namespace OpenAIGateway.LedgerReads

/-- A row of the ledger, as far as these reads look. -/
structure UsageEvent (Id : Type*) where
  occurredAt : ℤ
  principalId : Option Id
  apiKeyId : Option Id
  modelId : String
  tier : String
  selectionReason : String
  inputTokens : ℤ
  outputTokens : ℤ
  cacheReadTokens : ℤ
  cacheWriteTokens : ℤ
  costUsd : ℚ
  counterfactualApiUsd : ℚ
  deriving DecidableEq

/-- `ROUND` of a numeric, halves away from zero. -/
def sqlRound (q : ℚ) : ℤ := if 0 ≤ q then ⌊q + 1 / 2⌋ else ⌈q - 1 / 2⌉

namespace UsageEvent

variable {Id : Type*}

/-- The points a row earns at a reference price. -/
def points (reference : ℚ) (row : UsageEvent Id) : ℤ :=
  sqlRound (row.counterfactualApiUsd * 1000000 / reference)

/-- An attempt that answered nobody. -/
def unserved (row : UsageEvent Id) : Bool :=
  row.selectionReason == "abandoned" || row.selectionReason == "lost"

end UsageEvent

def microsPerHour : ℤ := 3600000000

inductive UsageWindow
  | fiveHours
  | day
  | sevenDays
  | month
  deriving DecidableEq

/-- The length of a rolling window; the month has none. -/
def UsageWindow.length : UsageWindow → Option ℤ
  | fiveHours => some (5 * microsPerHour)
  | day => some (24 * microsPerHour)
  | sevenDays => some (7 * 24 * microsPerHour)
  | month => none

section Clock

variable (calendar : Calendar)

def utcMonth (now : ℤ) : ℤ := calendar.monthAt (now / (24 * microsPerHour))

/-- The first of a month, in UTC. -/
def firstOf (month : ℤ) : ℤ := calendar.firstDay month * (24 * microsPerHour)

def firstOfMonth (now : ℤ) : ℤ := firstOf calendar (utcMonth calendar now)

def firstOfNextMonth (now : ℤ) : ℤ := firstOf calendar (utcMonth calendar now + 1)

/-- The instant a window starts at. -/
def UsageWindow.since (w : UsageWindow) (now : ℤ) : ℤ :=
  match w.length with
  | some length => now - length
  | none => firstOfMonth calendar now

end Clock

/-- The figures of one window. -/
structure WindowUsage where
  usd : ℚ
  counterfactualUsd : ℚ
  points : Option ℤ
  requests : ℕ
  /-- When a rolling window's oldest row ages out, or the month ends. -/
  freesAt : Option ℤ
  deriving DecidableEq

/-- One key's windows. -/
structure KeyUsage where
  month : WindowUsage
  fiveHour : WindowUsage
  day : WindowUsage
  sevenDay : WindowUsage
  deriving DecidableEq

def KeyUsage.window (usage : KeyUsage) : UsageWindow → WindowUsage
  | .fiveHours => usage.fiveHour
  | .day => usage.day
  | .sevenDays => usage.sevenDay
  | .month => usage.month

section Reads

variable {Id : Type*} [DecidableEq Id] (calendar : Calendar) (ledger : List (UsageEvent Id))

/-- The rows the panel's join reads: the wider of the month and seven days. -/
def joined (key : Id) (now : ℤ) : List (UsageEvent Id) :=
  ledger.filter fun row => decide (row.apiKeyId = some key ∧
    min (firstOfMonth calendar now) (now - 7 * 24 * microsPerHour) ≤ row.occurredAt)

/-- The figures of some rows. -/
def totals (rows : List (UsageEvent Id)) (reference : Option ℚ) (freesAt : Option ℤ) :
    WindowUsage where
  usd := (rows.map UsageEvent.costUsd).sum
  counterfactualUsd := (rows.map UsageEvent.counterfactualApiUsd).sum
  points := reference.map fun reference => (rows.map (UsageEvent.points reference)).sum
  requests := rows.countP fun row => !row.unserved
  freesAt := freesAt

/-- The figures of the rows since an instant. -/
def windowUsage (rows : List (UsageEvent Id)) (reference : Option ℚ) (since : ℤ)
    (freesAt : Option ℤ) : WindowUsage :=
  totals (rows.filter fun row => decide (since ≤ row.occurredAt)) reference freesAt

/-- A rolling window frees up when its oldest row ages out. -/
def rollingUsage (rows : List (UsageEvent Id)) (reference : Option ℚ) (now length : ℤ) :
    WindowUsage :=
  windowUsage rows reference (now - length)
    (((rows.filter fun row => decide (now - length ≤ row.occurredAt)).map
      UsageEvent.occurredAt).min?.map (· + length))

/-- One key's spend in four windows. -/
def keyUsage (key : Id) (reference : Option ℚ) (now : ℤ) : KeyUsage :=
  let rows := joined calendar ledger key now
  { month := windowUsage rows reference (firstOfMonth calendar now)
      (some (firstOfNextMonth calendar now))
    fiveHour := rollingUsage rows reference now (5 * microsPerHour)
    day := rollingUsage rows reference now (24 * microsPerHour)
    sevenDay := rollingUsage rows reference now (7 * 24 * microsPerHour) }

/-- The rows of a key since an instant. -/
def ofKey (key : Id) (since : ℤ) : List (UsageEvent Id) :=
  ledger.filter fun row => decide (row.apiKeyId = some key ∧ since ≤ row.occurredAt)

/-- The rows of a window that age out first. -/
def oldestRows (rows : List (UsageEvent Id)) : List (UsageEvent Id) :=
  rows.filter fun row => rows.all fun other => decide (row.occurredAt ≤ other.occurredAt)

end Reads

namespace WindowUsage

/-- The cost, the list price and the points are the same. -/
def SameFigures (u v : WindowUsage) : Prop :=
  u.usd = v.usd ∧ u.counterfactualUsd = v.counterfactualUsd ∧ u.points = v.points

/-- The cost, the list price or the points are less. -/
def SomeFigureLess (u v : WindowUsage) : Prop :=
  u.usd < v.usd ∨ u.counterfactualUsd < v.counterfactualUsd ∨
    ∃ p ∈ u.points, ∃ q ∈ v.points, p < q

end WindowUsage

section Windows

variable {Id : Type*} [DecidableEq Id] {calendar : Calendar} {ledger : List (UsageEvent Id)}
  {key : Id} {now : ℤ}

/-- The join hides no row of a window that starts no earlier. -/
theorem filter_joined {since : ℤ} (h : min (firstOfMonth calendar now)
    (now - 7 * 24 * microsPerHour) ≤ since) :
    (joined calendar ledger key now).filter (fun row => decide (since ≤ row.occurredAt)) =
      ofKey ledger key since := by
  unfold joined ofKey
  rw [List.filter_filter]
  refine List.filter_congr fun row _ => ?_
  rw [← Bool.decide_and, decide_eq_decide]
  constructor
  · exact fun hrow => ⟨hrow.2.1, hrow.1⟩
  · exact fun hrow => ⟨hrow.2, hrow.1, h.trans hrow.2⟩

theorem min_le_since (calendar : Calendar) (w : UsageWindow) (now : ℤ) :
    min (firstOfMonth calendar now) (now - 7 * 24 * microsPerHour) ≤ w.since calendar now := by
  have hhour : 0 < microsPerHour := by decide
  cases w with
  | month => exact min_le_left _ _
  | fiveHours =>
    refine (min_le_right _ _).trans ?_
    change now - 7 * 24 * microsPerHour ≤ now - 5 * microsPerHour
    omega
  | day =>
    refine (min_le_right _ _).trans ?_
    change now - 7 * 24 * microsPerHour ≤ now - 24 * microsPerHour
    omega
  | sevenDays => exact min_le_right _ _

/-- When a window frees up. -/
def freesAt (calendar : Calendar) (rows : List (UsageEvent Id)) (w : UsageWindow) (now : ℤ) :
    Option ℤ :=
  match w.length with
  | some length => (rows.map UsageEvent.occurredAt).min?.map (· + length)
  | none => some (firstOfNextMonth calendar now)

/-- A window of the panel is the figures of its rows. -/
theorem keyUsage_window (reference : Option ℚ) (w : UsageWindow) :
    (keyUsage calendar ledger key reference now).window w =
      totals (ofKey ledger key (w.since calendar now)) reference
        (freesAt calendar (ofKey ledger key (w.since calendar now)) w now) := by
  have hrows : (joined calendar ledger key now).filter
      (fun row => decide (w.since calendar now ≤ row.occurredAt)) =
      ofKey ledger key (w.since calendar now) := filter_joined (min_le_since calendar w now)
  rw [← hrows]
  cases w <;> rfl

end Windows

end OpenAIGateway.LedgerReads
