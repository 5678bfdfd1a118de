import OpenAIGateway.Catalog
import OpenAIGateway.Extrema
import Mathlib.Data.Int.Basic

/-!
The filter cascade: of every credential that could serve a request, pick one.
Each stage is a filter of its own, and the whole is a function of a snapshot
and a clock reading. It picks an eligible credential whenever there is one.
-/

set_option linter.all false

namespace OpenAIGateway

variable {AccountId : Type*}

/-- A credential at or below the reserve set on it. -/
def heldByReserve : Option Decimal → Option Decimal → Bool
  | some left, some floor => decide (left.val ≤ floor.val)
  | _, _ => false

/-- One credential, as the scheduler sees it. Times are whole seconds. -/
structure Candidate (AccountId : Type*) where
  account : AccountId
  provider : Provider
  priority : ℕ
  maxConcurrency : ℕ
  inFlight : ℕ
  waiting : ℕ
  schedulable : Bool
  cooldownUntil : Option ℤ
  rateLimitedUntil : Option ℤ
  windowResetsAt : Option ℤ
  usageRemainingPct : Option Decimal
  usageReservePct : Option Decimal
  lastUsedAt : ℤ
  deriving DecidableEq

def u32Max : ℕ := 2 ^ 32 - 1

namespace Candidate

/-- Whether this credential can take a request right now. -/
def eligible (c : Candidate AccountId) (now : ℤ) : Bool :=
  c.schedulable && c.cooldownUntil.all (· ≤ now) && c.rateLimitedUntil.all (· ≤ now) &&
    !heldByReserve c.usageRemainingPct c.usageReservePct && decide (c.inFlight < c.maxConcurrency)

/-- Occupancy in basis points, queued requests included. -/
def loadBp (c : Candidate AccountId) : ℕ :=
  if c.maxConcurrency = 0 then u32Max
  else min (min (c.inFlight + c.waiting) u32Max * 10000) u32Max / c.maxConcurrency

end Candidate

/-- The stage that decided. -/
inductive Stage
  | onlyCandidate
  | leastLoaded
  | soonestReset
  | leastRecentlyUsed
  deriving DecidableEq

structure Selection (AccountId : Type*) where
  account : AccountId
  stage : Stage
  deriving DecidableEq

/-- The soonest reset that is still ahead. -/
def soonestReset (now : ℤ) (pool : List (Candidate AccountId)) : Option ℤ :=
  (pool.filterMap (fun c => c.windowResetsAt.filter (now < ·))).min?

/-- Least recently used, with a tie-break. -/
def coldest (pool : List (Candidate AccountId)) (tieBreaker : ℕ) : Option (Selection AccountId) :=
  let cold := Extrema.keepMin Candidate.lastUsedAt pool
  cold[tieBreaker % cold.length]?.map (fun c => ⟨c.account, .leastRecentlyUsed⟩)

/-- Use it or lose it: of equally loaded credentials, the one whose window resets soonest. -/
def byReset (leastLoaded : List (Candidate AccountId)) (now : ℤ) (tieBreaker : ℕ) :
    Option (Selection AccountId) :=
  match soonestReset now leastLoaded with
  | some reset =>
    match leastLoaded.filter (fun c => c.windowResetsAt = some reset) with
    | [only] => some ⟨only.account, .soonestReset⟩
    | expiring => coldest expiring tieBreaker
  | none => coldest leastLoaded tieBreaker

/-- Of one priority tier, the least loaded. -/
def byLoad (tier : List (Candidate AccountId)) (now : ℤ) (tieBreaker : ℕ) :
    Option (Selection AccountId) :=
  match Extrema.keepMin Candidate.loadBp tier with
  | [only] => some ⟨only.account, .leastLoaded⟩
  | leastLoaded => byReset leastLoaded now tieBreaker

/-- Run the cascade; `none` when nothing is eligible. -/
def select (candidates : List (Candidate AccountId)) (now : ℤ) (tieBreaker : ℕ) :
    Option (Selection AccountId) :=
  match candidates.filter (·.eligible now) with
  | [] => none
  | [first] => some ⟨first.account, .onlyCandidate⟩
  | eligible => byLoad (Extrema.keepMin Candidate.priority eligible) now tieBreaker

/-- A choice from a list that is not empty. -/
def Chooses (pool : List (Candidate AccountId)) (choice : Option (Selection AccountId)) : Prop :=
  ∃ c ∈ pool, ∃ stage, choice = some ⟨c.account, stage⟩

theorem Chooses.mono {pool wider : List (Candidate AccountId)}
    {choice : Option (Selection AccountId)} (h : Chooses pool choice)
    (hsub : ∀ c ∈ pool, c ∈ wider) : Chooses wider choice := by
  obtain ⟨c, hc, hchoice⟩ := h
  exact ⟨c, hsub c hc, hchoice⟩

theorem chooses_singleton (c : Candidate AccountId) (stage : Stage) :
    Chooses [c] (some ⟨c.account, stage⟩) :=
  ⟨c, List.mem_singleton_self c, stage, rfl⟩

theorem chooses_coldest {pool : List (Candidate AccountId)} (h : pool ≠ []) (tieBreaker : ℕ) :
    Chooses pool (coldest pool tieBreaker) := by
  unfold coldest
  have hcold : Extrema.keepMin Candidate.lastUsedAt pool ≠ [] := Extrema.keepMin_ne_nil h
  have hlt := Nat.mod_lt tieBreaker (List.length_pos_of_ne_nil hcold)
  refine ⟨_, Extrema.mem_of_mem_keepMin (List.getElem_mem hlt), .leastRecentlyUsed, ?_⟩
  simp only [List.getElem?_eq_getElem hlt, Option.map_some]

/-- A reset that is soonest is one of the pool's. -/
theorem exists_reset {now reset : ℤ} {pool : List (Candidate AccountId)}
    (h : soonestReset now pool = some reset) :
    pool.filter (fun c => c.windowResetsAt = some reset) ≠ [] := by
  obtain ⟨c, hc, hreset⟩ := List.mem_filterMap.mp (List.min?_mem h)
  have hfilter := Option.filter_eq_some_iff.mp hreset
  exact List.ne_nil_of_mem (List.mem_filter.mpr ⟨hc, by simpa using hfilter.1⟩)

theorem chooses_byReset {leastLoaded : List (Candidate AccountId)} (h : leastLoaded ≠ [])
    (now : ℤ) (tieBreaker : ℕ) : Chooses leastLoaded (byReset leastLoaded now tieBreaker) := by
  unfold byReset
  split
  next reset hreset =>
    have hexpiring := exists_reset hreset
    split
    next only honly =>
      apply Chooses.mono (chooses_singleton only _)
      intro c hc
      exact List.mem_of_mem_filter (honly ▸ hc)
    next =>
      apply Chooses.mono (chooses_coldest hexpiring tieBreaker)
      intro c hc
      exact List.mem_of_mem_filter hc
  next => exact chooses_coldest h tieBreaker

theorem chooses_byLoad {tier : List (Candidate AccountId)} (h : tier ≠ []) (now : ℤ)
    (tieBreaker : ℕ) : Chooses tier (byLoad tier now tieBreaker) := by
  have hleast : Extrema.keepMin Candidate.loadBp tier ≠ [] := Extrema.keepMin_ne_nil h
  have hsub : ∀ c ∈ Extrema.keepMin Candidate.loadBp tier, c ∈ tier :=
    fun c hc => Extrema.mem_of_mem_keepMin hc
  unfold byLoad
  split
  next only honly =>
    rw [honly] at hsub
    exact Chooses.mono (chooses_singleton only _) hsub
  next => exact Chooses.mono (chooses_byReset hleast now tieBreaker) hsub

/-- Where some credential is eligible, the cascade picks an eligible one. -/
theorem select_chooses {candidates : List (Candidate AccountId)} {now : ℤ} (tieBreaker : ℕ)
    (h : candidates.filter (·.eligible now) ≠ []) :
    Chooses (candidates.filter (·.eligible now)) (select candidates now tieBreaker) := by
  unfold select
  split
  next hnone => exact absurd hnone h
  next first hfirst =>
    rw [hfirst]
    exact chooses_singleton first _
  next =>
    have htier : Extrema.keepMin Candidate.priority (candidates.filter (·.eligible now)) ≠ [] :=
      Extrema.keepMin_ne_nil h
    apply Chooses.mono (chooses_byLoad htier now tieBreaker)
    intro c hc
    exact Extrema.mem_of_mem_keepMin hc

/-- The cascade picks an eligible credential, or there is none. -/
theorem select_cases (candidates : List (Candidate AccountId)) (now : ℤ) (tieBreaker : ℕ) :
    (select candidates now tieBreaker = none ∧ ∀ c ∈ candidates, c.eligible now = false) ∨
      ∃ c ∈ candidates, c.eligible now = true ∧
        ∃ stage, select candidates now tieBreaker = some ⟨c.account, stage⟩ := by
  by_cases h : candidates.filter (·.eligible now) = []
  · left
    constructor
    · unfold select
      rw [h]
    · intro c hc
      exact Bool.eq_false_iff.mpr (List.filter_eq_nil_iff.mp h c hc)
  · right
    obtain ⟨c, hc, stage, hselect⟩ := select_chooses tieBreaker h
    obtain ⟨hmem, heligible⟩ := List.mem_filter.mp hc
    exact ⟨c, hmem, heligible, stage, hselect⟩

end OpenAIGateway
