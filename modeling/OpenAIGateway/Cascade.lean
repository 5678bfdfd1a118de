import OpenAIGateway.Schedule
import Mathlib.Data.Int.ConditionallyCompleteOrder
import Mathlib.Data.List.Perm.Basic
import Mathlib.Order.WithBot

/-!
The cascade as one order. Its four stages together keep the eligible
credentials that are least by priority, load, soonest reset ahead and last use,
in that order, and the tie-break picks one of those.
-/

set_option linter.all false

namespace OpenAIGateway

variable {AccountId : Type*} {now : ℤ}

/-- The reset a credential's window has ahead; one without is after all others. -/
def Candidate.resetAhead (now : ℤ) (c : Candidate AccountId) : WithTop ℤ :=
  (c.windowResetsAt.filter (now < ·)).elim ⊤ (fun t => ((t : ℤ) : WithTop ℤ))

/-- What the cascade orders credentials by. -/
def Candidate.rank (now : ℤ) (c : Candidate AccountId) : ℕ ×ₗ ℕ ×ₗ WithTop ℤ ×ₗ ℤ :=
  toLex (c.priority, toLex (c.loadBp, toLex (c.resetAhead now, c.lastUsedAt)))

/-- An eligible credential that no eligible one comes before. -/
def Winner (candidates : List (Candidate AccountId)) (now : ℤ) (c : Candidate AccountId) : Prop :=
  c ∈ candidates ∧ c.eligible now = true ∧
    ∀ other ∈ candidates, other.eligible now = true → c.rank now ≤ other.rank now

/-- What the reset stage leaves. -/
def expiring (leastLoaded : List (Candidate AccountId)) (now : ℤ) : List (Candidate AccountId) :=
  match soonestReset now leastLoaded with
  | some reset => leastLoaded.filter (fun c => c.windowResetsAt = some reset)
  | none => leastLoaded

/-- What is left for the tie-break. -/
def finalists (candidates : List (Candidate AccountId)) (now : ℤ) : List (Candidate AccountId) :=
  Extrema.keepMin Candidate.lastUsedAt (expiring (Extrema.keepMin Candidate.loadBp
    (Extrema.keepMin Candidate.priority (candidates.filter (·.eligible now)))) now)

theorem Candidate.resetAhead_eq_coe_iff {c : Candidate AccountId} {t : ℤ} :
    c.resetAhead now = t ↔ c.windowResetsAt.filter (now < ·) = some t := by
  unfold resetAhead
  cases c.windowResetsAt.filter (now < ·) with
  | none => simp
  | some t' => simp

theorem soonestReset_eq_some_iff {pool : List (Candidate AccountId)} {reset : ℤ} :
    soonestReset now pool = some reset ↔
      (∃ c ∈ pool, c.resetAhead now = reset) ∧ ∀ c ∈ pool, (reset : WithTop ℤ) ≤ c.resetAhead now := by
  unfold soonestReset
  rw [Extrema.min?_eq_some_iff]
  simp only [List.mem_filterMap, Candidate.resetAhead_eq_coe_iff]
  refine and_congr_right (fun _ => ?_)
  constructor
  · intro h c hc
    unfold Candidate.resetAhead
    cases hreset : c.windowResetsAt.filter (now < ·) with
    | none => exact le_top
    | some t => exact WithTop.coe_le_coe.mpr (h t ⟨c, hc, hreset⟩)
  · rintro h t ⟨c, hc, hreset⟩
    have hle := h c hc
    rw [Candidate.resetAhead_eq_coe_iff.mpr hreset] at hle
    exact WithTop.coe_le_coe.mp hle

/-- The reset stage keeps those whose reset ahead is least. -/
theorem mem_expiring_iff {leastLoaded : List (Candidate AccountId)} {c : Candidate AccountId} :
    c ∈ expiring leastLoaded now ↔
      c ∈ Extrema.keepMin (Candidate.resetAhead now) leastLoaded := by
  rw [Extrema.mem_keepMin_iff]
  unfold expiring
  cases hsoonest : soonestReset now leastLoaded with
  | none =>
    have htop : ∀ c ∈ leastLoaded, c.resetAhead now = ⊤ := by
      intro c hc
      unfold soonestReset at hsoonest
      rw [List.min?_eq_none_iff, List.filterMap_eq_nil_iff] at hsoonest
      unfold Candidate.resetAhead
      rw [hsoonest c hc]
      rfl
    refine ⟨fun hc => ⟨hc, ?_⟩, fun h => h.1⟩
    intro other hother
    rw [htop c hc, htop other hother]
  | some reset =>
    obtain ⟨⟨first, hfirst, hreset⟩, hle⟩ := soonestReset_eq_some_iff.mp hsoonest
    have hahead : now < reset := by
      have := (Option.filter_eq_some_iff.mp (Candidate.resetAhead_eq_coe_iff.mp hreset)).2
      exact of_decide_eq_true this
    rw [List.mem_filter, decide_eq_true_eq]
    refine and_congr_right (fun hc => ?_)
    have hkey : c.windowResetsAt = some reset ↔ c.resetAhead now = reset := by
      rw [Candidate.resetAhead_eq_coe_iff, Option.filter_eq_some_iff]
      exact ⟨fun h => ⟨h, decide_eq_true hahead⟩, fun h => h.1⟩
    rw [hkey]
    constructor
    · intro heq other hother
      rw [heq]
      exact hle other hother
    · intro h
      exact le_antisymm (hreset ▸ h first hfirst) (hle c hc)

/-- The stages one after the other keep what is least in the whole order. -/
theorem mem_finalists_iff {candidates : List (Candidate AccountId)} {c : Candidate AccountId} :
    c ∈ finalists candidates now ↔ Winner candidates now c := by
  unfold finalists
  rw [Extrema.mem_keepMin_congr (fun _ => mem_expiring_iff), Extrema.mem_keepMin_keepMin_iff,
    Extrema.mem_keepMin_keepMin_iff, Extrema.mem_keepMin_keepMin_iff, Extrema.mem_keepMin_iff]
  simp only [List.mem_filter, and_imp, and_assoc]
  rfl

/-- The tie-break's pick from a pool. -/
def pickFrom (pool : List (Candidate AccountId)) (tieBreaker : ℕ) (stage : Stage) :
    Option (Selection AccountId) :=
  pool[tieBreaker % pool.length]?.map (fun c => ⟨c.account, stage⟩)

theorem pickFrom_singleton (c : Candidate AccountId) (tieBreaker : ℕ) (stage : Stage) :
    pickFrom [c] tieBreaker stage = some ⟨c.account, stage⟩ := by
  unfold pickFrom
  rw [List.length_singleton, Nat.mod_one]
  rfl

theorem expiring_singleton (c : Candidate AccountId) : expiring [c] now = [c] := by
  have hmem : c ∈ expiring [c] now := by
    rw [mem_expiring_iff, Extrema.keepMin_singleton]
    exact List.mem_singleton_self c
  unfold expiring at hmem ⊢
  cases hsoonest : soonestReset now [c] with
  | none => rfl
  | some reset =>
    rw [hsoonest] at hmem
    apply List.filter_eq_self.mpr
    intro other hother
    rw [List.mem_singleton.mp hother]
    exact (List.mem_filter.mp hmem).2

theorem byReset_eq (leastLoaded : List (Candidate AccountId)) (now : ℤ) (tieBreaker : ℕ) :
    ∃ stage, byReset leastLoaded now tieBreaker =
      pickFrom (Extrema.keepMin Candidate.lastUsedAt (expiring leastLoaded now)) tieBreaker stage := by
  unfold byReset expiring
  cases hsoonest : soonestReset now leastLoaded with
  | none => exact ⟨.leastRecentlyUsed, rfl⟩
  | some reset =>
    simp only
    split
    next only honly =>
      rw [honly, Extrema.keepMin_singleton]
      exact ⟨.soonestReset, (pickFrom_singleton only tieBreaker _).symm⟩
    next => exact ⟨.leastRecentlyUsed, rfl⟩

theorem byLoad_eq (tier : List (Candidate AccountId)) (now : ℤ) (tieBreaker : ℕ) :
    ∃ stage, byLoad tier now tieBreaker =
      pickFrom (Extrema.keepMin Candidate.lastUsedAt
        (expiring (Extrema.keepMin Candidate.loadBp tier) now)) tieBreaker stage := by
  unfold byLoad
  split
  next only honly =>
    rw [honly, expiring_singleton, Extrema.keepMin_singleton]
    exact ⟨.leastLoaded, (pickFrom_singleton only tieBreaker _).symm⟩
  next => exact byReset_eq _ now tieBreaker

/-- However early a stage ends the cascade, it picks from the finalists. -/
theorem select_eq (candidates : List (Candidate AccountId)) (now : ℤ) (tieBreaker : ℕ) :
    ∃ stage, select candidates now tieBreaker =
      pickFrom (finalists candidates now) tieBreaker stage := by
  unfold select finalists
  split
  next hnone =>
    rw [hnone]
    exact ⟨.onlyCandidate, rfl⟩
  next first hfirst =>
    rw [hfirst, Extrema.keepMin_singleton, Extrema.keepMin_singleton, expiring_singleton,
      Extrema.keepMin_singleton]
    exact ⟨.onlyCandidate, (pickFrom_singleton first tieBreaker _).symm⟩
  next => exact byLoad_eq _ now tieBreaker

/-- Some finalist is picked, unless there is none. -/
theorem pickFrom_cases (pool : List (Candidate AccountId)) (tieBreaker : ℕ) (stage : Stage) :
    (pool = [] ∧ pickFrom pool tieBreaker stage = none) ∨
      ∃ c ∈ pool, pickFrom pool tieBreaker stage = some ⟨c.account, stage⟩ := by
  unfold pickFrom
  cases pool with
  | nil => exact Or.inl ⟨rfl, rfl⟩
  | cons c pool =>
    have hlt := Nat.mod_lt tieBreaker (List.length_pos_of_mem (List.mem_cons_self (a := c) (l := pool)))
    refine Or.inr ⟨_, List.getElem_mem hlt, ?_⟩
    rw [List.getElem?_eq_getElem hlt, Option.map_some]

/-- Among eligible credentials there is a first one. -/
theorem finalists_eq_nil_iff (candidates : List (Candidate AccountId)) (now : ℤ) :
    finalists candidates now = [] ↔ ∀ c ∈ candidates, c.eligible now = false := by
  constructor
  · intro hnil
    rcases select_cases candidates now 0 with ⟨-, hnone⟩ | ⟨c, -, -, stage, hselect⟩
    · exact hnone
    · obtain ⟨stage', heq⟩ := select_eq candidates now 0
      rw [hselect, hnil] at heq
      cases heq
  · intro h
    apply List.eq_nil_iff_forall_not_mem.mpr
    intro c hc
    obtain ⟨hmem, heligible, -⟩ := mem_finalists_iff.mp hc
    rw [h c hmem] at heligible
    cases heligible

theorem finalists_sublist (candidates : List (Candidate AccountId)) (now : ℤ) :
    (finalists candidates now).Sublist candidates := by
  have hexpiring : ∀ pool : List (Candidate AccountId), (expiring pool now).Sublist pool := by
    intro pool
    unfold expiring
    cases soonestReset now pool with
    | none => exact List.Sublist.refl _
    | some reset => exact List.filter_sublist
  unfold finalists
  apply (Extrema.keepMin_sublist _ _).trans
  apply (hexpiring _).trans
  apply (Extrema.keepMin_sublist _ _).trans
  apply (Extrema.keepMin_sublist _ _).trans
  exact List.filter_sublist

/-- A pick is a winner's. -/
theorem select_winner {candidates : List (Candidate AccountId)} {tieBreaker : ℕ}
    {s : Selection AccountId} (h : select candidates now tieBreaker = some s) :
    ∃ c, Winner candidates now c ∧ c.account = s.account := by
  obtain ⟨stage, heq⟩ := select_eq candidates now tieBreaker
  rw [h] at heq
  rcases pickFrom_cases (finalists candidates now) tieBreaker stage with
    ⟨-, hnone⟩ | ⟨c, hc, hpick⟩
  · rw [hnone] at heq
    cases heq
  · rw [hpick] at heq
    cases heq
    exact ⟨c, mem_finalists_iff.mp hc, rfl⟩

/-- Every winner is the pick of the tie-break that is its place among them. -/
theorem exists_select_of_winner {candidates : List (Candidate AccountId)}
    {c : Candidate AccountId} (h : Winner candidates now c) :
    ∃ tieBreaker < candidates.length, ∃ stage,
      select candidates now tieBreaker = some ⟨c.account, stage⟩ := by
  obtain ⟨i, hi, hget⟩ := List.getElem_of_mem (mem_finalists_iff.mpr h)
  obtain ⟨stage, heq⟩ := select_eq candidates now i
  refine ⟨i, lt_of_lt_of_le hi (finalists_sublist candidates now).length_le, stage, ?_⟩
  rw [heq, pickFrom, Nat.mod_eq_of_lt hi, List.getElem?_eq_getElem hi, hget]
  rfl

theorem Winner.perm {candidates candidates' : List (Candidate AccountId)}
    (hperm : candidates'.Perm candidates) {c : Candidate AccountId} (h : Winner candidates now c) :
    Winner candidates' now c := by
  obtain ⟨hmem, heligible, hleast⟩ := h
  refine ⟨hperm.mem_iff.mpr hmem, heligible, ?_⟩
  intro other hother
  exact hleast other (hperm.mem_iff.mp hother)

/-- The cascade answers nothing exactly when no credential is eligible; it
answers with an eligible one that none comes before by priority, load, soonest
reset ahead and last use; some tie-break answers with each of those; and the
order of the candidates has no part in which those are. -/
theorem select_least (candidates : List (Candidate AccountId)) (now : ℤ) :
    (∀ tieBreaker, select candidates now tieBreaker = none ↔
      ∀ c ∈ candidates, c.eligible now = false) ∧
    (∀ tieBreaker s, select candidates now tieBreaker = some s →
      ∃ c, Winner candidates now c ∧ c.account = s.account) ∧
    (∀ c, Winner candidates now c → ∃ tieBreaker < candidates.length, ∃ stage,
      select candidates now tieBreaker = some ⟨c.account, stage⟩) ∧
    ∀ candidates', candidates'.Perm candidates → ∀ account,
      (∃ tieBreaker stage, select candidates' now tieBreaker = some ⟨account, stage⟩) ↔
        ∃ tieBreaker stage, select candidates now tieBreaker = some ⟨account, stage⟩ := by
  have hpossible : ∀ candidates candidates' : List (Candidate AccountId),
      candidates'.Perm candidates → ∀ account,
        (∃ tieBreaker stage, select candidates now tieBreaker = some ⟨account, stage⟩) →
          ∃ tieBreaker stage, select candidates' now tieBreaker = some ⟨account, stage⟩ := by
    rintro candidates candidates' hperm account ⟨tieBreaker, stage, hselect⟩
    obtain ⟨c, hc, haccount⟩ := select_winner hselect
    obtain ⟨tieBreaker', -, stage', hselect'⟩ := exists_select_of_winner (hc.perm hperm)
    obtain rfl : c.account = account := haccount
    exact ⟨tieBreaker', stage', hselect'⟩
  refine ⟨?_, fun _ _ => select_winner, fun _ => exists_select_of_winner, ?_⟩
  · intro tieBreaker
    obtain ⟨stage, heq⟩ := select_eq candidates now tieBreaker
    rw [heq, ← finalists_eq_nil_iff]
    rcases pickFrom_cases (finalists candidates now) tieBreaker stage with
      ⟨hnil, hnone⟩ | ⟨c, hc, hpick⟩
    · exact ⟨fun _ => hnil, fun _ => hnone⟩
    · rw [hpick]
      constructor
      · intro h
        cases h
      · intro hnil
        rw [hnil] at hc
        cases hc
  · intro candidates' hperm account
    exact ⟨hpossible candidates' candidates hperm.symm account,
      hpossible candidates candidates' hperm account⟩

end OpenAIGateway
