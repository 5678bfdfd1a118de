import OpenAIGateway.LedgerReads

/-!
When a rolling window frees up. The instant is the oldest row's, whatever that
row cost, so until it nothing changes; right after it the rows of that instant
are gone, and the window's figures are less exactly when those rows amounted to
anything.
-/

set_option linter.all false

namespace OpenAIGateway.LedgerReads

section Rows

variable {Id : Type*}

/-- The rows a window has right after its oldest instant has aged out. -/
def laterRows (rows : List (UsageEvent Id)) : List (UsageEvent Id) :=
  rows.filter fun row => !rows.all fun other => decide (row.occurredAt ≤ other.occurredAt)

theorem sum_oldest_add_later {M : Type*} [AddCommMonoid M] (f : UsageEvent Id → M)
    (rows : List (UsageEvent Id)) :
    (rows.map f).sum = ((oldestRows rows).map f).sum + ((laterRows rows).map f).sum := by
  have hperm : (oldestRows rows ++ laterRows rows).Perm rows := List.filter_append_perm _ rows
  rw [← (hperm.map f).sum_eq, List.map_append, List.sum_append]

theorem min?_occurredAt_eq_some_iff {rows : List (UsageEvent Id)} {oldest : ℤ} :
    (rows.map UsageEvent.occurredAt).min? = some oldest ↔
      (∃ row ∈ rows, row.occurredAt = oldest) ∧ ∀ row ∈ rows, oldest ≤ row.occurredAt := by
  rw [List.min?_eq_some_iff]
  simp

/-- Rows amount to something: what they cost, list at or earn is more than nothing. -/
def AmountTo (reference : ℚ) (rows : List (UsageEvent Id)) : Prop :=
  0 < (rows.map UsageEvent.costUsd).sum ∨ 0 < (rows.map UsageEvent.counterfactualApiUsd).sum ∨
    0 < (rows.map (UsageEvent.points reference)).sum

/-- A row without a price earns nothing. -/
theorem points_of_free {reference : ℚ} {row : UsageEvent Id} (h : row.counterfactualApiUsd = 0) :
    row.points reference = 0 := by
  unfold UsageEvent.points sqlRound
  rw [h, zero_mul, zero_div, if_pos (le_refl 0), zero_add]
  norm_num

/-- Where no amount is negative, rows amount to something as soon as one of them does. -/
theorem amountTo_iff_of_nonneg {reference : ℚ} {rows : List (UsageEvent Id)}
    (hcost : ∀ row ∈ rows, 0 ≤ row.costUsd) (hlist : ∀ row ∈ rows, 0 ≤ row.counterfactualApiUsd) :
    AmountTo reference rows ↔ ∃ row ∈ rows, 0 < row.costUsd ∨ 0 < row.counterfactualApiUsd := by
  have hsome : ∀ f : UsageEvent Id → ℚ, (∀ row ∈ rows, 0 ≤ f row) → ∀ row ∈ rows, 0 < f row →
      0 < (rows.map f).sum := by
    intro f hf row hrow hpos
    have hle : f row ≤ (rows.map f).sum :=
      List.single_le_sum (by simpa using hf) _ (List.mem_map_of_mem hrow)
    linarith
  constructor
  · intro h
    by_contra hfree
    push Not at hfree
    have hcost' : rows.map UsageEvent.costUsd = List.replicate rows.length 0 :=
      List.map_eq_replicate_iff.mpr fun row hrow =>
        le_antisymm (hfree row hrow).1 (hcost row hrow)
    have hlist' : ∀ row ∈ rows, row.counterfactualApiUsd = 0 :=
      fun row hrow => le_antisymm (hfree row hrow).2 (hlist row hrow)
    have hpoints : rows.map (UsageEvent.points reference) = List.replicate rows.length 0 :=
      List.map_eq_replicate_iff.mpr fun row hrow => points_of_free (hlist' row hrow)
    unfold AmountTo at h
    rw [hcost', hpoints, List.map_eq_replicate_iff.mpr hlist'] at h
    simp at h
  · rintro ⟨row, hrow, hpos | hpos⟩
    · exact Or.inl (hsome _ hcost row hrow hpos)
    · exact Or.inr (Or.inl (hsome _ hlist row hrow hpos))

/-- Less is left exactly when what is gone amounts to something. -/
theorem someFigureLess_iff (reference : ℚ) (rows : List (UsageEvent Id))
    (freesAt freesAt' : Option ℤ) :
    (totals (laterRows rows) (some reference) freesAt).SomeFigureLess
        (totals rows (some reference) freesAt') ↔
      AmountTo reference (oldestRows rows) := by
  unfold WindowUsage.SomeFigureLess totals AmountTo
  simp only [sum_oldest_add_later _ rows, Option.map_some, Option.mem_some_iff, exists_eq_left',
    lt_add_iff_pos_left]

end Rows

section Freeing

variable {Id : Type*} [DecidableEq Id] {calendar : Calendar} {ledger : List (UsageEvent Id)}
  {key : Id} {now length : ℤ}

/-- Until its oldest row ages out a window holds the rows it holds now. -/
theorem ofKey_until {oldest t : ℤ}
    (holdest : ∀ row ∈ ofKey ledger key (now - length), oldest ≤ row.occurredAt)
    (hnow : now ≤ t) (huntil : t ≤ oldest + length) :
    ofKey ledger key (t - length) = ofKey ledger key (now - length) := by
  refine List.filter_congr fun row hrow => ?_
  rw [decide_eq_decide]
  constructor
  · exact fun h => ⟨h.1, by omega⟩
  · intro h
    have hin : row ∈ ofKey ledger key (now - length) :=
      List.mem_filter.mpr ⟨hrow, decide_eq_true h⟩
    have hage := holdest row hin
    exact ⟨h.1, by omega⟩

/-- Right after, the rows of that instant are gone. -/
theorem ofKey_after {oldest : ℤ}
    (hsome : ∃ row ∈ ofKey ledger key (now - length), row.occurredAt = oldest)
    (holdest : ∀ row ∈ ofKey ledger key (now - length), oldest ≤ row.occurredAt) :
    ofKey ledger key (oldest + length + 1 - length) =
      laterRows (ofKey ledger key (now - length)) := by
  obtain ⟨first, hfirst, hwhen⟩ := hsome
  have hrange : now - length ≤ first.occurredAt := by
    have hin := of_decide_eq_true (List.mem_filter.mp hfirst).2
    exact hin.2
  have hlater : ∀ row ∈ ofKey ledger key (now - length),
      ((!(ofKey ledger key (now - length)).all
        fun other => decide (row.occurredAt ≤ other.occurredAt)) = true ↔
      oldest < row.occurredAt) := by
    intro row hrow
    rw [Bool.not_eq_true', ← Bool.not_eq_true, List.all_eq_true]
    constructor
    · intro hnot
      by_contra hle
      exact hnot fun other hother => decide_eq_true ((not_lt.mp hle).trans (holdest other hother))
    · intro hlt hall
      have hle := of_decide_eq_true (hall first hfirst)
      omega
  have hfilter : laterRows (ofKey ledger key (now - length)) =
      (ofKey ledger key (now - length)).filter fun row => decide (oldest < row.occurredAt) := by
    refine List.filter_congr fun row hrow => ?_
    rw [Bool.eq_iff_iff, hlater row hrow, decide_eq_true_iff]
  rw [hfilter]
  unfold ofKey
  rw [List.filter_filter]
  refine List.filter_congr fun row _ => ?_
  rw [← Bool.decide_and, decide_eq_decide]
  constructor
  · exact fun h => ⟨by omega, h.1, by omega⟩
  · exact fun h => ⟨h.2.1, by omega⟩

/-- A window says when it frees up exactly when it holds a row. Until then its figures
stay, and they are less right after it, exactly when the window is empty or the rows of
its oldest instant amount to something. -/
theorem freesAt_holds_iff (calendar : Calendar) (ledger : List (UsageEvent Id)) (key : Id)
    (reference : ℚ) (now : ℤ) (w : UsageWindow) (length : ℤ) (hlength : w.length = some length) :
    (((((keyUsage calendar ledger key (some reference) now).window w).freesAt = none ↔
        ofKey ledger key (now - length) = []) ∧
      ∀ instant, ((keyUsage calendar ledger key (some reference) now).window w).freesAt =
          some instant →
        (∀ t, now ≤ t → t ≤ instant →
          ((keyUsage calendar ledger key (some reference) t).window w).SameFigures
            ((keyUsage calendar ledger key (some reference) now).window w)) ∧
        ((keyUsage calendar ledger key (some reference) (instant + 1)).window w).SomeFigureLess
          ((keyUsage calendar ledger key (some reference) now).window w))) ↔
      ofKey ledger key (now - length) = [] ∨
        AmountTo reference (oldestRows (ofKey ledger key (now - length))) := by
  have hsince : ∀ t, w.since calendar t = t - length := by
    intro t
    unfold UsageWindow.since
    rw [hlength]
  have hfrees : freesAt calendar (ofKey ledger key (now - length)) w now =
      ((ofKey ledger key (now - length)).map UsageEvent.occurredAt).min?.map (· + length) := by
    unfold freesAt
    rw [hlength]
  have hwindow : ∀ t, (keyUsage calendar ledger key (some reference) t).window w =
      totals (ofKey ledger key (t - length)) (some reference)
        (freesAt calendar (ofKey ledger key (t - length)) w t) := by
    intro t
    rw [keyUsage_window, hsince]
  have hempty : ((keyUsage calendar ledger key (some reference) now).window w).freesAt = none ↔
      ofKey ledger key (now - length) = [] := by
    rw [hwindow]
    change freesAt calendar (ofKey ledger key (now - length)) w now = none ↔ _
    rw [hfrees, Option.map_eq_none_iff, List.min?_eq_none_iff, List.map_eq_nil_iff]
  have hinstant : ∀ instant,
      ((keyUsage calendar ledger key (some reference) now).window w).freesAt = some instant →
      (∀ t, now ≤ t → t ≤ instant →
        ((keyUsage calendar ledger key (some reference) t).window w).SameFigures
          ((keyUsage calendar ledger key (some reference) now).window w)) ∧
      (((keyUsage calendar ledger key (some reference) (instant + 1)).window w).SomeFigureLess
          ((keyUsage calendar ledger key (some reference) now).window w) ↔
        AmountTo reference (oldestRows (ofKey ledger key (now - length)))) := by
    intro instant hinstant
    rw [hwindow] at hinstant
    change freesAt calendar (ofKey ledger key (now - length)) w now = some instant at hinstant
    rw [hfrees, Option.map_eq_some_iff] at hinstant
    obtain ⟨oldest, hmin, rfl⟩ := hinstant
    obtain ⟨hsome, hleast⟩ := min?_occurredAt_eq_some_iff.mp hmin
    constructor
    · intro t hnow huntil
      rw [hwindow t, hwindow now, ofKey_until hleast hnow huntil]
      exact ⟨rfl, rfl, rfl⟩
    · rw [hwindow (oldest + length + 1), hwindow now, ofKey_after hsome hleast]
      exact someFigureLess_iff reference _ _ _
  constructor
  · rintro ⟨-, hholds⟩
    cases hfreesAt : ((keyUsage calendar ledger key (some reference) now).window w).freesAt with
    | none => exact Or.inl (hempty.mp hfreesAt)
    | some instant =>
      exact Or.inr ((hinstant instant hfreesAt).2.mp (hholds instant hfreesAt).2)
  · intro hcondition
    refine ⟨hempty, fun instant hfreesAt => ⟨(hinstant instant hfreesAt).1, ?_⟩⟩
    rcases hcondition with hnil | hamount
    · rw [hempty.mpr hnil] at hfreesAt
      cases hfreesAt
    · exact (hinstant instant hfreesAt).2.mpr hamount

end Freeing

/-- A row of one key, some hours in. -/
def rowAt (hours : ℤ) (cost : ℚ) : UsageEvent ℕ where
  occurredAt := hours * microsPerHour
  principalId := some 0
  apiKeyId := some 0
  modelId := "grok-4"
  tier := ""
  selectionReason := "pinned"
  inputTokens := 0
  outputTokens := 0
  cacheReadTokens := 0
  cacheWriteTokens := 0
  costUsd := cost
  counterfactualApiUsd := cost

/-- The rows of the oldest instant cost something, so the window frees up when it says. -/
theorem paid_row_frees :
    let usage := fun t =>
      (keyUsage Gregorian.calendar [rowAt 0 (1 / 2), rowAt 1 0] 0 (some 1) t).window .fiveHours
    ∀ instant, (usage (2 * microsPerHour)).freesAt = some instant →
      (usage (instant + 1)).SomeFigureLess (usage (2 * microsPerHour)) := by
  intro usage instant hinstant
  have hamount : AmountTo 1 (oldestRows
      (ofKey [rowAt 0 (1 / 2), rowAt 1 0] 0 (2 * microsPerHour - 5 * microsPerHour))) := by
    left
    decide +kernel
  have hholds := (freesAt_holds_iff Gregorian.calendar [rowAt 0 (1 / 2), rowAt 1 0] 0 1
    (2 * microsPerHour) .fiveHours (5 * microsPerHour) rfl).mpr (Or.inr hamount)
  exact (hholds.2 instant hinstant).2

/-- The oldest row was free: the window frees up then, and nothing of it is less. -/
theorem free_row_frees_nothing :
    let usage := fun t =>
      (keyUsage Gregorian.calendar [rowAt 0 0, rowAt 1 (1 / 2)] 0 (some 1) t).window .fiveHours
    (usage (2 * microsPerHour)).freesAt = some (5 * microsPerHour) ∧
      ¬ (usage (5 * microsPerHour + 1)).SomeFigureLess (usage (2 * microsPerHour)) := by
  intro usage
  have hnow : usage (2 * microsPerHour) =
      ⟨1 / 2, 1 / 2, some 500000, 2, some (5 * microsPerHour)⟩ := by
    decide +kernel
  have hafter : usage (5 * microsPerHour + 1) =
      ⟨1 / 2, 1 / 2, some 500000, 1, some (6 * microsPerHour)⟩ := by
    decide +kernel
  rw [hnow, hafter]
  refine ⟨rfl, ?_⟩
  rintro (h | h | ⟨p, hp, q, hq, h⟩)
  · exact lt_irrefl _ h
  · exact lt_irrefl _ h
  · rw [Option.mem_some_iff] at hp hq
    omega

end OpenAIGateway.LedgerReads
