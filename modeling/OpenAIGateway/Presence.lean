import OpenAIGateway.Appending
import OpenAIGateway.Lease
import OpenAIGateway.RoutingPolicy
import OpenAIGateway.ThreeValued

/-!
Which credentials can serve, asked three times: the picker's query lists their
channels, the status panel says why the others are absent, and the scheduler
takes them. The picker and the panel agree on every row. The scheduler takes
one row more: a spent subscription without a reserve.
-/

set_option linter.all false

namespace OpenAIGateway

open ThreeValued (Holds Truth conj disj isNull)

variable {AccountId PrincipalId : Type*}

/-- A credential's row with the columns only the listing reads. -/
structure StoredAccount (AccountId PrincipalId : Type*) extends AccountRow AccountId where
  ownerPrincipalId : Option PrincipalId
  servedModels : Option (List String)
  deriving DecidableEq

/-- What the status panel selects of a credential. -/
structure ChannelStatusRow where
  provider : String
  kind : String
  schedulable : Bool
  rateLimitedUntil : Option ℤ
  windowResetsAt : Option ℤ
  usageRemainingPct : Option Decimal
  usageReservePct : Option ℤ
  deriving DecidableEq

def AccountRow.channelStatus (row : AccountRow AccountId) : ChannelStatusRow where
  provider := row.provider
  kind := row.kind
  schedulable := row.schedulable
  rateLimitedUntil := row.rateLimitedUntil
  windowResetsAt := row.windowResetsAt
  usageRemainingPct := row.usageRemainingPct
  usageReservePct := row.usageReservePct

/-- The column's check: NULL, or a percentage. -/
def AccountRow.ReserveChecked (row : AccountRow AccountId) : Prop :=
  ∀ pct ∈ row.usageReservePct, 0 ≤ pct ∧ pct ≤ 100

/-- What hides a credential from the picker whoever asks: disabled, rate limited or spent. -/
def AccountRow.servingFilter (row : AccountRow AccountId) (now : ℤ) : Truth :=
  conj (some row.schedulable)
    (conj (disj (isNull row.rateLimitedUntil)
        (ThreeValued.compare (fun t now => decide (t ≤ now)) row.rateLimitedUntil (some now)))
      (disj (isNull row.usageRemainingPct)
        (ThreeValued.compare (fun left floor => decide (floor < left))
          (row.usageRemainingPct.map Decimal.val) (some (row.usageReservePct.getD 0 : ℚ)))))

namespace StoredAccount

/-- The owner predicate: a personal credential is its owner's alone, and every
subscription is personal. -/
def drawable [DecidableEq PrincipalId] (account : StoredAccount AccountId PrincipalId)
    (principal : PrincipalId) : Truth :=
  disj (ThreeValued.compare (fun a b => decide (a = b)) account.ownerPrincipalId (some principal))
    (conj (isNull account.ownerPrincipalId) (some (account.kind != "oauth")))

end StoredAccount

section Queries

variable [DecidableEq PrincipalId] (accounts : List (StoredAccount AccountId PrincipalId))
  (inRoute : AccountId → Bool) (principal : PrincipalId)

/-- The picker: the channels of a route that could serve a principal now. -/
def routeChannels (now : ℤ) : List (String × String × Option (List String)) :=
  ((accounts.filter (fun a => inRoute a.id && decide
    (Holds (conj (a.servingFilter now) (a.drawable principal))))).map
      (fun a => (a.provider, a.kind, a.servedModels))).dedup

/-- The status panel: every credential the principal may draw on for the route. -/
def routeChannelStatus : List ChannelStatusRow :=
  (accounts.filter (fun a => inRoute a.id && decide (Holds (a.drawable principal)))).map
    (fun a => a.channelStatus)

end Queries

/-- Why a provider is or is not serving, most recoverable first. -/
inductive PresenceReason
  | serving
  | reserved
  | rateLimited
  | quotaSpent
  | disabled
  | noCredential
  | budgetExhausted
  deriving DecidableEq

namespace PresenceReason

def asStr : PresenceReason → String
  | .serving => "serving"
  | .reserved => "reserved"
  | .rateLimited => "rate_limited"
  | .quotaSpent => "quota_spent"
  | .disabled => "disabled"
  | .noCredential => "no_credential"
  | .budgetExhausted => "budget_exhausted"

def rank : PresenceReason → ℕ
  | .serving => 0
  | .reserved => 1
  | .rateLimited => 2
  | .quotaSpent => 3
  | .disabled => 4
  | .noCredential => 5
  | .budgetExhausted => 6

end PresenceReason

/-- Disabled first, then the provider's own backoff, then spent against reserved. -/
def classify (row : ChannelStatusRow) (now : ℤ) : PresenceReason :=
  if !row.schedulable then .disabled
  else if row.rateLimitedUntil.any (now < ·) then .rateLimited
  else
    match row.usageRemainingPct with
    | some left =>
      if left.val ≤ 0 then .quotaSpent
      else if left.val ≤ (Decimal.new (row.usageReservePct.getD 0) 0).val then .reserved
      else .serving
    | none => .serving

def untilFor (reason : PresenceReason) (row : ChannelStatusRow) (now : ℤ) : Option ℤ :=
  match reason with
  | .rateLimited => row.rateLimitedUntil.filter (now < ·)
  | .reserved | .quotaSpent => row.windowResetsAt.filter (now < ·)
  | _ => none

/-- The label a credential's kind has in its provider's presence. -/
def kindLabel (column : String) : Option String :=
  match CredentialKind.fromColumn column with
  | some .apiKey => some "api"
  | some .oAuth => some "sub"
  | some .bedrock => some "bedrock"
  | _ => none

/-- What one credential says about its provider. -/
structure Facts where
  reason : PresenceReason
  untilAt : Option ℤ
  remainingPct : Option Decimal
  reservePct : Option ℤ

def factsOf (now : ℤ) (row : ChannelStatusRow) : Facts where
  reason := classify row now
  untilAt := untilFor (classify row now) row now
  remainingPct := row.usageRemainingPct
  reservePct := row.usageReservePct

/-- An allowance nobody has read ranks as a full one. -/
def servingRank (remaining : Option Decimal) : ℚ := (remaining.map Decimal.val).getD 100

def betterServing (current : Option Facts) (candidate : Facts) : Facts :=
  match current with
  | none => candidate
  | some current =>
    if servingRank current.remainingPct < servingRank candidate.remainingPct then candidate
    else current

def moreRecoverable (current : Option Facts) (candidate : Facts) : Facts :=
  match current with
  | none => candidate
  | some current => if candidate.reason.rank < current.reason.rank then candidate else current

/-- The best credential that serves and the most recoverable of the others, so far. -/
structure BestFacts where
  serving : Option Facts
  blocked : Option Facts

def BestFacts.add (now : ℤ) (best : BestFacts) (row : ChannelStatusRow) : BestFacts :=
  let facts := factsOf now row
  if facts.reason = .serving then { best with serving := some (betterServing best.serving facts) }
  else { best with blocked := some (moreRecoverable best.blocked facts) }

/-- One provider as the listing reports it. -/
structure ProviderPresence where
  provider : Provider
  serving : Bool
  reason : PresenceReason
  untilAt : Option ℤ
  remainingPct : Option Decimal
  reservePct : Option ℤ
  kinds : List String
  models : ℕ

def summarise (provider : Provider) (rows : List ChannelStatusRow) (pressure : BudgetPressure)
    (modelCounts : Provider → Option ℕ) (now : ℤ) : ProviderPresence :=
  let best := rows.foldl (BestFacts.add now) ⟨none, none⟩
  let kinds := rows.foldl (fun kinds row =>
    (kindLabel row.kind).elim kinds (fun label => Keyed.insert id label kinds)) []
  let facts := (best.serving.or best.blocked).getD ⟨.noCredential, none, none, none⟩
  let exhausted := decide (pressure = .exhausted)
  -- Out of money is about the caller: a credential that is blocked itself keeps its own reason.
  let broke := exhausted && decide (facts.reason = .serving)
  let serving := best.serving.isSome && !exhausted
  { provider := provider
    serving := serving
    reason := if broke then .budgetExhausted else facts.reason
    untilAt := if broke then none else facts.untilAt
    remainingPct := facts.remainingPct
    reservePct := facts.reservePct
    kinds := kinds
    models := if serving then (modelCounts provider).getD 0 else 0 }

/-- Nothing left of the allowance, and no reserve set. -/
def AccountRow.SpentUnreserved (row : AccountRow AccountId) : Prop :=
  row.usageReservePct = none ∧ ∃ left ∈ row.usageRemainingPct, left.val ≤ 0

/-- Whole seconds, in nanoseconds. -/
def wholeSeconds (t : ℤ) : ℤ := unixTimestamp t * 1000000000

/-- The row with the times the scheduler compares at second resolution. -/
def AccountRow.atSeconds (row : AccountRow AccountId) : AccountRow AccountId :=
  { row with rateLimitedUntil := row.rateLimitedUntil.map wholeSeconds }

/-- A reserve within its check is the decimal of the same value. -/
theorem AccountRow.ReserveChecked.val_new {row : AccountRow AccountId} (h : row.ReserveChecked) :
    (Decimal.new (row.usageReservePct.getD 0) 0).val = (row.usageReservePct.getD 0 : ℚ) := by
  have hbound : |row.usageReservePct.getD 0| < 2 ^ 96 := by
    cases hpct : row.usageReservePct with
    | none => simp
    | some pct =>
      have hrange := h pct hpct
      rw [Option.getD_some, abs_of_nonneg hrange.1]
      omega
  rw [Decimal.new_val hbound (by omega), pow_zero, div_one]

/-- What the picker's filter asks of a row. -/
theorem AccountRow.holds_servingFilter_iff (row : AccountRow AccountId) (now : ℤ) :
    Holds (row.servingFilter now) ↔ row.schedulable = true ∧
      (∀ t ∈ row.rateLimitedUntil, t ≤ now) ∧
      ∀ left ∈ row.usageRemainingPct, (row.usageReservePct.getD 0 : ℚ) < left.val := by
  unfold servingFilter
  rw [ThreeValued.holds_conj_iff, ThreeValued.holds_conj_iff,
    ThreeValued.holds_null_or_compare_iff, ThreeValued.holds_some_iff]
  cases row.usageRemainingPct <;> simp

/-- What the panel asks of a row it calls serving. -/
theorem classify_eq_serving_iff (row : ChannelStatusRow) (now : ℤ) :
    classify row now = .serving ↔ row.schedulable = true ∧
      (∀ t ∈ row.rateLimitedUntil, t ≤ now) ∧
      ∀ left ∈ row.usageRemainingPct,
        0 < left.val ∧ (Decimal.new (row.usageReservePct.getD 0) 0).val < left.val := by
  have hpast : row.rateLimitedUntil.any (now < ·) = false ↔
      ∀ t ∈ row.rateLimitedUntil, t ≤ now := by
    cases row.rateLimitedUntil <;> simp
  unfold classify
  cases row.schedulable with
  | false => simp
  | true =>
    rw [← hpast]
    cases row.rateLimitedUntil.any (now < ·) with
    | true => simp
    | false =>
      cases row.usageRemainingPct with
      | none => simp
      | some left =>
        by_cases hspent : left.val ≤ 0
        · simp [hspent, not_lt_of_ge hspent]
        · by_cases hheld : left.val ≤ (Decimal.new (row.usageReservePct.getD 0) 0).val
          · simp [hspent, hheld, not_lt_of_ge hheld]
          · simp [hspent, hheld, not_le.mp hspent, not_le.mp hheld]

/-- What the scheduler asks of a candidate with no cooldown left and a free slot. -/
theorem Candidate.eligible_iff (c : Candidate AccountId) (now : ℤ)
    (hcool : ∀ t ∈ c.cooldownUntil, t ≤ now) (hslot : c.inFlight < c.maxConcurrency) :
    c.eligible now = true ↔ c.schedulable = true ∧ (∀ t ∈ c.rateLimitedUntil, t ≤ now) ∧
      ∀ left ∈ c.usageRemainingPct, ∀ floor ∈ c.usageReservePct, floor.val < left.val := by
  have hcooled : c.cooldownUntil.all (· ≤ now) = true := by
    cases hc : c.cooldownUntil with
    | none => rfl
    | some t => simpa using hcool t hc
  have hlimited : c.rateLimitedUntil.all (· ≤ now) = true ↔ ∀ t ∈ c.rateLimitedUntil, t ≤ now := by
    cases c.rateLimitedUntil <;> simp
  have hheld : heldByReserve c.usageRemainingPct c.usageReservePct = false ↔
      ∀ left ∈ c.usageRemainingPct, ∀ floor ∈ c.usageReservePct, floor.val < left.val := by
    cases c.usageRemainingPct <;> cases c.usageReservePct <;> simp [heldByReserve]
  unfold eligible
  rw [← hlimited, ← hheld, hcooled]
  simp [hslot, and_assoc]

/-- The picker's query and the status panel agree on every row. -/
theorem AccountRow.holds_servingFilter_iff_classify {row : AccountRow AccountId}
    (hreserve : row.ReserveChecked) (now : ℤ) :
    Holds (row.servingFilter now) ↔ classify row.channelStatus now = .serving := by
  have hfloor : (0 : ℚ) ≤ (row.usageReservePct.getD 0 : ℚ) := by
    cases hpct : row.usageReservePct with
    | none => simp
    | some pct =>
      have hrange := hreserve pct hpct
      exact_mod_cast hrange.1
  rw [holds_servingFilter_iff, classify_eq_serving_iff]
  refine and_congr_right (fun _ => and_congr_right (fun _ => forall₂_congr (fun left _ => ?_)))
  change _ ↔ 0 < left.val ∧ (Decimal.new (row.usageReservePct.getD 0) 0).val < left.val
  rw [hreserve.val_new]
  constructor
  · intro h
    exact ⟨lt_of_le_of_lt hfloor h, h⟩
  · intro h
    exact h.2

theorem wholeSeconds_le_iff (t now : ℤ) :
    wholeSeconds t ≤ wholeSeconds now ↔ unixTimestamp t ≤ unixTimestamp now := by
  unfold wholeSeconds
  omega

/-- The picker's filter against the pool's test, times compared in whole seconds. -/
theorem AccountRow.holds_servingFilter_atSeconds_iff {row : AccountRow AccountId}
    (hreserve : row.ReserveChecked) {registry : String → Bool} {inFlight waiting : ℕ}
    {c : Candidate AccountId} (hc : row.toCandidate registry inFlight waiting = some c) {now : ℤ}
    (hcool : ∀ t ∈ c.cooldownUntil, t ≤ unixTimestamp now)
    (hslot : c.inFlight < c.maxConcurrency) :
    Holds (row.atSeconds.servingFilter (wholeSeconds now)) ↔
      c.eligible (unixTimestamp now) = true ∧ ¬ row.SpentUnreserved := by
  rw [c.eligible_iff _ hcool hslot, holds_servingFilter_iff]
  unfold toCandidate at hc
  obtain ⟨provider, -, hc⟩ := Option.map_eq_some_iff.mp hc
  subst hc
  have hlimited : (∀ t ∈ row.atSeconds.rateLimitedUntil, t ≤ wholeSeconds now) ↔
      ∀ t ∈ row.rateLimitedUntil.map unixTimestamp, t ≤ unixTimestamp now := by
    cases hrow : row.rateLimitedUntil <;> simp [atSeconds, hrow, wholeSeconds_le_iff]
  have hfloor : (∀ left ∈ row.usageRemainingPct, (row.usageReservePct.getD 0 : ℚ) < left.val) ↔
      (∀ left ∈ row.usageRemainingPct,
        ∀ floor ∈ row.usageReservePct.map (fun pct => Decimal.new pct 0), floor.val < left.val) ∧
      ¬ row.SpentUnreserved := by
    have hval := hreserve.val_new
    unfold SpentUnreserved
    cases hpct : row.usageReservePct with
    | none => simp
    | some pct =>
      rw [hpct] at hval
      simp only [Option.getD_some] at hval
      simp [hval]
  constructor
  · intro h
    exact ⟨⟨h.1, hlimited.mp h.2.1, (hfloor.mp h.2.2).1⟩, (hfloor.mp h.2.2).2⟩
  · intro h
    exact ⟨h.1.1, hlimited.mpr h.1.2.1, hfloor.mpr ⟨h.1.2.2, h.2⟩⟩

/-- A row that is in both queries' reach is listed exactly when the panel calls it serving. -/
theorem mem_routeChannels_iff [DecidableEq PrincipalId]
    {accounts : List (StoredAccount AccountId PrincipalId)} (inRoute : AccountId → Bool)
    (principal : PrincipalId) (now : ℤ) (hreserve : ∀ a ∈ accounts, a.ReserveChecked)
    (channel : String × String × Option (List String)) :
    channel ∈ routeChannels accounts inRoute principal now ↔
      ∃ a ∈ accounts, inRoute a.id = true ∧ Holds (a.drawable principal) ∧
        classify a.channelStatus now = .serving ∧
          channel = (a.provider, a.kind, a.servedModels) := by
  unfold routeChannels
  simp only [List.mem_dedup, List.mem_map, List.mem_filter, Bool.and_eq_true, decide_eq_true_eq,
    ThreeValued.holds_conj_iff]
  constructor
  · intro h
    obtain ⟨a, ⟨ha, hroute, hserves, hdraw⟩, rfl⟩ := h
    have hclass := (AccountRow.holds_servingFilter_iff_classify (hreserve a ha) now).mp hserves
    exact ⟨a, ha, hroute, hdraw, hclass, rfl⟩
  · intro h
    obtain ⟨a, ha, hroute, hdraw, hclass, rfl⟩ := h
    have hserves := (AccountRow.holds_servingFilter_iff_classify (hreserve a ha) now).mpr hclass
    exact ⟨a, ⟨ha, hroute, hserves, hdraw⟩, rfl⟩

/-- Some serving credential is kept exactly when there is one. -/
theorem isSome_serving_foldl_add (now : ℤ) (rows : List ChannelStatusRow) (best : BestFacts) :
    (rows.foldl (BestFacts.add now) best).serving.isSome = true ↔
      best.serving.isSome = true ∨ ∃ row ∈ rows, classify row now = .serving := by
  have hadd : ∀ (best : BestFacts) row, (BestFacts.add now best row).serving.isSome = true ↔
      best.serving.isSome = true ∨ classify row now = .serving := by
    intro best row
    unfold BestFacts.add factsOf
    by_cases h : classify row now = .serving
    · simp [h]
    · simp [h]
  exact Appending.foldl_gains (P := fun best : BestFacts => best.serving.isSome = true) hadd
    best rows

/-- A provider is reported as serving when one of its credentials is and the caller can spend. -/
theorem summarise_serving_iff (provider : Provider) (rows : List ChannelStatusRow)
    (pressure : BudgetPressure) (modelCounts : Provider → Option ℕ) (now : ℤ) :
    (summarise provider rows pressure modelCounts now).serving = true ↔
      pressure ≠ .exhausted ∧ ∃ row ∈ rows, classify row now = .serving := by
  unfold summarise
  simp only [Bool.and_eq_true, isSome_serving_foldl_add]
  simp [and_comm]

/-- The panel's word for a provider against the picker: unless the caller is out of
money, a provider is reported as serving exactly when the picker lists a channel of it. -/
theorem summarise_serving_iff_listed [DecidableEq PrincipalId]
    {accounts : List (StoredAccount AccountId PrincipalId)} (inRoute : AccountId → Bool)
    (principal : PrincipalId) (now : ℤ) (hreserve : ∀ a ∈ accounts, a.ReserveChecked)
    (registry : String → Bool) (provider : Provider) {pressure : BudgetPressure}
    (hpressure : pressure ≠ .exhausted) (modelCounts : Provider → Option ℕ) :
    (summarise provider ((routeChannelStatus accounts inRoute principal).filter
      (fun row => Provider.fromStr registry row.provider = some provider)) pressure modelCounts
        now).serving = true ↔
      ∃ channel ∈ routeChannels accounts inRoute principal now,
        Provider.fromStr registry channel.1 = some provider := by
  rw [summarise_serving_iff]
  constructor
  · intro h
    obtain ⟨-, row, hrow, hclass⟩ := h
    obtain ⟨hrow, hprovider⟩ := List.mem_filter.mp hrow
    obtain ⟨a, ha, rfl⟩ := List.mem_map.mp hrow
    obtain ⟨ha, hreach⟩ := List.mem_filter.mp ha
    simp only [Bool.and_eq_true, decide_eq_true_eq] at hreach
    refine ⟨_, (mem_routeChannels_iff inRoute principal now hreserve _).mpr
      ⟨a, ha, hreach.1, hreach.2, hclass, rfl⟩, ?_⟩
    exact of_decide_eq_true hprovider
  · intro h
    obtain ⟨channel, hmem, hprovider⟩ := h
    obtain ⟨a, ha, hroute, hdraw, hclass, rfl⟩ :=
      (mem_routeChannels_iff inRoute principal now hreserve _).mp hmem
    have hstatus : a.channelStatus ∈ routeChannelStatus accounts inRoute principal := by
      apply List.mem_map_of_mem
      exact List.mem_filter.mpr ⟨ha, by simp [hroute, hdraw]⟩
    exact ⟨hpressure, a.channelStatus,
      List.mem_filter.mpr ⟨hstatus, decide_eq_true hprovider⟩, hclass⟩

/-- Picker, panel and pool: the first two agree on every row, and the pool takes in
addition the rows that are spent without a reserve. -/
theorem AccountRow.listed_serving_eligible (row : AccountRow AccountId)
    (hreserve : row.ReserveChecked) (now : ℤ) :
    (Holds (row.servingFilter now) ↔ classify row.channelStatus now = .serving) ∧
    ∀ (registry : String → Bool) (inFlight waiting : ℕ) (c : Candidate AccountId),
      row.toCandidate registry inFlight waiting = some c →
      (∀ t ∈ c.cooldownUntil, t ≤ unixTimestamp now) → c.inFlight < c.maxConcurrency →
      (Holds (row.atSeconds.servingFilter (wholeSeconds now)) ↔
        c.eligible (unixTimestamp now) = true ∧ ¬ row.SpentUnreserved) ∧
      (classify row.atSeconds.channelStatus (wholeSeconds now) = .serving ↔
        c.eligible (unixTimestamp now) = true ∧ ¬ row.SpentUnreserved) := by
  have hseconds : row.atSeconds.ReserveChecked := hreserve
  refine ⟨holds_servingFilter_iff_classify hreserve now, ?_⟩
  intro registry inFlight waiting c hc hcool hslot
  have hpool := holds_servingFilter_atSeconds_iff hreserve hc hcool hslot
  exact ⟨hpool, (holds_servingFilter_iff_classify hseconds _).symm.trans hpool⟩

/-- A subscription with nothing left and no reserve. -/
def spentSeat : AccountRow ℕ where
  id := 1
  provider := "xai"
  kind := "oauth"
  priority := 0
  maxConcurrency := 4
  schedulable := true
  cooldownUntil := none
  rateLimitedUntil := none
  windowResetsAt := none
  usageRemainingPct := some (Decimal.new 0 0)
  usageReservePct := none
  lastUsedAt := 0

theorem spentSeat_reserveChecked : spentSeat.ReserveChecked := by
  intro pct hpct
  cases hpct

/-- The picker hides it, the panel calls it spent, and the scheduler takes it. -/
theorem spentSeat_hidden_and_eligible :
    ¬ ∀ row : AccountRow ℕ, row.ReserveChecked → ∀ (now : ℤ) (registry : String → Bool)
      (c : Candidate ℕ), row.toCandidate registry 0 0 = some c → c.cooldownUntil = none →
      c.inFlight < c.maxConcurrency →
      (Holds (row.servingFilter now) ↔ classify row.channelStatus now = .serving) ∧
      (Holds (row.atSeconds.servingFilter (wholeSeconds now)) ↔
        c.eligible (unixTimestamp now) = true) := by
  intro h
  have hiff := h spentSeat spentSeat_reserveChecked 0 (fun _ => false) _ rfl rfl (by decide)
  have hlisted := hiff.2.mpr (by decide)
  have hleft := (spentSeat.atSeconds.holds_servingFilter_iff (wholeSeconds 0)).mp hlisted
  have hpos := hleft.2.2 (Decimal.new 0 0) rfl
  rw [Decimal.new_val (by norm_num) (by omega)] at hpos
  simp [spentSeat, AccountRow.atSeconds] at hpos

theorem spentSeat_listed_serving_eligible :
    ∃ c, spentSeat.toCandidate (fun _ => false) 0 0 = some c ∧
      (Holds (spentSeat.servingFilter 0) ↔ classify spentSeat.channelStatus 0 = .serving) ∧
      (Holds (spentSeat.atSeconds.servingFilter (wholeSeconds 0)) ↔
        c.eligible (unixTimestamp 0) = true ∧ ¬ spentSeat.SpentUnreserved) := by
  have h := spentSeat.listed_serving_eligible spentSeat_reserveChecked 0
  refine ⟨_, rfl, h.1, (h.2 (fun _ => false) 0 0 _ rfl ?_ (by decide)).1⟩
  intro t ht
  cases ht

end OpenAIGateway
