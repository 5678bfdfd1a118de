import OpenAIGateway.FreeModels
import OpenAIGateway.Periods
import OpenAIGateway.StickyPins
import OpenAIGateway.SystemOne

/-!
What a request that could not be routed is told: which route, what is in the
way and the command that clears it. The credentials are counted from where the
caller stands, by the rows that selection would have read for it. A time it is
told is a whole second, and the scheduler's clock has whole seconds too.
-/

set_option linter.all false

namespace OpenAIGateway

open ThreeValued (Holds conj isNull)

/-- `GREATEST`: the larger of two columns, of those that are not NULL. -/
def greatest (a b : Option ℤ) : Option ℤ :=
  match a, b with
  | some x, some y => some (max x y)
  | some x, none => some x
  | none, b => b

/-- What a route holds for one provider, counted from where one caller stands. -/
structure ProviderStanding where
  total : ℕ
  usable : ℕ
  ownerlessSeats : ℕ
  live : ℕ
  backAt : Option ℤ
  deriving DecidableEq

/-- A credential the route holds for the provider. -/
structure Held where
  usable : Bool
  ownerlessSeat : Bool
  schedulable : Bool
  busyUntil : Option ℤ

namespace Held

def live (now : ℤ) (h : Held) : Bool :=
  h.usable && h.schedulable && h.busyUntil.all (fun t => decide (t ≤ now))

/-- When it is back, for a usable one in rotation that is busy. -/
def back (now : ℤ) (h : Held) : Option ℤ :=
  h.busyUntil.filter (fun t => h.usable && h.schedulable && decide (now < t))

end Held

section Standing

variable {AccountId PrincipalId : Type} [DecidableEq PrincipalId]

def StoredAccount.held (principal : PrincipalId) (a : StoredAccount AccountId PrincipalId) :
    Held where
  usable := (a.drawable principal).getD false
  ownerlessSeat := decide (Holds (conj (isNull a.ownerPrincipalId) (some (a.kind == "oauth"))))
  schedulable := a.schedulable
  busyUntil := greatest a.cooldownUntil a.rateLimitedUntil

variable (accounts : List (StoredAccount AccountId PrincipalId)) (inRoute : AccountId → Bool)
  (provider : String) (principal : PrincipalId)

def heldFor : List Held :=
  (accounts.filter (fun a => inRoute a.id && decide (a.provider = provider))).map
    (StoredAccount.held principal)

/-- `PROVIDER_STANDING_SQL`. -/
def providerStanding (now : ℤ) : ProviderStanding :=
  let held := heldFor accounts inRoute provider principal
  { total := held.length
    usable := held.countP Held.usable
    ownerlessSeats := held.countP Held.ownerlessSeat
    live := held.countP (Held.live now)
    backAt := (held.filterMap (Held.back now)).min? }

end Standing

/-- What stands between a model on the ladder and the caller. -/
inductive Blocked
  | noCredential
  | notTheirs (ownerless : Bool)
  | noneLive (backAt : Option ℤ)
  deriving DecidableEq

/-- What the credentials put in the way, or `none` when they do not. -/
def Blocked.of (standing : ProviderStanding) : Option Blocked :=
  if standing.total = 0 then some .noCredential
  else if standing.usable = 0 then some (.notTheirs (decide (0 < standing.ownerlessSeats)))
  else if standing.live = 0 then some (.noneLive standing.backAt)
  else none

/-- A requested model the ladder names, and why it was not routed. -/
inductive Laddered
  | unserved (provider : String)
  | catalogued
  | uncatalogued (provider : String) (blocked : Option Blocked)
  deriving DecidableEq

section Message

variable (registry : String → Option EndpointMaps.Dialect)

/-- The provider a name parses to. -/
def parseProvider (name : String) : Option Provider :=
  Provider.fromStr (fun n => (registry n).isSome) name

/-- The requested model, when the ladder names it, as routing alone can see it. -/
def laddered (requested : String) (ladder : TierLadder) (catalog : Catalog) : Option Laddered :=
  let requested := Periods.trim requested
  let names := fun (id : String) => ladder.rungs.any (fun rung => rung.models.any (· == id))
  match catalog.resolve requested with
  | some spec => if names requested || names spec.id then some .catalogued else none
  | none =>
    if !names requested then none
    else
      (Split.splitOnce '/' requested).map (fun parts =>
        match parseProvider registry parts.1 with
        | some p =>
          if isChat registry parts.1 then .uncatalogued p.asStr none else .unserved parts.1
        | none => .unserved parts.1)

/-- The credentials are asked about a model the catalogue does not hold; a read that fails
leaves them unsaid. -/
def explain (standing : String → Option ProviderStanding) (found : Laddered) : Laddered :=
  match found with
  | .uncatalogued provider blocked =>
    match standing provider with
    | some standing => .uncatalogued provider (Blocked.of standing)
    | none => .uncatalogued provider blocked
  | other => other

/-- The second a time is told as, never before it. -/
def toldSecond (at_ : ℤ) : ℤ := -(-at_ / 1000000000)

/-- A moment as a message gives it: UTC, to the second. -/
def utcSecond (at_ : ℤ) : String :=
  let second := toldSecond at_
  let day := second / 86400
  let time := second % 86400
  let month := Gregorian.monthAt day
  Periods.yearMonth (ofMonthIndex month).1 (ofMonthIndex month).2 ++ "-" ++
    Periods.padded 2 (day - Gregorian.firstDay month + 1) ++ "T" ++
    Periods.padded 2 (time / 3600) ++ ":" ++ Periods.padded 2 (time % 3600 / 60) ++ ":" ++
    Periods.padded 2 (time % 60) ++ "Z"

example : utcSecond 1500000000 = "1970-01-01T00:00:02Z" := by decide +kernel

/-- The refusal of a model the ladder names: a provider nobody serves, the credentials, then
the catalogue. -/
def ladderedMessage (route model : String) (found : Laddered) : String :=
  let head := "'" ++ model ++ "' is on the ladder of route '" ++ route ++ "'"
  match found with
  | .unserved provider =>
    head ++ ", but this gateway serves no provider named '" ++ provider ++ "', so nothing " ++
      "can serve it; `oag admin doctor` says why"
  | .catalogued =>
    head ++ ", but no rung this request may use holds a catalogued model that can " ++
      "take it, by context window, vision, tools or reasoning; see the ladder with: " ++
      "oag admin route show --route " ++ route
  | .uncatalogued provider blocked =>
    let addKey := "oag admin account add --name <name> --provider " ++ provider ++
      " --secret <key> --route " ++ route
    match blocked with
    | some .noCredential =>
      head ++ ", but the route holds no " ++ provider ++ " credential; add one with: " ++ addKey
    | some (.notTheirs true) =>
      head ++ ", but no " ++ provider ++ " credential there may serve you: a subscription seat " ++
        "with no owner serves no one. Bind the seat to the one person it belongs to with: " ++
        "oag admin account set-owner <seat> --owner-email <owner>; or add a pay-per-use API " ++
        "key the whole route shares with: " ++ addKey
    | some (.notTheirs false) =>
      head ++ ", but no " ++ provider ++ " credential there may serve you: each belongs to " ++
        "someone else, and a personal credential serves only its owner. Add a pay-per-use API " ++
        "key the whole route shares with: " ++ addKey ++ "; or, if one of them is yours, bind " ++
        "it to you with: oag admin account set-owner <name> --owner-email <your email>"
    | some (.noneLive (some at_)) =>
      head ++ ", but every " ++ provider ++ " credential there that may serve you is cooling " ++
        "down or disabled; the first is back at " ++ utcSecond at_
    | some (.noneLive none) =>
      head ++ ", but every " ++ provider ++ " credential there that may serve you is disabled; " ++
        "put one back with: oag admin account enable <name>"
    | none =>
      head ++ ", but the catalog has no such model, so it cannot be priced or routed; add it " ++
        "with: oag admin catalog add --id " ++ model ++ " --upstream <model> --input-per-mtok " ++
        "<usd> --output-per-mtok <usd> --context <tokens> --max-output <tokens>"

/-- Operator-facing: which route, what is in the way, and the command that clears it. -/
def noViableMessage (route requested : String) (ladder : TierLadder)
    (found : Option Laddered) : String :=
  let requested := Periods.trim requested
  let onLadder := ladder.rungs.flatMap Rung.models
  let ladderProviders := onLadder.filterMap (fun id => (Split.splitOnce '/' id).map Prod.fst)
  let provider := ((Split.splitOnce '/' requested).map Prod.fst).filter (fun p => p != "oag")
  if provider.any (fun name => (parseProvider registry name).isSome && !isChat registry name) then
    "'" ++ requested ++ "' is a System One model: it answers questions rather than continuing " ++
      "a conversation, so no chat route serves it. Send it to POST /jev/v1/systemone"
  else
    match found, provider with
    | some found, _ => ladderedMessage route requested found
    | none, some provider =>
      if !ladderProviders.contains provider then
        "route '" ++ route ++ "' has no " ++ provider ++ " models on its ladder; add one with: " ++
          "oag admin route tiers --route " ++ route ++ " cheap=" ++ requested
      else
        "route '" ++ route ++ "' has no model on its ladder that can serve '" ++ requested ++
          "'; set one with: oag admin route tiers --route " ++ route ++ " cheap=" ++ requested
    | none, none =>
      "route '" ++ route ++ "' has no model on its ladder that can serve this request; add one " ++
        "with: oag admin route tiers --route " ++ route ++ " cheap=" ++
        onLadder.head?.getD "provider/model"

end Message

/-- The row is in rotation, and neither cooling down nor rate limited. -/
def AccountRow.LiveAt {AccountId : Type} (row : AccountRow AccountId) (t : ℤ) : Prop :=
  row.schedulable = true ∧ (∀ c ∈ row.cooldownUntil, c ≤ t) ∧ ∀ r ∈ row.rateLimitedUntil, r ≤ t

theorem greatest_le_iff {a b : Option ℤ} {t : ℤ} :
    (∀ x ∈ greatest a b, x ≤ t) ↔ (∀ x ∈ a, x ≤ t) ∧ ∀ x ∈ b, x ≤ t := by
  cases a <;> cases b <;> simp [greatest]

theorem unixTimestamp_mono {s t : ℤ} (h : s ≤ t) : unixTimestamp s ≤ unixTimestamp t := by
  unfold unixTimestamp
  omega

/-- The second a time is told as has begun once the time is there, and not a second before. -/
theorem toldSecond_le_iff {at_ second : ℤ} :
    toldSecond at_ ≤ second ↔ at_ ≤ second * 1000000000 := by
  unfold toldSecond
  omega

theorem unixTimestamp_le_toldSecond (at_ : ℤ) : unixTimestamp at_ ≤ toldSecond at_ := by
  unfold unixTimestamp toldSecond
  omega

section Diagnosis

variable {AccountId PrincipalId : Type} [DecidableEq PrincipalId]
  {accounts : List (StoredAccount AccountId PrincipalId)} {inRoute : AccountId → Bool}
  {provider : String} {principal : PrincipalId} {a : StoredAccount AccountId PrincipalId}
  {now t : ℤ}

omit [DecidableEq PrincipalId] in
theorem liveAt_iff : a.toAccountRow.LiveAt t ↔
    a.schedulable = true ∧ ∀ b ∈ greatest a.cooldownUntil a.rateLimitedUntil, b ≤ t := by
  unfold AccountRow.LiveAt
  rw [greatest_le_iff]

/-- Of the rows of a route for a provider, selection reads those that are usable. -/
theorem mem_candidates_iff {row : AccountRow AccountId} :
    row ∈ candidates accounts inRoute provider principal ↔
      ∃ a ∈ accounts, (inRoute a.id = true ∧ a.provider = provider) ∧
        (a.held principal).usable = true ∧ a.toAccountRow = row := by
  have husable : ∀ a : StoredAccount AccountId PrincipalId,
      (a.held principal).usable = true ↔ Holds (a.drawable principal) := by
    intro a
    unfold StoredAccount.held Holds
    cases a.drawable principal <;> simp
  unfold candidates
  simp only [List.mem_map, List.mem_filter, Bool.and_eq_true, decide_eq_true_eq, husable,
    and_assoc]

theorem mem_heldFor_iff {h : Held} : h ∈ heldFor accounts inRoute provider principal ↔
    ∃ a ∈ accounts, (inRoute a.id = true ∧ a.provider = provider) ∧ a.held principal = h := by
  unfold heldFor
  simp only [List.mem_map, List.mem_filter, Bool.and_eq_true, decide_eq_true_eq, and_assoc]

theorem live_held_iff : (a.held principal).live t = true ↔
    (a.held principal).usable = true ∧ a.toAccountRow.LiveAt t := by
  rw [liveAt_iff]
  unfold Held.live
  rw [Bool.and_eq_true, Bool.and_eq_true, and_assoc]
  refine and_congr_right (fun _ => and_congr_right (fun _ => ?_))
  change (greatest a.cooldownUntil a.rateLimitedUntil).all (fun b => decide (b ≤ t)) = true ↔ _
  cases greatest a.cooldownUntil a.rateLimitedUntil <;> simp

theorem back_held_iff : (a.held principal).back now = some t ↔
    (a.held principal).usable = true ∧ a.schedulable = true ∧
      greatest a.cooldownUntil a.rateLimitedUntil = some t ∧ now < t := by
  unfold Held.back
  rw [Option.filter_eq_some_iff]
  change greatest a.cooldownUntil a.rateLimitedUntil = some t ∧
    ((a.held principal).usable && a.schedulable && decide (now < t)) = true ↔ _
  rw [Bool.and_eq_true, Bool.and_eq_true, decide_eq_true_iff]
  tauto

theorem countP_live_eq_zero_iff :
    (heldFor accounts inRoute provider principal).countP (Held.live t) = 0 ↔
      ∀ row ∈ candidates accounts inRoute provider principal, ¬ row.LiveAt t := by
  rw [List.countP_eq_zero]
  constructor
  · intro h row hrow hlive
    obtain ⟨a, ha, hroute, husable, rfl⟩ := mem_candidates_iff.mp hrow
    exact h _ (mem_heldFor_iff.mpr ⟨a, ha, hroute, rfl⟩) (live_held_iff.mpr ⟨husable, hlive⟩)
  · intro h held hheld hlive
    obtain ⟨a, ha, hroute, rfl⟩ := mem_heldFor_iff.mp hheld
    obtain ⟨husable, hat⟩ := live_held_iff.mp hlive
    exact h _ (mem_candidates_iff.mpr ⟨a, ha, hroute, husable, rfl⟩) hat

theorem countP_usable_eq_zero_iff :
    (heldFor accounts inRoute provider principal).countP Held.usable = 0 ↔
      candidates accounts inRoute provider principal = [] := by
  rw [List.countP_eq_zero, List.eq_nil_iff_forall_not_mem]
  constructor
  · intro h row hrow
    obtain ⟨a, ha, hroute, husable, -⟩ := mem_candidates_iff.mp hrow
    exact h _ (mem_heldFor_iff.mpr ⟨a, ha, hroute, rfl⟩) husable
  · intro h held hheld husable
    obtain ⟨a, ha, hroute, rfl⟩ := mem_heldFor_iff.mp hheld
    exact h _ (mem_candidates_iff.mpr ⟨a, ha, hroute, husable, rfl⟩)

/-- The first time one of the rows that are not live now is back: one of them is live then, and
none is before. -/
theorem live_from_back (hnone : ∀ row ∈ candidates accounts inRoute provider principal,
    ¬ row.LiveAt now) :
    (∃ row ∈ candidates accounts inRoute provider principal, row.LiveAt t) ↔
      ∃ b ∈ (providerStanding accounts inRoute provider principal now).backAt, b ≤ t := by
  have hmem : ∀ b, b ∈ (heldFor accounts inRoute provider principal).filterMap (Held.back now) ↔
      ∃ a ∈ accounts, (inRoute a.id = true ∧ a.provider = provider) ∧
        (a.held principal).back now = some b := by
    intro b
    rw [List.mem_filterMap]
    constructor
    · rintro ⟨held, hheld, hback⟩
      obtain ⟨a, ha, hroute, rfl⟩ := mem_heldFor_iff.mp hheld
      exact ⟨a, ha, hroute, hback⟩
    · rintro ⟨a, ha, hroute, hback⟩
      exact ⟨_, mem_heldFor_iff.mpr ⟨a, ha, hroute, rfl⟩, hback⟩
  constructor
  · rintro ⟨row, hrow, hlive⟩
    have hnow := hnone row hrow
    obtain ⟨a, ha, hroute, husable, rfl⟩ := mem_candidates_iff.mp hrow
    rw [liveAt_iff] at hnow hlive
    -- In rotation and live later, so what keeps it is a time it is busy until.
    obtain ⟨b, hb, hbusy⟩ :
        ∃ b, greatest a.cooldownUntil a.rateLimitedUntil = some b ∧ now < b := by
      by_contra hfree
      refine hnow ⟨hlive.1, fun b hb => ?_⟩
      by_contra hlt
      exact hfree ⟨b, hb, not_le.mp hlt⟩
    have hlisted := (hmem b).mpr ⟨a, ha, hroute, back_held_iff.mpr ⟨husable, hlive.1, hb, hbusy⟩⟩
    obtain ⟨least, hleast⟩ := Option.isSome_iff_exists.mp (List.isSome_min?_of_mem hlisted)
    exact ⟨least, hleast, ((List.min?_eq_some_iff.mp hleast).2 b hlisted).trans (hlive.2 b hb)⟩
  · rintro ⟨b, hb, hle⟩
    obtain ⟨a, ha, hroute, hback⟩ := (hmem b).mp (List.min?_eq_some_iff.mp hb).1
    obtain ⟨husable, hschedulable, hbusy, -⟩ := back_held_iff.mp hback
    refine ⟨a.toAccountRow, mem_candidates_iff.mpr ⟨a, ha, hroute, husable, rfl⟩,
      liveAt_iff.mpr ⟨hschedulable, ?_⟩⟩
    intro b' hb'
    rw [hbusy] at hb'
    obtain rfl := Option.some.inj hb'
    exact hle

/-- On the scheduler's clock of whole seconds a row is live when each of its times is in a
second that has begun, and it is not held by its reserve. -/
theorem isLive_iff {row : AccountRow AccountId} {registry : String → Bool} {inFlight : ℕ}
    {c : Candidate AccountId} (h : row.toCandidate registry inFlight 0 = some c) {second : ℤ} :
    isLive c second = true ↔ (row.schedulable = true ∧
      (∀ x ∈ row.cooldownUntil, unixTimestamp x ≤ second) ∧
      ∀ x ∈ row.rateLimitedUntil, unixTimestamp x ≤ second) ∧ row.heldByReserve = false := by
  obtain ⟨p, -, rfl⟩ := Option.map_eq_some_iff.mp h
  unfold isLive AccountRow.heldByReserve
  simp only [Bool.and_eq_true, Bool.not_eq_true', Option.all_map]
  refine and_congr_left (fun _ => ?_)
  rw [and_assoc]
  refine and_congr_right (fun _ => and_congr ?_ ?_)
  · cases row.cooldownUntil <;> simp
  · cases row.rateLimitedUntil <;> simp

/-- What a cause says of the credentials of a route, and of the rows selection reads of them. -/
def Diagnosed (accounts : List (StoredAccount AccountId PrincipalId)) (inRoute : AccountId → Bool)
    (provider : String) (principal : PrincipalId) (now : ℤ) : Option Blocked → Prop
  | some .noCredential => ∀ a ∈ accounts, inRoute a.id = true → a.provider ≠ provider
  | some (.notTheirs ownerless) =>
    candidates accounts inRoute provider principal = [] ∧
      (∃ a ∈ accounts, inRoute a.id = true ∧ a.provider = provider) ∧
      (ownerless = true ↔ ∃ a ∈ accounts, (inRoute a.id = true ∧ a.provider = provider) ∧
        a.ownerPrincipalId = none ∧ a.kind = "oauth")
  | some (.noneLive backAt) =>
    candidates accounts inRoute provider principal ≠ [] ∧
      (∀ row ∈ candidates accounts inRoute provider principal, ¬ row.LiveAt now) ∧
      (∀ t, (∃ row ∈ candidates accounts inRoute provider principal, row.LiveAt t) ↔
        ∃ b ∈ backAt, b ≤ t) ∧
      -- The scheduler may be up to a second ahead of the time itself, and never behind the
      -- second it is told as.
      (∀ row ∈ candidates accounts inRoute provider principal, ∀ registry inFlight c second,
        row.toCandidate registry inFlight 0 = some c → isLive c second = true →
        ∃ b ∈ backAt, unixTimestamp b ≤ second) ∧
      ∀ b ∈ backAt, ∃ row ∈ candidates accounts inRoute provider principal,
        ∀ registry inFlight c second, row.toCandidate registry inFlight 0 = some c →
          toldSecond b ≤ second → isLive c second = !row.heldByReserve
  | none => ∃ row ∈ candidates accounts inRoute provider principal, row.LiveAt now

/-- A row the scheduler takes as live in a second is live at the end of it. -/
theorem liveAt_of_isLive {row : AccountRow AccountId} {registry : String → Bool} {inFlight : ℕ}
    {c : Candidate AccountId} {second : ℤ} (h : row.toCandidate registry inFlight 0 = some c)
    (hlive : isLive c second = true) : row.LiveAt (second * 1000000000 + 999999999) := by
  have hend : ∀ x : ℤ, unixTimestamp x ≤ second → x ≤ second * 1000000000 + 999999999 := by
    intro x hx
    unfold unixTimestamp at hx
    omega
  obtain ⟨⟨hschedulable, hcool, hrate⟩, -⟩ := (isLive_iff h).mp hlive
  exact ⟨hschedulable, fun x hx => hend x (hcool x hx), fun x hx => hend x (hrate x hx)⟩

/-- What a refusal says of the credentials is so: it finds none exactly when the route has none
of the provider; none for the caller exactly when selection would have read no row for it; and
when it gives a time, one of the rows is live from that time on and none is before it. The
scheduler takes none of them before the second the time is in, and no longer holds one of them
back, its reserve aside, in the second the caller was told. -/
theorem refusal_diagnosed (accounts : List (StoredAccount AccountId PrincipalId))
    (inRoute : AccountId → Bool) (provider : String) (principal : PrincipalId) (now : ℤ) :
    Diagnosed accounts inRoute provider principal now
      (Blocked.of (providerStanding accounts inRoute provider principal now)) := by
  unfold Blocked.of
  by_cases htotal : (providerStanding accounts inRoute provider principal now).total = 0
  · rw [if_pos htotal]
    have hnil : heldFor accounts inRoute provider principal = [] :=
      List.length_eq_zero_iff.mp htotal
    intro a ha hroute hprovider
    have hheld : a.held principal ∈ heldFor accounts inRoute provider principal :=
      mem_heldFor_iff.mpr ⟨a, ha, ⟨hroute, hprovider⟩, rfl⟩
    rw [hnil] at hheld
    cases hheld
  rw [if_neg htotal]
  by_cases husable : (providerStanding accounts inRoute provider principal now).usable = 0
  · rw [if_pos husable]
    refine ⟨countP_usable_eq_zero_iff.mp husable, ?_, ?_⟩
    · obtain ⟨held, hheld⟩ := List.exists_mem_of_length_pos (Nat.pos_of_ne_zero htotal)
      obtain ⟨a, ha, hroute, -⟩ := mem_heldFor_iff.mp hheld
      exact ⟨a, ha, hroute⟩
    · rw [decide_eq_true_iff]
      change 0 < (heldFor accounts inRoute provider principal).countP Held.ownerlessSeat ↔ _
      have hseat : ∀ a : StoredAccount AccountId PrincipalId,
          (a.held principal).ownerlessSeat = true ↔
            a.ownerPrincipalId = none ∧ a.kind = "oauth" := by
        intro a
        unfold StoredAccount.held
        simp
      rw [List.countP_pos_iff]
      constructor
      · rintro ⟨held, hheld, howner⟩
        obtain ⟨a, ha, hroute, rfl⟩ := mem_heldFor_iff.mp hheld
        exact ⟨a, ha, hroute, (hseat a).mp howner⟩
      · rintro ⟨a, ha, hroute, howner⟩
        exact ⟨_, mem_heldFor_iff.mpr ⟨a, ha, hroute, rfl⟩, (hseat a).mpr howner⟩
  rw [if_neg husable]
  by_cases hlive : (providerStanding accounts inRoute provider principal now).live = 0
  · rw [if_pos hlive]
    have hnone := countP_live_eq_zero_iff.mp hlive
    refine ⟨fun hnil => husable (countP_usable_eq_zero_iff.mpr hnil), hnone,
      fun t => live_from_back hnone, ?_, ?_⟩
    · intro row hrow registry inFlight c second hc hat
      obtain ⟨b, hb, hle⟩ := (live_from_back hnone).mp ⟨row, hrow, liveAt_of_isLive hc hat⟩
      refine ⟨b, hb, ?_⟩
      unfold unixTimestamp
      omega
    · intro b hb
      obtain ⟨row, hrow, hschedulable, hcool, hrate⟩ :=
        (live_from_back hnone).mpr ⟨b, hb, le_refl b⟩
      refine ⟨row, hrow, ?_⟩
      intro registry inFlight c second hc htold
      have hbegun : ∀ x : ℤ, x ≤ b → unixTimestamp x ≤ second := fun x hx =>
        (unixTimestamp_mono hx).trans ((unixTimestamp_le_toldSecond b).trans htold)
      rw [Bool.eq_iff_iff, isLive_iff hc, Bool.not_eq_true']
      exact and_iff_right ⟨hschedulable, fun x hx => hbegun x (hcool x hx),
        fun x hx => hbegun x (hrate x hx)⟩
  · rw [if_neg hlive]
    by_contra hnone
    refine hlive (countP_live_eq_zero_iff.mpr (fun row hrow hat => hnone ⟨row, hrow, hat⟩))

end Diagnosis

end OpenAIGateway
