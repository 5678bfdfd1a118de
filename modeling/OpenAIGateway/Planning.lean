import OpenAIGateway.BudgetPressure
import OpenAIGateway.Errors
import OpenAIGateway.JsonText
import OpenAIGateway.ManagedRouting
import OpenAIGateway.Refusals
import OpenAIGateway.Signal

/-!
Planning a request: which policy, budgets, ladder and model it gets. The route
and the spend are read one after the other, and what was read is given here; the
rest of the plan is decided from the request, its header and the catalogue.
-/

set_option linter.all false

namespace OpenAIGateway.Planning

open TierLadder (clampToFloor floorRank)
open CatalogAdd (bind_eq_ok)

/-- A route as it is read for a request, its spend of the month among its columns. -/
structure RouteRow where
  name : String
  tiers : Json
  defaultMode : String
  floorTier : Option String
  rpmLimit : Option ℤ
  monthlyBudgetUsd : Option Decimal
  spentUsd : Decimal

/-- What authentication says of a caller that a plan reads. -/
structure AuthContext where
  keyFloorTier : Option String
  quotaUsd : Option Decimal
  principalBudgetUsd : Option Decimal
  principalHardStopMultiple : Decimal

/-- What the caller has spent: the key's lifetime total, and the principal's month to date. -/
structure Spend where
  keyUsd : Decimal
  principalUsd : Decimal

/-- What is read while a request is planned, in this order. The credentials are only read to
explain a refusal. -/
structure Reads where
  route : Except GatewayError (Option RouteRow)
  spend : Except GatewayError Spend
  /-- How long the route's bucket tells a call to wait, at so many requests a minute. -/
  takeRateToken : ℕ → Option ℕ
  served : List String
  standing : String → Option ProviderStanding

/-- Everything routing decided, before a single byte goes upstream. -/
structure Plan where
  policy : RoutingPolicy
  decision : RoutingDecision
  signal : RequestSignal
  catalog : Catalog
  pressure : BudgetPressure
  channel : Option CredentialKind
  served : List String

/-- A rung of the `tiers` column, by its fields' names or in their order. -/
def parseRung : Json → Option Rung
  | .obj members => do
    let name ← (← members.lookup "name").asStr
    let models ← (← members.lookup "models").asArray
    return ⟨name, ← models.mapM Json.asStr⟩
  | .arr [name, models] => do
    return ⟨← name.asStr, ← (← models.asArray).mapM Json.asStr⟩
  | _ => none

def parseLadder (tiers : Json) : Except GatewayError TierLadder :=
  match tiers.asArray.bind (fun rungs => rungs.mapM parseRung) with
  | none => .error (.config "route.tiers is not a ladder")
  | some [] => .error (.config "route.tiers is empty; a route must have a rung")
  | some (first :: rest) => .ok (.ofRungs first rest)

/-- A key's floor beats the route's; one that names no rung is ignored. -/
def floorOf (auth : AuthContext) (route : RouteRow) (ladder : TierLadder) : Option Tier :=
  (auth.keyFloorTier.or route.floorTier).bind ladder.tier

/-- Load the caller's route and build the policy it implies. -/
def policyFor (reads : Reads) (auth : AuthContext) :
    Except GatewayError (RouteRow × RoutingPolicy × Spend) := do
  match ← reads.route with
  | none => throw (.internal "route vanished between auth and routing")
  | some route =>
    let spend ← reads.spend
    let ladder ← parseLadder route.tiers
    return (route, ⟨ladder, heuristicClassifier {}, floorOf auth route ladder⟩, spend)

/-- The spend caps: a key's and a route's are walls at the number written on them. -/
def budgetsFor (auth : AuthContext) (route : RouteRow) (spend : Spend) : Budgets where
  key := ⟨spend.keyUsd, auth.quotaUsd, .new 1 0⟩
  route := ⟨route.spentUsd, route.monthlyBudgetUsd, .new 1 0⟩
  principal :=
    ⟨spend.principalUsd, auth.principalBudgetUsd, auth.principalHardStopMultiple⟩

/-- A limit below zero, or past `u32`, limits nothing. -/
def throttled (reads : Reads) (route : RouteRow) : Option ℕ :=
  (route.rpmLimit.filter (fun rpm => 0 ≤ rpm ∧ rpm < 2 ^ 32)).bind
    (fun rpm => reads.takeRateToken rpm.toNat)

/-- The rung a request pins: the header's if it names one, else the body's. -/
def explicitTier (policy : RoutingPolicy) (header : Option String) (model : String) :
    Option TierName :=
  let names := fun (name : TierName) => (policy.ladder.tier name).isSome
  ((header.filter names).or (RoutingPolicy.virtualTier model)).filter names

/-- A virtual name, a managed route or a pinned rung is decided by policy. -/
def modeOf (route : RouteRow) (model : String) (explicit : Option TierName) : RoutingMode :=
  if "oag/".toList.isPrefixOf model.toList || route.defaultMode == "managed" || explicit.isSome then
    .managed
  else .passthrough

variable (registry : String → Option EndpointMaps.Dialect) (toStr : Json → String)

/-- Resolve the route, build its policy, and choose a model. `header` is what `x-oag-tier`
says, where its value is text. -/
def planRequest (reads : Reads) (auth : AuthContext) (req : HubRequest) (header : Option String)
    (catalog : Catalog) (channel : Option CredentialKind) : Except GatewayError Plan := do
  let (route, policy, spend) ← policyFor reads auth
  match throttled reads route with
  | some retryAfter => throw (.rateLimited retryAfter)
  | none =>
    let explicit := explicitTier policy header req.model
    let signal := { req.signal toStr with explicitTier := explicit }
    let budget := budgetsFor auth route spend
    match policy.decide (modeOf route req.model explicit) (some req.model) signal budget catalog
        req.maxTokens.toNat reads.served with
    | .ok decision =>
      return ⟨policy, decision, signal, catalog, budget.pressure, channel, reads.served⟩
    | .error (.noViableModel _) =>
      let found := (laddered registry req.model policy.ladder catalog).map (explain reads.standing)
      throw (.noViableModel (noViableMessage registry route.name req.model policy.ladder found))
    | .error (.budgetExhausted scope) => throw (.budgetExhausted scope)

section Decision

variable {policy : RoutingPolicy} {catalog : Catalog} {need : Requirements}
  {ceilingModel : Option ModelSpec} {name : String} {d : RoutingDecision}

/-- Where a walk up starts, it does not end below. -/
theorem rank_of_resolves {start : ℕ} {result : Except RoutingError RoutingDecision}
    (h : RoutingPolicy.Resolves policy catalog need start ceilingModel result)
    (hd : result = .ok d) : ∃ tier, d.tier = some tier ∧ start ≤ tier.rank.val := by
  rcases h with ⟨d', tier, hd', htier, -, hlow⟩ | ⟨herr, -⟩
  · obtain rfl : d = d' := Except.ok.inj (hd.symm.trans hd')
    exact ⟨tier, htier, hlow.start_le⟩
  · rw [hd] at herr
    cases herr

/-- A floor above the cheapest rung holds for a named model too, on the ladder or off it. -/
theorem decideNamed_floor {floor : Tier} (hfloor : policy.floor = some floor)
    (hpos : 0 < floor.rank.val)
    (hd : policy.decideNamed name catalog need ceilingModel = .ok d) :
    ∃ tier, d.tier = some tier ∧ floor.rank.val ≤ tier.rank.val := by
  unfold RoutingPolicy.decideNamed at hd
  cases hresolve : catalog.resolve name with
  | none =>
    rw [hresolve] at hd
    cases hd
  | some spec =>
    rw [hresolve] at hd
    cases htier : policy.tierOf spec.id with
    | none =>
      simp only [htier, hfloor, if_pos hpos] at hd
      exact rank_of_resolves (policy.resolveFrom_resolves catalog need floor .floorPinned _) hd
    | some tier =>
      have hrank := TierLadder.clampToFloor_rank tier policy.floor
      rw [hfloor] at hrank
      change _ = max tier.rank.val floor.rank.val at hrank
      simp only [htier, hfloor] at hd
      by_cases hsame : (clampToFloor tier (some floor)).rank = tier.rank
      · rw [if_pos hsame] at hd
        obtain rfl := Except.ok.inj hd
        rw [hsame] at hrank
        exact ⟨tier, rfl, by omega⟩
      · rw [if_neg hsame] at hd
        obtain ⟨served, hserved, hle⟩ := rank_of_resolves
          (policy.resolveFrom_resolves catalog need (clampToFloor tier (some floor)) .floorPinned _)
          hd
        exact ⟨served, hserved, by omega⟩

theorem decide_floor {floor : Tier} {mode : RoutingMode} {requested : Option String}
    {signal : RequestSignal} {budget : Budgets} {maxOutputTokens : ℕ} {served : List String}
    (hfloor : policy.floor = some floor) (hpos : 0 < floor.rank.val)
    (hd : policy.decide mode requested signal budget catalog maxOutputTokens served = .ok d) :
    ∃ tier, d.tier = some tier ∧ floor.rank.val ≤ tier.rank.val := by
  have hmanaged : ∀ need ceiling, policy.decideManaged signal budget.pressure catalog need ceiling =
      .ok d → ∃ tier, d.tier = some tier ∧ floor.rank.val ≤ tier.rank.val := by
    intro need ceiling h
    obtain ⟨tier, htier, hle⟩ := rank_of_resolves
      (policy.decideManaged_resolves catalog need signal budget.pressure ceiling) h
    have hstart := policy.floorRank_le_startRank signal budget.pressure
    rw [hfloor] at hstart
    exact ⟨tier, htier, le_trans hstart hle⟩
  unfold RoutingPolicy.decide at hd
  by_cases hexhausted : budget.pressure = .exhausted
  · rw [if_pos hexhausted] at hd
    cases hd
  rw [if_neg hexhausted] at hd
  cases mode with
  | managed => exact hmanaged _ _ hd
  | passthrough =>
    cases requested with
    | none => exact hmanaged _ _ hd
    | some name => exact decideNamed_floor hfloor hpos hd

/-- A pinned rung is the classification. -/
theorem classifiedRank_pinned {signal : RequestSignal} {tier : Tier}
    (hclassifier : policy.classifier = heuristicClassifier {})
    (hpinned : signal.explicitTier.bind policy.ladder.tier = some tier) :
    policy.classifiedRank signal = tier.rank.val := by
  obtain ⟨name, hname, htier⟩ := Option.bind_eq_some_iff.mp hpinned
  have hanswer : policy.classifier signal = name := by
    rw [hclassifier]
    unfold heuristicClassifier
    rw [hname]
  rw [← RoutingPolicy.classifiedTier_rank]
  unfold RoutingPolicy.classifiedTier
  rw [hanswer, htier]
  rfl

end Decision

section Pressure

variable {budgets : Budgets} {state : BudgetState}

theorem pressure_ne_exhausted_iff : state.pressure ≠ .exhausted ↔
    ∀ limit ∈ state.limitUsd, 0 < limit.val ∧
      state.spentUsd.val < limit.val * max state.hardStopMultiple.val 1 := by
  unfold BudgetState.pressure
  cases state.limitUsd with
  | none => simp
  | some limit =>
    simp only [Option.mem_some_iff, forall_eq']
    by_cases hpos : limit.val ≤ 0
    · simp [hpos]
    · by_cases hwall : limit.val * max state.hardStopMultiple.val 1 ≤ state.spentUsd.val
      · simp [hpos, hwall]
      · rw [if_neg hpos, if_neg hwall]
        refine ⟨fun _ => ⟨not_le.mp hpos, not_le.mp hwall⟩, fun _ => ?_⟩
        split <;> simp

/-- No cap is at its wall unless one of the three is. -/
theorem pressure_exhausted_iff : budgets.pressure = .exhausted ↔
    budgets.key.pressure = .exhausted ∨ budgets.route.pressure = .exhausted ∨
      budgets.principal.pressure = .exhausted := by
  unfold Budgets.pressure
  cases budgets.key.pressure <;> cases budgets.route.pressure <;>
    cases budgets.principal.pressure <;> decide

/-- The scope a refusal names is at its wall, and no narrower one is. -/
theorem binding_exhausted (h : budgets.pressure = .exhausted) :
    (budgets.of budgets.binding).pressure = .exhausted ∧
      ∀ other, (budgets.of other).pressure = .exhausted →
        budgets.binding.width ≤ other.width := by
  have hlevel : ∀ p : BudgetPressure, 2 ≤ p.level → p = .exhausted := by
    intro p hp
    cases p
    · cases hp
    · exact absurd hp (by decide)
    · rfl
  obtain ⟨scope, hscope⟩ : ∃ scope, (budgets.of scope).pressure = .exhausted := by
    rcases pressure_exhausted_iff.mp h with hkey | hroute | hprincipal
    · exact ⟨.apiKey, hkey⟩
    · exact ⟨.route, hroute⟩
    · exact ⟨.principal, hprincipal⟩
  have hnarrowest := bindingScope_narrowest (fun scope => (budgets.of scope).pressure)
  have hbinding : (budgets.of budgets.binding).pressure = .exhausted := by
    refine hlevel _ (le_trans (le_of_eq ?_) (hnarrowest scope).1)
    rw [hscope]
    rfl
  refine ⟨hbinding, fun other hother => (hnarrowest other).2 ?_⟩
  change _ = (budgets.of budgets.binding).pressure.level
  rw [hother, hbinding]

end Pressure

/-- The rung a request pins: the header's, where it names one of the ladder, else the body's. -/
def pinnedTier (ladder : TierLadder) (header : Option String) (model : String) : Option Tier :=
  (header.bind ladder.tier).or ((RoutingPolicy.virtualTier model).bind ladder.tier)

/-- A request that policy decides rather than its model's name. -/
def DecidedByPolicy (route : RouteRow) (ladder : TierLadder) (header : Option String)
    (model : String) : Prop :=
  "oag/".toList.isPrefixOf model.toList = true ∨ route.defaultMode = "managed" ∨
    (pinnedTier ladder header model).isSome = true

theorem explicitTier_bind (policy : RoutingPolicy) (header : Option String) (model : String) :
    (explicitTier policy header model).bind policy.ladder.tier =
      pinnedTier policy.ladder header model := by
  have hfilter : ∀ asked : Option TierName,
      (asked.filter (fun name => (policy.ladder.tier name).isSome)).bind policy.ladder.tier =
        asked.bind policy.ladder.tier := by
    intro asked
    cases asked with
    | none => rfl
    | some name =>
      cases htier : policy.ladder.tier name with
      | none => simp [Option.filter, htier]
      | some tier => simp [Option.filter, htier]
  unfold explicitTier pinnedTier
  rw [hfilter]
  cases header with
  | none => rfl
  | some name =>
    cases htier : policy.ladder.tier name with
    | none => simp [Option.filter, htier]
    | some tier => simp [Option.filter, htier]

theorem explicitTier_isSome (policy : RoutingPolicy) (header : Option String) (model : String) :
    (explicitTier policy header model).isSome = (pinnedTier policy.ladder header model).isSome := by
  rw [← explicitTier_bind]
  cases hexplicit : explicitTier policy header model with
  | none => rfl
  | some name =>
    unfold explicitTier at hexplicit
    exact ((Option.filter_eq_some_iff.mp hexplicit).2).symm

theorem modeOf_eq_managed_iff {route : RouteRow} {policy : RoutingPolicy} {header : Option String}
    {model : String} : modeOf route model (explicitTier policy header model) = .managed ↔
      DecidedByPolicy route policy.ladder header model := by
  unfold modeOf DecidedByPolicy
  rw [explicitTier_isSome]
  simp only [Bool.or_eq_true, beq_iff_eq, or_assoc]
  refine ⟨fun h => ?_, fun h => if_pos h⟩
  by_contra hnot
  rw [if_neg hnot] at h
  cases h

theorem policyFor_ok {reads : Reads} {auth : AuthContext} {route : RouteRow}
    {policy : RoutingPolicy} {spend : Spend}
    (h : policyFor reads auth = .ok (route, policy, spend)) :
    reads.route = .ok (some route) ∧ reads.spend = .ok spend ∧
      ∃ ladder, parseLadder route.tiers = .ok ladder ∧
        policy = ⟨ladder, heuristicClassifier {}, floorOf auth route ladder⟩ := by
  unfold policyFor at h
  obtain ⟨found, hfound, h⟩ := bind_eq_ok h
  cases found with
  | none => cases h
  | some row =>
    obtain ⟨read, hread, h⟩ := bind_eq_ok h
    obtain ⟨ladder, hladder, h⟩ := bind_eq_ok h
    cases h
    exact ⟨hfound, hread, ladder, hladder, rfl⟩

section Served

variable {registry : String → Option EndpointMaps.Dialect} {toStr : Json → String} {reads : Reads}
  {auth : AuthContext} {req : HubRequest} {header : Option String} {catalog : Catalog}
  {channel : Option CredentialKind} {plan : Plan} {e : GatewayError}

/-- A plan, told apart: what was read for it, and the decision that was made of that. -/
theorem planRequest_ok
    (h : planRequest registry toStr reads auth req header catalog channel = .ok plan) :
    ∃ route spend ladder, reads.route = .ok (some route) ∧ reads.spend = .ok spend ∧
      parseLadder route.tiers = .ok ladder ∧ throttled reads route = none ∧
      plan.policy = ⟨ladder, heuristicClassifier {}, floorOf auth route ladder⟩ ∧
      plan.signal = { req.signal toStr with
        explicitTier := explicitTier plan.policy header req.model } ∧
      plan.pressure = (budgetsFor auth route spend).pressure ∧
      plan.policy.decide (modeOf route req.model (explicitTier plan.policy header req.model))
        (some req.model) plan.signal (budgetsFor auth route spend) catalog req.maxTokens.toNat
        reads.served = .ok plan.decision := by
  unfold planRequest at h
  obtain ⟨⟨route, policy, spend⟩, hread, h⟩ := bind_eq_ok h
  obtain ⟨hroute, hspend, ladder, hladder, hpolicy⟩ := policyFor_ok hread
  cases hthrottled : throttled reads route with
  | some retryAfter =>
    simp only [hthrottled] at h
    cases h
  | none =>
    simp only [hthrottled] at h
    generalize hdecide : policy.decide _ _ _ _ _ _ _ = decided at h
    cases decided with
    | ok decision =>
      cases h
      exact ⟨route, spend, ladder, hroute, hspend, hladder, hthrottled, hpolicy, rfl, rfl, hdecide⟩
    | error e =>
      cases e with
      | noViableModel message => cases h
      | budgetExhausted scope => cases h

/-- Each cap of a request that gets a plan has room. -/
theorem room_of_planRequest
    (h : planRequest registry toStr reads auth req header catalog channel = .ok plan) :
    ∃ route spend, reads.route = .ok (some route) ∧ reads.spend = .ok spend ∧
      (budgetsFor auth route spend).pressure ≠ .exhausted ∧
      ∀ scope, ∀ limit ∈ ((budgetsFor auth route spend).of scope).limitUsd,
        ((budgetsFor auth route spend).of scope).spentUsd.val <
          limit.val * max ((budgetsFor auth route spend).of scope).hardStopMultiple.val 1 := by
  obtain ⟨route, spend, -, hroute, hspend, -, -, -, -, -, hdecide⟩ := planRequest_ok h
  have hroom : (budgetsFor auth route spend).pressure ≠ .exhausted := by
    intro hexhausted
    unfold RoutingPolicy.decide at hdecide
    rw [if_pos hexhausted] at hdecide
    cases hdecide
  refine ⟨route, spend, hroute, hspend, hroom, ?_⟩
  intro scope limit hlimit
  have hscope : ((budgetsFor auth route spend).of scope).pressure ≠ .exhausted := by
    intro hexhausted
    refine hroom (pressure_exhausted_iff.mpr ?_)
    cases scope
    · exact .inl hexhausted
    · exact .inr (.inl hexhausted)
    · exact .inr (.inr hexhausted)
  exact (pressure_ne_exhausted_iff.mp hscope limit hlimit).2

/-- What a plan upholds of what was read for it. -/
structure Upholds (auth : AuthContext) (route : RouteRow) (spend : Spend)
    (ladder : TierLadder) (req : HubRequest) (header : Option String) (catalog : Catalog)
    (plan : Plan) : Prop where
  /-- Each of the three caps has room. -/
  caps : ∀ scope, ∀ limit ∈ ((budgetsFor auth route spend).of scope).limitUsd,
    ((budgetsFor auth route spend).of scope).spentUsd.val <
      limit.val * max ((budgetsFor auth route spend).of scope).hardStopMultiple.val 1
  /-- Whoever chose the model, a floor above the cheapest rung holds. -/
  floor : ∀ tier, floorOf auth route ladder = some tier → 0 < tier.rank.val →
    ∃ served, plan.decision.tier = some served ∧ tier.rank.val ≤ served.rank.val
  /-- The first capable model of the lowest rung from the start up. -/
  managed : DecidedByPolicy route ladder header req.model → ∃ served,
    plan.decision.tier = some served ∧
      plan.policy.Lowest catalog (plan.signal.requirements req.maxTokens.toNat)
        (plan.policy.startRank plan.signal plan.pressure) served.rank.val plan.decision.model
  /-- A pinned rung is the one it starts on, the floor and the budget aside. -/
  pinned : ∀ tier, pinnedTier ladder header req.model = some tier →
    plan.policy.classifiedRank plan.signal = tier.rank.val
  /-- An image, however deep in a result, is shown to a model that sees. -/
  vision : DecidedByPolicy route ladder header req.model → ∀ m ∈ req.messages, ∀ b ∈ m.content,
    HoldsImage b → plan.decision.model.capabilities.vision = true

theorem vision_of_satisfies {spec : ModelSpec} {need : Requirements}
    (h : spec.satisfies need = true) (hvision : need.vision = true) :
    spec.capabilities.vision = true := by
  cases hsees : spec.capabilities.vision with
  | true => rfl
  | false => simp [ModelSpec.satisfies, hvision, hsees] at h

/-- A request that gets a plan has room under every cap, is served on or above its floor, and
where policy decides, by the first capable model of the lowest rung from the one it pinned or
was classified to. -/
theorem plan_upholds
    (h : planRequest registry toStr reads auth req header catalog channel = .ok plan) :
    ∃ route spend ladder, reads.route = .ok (some route) ∧ reads.spend = .ok spend ∧
      parseLadder route.tiers = .ok ladder ∧ plan.policy.ladder = ladder ∧
      plan.policy.floor = floorOf auth route ladder ∧
      Upholds auth route spend ladder req header catalog plan := by
  obtain ⟨route, spend, ladder, hroute, hspend, hladder, -, hpolicy, hsignal, hpressure,
    hdecide⟩ := planRequest_ok h
  have hladderOf : plan.policy.ladder = ladder := by rw [hpolicy]
  have hfloorOf : plan.policy.floor = floorOf auth route ladder := by rw [hpolicy]
  have hclassifier : plan.policy.classifier = heuristicClassifier {} := by rw [hpolicy]
  obtain ⟨route', spend', hroute', hspend', hroom, hcaps⟩ := room_of_planRequest h
  obtain rfl : route = route' := Option.some.inj (Except.ok.inj (hroute.symm.trans hroute'))
  obtain rfl : spend = spend' := Except.ok.inj (hspend.symm.trans hspend')
  have hmanaged : DecidedByPolicy route ladder header req.model → ∃ served,
      plan.decision.tier = some served ∧
        plan.policy.Lowest catalog (plan.signal.requirements req.maxTokens.toNat)
          (plan.policy.startRank plan.signal plan.pressure) served.rank.val
          plan.decision.model := by
    intro hby
    rw [← hladderOf] at hby
    rw [modeOf_eq_managed_iff.mpr hby, RoutingPolicy.decide_managed_eq hroom (by simp),
      ← hpressure] at hdecide
    rcases plan.policy.decideManaged_resolves catalog
      (plan.signal.requirements req.maxTokens.toNat) plan.signal plan.pressure _ with
      ⟨d, tier, hd, htier, -, hlow⟩ | ⟨herr, -⟩
    · obtain rfl : plan.decision = d := Except.ok.inj (hdecide.symm.trans hd)
      exact ⟨tier, htier, hlow⟩
    · rw [hdecide] at herr
      cases herr
  refine ⟨route, spend, ladder, hroute, hspend, hladder, hladderOf, hfloorOf, hcaps, ?_, hmanaged,
    ?_, ?_⟩
  · intro tier htier hpos
    exact decide_floor (hfloorOf.trans htier) hpos hdecide
  · intro tier htier
    refine classifiedRank_pinned hclassifier ?_
    rw [hsignal, ← htier, ← hladderOf]
    exact explicitTier_bind plan.policy header req.model
  · intro hby m hm b hb himage
    obtain ⟨served, -, hlow⟩ := hmanaged hby
    obtain ⟨-, -, -, -, -, -, -, hsatisfies, -⟩ := hlow.first
    refine vision_of_satisfies hsatisfies ?_
    rw [hsignal]
    exact hasImages_of_holdsImage hm hb himage

/-- A route of two rungs, the cheaper one without a model. -/
def pairedRoute : RouteRow where
  name := "team"
  tiers := .arr [.obj [("name", .str "cheap"), ("models", .arr [])],
    .obj [("name", .str "frontier"), ("models", .arr [.str "anthropic/opus"])]]
  defaultMode := "passthrough"
  floorTier := some "gold"
  rpmLimit := some 60
  monthlyBudgetUsd := none
  spentUsd := .new 0 0

def pairedReads : Reads where
  route := .ok (some pairedRoute)
  spend := .ok ⟨.new 0 0, .new 0 0⟩
  takeRateToken := fun _ => none
  served := []
  standing := fun _ => none

def unlimited : AuthContext := ⟨none, none, none, .new 1 0⟩

def greeting : HubRequest where
  messages := [⟨.user, [.text "hello" none]⟩]
  model := "oag/cheap"
  maxTokens := 100

theorem plan_upholds_paired :
    ∃ plan, planRequest (fun _ => none) Json.print pairedReads unlimited greeting (some "premium")
        RoutingPolicy.onlyCatalog none = .ok plan ∧
      ∃ route spend ladder, pairedReads.route = .ok (some route) ∧ pairedReads.spend = .ok spend ∧
        parseLadder route.tiers = .ok ladder ∧ plan.policy.ladder = ladder ∧
        plan.policy.floor = floorOf unlimited route ladder ∧
        Upholds unlimited route spend ladder greeting (some "premium")
          RoutingPolicy.onlyCatalog plan := by
  have hserved : (planRequest (fun _ => none) Json.print pairedReads unlimited greeting
    (some "premium") RoutingPolicy.onlyCatalog none).toOption.isSome = true := by decide +kernel
  cases hplan : planRequest (fun _ => none) Json.print pairedReads unlimited greeting
    (some "premium") RoutingPolicy.onlyCatalog none with
  | error e =>
    rw [hplan] at hserved
    cases hserved
  | ok plan => exact ⟨plan, rfl, plan_upholds hplan⟩

/-- What refuses a named model: the catalogue does not have it, or a floor above the rung it is
on, or off the ladder altogether, leaves no rung that can take the request. -/
theorem decideNamed_error {policy : RoutingPolicy} {need : Requirements} {name : String}
    {ceilingModel : Option ModelSpec} {err : RoutingError}
    (h : policy.decideNamed name catalog need ceilingModel = .error err) :
    err = .noModel ∧ (catalog.resolve name = none ∨
      ∃ floor, policy.floor = some floor ∧ 0 < floor.rank.val ∧
        policy.NoneFrom catalog need floor.rank.val) := by
  have hwalk : ∀ tier reason,
      policy.resolveFrom tier reason catalog need ceilingModel = .error err →
      err = .noModel ∧ policy.NoneFrom catalog need tier.rank.val := by
    intro tier reason hresolve
    rcases policy.resolveFrom_resolves catalog need tier reason ceilingModel with
      ⟨d, _, hd, -⟩ | ⟨herr, hnone⟩
    · rw [hresolve] at hd
      cases hd
    · exact ⟨Except.error.inj (hresolve.symm.trans herr), hnone⟩
  unfold RoutingPolicy.decideNamed at h
  cases hresolve : catalog.resolve name with
  | none =>
    rw [hresolve] at h
    exact ⟨(Except.error.inj h).symm, .inl rfl⟩
  | some spec =>
    rw [hresolve] at h
    cases htier : policy.tierOf spec.id with
    | none =>
      cases hfloor : policy.floor with
      | none => simp only [htier, hfloor] at h; cases h
      | some floor =>
        simp only [htier, hfloor] at h
        by_cases hpos : 0 < floor.rank.val
        · rw [if_pos hpos] at h
          obtain ⟨herr, hnone⟩ := hwalk _ _ h
          exact ⟨herr, .inr ⟨floor, rfl, hpos, hnone⟩⟩
        · rw [if_neg hpos] at h
          cases h
    | some tier =>
      have hrank := TierLadder.clampToFloor_rank tier policy.floor
      simp only [htier] at h
      by_cases hsame : (clampToFloor tier policy.floor).rank = tier.rank
      · rw [if_pos hsame] at h
        cases h
      · rw [if_neg hsame] at h
        have hraised : (clampToFloor tier policy.floor).rank.val ≠ tier.rank.val :=
          fun heq => hsame (Fin.ext heq)
        obtain ⟨herr, hnone⟩ := hwalk _ _ h
        cases hfloor : policy.floor with
        | none =>
          rw [hfloor] at hrank hraised
          change _ = max tier.rank.val 0 at hrank
          omega
        | some floor =>
          rw [hfloor] at hrank hraised hnone
          change _ = max tier.rank.val floor.rank.val at hrank
          have hfloorRank : (clampToFloor tier (some floor)).rank.val = floor.rank.val := by omega
          rw [hfloorRank] at hnone
          exact ⟨herr, .inr ⟨floor, rfl, by omega, hnone⟩⟩

/-- What the answer of a plan says when it is a refusal. -/
def Justified (auth : AuthContext) (route : RouteRow) (spend : Spend) (policy : RoutingPolicy)
    (signal : RequestSignal) (req : HubRequest) (header : Option String) (catalog : Catalog) :
    Except GatewayError Plan → Prop
  | .ok _ => (budgetsFor auth route spend).pressure ≠ .exhausted
  | .error (.budgetExhausted scope) =>
    ((budgetsFor auth route spend).of scope).pressure = .exhausted ∧
      ∀ other, ((budgetsFor auth route spend).of other).pressure = .exhausted →
        scope.width ≤ other.width
  | .error (.noViableModel _) =>
    (budgetsFor auth route spend).pressure ≠ .exhausted ∧
      (DecidedByPolicy route policy.ladder header req.model →
        policy.NoneFrom catalog (signal.requirements req.maxTokens.toNat)
          (policy.startRank signal (budgetsFor auth route spend).pressure)) ∧
      (¬ DecidedByPolicy route policy.ladder header req.model →
        catalog.resolve req.model = none ∨ ∃ floor, policy.floor = some floor ∧
          0 < floor.rank.val ∧
          policy.NoneFrom catalog (signal.requirements req.maxTokens.toNat) floor.rank.val)
  | .error _ => False

/-- Once a request is read and its route lets it through, it is refused for two reasons only. A
cap is at its wall, and the refusal names the narrowest that is. Or no rung it may use has a
model that can take it: none from its start up, where policy decides, and for a named model none
from the floor up, unless it is the name that the catalogue does not know. -/
theorem plan_refused (registry : String → Option EndpointMaps.Dialect) (toStr : Json → String)
    {reads : Reads} {route : RouteRow} {spend : Spend} {ladder : TierLadder} (auth : AuthContext)
    (req : HubRequest) (header : Option String) (catalog : Catalog)
    (channel : Option CredentialKind) (hroute : reads.route = .ok (some route))
    (hspend : reads.spend = .ok spend) (hladder : parseLadder route.tiers = .ok ladder)
    (hpassed : throttled reads route = none) :
    let policy : RoutingPolicy := ⟨ladder, heuristicClassifier {}, floorOf auth route ladder⟩
    Justified auth route spend policy
      { req.signal toStr with explicitTier := explicitTier policy header req.model } req header
      catalog (planRequest registry toStr reads auth req header catalog channel) := by
  intro policy
  have hread : policyFor reads auth = .ok (route, policy, spend) := by
    unfold policyFor
    rw [hroute, hspend]
    dsimp only [bind, Except.bind]
    rw [hladder]
    rfl
  have hmode : modeOf route req.model (explicitTier policy header req.model) = .managed ↔
      DecidedByPolicy route policy.ladder header req.model := modeOf_eq_managed_iff
  unfold planRequest
  rw [hread]
  dsimp only [bind, Except.bind]
  simp only [hpassed]
  generalize hdecide : policy.decide _ _ _ _ _ _ _ = decided
  unfold RoutingPolicy.decide at hdecide
  by_cases hexhausted : (budgetsFor auth route spend).pressure = .exhausted
  · rw [if_pos hexhausted] at hdecide
    subst hdecide
    exact binding_exhausted hexhausted
  rw [if_neg hexhausted] at hdecide
  cases decided with
  | ok decision => exact hexhausted
  | error err =>
    cases hby : modeOf route req.model (explicitTier policy header req.model) with
    | managed =>
      rw [hby] at hdecide
      dsimp only at hdecide
      have hresolves := policy.decideManaged_resolves catalog
        ({ req.signal toStr with explicitTier := explicitTier policy header req.model }.requirements
          req.maxTokens.toNat)
        { req.signal toStr with explicitTier := explicitTier policy header req.model }
        (budgetsFor auth route spend).pressure
      rcases hresolves _ with ⟨d, _, hd, -⟩ | ⟨herr, hnone⟩
      · rw [hdecide] at hd
        cases hd
      · rw [hdecide] at herr
        cases herr
        exact ⟨hexhausted, fun _ => hnone, fun hnot => absurd (hmode.mp hby) hnot⟩
    | passthrough =>
      rw [hby] at hdecide
      obtain ⟨rfl, hwhy⟩ := decideNamed_error hdecide
      refine ⟨hexhausted, fun hdecided => ?_, fun _ => hwhy⟩
      rw [hmode.mpr hdecided] at hby
      cases hby

/-- A prompt for a model that is nowhere. -/
def misspelt : HubRequest where
  messages := [⟨.user, [.text "hello" none]⟩]
  model := "anthropic/opsu"
  maxTokens := 100

theorem plan_refused_misspelt :
    let policy : RoutingPolicy := ⟨.ofRungs ⟨"cheap", []⟩ [⟨"frontier", ["anthropic/opus"]⟩],
      heuristicClassifier {}, none⟩
    let answer := planRequest (fun _ => none) Json.print pairedReads unlimited misspelt none
      RoutingPolicy.onlyCatalog none
    answer.toOption.isNone = true ∧
      Justified unlimited pairedRoute ⟨.new 0 0, .new 0 0⟩ policy
        { misspelt.signal Json.print with explicitTier := explicitTier policy none misspelt.model }
        misspelt none RoutingPolicy.onlyCatalog answer :=
  ⟨by decide +kernel,
    plan_refused (fun _ => none) Json.print unlimited misspelt none RoutingPolicy.onlyCatalog none
      rfl rfl rfl rfl⟩

end Served

end OpenAIGateway.Planning
