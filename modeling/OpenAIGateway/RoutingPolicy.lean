import OpenAIGateway.Ladder
import OpenAIGateway.Render

/-!
Putting it together: mode, ladder, classifier, floor and budget produce a
model. The listing of what a caller may name is beside it, since it promises
what the decision then does.
-/

set_option linter.all false

namespace OpenAIGateway

/-- How close a principal is to their cap, from most to least headroom. -/
inductive BudgetPressure
  | normal
  | constrained
  | exhausted
  deriving DecidableEq

def BudgetPressure.level : BudgetPressure → ℕ
  | .normal => 0
  | .constrained => 1
  | .exhausted => 2

/-- The tighter of two pressures. -/
def BudgetPressure.max (a b : BudgetPressure) : BudgetPressure := if a.level ≤ b.level then b else a

/-- Spend against a cap; no limit is uncapped. -/
structure BudgetState where
  spentUsd : Decimal
  limitUsd : Option Decimal
  hardStopMultiple : Decimal

def BudgetState.pressure (state : BudgetState) : BudgetPressure :=
  match state.limitUsd with
  | none => .normal
  | some limit =>
    if limit.val ≤ 0 then .exhausted
    -- A multiple below 1 would stop before it degrades, so it is clamped.
    else if limit.val * Max.max state.hardStopMultiple.val 1 ≤ state.spentUsd.val then .exhausted
    else if limit.val * (8 / 10) ≤ state.spentUsd.val then .constrained
    else .normal

inductive BudgetScope
  | apiKey
  | route
  | principal
  deriving DecidableEq

/-- Every spend cap that applies to one request. -/
structure Budgets where
  key : BudgetState
  route : BudgetState
  principal : BudgetState

/-- The tightest of the caps. -/
def Budgets.pressure (budgets : Budgets) : BudgetPressure :=
  (budgets.key.pressure.max budgets.route.pressure).max budgets.principal.pressure

/-- Which cap is binding: the last maximum of the list, which puts the widest scope first. -/
def Budgets.binding (budgets : Budgets) : BudgetScope :=
  let scopes := [(BudgetScope.principal, budgets.principal.pressure),
    (BudgetScope.route, budgets.route.pressure), (BudgetScope.apiKey, budgets.key.pressure)]
  (Extrema.maxBy (fun a b => decide (b.2.level < a.2.level)) scopes).elim .principal Prod.fst

inductive RoutingMode
  | passthrough
  | managed
  deriving DecidableEq

/-- What can be observed about a request. -/
structure RequestSignal where
  promptTokens : ℕ := 0
  toolCount : ℕ := 0
  turnCount : ℕ := 0
  hasImages : Bool := false
  thinkingRequested : Bool := false
  hasCode : Bool := false
  explicitTier : Option TierName := none
  deriving DecidableEq

def RequestSignal.requirements (signal : RequestSignal) (maxOutputTokens : ℕ) : Requirements where
  promptTokens := signal.promptTokens
  maxOutputTokens := maxOutputTokens
  vision := signal.hasImages
  tools := decide (0 < signal.toolCount)
  reasoning := signal.thinkingRequested

/-- The rung a request should start on, by name. -/
abbrev Classifier := RequestSignal → TierName

structure Thresholds where
  cheapTier : TierName := "cheap"
  balancedTier : TierName := "balanced"
  frontierTier : TierName := "frontier"
  balancedPromptTokens : ℕ := 8000
  frontierPromptTokens : ℕ := 100000
  balancedToolCount : ℕ := 3
  balancedTurnCount : ℕ := 8

/-- Rule-based classification; an explicit tier is the answer. -/
def heuristicClassifier (t : Thresholds) : Classifier := fun signal =>
  match signal.explicitTier with
  | some explicit => explicit
  | none =>
    if signal.thinkingRequested then t.frontierTier
    else if t.frontierPromptTokens ≤ signal.promptTokens then t.frontierTier
    else if t.balancedToolCount ≤ signal.toolCount || t.balancedTurnCount ≤ signal.turnCount ||
        t.balancedPromptTokens ≤ signal.promptTokens || signal.hasImages || signal.hasCode then
      t.balancedTier
    else t.cheapTier

/-- Why a response was inadequate, and worth paying more to redo. -/
inductive QualityGate
  | refusal
  | truncated
  | malformedToolCall
  | emptyResponse
  | contextOverflow
  | noCredential
  deriving DecidableEq, Repr

/-- Why this model was picked. -/
inductive SelectionReason
  | passthrough
  | classified
  | floorPinned
  | budgetDowngraded
  | escalated (start : TierName) (gate : QualityGate)
  deriving DecidableEq

structure RoutingDecision where
  model : ModelSpec
  tier : Option Tier
  reason : SelectionReason
  capabilityEscalatedFrom : Option TierName
  ceilingModel : Option ModelSpec
  deriving DecidableEq

inductive RoutingError
  | noViableModel (message : String)
  | budgetExhausted (scope : BudgetScope)
  deriving DecidableEq

/-- No model on the ladder, or no model of that name. -/
def RoutingError.noModel : RoutingError :=
  .noViableModel "no model on the ladder satisfies the request"

/-- A route's routing rules. -/
structure RoutingPolicy where
  ladder : TierLadder
  classifier : Classifier
  floor : Option Tier

namespace RoutingPolicy

open TierLadder (clampToFloor floorRank specs)

/-- The model the savings figure is measured against: the dearer of the dearest
served model and the ceiling rung's pick, the served one on a tie. -/
def baseline (policy : RoutingPolicy) (catalog : Catalog) (served : List String)
    (need : Requirements) : Option ModelSpec :=
  match catalog.dearestServed served need, policy.ladder.pick policy.ladder.ceiling catalog need with
  | some servedSpec, some ladderSpec =>
    some (if servedSpec.price < ladderSpec.price then ladderSpec else servedSpec)
  | some spec, none => some spec
  | none, ladderSpec => ladderSpec

/-- The passes of the walk up: a rung that has a model, or the next one. -/
def climb (policy : RoutingPolicy) (startedAt : TierName) (reason : SelectionReason)
    (catalog : Catalog) (need : Requirements) (ceilingModel : Option ModelSpec) :
    ℕ → Tier → Except RoutingError RoutingDecision
  | 0, _ => .error .noModel
  | passes + 1, current =>
    match policy.ladder.pick current catalog need with
    | some spec => .ok {
        model := spec
        tier := some current
        reason := reason
        capabilityEscalatedFrom := if current.name ≠ startedAt then some startedAt else none
        ceilingModel := ceilingModel }
    | none =>
      match policy.ladder.escalate current with
      | none => .error .noModel
      | some next => climb policy startedAt reason catalog need ceilingModel passes next

/-- Walk up from `tier` until a rung has a model that can serve the request.
Every pass raises a rank of 8 bits, which bounds their number. -/
def resolveFrom (policy : RoutingPolicy) (tier : Tier) (reason : SelectionReason)
    (catalog : Catalog) (need : Requirements) (ceilingModel : Option ModelSpec) :
    Except RoutingError RoutingDecision :=
  policy.climb tier.name reason catalog need ceilingModel (256 - tier.rank.val) tier

/-- The first rung a model is on. -/
def tierOf (policy : RoutingPolicy) (model : ModelId) : Option Tier :=
  (policy.ladder.rungs.findIdx? (fun r => decide (model ∈ r.models))).bind (fun i =>
    (policy.ladder.rungs[i]?).bind (fun rung => (u8TryFrom i).map (fun rank => ⟨rung.name, rank⟩)))

/-- The rung a managed request starts on, before the budget. -/
def classifiedTier (policy : RoutingPolicy) (signal : RequestSignal) : Tier :=
  (policy.ladder.tier (policy.classifier signal)).getD policy.ladder.floor

/-- A named model: honoured on its rung or off the ladder, unless the floor is above it. -/
def decideNamed (policy : RoutingPolicy) (name : String) (catalog : Catalog) (need : Requirements)
    (ceilingModel : Option ModelSpec) : Except RoutingError RoutingDecision :=
  match catalog.resolve name with
  | none => .error .noModel
  | some spec =>
    match policy.tierOf spec.id with
    | some tier =>
      if (clampToFloor tier policy.floor).rank = tier.rank then
        .ok ⟨spec, some tier, .passthrough, none, ceilingModel⟩
      else
        policy.resolveFrom (clampToFloor tier policy.floor) .floorPinned catalog need ceilingModel
    | none =>
      match policy.floor with
      | some floor =>
        if 0 < floor.rank.val then
          policy.resolveFrom floor .floorPinned catalog need ceilingModel
        else .ok ⟨spec, none, .passthrough, none, ceilingModel⟩
      | none => .ok ⟨spec, none, .passthrough, none, ceilingModel⟩

/-- Classify, clamp to the floor, then apply budget pressure. -/
def decideManaged (policy : RoutingPolicy) (signal : RequestSignal) (pressure : BudgetPressure)
    (catalog : Catalog) (need : Requirements) (ceilingModel : Option ModelSpec) :
    Except RoutingError RoutingDecision :=
  let tier := policy.classifiedTier signal
  let floored := clampToFloor tier policy.floor
  let reason : SelectionReason := if floored.rank = tier.rank then .classified else .floorPinned
  let cheapest := clampToFloor policy.ladder.floor policy.floor
  if pressure = .constrained ∧ cheapest.rank < floored.rank then
    policy.resolveFrom cheapest .budgetDowngraded catalog need ceilingModel
  else policy.resolveFrom floored reason catalog need ceilingModel

/-- Choose a model for a request. -/
def decide (policy : RoutingPolicy) (mode : RoutingMode) (requestedModel : Option String)
    (signal : RequestSignal) (budget : Budgets) (catalog : Catalog) (maxOutputTokens : ℕ)
    (served : List String) : Except RoutingError RoutingDecision :=
  let need := signal.requirements maxOutputTokens
  let ceilingModel := policy.baseline catalog served need
  if budget.pressure = .exhausted then .error (.budgetExhausted budget.binding)
  else
    match mode, requestedModel with
    | .passthrough, some name => policy.decideNamed name catalog need ceilingModel
    | _, _ => policy.decideManaged signal budget.pressure catalog need ceilingModel

/-- The rungs this route advertises as `oag/<rung>` names. -/
def virtualNames (policy : RoutingPolicy) (pressure : BudgetPressure) : List TierName :=
  if pressure = .exhausted then []
  else
    let ceilingRank := if pressure = .constrained then
      (clampToFloor policy.ladder.floor policy.floor).rank.val else 255
    policy.ladder.rungs.zipIdx.filterMap (fun (rung, i) =>
      (u8TryFrom i).bind (fun rank =>
        if floorRank policy.floor ≤ rank.val ∧ rank.val ≤ ceilingRank then some rung.name else none))

/-- The model that all of some are. -/
def sole : List ModelId → Option ModelId
  | [] => none
  | first :: models => if models.all (fun m => m == first) then some first else none

/-- The one model a virtual name is decided onto; no rung is `oag/auto`. -/
def pinnedModel (policy : RoutingPolicy) (rung : Option TierName) (pressure : BudgetPressure) :
    Option ModelId :=
  let rungs := match rung with
    | some name => [name]
    | none => policy.virtualNames pressure
  sole ((policy.ladder.rungs.filter (fun r => rungs.contains r.name)).flatMap Rung.models)

/-- `virtual_tier`: the rung a requested model name asks for. -/
def virtualTier (model : String) : Option TierName :=
  (stripPrefix "oag/" model).filter (fun name => name != "auto")

/-- The name the listing gives a rung; no rung is `oag/auto`. -/
def virtualName (rung : Option TierName) : String := rung.elim "oag/auto" ("oag/" ++ ·)

/-- The signal of a request for a model name without an `x-oag-tier` header. -/
def requestFor (policy : RoutingPolicy) (model : String) (signal : RequestSignal) : RequestSignal :=
  { signal with
    explicitTier := (virtualTier model).filter (fun name => (policy.ladder.tier name).isSome) }

/-- One model a caller is entitled to name. -/
structure Entitlement where
  spec : ModelSpec
  tier : Option TierName
  honoured : Bool
  deriving DecidableEq

/-- The entries of one rung, after those already listed. -/
def rungEntitled (catalog : Catalog) (providers : Provider → Bool) (honoured : Bool) (rung : Rung)
    (out : List Entitlement) : List Entitlement :=
  (specs catalog rung).foldl (fun out spec =>
    if !providers spec.provider || out.any (fun e => e.spec.id == spec.id) then out
    else out ++ [⟨spec, some rung.name, honoured⟩]) out

/-- The entries of the rungs at or above the floor. -/
def ladderEntitled (policy : RoutingPolicy) (catalog : Catalog) (providers : Provider → Bool)
    (honoured : Bool) : List Entitlement :=
  policy.ladder.rungs.zipIdx.foldl (fun out (rung, i) =>
    match u8TryFrom i with
    | none => out
    | some rank =>
      if rank.val < floorRank policy.floor then out
      else rungEntitled catalog providers honoured rung out) []

/-- Models this caller may name, and whether naming one is honoured: those of
the ladder, then, when names are honoured at all, the rest of the catalogue. -/
def entitled (policy : RoutingPolicy) (mode : RoutingMode) (catalog : Catalog)
    (providers : Provider → Bool) (pressure : BudgetPressure) : List Entitlement :=
  if pressure = .exhausted then []
  else
    let managed := mode == .managed
    let out := policy.ladderEntitled catalog providers (!managed)
    if managed then out
    else
      out ++ (catalog.models.filter (fun spec =>
        providers spec.provider && !out.any (fun e => e.spec.id == spec.id))).map
          (fun spec => ⟨spec, none, floorRank policy.floor == 0⟩)

end RoutingPolicy

end OpenAIGateway
