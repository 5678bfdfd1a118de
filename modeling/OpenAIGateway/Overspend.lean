import OpenAIGateway.Planning
import OpenAIGateway.SpendCounters
import OpenAIGateway.Transition
import Mathlib.Algebra.Order.BigOperators.Group.List

/-!
How far spend can pass a cap. A request reads its caps once, before it is sent,
and is charged as its answers are recorded, so requests under way at one time can
all have read a spend that none of them had added to. Whatever their order, a
key, a principal or a route is not charged past its cap by more than the requests
it can have under way at one time cost.
-/

set_option linter.all false

namespace OpenAIGateway.Overspend

open Spend (Books MonthlySpend UsageEvent)
open Planning (RouteRow planRequest)

section Sums

variable {α : Type*} {w w' : α → ℕ} {p : α → Bool} {c : ℕ}

end Sums

variable {Id : Type} [DecidableEq Id]

/-- Whose request it is, and what authentication said of it, which may be some minutes old. -/
structure Caller (Id : Type) where
  apiKeyId : Id
  principalId : Id
  routeId : Id
  auth : Planning.AuthContext

/-- Who pays in a scope. -/
def Caller.payer (caller : Caller Id) : BudgetScope → Id
  | .apiKey => caller.apiKeyId
  | .route => caller.routeId
  | .principal => caller.principalId

/-- Read as far as its route, or let through. -/
inductive Phase
  | asked (route : RouteRow)
  | admitted

/-- A request under way, and what its answers have cost so far. -/
structure Flight (Id : Type) where
  request : Id
  caller : Caller Id
  phase : Phase
  recorded : ℕ

/-- The counters, the month the database is in, the routes as they are configured, and the
requests under way. -/
structure World (Id : Type) where
  books : Books Id
  month : ℤ
  routes : Id → Option RouteRow
  flights : List (Flight Id)

/-- Everything else that a plan is made of. -/
structure Call where
  registry : String → Option EndpointMaps.Dialect
  toStr : Json → String
  takeRateToken : ℕ → Option ℕ
  served : List String
  standing : String → Option ProviderStanding
  req : HubRequest
  header : Option String
  catalog : Catalog
  channel : Option CredentialKind

/-- A column of eight decimal places. -/
def usd (units : ℕ) : Decimal := .new units 8

/-- `route_by_id`: the row, and its spend of the month. -/
def routeById (s : World Id) (id : Id) : Option RouteRow :=
  (s.routes id).bind (fun row =>
    (s.books.routeSpend s.month id).map (fun spent => { row with spentUsd := usd spent }))

/-- What a plan reads once its route is there; a key that is gone is not authenticated. -/
def readsOf (s : World Id) (caller : Caller Id) (route : RouteRow) (call : Call) :
    Planning.Reads where
  route := .ok (some route)
  spend :=
    match s.books.spendFor s.month caller.apiKeyId caller.principalId with
    | some (key, principal) => .ok ⟨usd key, usd principal⟩
    | none => .error .unauthenticated
  takeRateToken := call.takeRateToken
  served := call.served
  standing := call.standing

def plan (s : World Id) (caller : Caller Id) (route : RouteRow) (call : Call) :
    Except GatewayError Planning.Plan :=
  planRequest call.registry call.toStr (readsOf s caller route call) caller.auth call.req
    call.header call.catalog call.channel

/-- The request is let through. -/
def Flight.letThrough (f : Flight Id) : Flight Id := { f with phase := .admitted }

def Flight.charge (cost : ℕ) (f : Flight Id) : Flight Id := { f with recorded := f.recorded + cost }

inductive Event (Id : Type)
  /-- A request reads its route. -/
  | ask (request : Id) (caller : Caller Id)
  /-- It reads its spend, and is planned. -/
  | grant (request : Id) (call : Call)
  /-- An attempt of it is recorded, by a transaction that started in that month. -/
  | record (request : Id) (attempt : ℤ) (month : ℤ) (costUsd : ℕ)
  /-- It is refused, or nothing of it is left to record. -/
  | finish (request : Id)
  | turn (month : ℤ)
  | edit (routes : Id → Option RouteRow)

def write (f : Flight Id) (attempt : ℤ) (costUsd : ℕ) : Spend.UsageWrite Id :=
  ⟨f.request, attempt, some f.caller.principalId, some f.caller.apiKeyId, some f.caller.routeId,
    costUsd⟩

/-- What the ledger takes a cost to be. -/
@[irreducible] def ledgered (costUsd : ℕ) : ℕ := (Spend.ledgerAmount costUsd).getD 0

namespace World

def find (s : World Id) (request : Id) : Option (Flight Id) :=
  s.flights.find? (fun f => decide (f.request = request))

def update (s : World Id) (request : Id) (g : Flight Id → Flight Id) : World Id :=
  { s with flights := s.flights.map (fun f => if f.request = request then g f else f) }

def settle (s : World Id) (books : Books Id) : World Id := { s with books := books }

end World

def step (s : World Id) : Event Id → Option (World Id)
  | .ask request caller =>
    if (s.find request).isSome then none
    else (routeById s caller.routeId).map (fun route =>
      { s with flights := ⟨request, caller, .asked route, 0⟩ :: s.flights })
  | .grant request call =>
    match s.find request with
    | some ⟨_, caller, .asked route, _⟩ =>
      match plan s caller route call with
      | .ok _ => some (s.update request Flight.letThrough)
      | .error _ => none
    | _ => none
  | .record request attempt month costUsd =>
    match s.find request with
    | some f =>
      match f.phase with
      | .admitted =>
        if month ≤ s.month then
          some ((s.update request (Flight.charge (ledgered costUsd))).settle
            (s.books.execute ⟨month, write f attempt costUsd⟩))
        else none
      | .asked _ => none
    | none => none
  | .finish request => some { s with flights := s.flights.filter (fun f => f.request ≠ request) }
  | .turn month => if s.month ≤ month then some { s with month := month } else none
  | .edit routes => some { s with routes := routes }

/-- The request is the payer's. -/
def Flight.paidBy (scope : BudgetScope) (id : Id) (f : Flight Id) : Bool :=
  decide (f.caller.payer scope = id)

/-- The spend a request is refused at, by what it read. -/
def wallOf (caller : Caller Id) (route : RouteRow) : BudgetScope → Option ℚ
  | .apiKey => caller.auth.quotaUsd.map Decimal.val
  | .route => route.monthlyBudgetUsd.map Decimal.val
  | .principal => caller.auth.principalBudgetUsd.map
      (fun budget => budget.val * max caller.auth.principalHardStopMultiple.val 1)

/-- The columns hold what their types hold, the ledger agrees with them, and none of them is of a
month to come. -/
structure Sound (s : World Id) : Prop where
  consistent : s.books.Consistent
  distinct : (s.flights.map Flight.request).Nodup
  keyHeld : ∀ id spent, s.books.apiKeys id = some spent → spent < 10 ^ 16
  principalHeld : ∀ id m, s.books.principals id = some m →
    m.spentUsd < 10 ^ 16 ∧ ∀ named ∈ m.spentMonth, named ≤ s.month
  routeHeld : ∀ id m, s.books.routes id = some m →
    m.spentUsd < 10 ^ 16 ∧ ∀ named ∈ m.spentMonth, named ≤ s.month

section Books

variable {b b' : Books Id} {month : ℤ} {w : Spend.UsageWrite Id} {id : Id}

end Books

section Step

variable {s s' : World Id} {id request : Id} {scope : BudgetScope} {c : ℕ}

theorem requests_update (g : Flight Id → Flight Id) (hg : ∀ f, (g f).request = f.request) :
    (s.update request g).flights.map Flight.request = s.flights.map Flight.request := by
  unfold World.update
  rw [List.map_map]
  refine List.map_congr_left (fun f _ => ?_)
  simp only [Function.comp]
  split
  · exact hg f
  · rfl

/-- Whatever becomes of the requests under way, as long as they stay who they are. -/
theorem Sound.update (hs : Sound s) (g : Flight Id → Flight Id)
    (hg : ∀ f, (g f).request = f.request) : Sound (s.update request g) where
  consistent := hs.consistent
  distinct := by
    rw [requests_update g hg]
    exact hs.distinct
  keyHeld := hs.keyHeld
  principalHeld := hs.principalHeld
  routeHeld := hs.routeHeld

end Step

section Bound

variable {s s' : World Id} {id : Id} {scope : BudgetScope} {c N : ℕ} {W : ℚ}

/-- What a step has to meet: a request of the payer's has a wall of at most `W`, and is one of at
most `N` under way; and the attempts of a request cost at most `c`. -/
def Within (scope : BudgetScope) (id : Id) (W : ℚ) (N c : ℕ) (s : World Id) : Event Id → Prop
  | .ask _ caller => caller.payer scope = id →
    s.flights.countP (Flight.paidBy scope id) < N ∧
      ∀ route, routeById s caller.routeId = some route →
        ∃ wall ∈ wallOf caller route scope, wall ≤ W
  | .record request _ _ costUsd => ∀ f, s.find request = some f → f.paidBy scope id = true →
    f.recorded + ledgered costUsd ≤ c
  | _ => True

end Bound

instance decidableWithin (scope : BudgetScope) (id : Id) (W : ℚ) (N c : ℕ) (s : World Id) :
    ∀ e, Decidable (Within scope id W N c s e)
  | .ask _ caller => inferInstanceAs (Decidable (caller.payer scope = id →
      s.flights.countP (Flight.paidBy scope id) < N ∧
        ∀ route ∈ routeById s caller.routeId, ∃ wall ∈ wallOf caller route scope, wall ≤ W))
  | .grant .. => isTrue trivial
  | .record request _ _ costUsd => inferInstanceAs (Decidable (∀ f ∈ s.find request,
      f.paidBy scope id = true → f.recorded + ledgered costUsd ≤ c))
  | .finish _ => isTrue trivial
  | .turn _ => isTrue trivial
  | .edit _ => isTrue trivial

end OpenAIGateway.Overspend
