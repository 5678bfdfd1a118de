import OpenAIGateway.RoutingPolicy
import OpenAIGateway.Numeric

/-!
Budget pressure in the arithmetic of the decimals, where the two thresholds are
rounded products. Pressure rises with the spend, and the warning comes before
the wall as long as the limit is not a few units of the last decimal place.
Limits and multiples as the database holds them are never rounded.
-/

set_option linter.all false

namespace OpenAIGateway

/-- The multiple of the limit the wall stands at: clamped at 1. -/
def clampedMultiple (multiple : Decimal) : Decimal :=
  if multiple.val < 1 then .new 1 0 else multiple

/-- The pressure as the decimals compute it; `none` where a product leaves their range. -/
def BudgetState.pressureIn (A : Arithmetic) (state : BudgetState) : Option BudgetPressure :=
  match state.limitUsd with
  | none => some .normal
  | some limit =>
    if limit.val ≤ 0 then some .exhausted
    else (A.mul limit (clampedMultiple state.hardStopMultiple)).bind (fun wall =>
      if wall.val ≤ state.spentUsd.val then some .exhausted
      else (A.mul limit (.new 8 1)).map (fun warnAt =>
        if warnAt.val ≤ state.spentUsd.val then .constrained else .normal))

/-- The budget of each scope. -/
def Budgets.of (budgets : Budgets) : BudgetScope → BudgetState
  | .apiKey => budgets.key
  | .route => budgets.route
  | .principal => budgets.principal

/-- Which of three pressures is binding: the last maximum, the widest scope first. -/
def bindingScope (principal route key : BudgetPressure) : BudgetScope :=
  let scopes := [(BudgetScope.principal, principal), (BudgetScope.route, route),
    (BudgetScope.apiKey, key)]
  (Extrema.maxBy (fun a b => decide (b.2.level < a.2.level)) scopes).elim .principal Prod.fst

def Budgets.bindingIn (A : Arithmetic) (budgets : Budgets) : Option BudgetScope := do
  let principal ← budgets.principal.pressureIn A
  let route ← budgets.route.pressureIn A
  let key ← budgets.key.pressureIn A
  return bindingScope principal route key

/-- How many callers share a cap of this scope, from the fewest to the most. -/
def BudgetScope.width : BudgetScope → ℕ
  | .apiKey => 0
  | .route => 1
  | .principal => 2

variable (A : Arithmetic)

theorem Decimal.one_val : (Decimal.new 1 0).val = 1 := by
  rw [Decimal.new_val (by norm_num) (by omega)]
  norm_num

theorem four_fifths_val : (Decimal.new 8 1).val = 8 / 10 := by
  rw [Decimal.new_val (by norm_num) (by omega)]
  norm_num

theorem mul_one_exact (d : Decimal) : A.mul d (.new 1 0) = some d := by
  apply A.mul_rounded.exact_of_representable (d, .new 1 0)
  show d.val * (Decimal.new 1 0).val = d.val
  rw [Decimal.one_val, mul_one]

theorem clampedMultiple_val (multiple : Decimal) :
    (clampedMultiple multiple).val = max multiple.val 1 := by
  unfold clampedMultiple
  by_cases h : multiple.val < 1
  · rw [if_pos h, Decimal.one_val, max_eq_right h.le]
  · rw [if_neg h, max_eq_left (not_lt.mp h)]

/-- The wall is not below the limit. -/
theorem limit_le_wall {limit multiple wall : Decimal} (hpos : 0 < limit.val)
    (hwall : A.mul limit (clampedMultiple multiple) = some wall) : limit.val ≤ wall.val := by
  apply A.mul_rounded.mono (limit, .new 1 0) (limit, clampedMultiple multiple) limit wall
    (mul_one_exact A limit) hwall
  show limit.val * (Decimal.new 1 0).val ≤ limit.val * (clampedMultiple multiple).val
  rw [Decimal.one_val, clampedMultiple_val]
  exact mul_le_mul_of_nonneg_left (le_max_right _ _) hpos.le

/-- The warning is below the limit, once the limit is five units of the last place. -/
theorem warning_lt_limit {limit warnAt : Decimal} (hlimit : 5 / 10 ^ 28 ≤ limit.val)
    (hwarn : A.mul limit (.new 8 1) = some warnAt) : warnAt.val < limit.val := by
  obtain ⟨below, hfifths, hlt⟩ := limit.exists_above_four_fifths hlimit
  apply lt_of_le_of_lt _ hlt
  apply A.mul_rounded.mono (limit, .new 8 1) (below, .new 1 0) warnAt below hwarn
    (mul_one_exact A below)
  show limit.val * (Decimal.new 8 1).val ≤ below.val * (Decimal.new 1 0).val
  rw [Decimal.one_val, four_fifths_val, mul_one]
  exact hfifths

/-- The pressure of a spend between two thresholds. -/
def pressureAt (warnAt wall spent : Decimal) : BudgetPressure :=
  if wall.val ≤ spent.val then .exhausted
  else if warnAt.val ≤ spent.val then .constrained
  else .normal

theorem lt_of_pressureAt_normal {warnAt wall spent : Decimal}
    (h : pressureAt warnAt wall spent = .normal) : spent.val < warnAt.val := by
  by_contra hle
  unfold pressureAt at h
  rw [if_pos (not_lt.mp hle)] at h
  by_cases hwall : wall.val ≤ spent.val
  · rw [if_pos hwall] at h
    cases h
  · rw [if_neg hwall] at h
    cases h

theorem le_of_pressureAt_exhausted {warnAt wall spent : Decimal}
    (h : pressureAt warnAt wall spent = .exhausted) : wall.val ≤ spent.val := by
  by_contra hlt
  unfold pressureAt at h
  rw [if_neg hlt] at h
  by_cases hwarn : warnAt.val ≤ spent.val
  · rw [if_pos hwarn] at h
    cases h
  · rw [if_neg hwarn] at h
    cases h

theorem pressureAt_mono (warnAt wall : Decimal) {spent spent' : Decimal}
    (h : spent.val ≤ spent'.val) :
    (pressureAt warnAt wall spent).level ≤ (pressureAt warnAt wall spent').level := by
  unfold pressureAt
  by_cases hwall : wall.val ≤ spent.val
  · rw [if_pos hwall, if_pos (hwall.trans h)]
  · rw [if_neg hwall]
    by_cases hwall' : wall.val ≤ spent'.val
    · rw [if_pos hwall']
      split <;> simp [BudgetPressure.level]
    · rw [if_neg hwall']
      by_cases hwarn : warnAt.val ≤ spent.val
      · rw [if_pos hwarn, if_pos (hwarn.trans h)]
      · rw [if_neg hwarn]
        exact Nat.zero_le _

/-- A positive limit has two thresholds, whatever is spent, or a wall out of range. -/
theorem exists_thresholds {limit : Decimal} (hpos : 0 < limit.val) (multiple : Decimal) :
    (A.mul limit (clampedMultiple multiple) = none ∧
      ∀ spent, BudgetState.pressureIn A ⟨spent, some limit, multiple⟩ = none) ∨
      ∃ warnAt wall, A.mul limit (.new 8 1) = some warnAt ∧
        A.mul limit (clampedMultiple multiple) = some wall ∧
        ∀ spent, BudgetState.pressureIn A ⟨spent, some limit, multiple⟩ =
          some (pressureAt warnAt wall spent) := by
  obtain ⟨warnAt, hwarn⟩ := A.mul_rounded.returns (limit, .new 8 1) (by
    show |limit.val * (Decimal.new 8 1).val| ≤ maxDecimal
    have hrange := limit.abs_le
    rw [abs_of_pos hpos] at hrange
    rw [four_fifths_val, abs_of_pos (by positivity)]
    linarith)
  cases hwall : A.mul limit (clampedMultiple multiple) with
  | none =>
    refine Or.inl ⟨rfl, ?_⟩
    intro spent
    simp only [BudgetState.pressureIn, if_neg (not_le.mpr hpos), hwall, Option.bind_none]
  | some wall =>
    refine Or.inr ⟨warnAt, wall, hwarn, rfl, ?_⟩
    intro spent
    unfold pressureAt
    simp only [BudgetState.pressureIn, if_neg (not_le.mpr hpos), hwall, Option.bind_some, hwarn,
      Option.map_some]
    by_cases h : wall.val ≤ spent.val
    · rw [if_pos h, if_pos h]
    · rw [if_neg h, if_neg h]

/-- The pressure does not fall as the spend rises. -/
theorem pressureIn_mono (limit : Option Decimal) (multiple : Decimal) {spent spent' : Decimal}
    {p p' : BudgetPressure} (h : spent.val ≤ spent'.val)
    (hp : BudgetState.pressureIn A ⟨spent, limit, multiple⟩ = some p)
    (hp' : BudgetState.pressureIn A ⟨spent', limit, multiple⟩ = some p') : p.level ≤ p'.level := by
  cases limit with
  | none =>
    cases hp
    exact Nat.zero_le _
  | some limit =>
    by_cases hpos : 0 < limit.val
    · rcases exists_thresholds A hpos multiple with ⟨-, hnone⟩ | ⟨warnAt, wall, -, -, hall⟩
      · rw [hnone] at hp
        cases hp
      · rw [hall, Option.some.injEq] at hp hp'
        subst hp hp'
        exact pressureAt_mono warnAt wall h
    · simp only [BudgetState.pressureIn, if_pos (not_lt.mp hpos), Option.some.injEq] at hp hp'
      subst hp hp'
      exact le_refl _

/-- Between a spend on merit and a refused one there is a spend that is only constrained. -/
theorem exists_constrained {limit : Decimal} (hlimit : 5 / 10 ^ 28 ≤ limit.val) (multiple : Decimal)
    {spent spent' : Decimal}
    (hnormal : BudgetState.pressureIn A ⟨spent, some limit, multiple⟩ = some .normal)
    (hexhausted : BudgetState.pressureIn A ⟨spent', some limit, multiple⟩ = some .exhausted) :
    ∃ between : Decimal, spent.val < between.val ∧ between.val < spent'.val ∧
      BudgetState.pressureIn A ⟨between, some limit, multiple⟩ = some .constrained := by
  have hpos : 0 < limit.val := lt_of_lt_of_le (by norm_num) hlimit
  rcases exists_thresholds A hpos multiple with ⟨-, hnone⟩ | ⟨warnAt, wall, hwarn, hwall, hall⟩
  · rw [hnone] at hnormal
    cases hnormal
  · have hband : warnAt.val < wall.val :=
      lt_of_lt_of_le (warning_lt_limit A hlimit hwarn) (limit_le_wall A hpos hwall)
    rw [hall, Option.some.injEq] at hnormal hexhausted
    refine ⟨warnAt, lt_of_pressureAt_normal hnormal,
      lt_of_lt_of_le hband (le_of_pressureAt_exhausted hexhausted), ?_⟩
    rw [hall, pressureAt, if_neg (not_le.mpr hband), if_pos (le_refl _)]

/-- Of three scopes, the one that is binding has the tightest pressure and is the
narrowest of those that have it. -/
theorem bindingScope_narrowest (pressures : BudgetScope → BudgetPressure) (other : BudgetScope) :
    let scope := bindingScope (pressures .principal) (pressures .route) (pressures .apiKey)
    (pressures other).level ≤ (pressures scope).level ∧
      ((pressures other).level = (pressures scope).level → scope.width ≤ other.width) := by
  cases hp : pressures .principal <;> cases hr : pressures .route <;>
    cases hk : pressures .apiKey <;> cases other <;>
    simp [bindingScope, Extrema.maxBy, BudgetPressure.level, BudgetScope.width, hp, hr, hk]

/-- The binding scope has the tightest of the three pressures, and no narrower scope has it. -/
theorem bindingIn_narrowest {budgets : Budgets} {scope : BudgetScope}
    (h : budgets.bindingIn A = some scope) :
    ∃ p, (budgets.of scope).pressureIn A = some p ∧
      ∀ other q, (budgets.of other).pressureIn A = some q →
        q.level ≤ p.level ∧ (q.level = p.level → scope.width ≤ other.width) := by
  simp only [Budgets.bindingIn, Option.bind_eq_bind, Option.bind_eq_some_iff, Option.pure_def,
    Option.some.injEq] at h
  obtain ⟨principal, hprincipal, route, hroute, key, hkey, hscope⟩ := h
  let pressures : BudgetScope → BudgetPressure
    | .principal => principal
    | .route => route
    | .apiKey => key
  have hof : ∀ s, (budgets.of s).pressureIn A = some (pressures s) := by
    intro s
    cases s with
    | apiKey => exact hkey
    | route => exact hroute
    | principal => exact hprincipal
  refine ⟨pressures scope, hof scope, ?_⟩
  intro other q hq
  rw [hof, Option.some.injEq] at hq
  subst hscope hq
  exact bindingScope_narrowest pressures other

/-- Pressure rises with the spend. From five units of the last decimal place up,
every whole number of micro-units among them, no limit goes from merit to
refusal without spends in between that are only constrained. And the binding
scope is the narrowest of those under the tightest pressure. -/
theorem pressure_and_binding (A : Arithmetic) :
    (∀ (limit : Option Decimal) (multiple spent spent' : Decimal) (p p' : BudgetPressure),
      spent.val ≤ spent'.val → BudgetState.pressureIn A ⟨spent, limit, multiple⟩ = some p →
      BudgetState.pressureIn A ⟨spent', limit, multiple⟩ = some p' → p.level ≤ p'.level) ∧
    (∀ limit multiple spent spent' : Decimal, 5 / 10 ^ 28 ≤ limit.val →
      BudgetState.pressureIn A ⟨spent, some limit, multiple⟩ = some .normal →
      BudgetState.pressureIn A ⟨spent', some limit, multiple⟩ = some .exhausted →
      ∃ between : Decimal, spent.val < between.val ∧ between.val < spent'.val ∧
        BudgetState.pressureIn A ⟨between, some limit, multiple⟩ = some .constrained) ∧
    ∀ (budgets : Budgets) (scope : BudgetScope), budgets.bindingIn A = some scope →
      ∃ p, (budgets.of scope).pressureIn A = some p ∧
        ∀ other q, (budgets.of other).pressureIn A = some q →
          q.level ≤ p.level ∧ (q.level = p.level → scope.width ≤ other.width) := by
  refine ⟨?_, ?_, ?_⟩
  · intro limit multiple spent spent' p p' h hp hp'
    exact pressureIn_mono A limit multiple h hp hp'
  · intro limit multiple spent spent' hlimit hnormal hexhausted
    exact exists_constrained A hlimit multiple hnormal hexhausted
  · intro budgets scope h
    exact bindingIn_narrowest A h

/-- On a limit and a multiple as their columns hold them nothing is rounded: the
pressure is the one the routing decisions are modelled with. -/
theorem pressureIn_stored (limit : Numeric 14 6) (multiple : Numeric 6 3) (spent : Decimal) :
    BudgetState.pressureIn A ⟨spent, some limit.toDecimal, multiple.toDecimal⟩ =
      some (BudgetState.pressure ⟨spent, some limit.toDecimal, multiple.toDecimal⟩) := by
  have hclamped : ∃ stored : Numeric 6 3, clampedMultiple multiple.toDecimal = stored.toDecimal := by
    unfold clampedMultiple
    by_cases h : multiple.toDecimal.val < 1
    · refine ⟨⟨1000, by norm_num⟩, ?_⟩
      rw [if_pos h]
      apply Decimal.ext
      rw [Decimal.one_val, Numeric.toDecimal_val _ (by omega) (by omega)]
      norm_num
    · exact ⟨multiple, if_neg h⟩
  obtain ⟨stored, hstored⟩ := hclamped
  obtain ⟨warnAt, hwarn, hwarnVal⟩ :=
    limit.mul_exact A (⟨8, by norm_num⟩ : Numeric 1 1) (by omega) (by omega)
  obtain ⟨wall, hwall, hwallVal⟩ := limit.mul_exact A stored (by omega) (by omega)
  have hfifths : (⟨8, by norm_num⟩ : Numeric 1 1).toDecimal = Decimal.new 8 1 := rfl
  rw [hfifths] at hwarn hwarnVal
  rw [← hstored] at hwall hwallVal
  rw [four_fifths_val] at hwarnVal
  rw [clampedMultiple_val] at hwallVal
  unfold BudgetState.pressure
  by_cases hpos : 0 < limit.toDecimal.val
  · simp only [BudgetState.pressureIn, if_neg (not_le.mpr hpos), hwall, Option.bind_some, hwarn,
      Option.map_some, ← hwallVal, ← hwarnVal]
    by_cases h : wall.val ≤ spent.val
    · rw [if_pos h, if_pos h]
    · rw [if_neg h, if_neg h]
  · simp only [BudgetState.pressureIn, if_pos (not_lt.mp hpos)]

/-- Where no budget is rounded the binding scope is the one decisions are refused under. -/
theorem bindingIn_eq {budgets : Budgets}
    (h : ∀ scope, (budgets.of scope).pressureIn A = some (budgets.of scope).pressure) :
    budgets.bindingIn A = some budgets.binding := by
  have hprincipal : budgets.principal.pressureIn A = some budgets.principal.pressure := h .principal
  have hroute : budgets.route.pressureIn A = some budgets.route.pressure := h .route
  have hkey : budgets.key.pressureIn A = some budgets.key.pressure := h .apiKey
  unfold Budgets.bindingIn
  rw [hprincipal, hroute, hkey]
  rfl

/-- The smallest decimal above zero. -/
def lastPlace : Decimal := .new 1 28

theorem lastPlace_val : lastPlace.val = 1 / 10 ^ 28 := by
  rw [lastPlace, Decimal.new_val (by norm_num) (by omega)]
  norm_num

/-- Four fifths of the last place are rounded up to all of it. -/
theorem lastPlace_fifths {warnAt : Decimal} (h : Arithmetic.up.mul lastPlace (.new 8 1) = some warnAt) :
    warnAt.val = lastPlace.val := by
  apply le_antisymm
  · apply Arithmetic.up.mul_rounded.mono (lastPlace, .new 8 1) (lastPlace, .new 1 0) warnAt lastPlace
      h (mul_one_exact _ lastPlace)
    show lastPlace.val * (Decimal.new 8 1).val ≤ lastPlace.val * (Decimal.new 1 0).val
    rw [four_fifths_val, Decimal.one_val, lastPlace_val]
    norm_num
  · rw [lastPlace_val]
    apply Decimal.last_place_le
    have hle : lastPlace.val * (Decimal.new 8 1).val ≤ warnAt.val := le_roundUp h
    rw [four_fifths_val, lastPlace_val] at hle
    exact lt_of_lt_of_le (by norm_num) hle

/-- The smallest limit has no warning: every spend below it is served on merit, the
limit itself is refused, and no spend is only constrained. -/
theorem no_warning_at_last_place :
    0 < lastPlace.val ∧
      BudgetState.pressureIn .up ⟨.new 0 0, some lastPlace, .new 1 0⟩ = some .normal ∧
      BudgetState.pressureIn .up ⟨lastPlace, some lastPlace, .new 1 0⟩ = some .exhausted ∧
      ∀ spent, BudgetState.pressureIn .up ⟨spent, some lastPlace, .new 1 0⟩ ≠ some .constrained := by
  have hpos : 0 < lastPlace.val := by
    rw [lastPlace_val]
    norm_num
  have hmultiple : clampedMultiple (.new 1 0) = .new 1 0 := by
    unfold clampedMultiple
    rw [if_neg (by rw [Decimal.one_val]; norm_num)]
  have hwall := mul_one_exact .up lastPlace
  have hzero : (Decimal.new 0 0).val = 0 := by
    rw [Decimal.new_val (by norm_num) (by omega)]
    norm_num
  have hall : ∀ spent, BudgetState.pressureIn .up ⟨spent, some lastPlace, .new 1 0⟩ =
      some (if lastPlace.val ≤ spent.val then .exhausted else .normal) := by
    intro spent
    rcases exists_thresholds .up hpos (.new 1 0) with
      ⟨hnone, -⟩ | ⟨warnAt, wall, hwarn, hwall', hall⟩
    · rw [hmultiple, hwall] at hnone
      cases hnone
    · rw [hmultiple, hwall, Option.some.injEq] at hwall'
      rw [hall, pressureAt, ← hwall', lastPlace_fifths hwarn]
      by_cases h : lastPlace.val ≤ spent.val
      · rw [if_pos h, if_pos h]
      · rw [if_neg h, if_neg h, if_neg h]
  refine ⟨hpos, ?_, ?_, ?_⟩
  · rw [hall, if_neg (by rw [hzero]; exact not_le.mpr hpos)]
  · rw [hall, if_pos (le_refl _)]
  · intro spent
    rw [hall]
    by_cases h : lastPlace.val ≤ spent.val
    · rw [if_pos h]
      simp
    · rw [if_neg h]
      simp

end OpenAIGateway
