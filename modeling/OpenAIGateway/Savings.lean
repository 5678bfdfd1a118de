import OpenAIGateway.ManagedRouting

/-!
What a request costs, and what it would have cost on the baseline. The
baseline is the dearer of two models by one scalar, while a cost adds up four
kinds of tokens at four rates, so a saving is never negative exactly when the
baseline is at least as dear for every kind.
-/

set_option linter.all false

namespace OpenAIGateway

def tokensPerMillion : Decimal := Decimal.new 1000000 0

theorem tokensPerMillion_val : tokensPerMillion.val = 10 ^ 6 := by
  rw [tokensPerMillion, Decimal.new_val (by norm_num) (by omega)]
  norm_num

/-- The price of a usage; `none` when a step leaves the range of the decimals. -/
def Pricing.cost (A : Arithmetic) (pricing : Pricing) (usage : Usage) : Option Decimal := do
  let readRate := pricing.cacheReadPerMtok.getD pricing.inputPerMtok
  let writeRate := pricing.cacheWritePerMtok.getD pricing.inputPerMtok
  let input ← A.mul (.ofU64 usage.inputTokens) pricing.inputPerMtok
  let output ← A.mul (.ofU64 usage.outputTokens) pricing.outputPerMtok
  let sum ← A.add input output
  let read ← A.mul (.ofU64 usage.cacheReadTokens) readRate
  let sum ← A.add sum read
  let write ← A.mul (.ofU64 usage.cacheWriteTokens) writeRate
  let total ← A.add sum write
  A.div total tokensPerMillion

/-- What this request would have cost on a different model. -/
def counterfactual (A : Arithmetic) (usage : Usage) (alternative : ModelSpec) : Option Decimal :=
  alternative.pricing.cost A usage

inductive TokenKind
  | input
  | output
  | cacheRead
  | cacheWrite

/-- The rate a kind of token is billed at; the cache kinds fall back to the input rate. -/
def Pricing.rate (pricing : Pricing) : TokenKind → Decimal
  | .input => pricing.inputPerMtok
  | .output => pricing.outputPerMtok
  | .cacheRead => pricing.cacheReadPerMtok.getD pricing.inputPerMtok
  | .cacheWrite => pricing.cacheWritePerMtok.getD pricing.inputPerMtok

/-- Tokens of one kind alone. -/
def TokenKind.only (n : ℕ) : TokenKind → Usage
  | .input => { inputTokens := n }
  | .output => { outputTokens := n }
  | .cacheRead => { cacheReadTokens := n }
  | .cacheWrite => { cacheWriteTokens := n }

variable (A : Arithmetic)

theorem mul_mono (n : ℕ) {r r' x x' : Decimal} (h : r.val ≤ r'.val)
    (hx : A.mul (.ofU64 n) r = some x) (hx' : A.mul (.ofU64 n) r' = some x') : x.val ≤ x'.val :=
  A.mul_rounded.mono (.ofU64 n, r) (.ofU64 n, r') x x' hx hx'
    (mul_le_mul_of_nonneg_left h (Decimal.ofU64_nonneg n))

theorem add_mono {a a' b b' x x' : Decimal} (ha : a.val ≤ a'.val) (hb : b.val ≤ b'.val)
    (hx : A.add a b = some x) (hx' : A.add a' b' = some x') : x.val ≤ x'.val :=
  A.add_rounded.mono (a, b) (a', b') x x' hx hx' (add_le_add ha hb)

theorem tokensPerMillion_ne_zero : tokensPerMillion.val ≠ 0 := by
  rw [tokensPerMillion_val]
  norm_num

theorem div_mono {a a' x x' : Decimal} (h : a.val ≤ a'.val)
    (hx : A.div a tokensPerMillion = some x) (hx' : A.div a' tokensPerMillion = some x') :
    x.val ≤ x'.val := by
  apply A.div_rounded.mono (a, ⟨tokensPerMillion, tokensPerMillion_ne_zero⟩)
    (a', ⟨tokensPerMillion, tokensPerMillion_ne_zero⟩) x x' hx hx'
  show a.val / tokensPerMillion.val ≤ a'.val / tokensPerMillion.val
  rw [tokensPerMillion_val]
  gcongr

theorem div_exact {a x : Decimal} (h : a.val / 10 ^ 6 = x.val) :
    A.div a tokensPerMillion = some x := by
  apply A.div_rounded.exact_of_representable (a, ⟨tokensPerMillion, tokensPerMillion_ne_zero⟩) x
  show a.val / tokensPerMillion.val = x.val
  rw [tokensPerMillion_val]
  exact h

/-- Dearer rates make a dearer bill. -/
theorem cost_mono {p q : Pricing} {usage : Usage} {c c' : Decimal}
    (h : ∀ kind, (p.rate kind).val ≤ (q.rate kind).val) (hc : p.cost A usage = some c)
    (hc' : q.cost A usage = some c') : c.val ≤ c'.val := by
  simp only [Pricing.cost, Option.bind_eq_bind, Option.bind_eq_some_iff] at hc hc'
  obtain ⟨input, hinput, output, houtput, sum, hsum, read, hread, sum₂, hsum₂, write, hwrite,
    total, htotal, hc⟩ := hc
  obtain ⟨input', hinput', output', houtput', sum', hsum', read', hread', sum₂', hsum₂', write',
    hwrite', total', htotal', hc'⟩ := hc'
  have h₁ := add_mono A (mul_mono A _ (h .input) hinput hinput')
    (mul_mono A _ (h .output) houtput houtput') hsum hsum'
  have h₂ := add_mono A h₁ (mul_mono A _ (h .cacheRead) hread hread') hsum₂ hsum₂'
  have h₃ := add_mono A h₂ (mul_mono A _ (h .cacheWrite) hwrite hwrite') htotal htotal'
  exact div_mono A h₃ hc hc'

/-- So many tokens at one rate. -/
def bill (n : ℕ) (rate : Decimal) : Option Decimal :=
  (A.mul (.ofU64 n) rate).bind (fun x => A.div x tokensPerMillion)

/-- Tokens of one kind are billed at that kind's rate alone. -/
theorem cost_only (p : Pricing) (kind : TokenKind) (n : ℕ) :
    p.cost A (kind.only n) = bill A n (p.rate kind) := by
  unfold bill
  have hzero : (Decimal.ofU64 0).val = 0 := by
    rw [Decimal.ofU64_val (by norm_num)]
    norm_num
  have hmul : ∀ r, A.mul (.ofU64 0) r = some (.ofU64 0) := by
    intro r
    apply A.mul_rounded.exact_of_representable (.ofU64 0, r)
    show (Decimal.ofU64 0).val * r.val = (Decimal.ofU64 0).val
    rw [hzero, zero_mul]
  have hright : ∀ x, A.add x (.ofU64 0) = some x := by
    intro x
    apply A.add_rounded.exact_of_representable (x, .ofU64 0)
    show x.val + (Decimal.ofU64 0).val = x.val
    rw [hzero, add_zero]
  have hleft : ∀ x, A.add (.ofU64 0) x = some x := by
    intro x
    apply A.add_rounded.exact_of_representable (.ofU64 0, x)
    show (Decimal.ofU64 0).val + x.val = x.val
    rw [hzero, zero_add]
  cases kind <;>
    simp only [Pricing.cost, TokenKind.only, Pricing.rate, hmul, hright, hleft, Option.bind_eq_bind,
      Option.bind_some]

theorem mul_exact {n : ℕ} {r x : Decimal} (hn : n < 2 ^ 64) (h : n * r.val = x.val) :
    A.mul (.ofU64 n) r = some x := by
  apply A.mul_rounded.exact_of_representable (.ofU64 n, r)
  show (Decimal.ofU64 n).val * r.val = x.val
  rw [Decimal.ofU64_val hn]
  exact h

/-- One token at a rate whose millionth fits. -/
theorem one_token_exact {r : Decimal} (h : Representable (r.val / 10 ^ 6)) :
    bill A 1 r = some ⟨r.val / 10 ^ 6, h⟩ := by
  unfold bill
  rw [mul_exact A (x := r) (by norm_num) (by norm_num), Option.bind_some]
  exact div_exact A rfl

/-- A million tokens at a rate whose millionfold fits. -/
theorem million_tokens_exact {r : Decimal} (h : Representable (10 ^ 6 * r.val)) :
    bill A 1000000 r = some r := by
  unfold bill
  rw [mul_exact A (x := ⟨10 ^ 6 * r.val, h⟩) (by norm_num) (by norm_num), Option.bind_some]
  apply div_exact
  show 10 ^ 6 * r.val / 10 ^ 6 = r.val
  field_simp

/-- One token at a rate within a million costs at most one unit either way. -/
theorem one_token_bounds {r : Decimal} (h : |r.val| ≤ 10 ^ 6) :
    ∃ c, bill A 1 r = some c ∧ -1 ≤ c.val ∧ c.val ≤ 1 := by
  unfold bill
  rw [mul_exact A (x := r) (by norm_num) (by norm_num), Option.bind_some]
  obtain ⟨c, hc⟩ := A.div_rounded.returns (r, ⟨tokensPerMillion, tokensPerMillion_ne_zero⟩) (by
    show |r.val / tokensPerMillion.val| ≤ maxDecimal
    rw [tokensPerMillion_val, abs_div]
    have hsmall : |r.val| / |(10 : ℚ) ^ 6| ≤ 1 := by
      rw [abs_of_pos (by positivity : (0 : ℚ) < 10 ^ 6)]
      exact (div_le_one (by positivity)).mpr h
    exact hsmall.trans (by norm_num [maxDecimal]))
  have hunit : ∀ s : ℤ, |s| = 1 → ∃ million unit : Decimal, million.val = s * 10 ^ 6 ∧
      unit.val = s ∧ A.div million tokensPerMillion = some unit := by
    intro s hs
    have hmant : |s * 1000000| < 2 ^ 96 := by
      rw [abs_mul, hs]
      norm_num
    have hmillion := Decimal.new_val hmant (s := 0) (by omega)
    have hunit := Decimal.new_val (m := s) (by rw [hs]; norm_num) (s := 0) (by omega)
    refine ⟨.new (s * 1000000) 0, .new s 0, ?_, ?_, ?_⟩
    · rw [hmillion]
      norm_num
    · rw [hunit]
      norm_num
    · apply div_exact
      rw [hmillion, hunit]
      norm_num
  obtain ⟨million, unit, hmillion, hval, hdiv⟩ := hunit 1 (by norm_num)
  obtain ⟨million', unit', hmillion', hval', hdiv'⟩ := hunit (-1) (by norm_num)
  obtain ⟨hlow, hhigh⟩ := abs_le.mp h
  refine ⟨c, hc, ?_, ?_⟩
  · have := div_mono A (by rw [hmillion']; push_cast; linarith) hdiv' hc
    rw [hval'] at this
    push_cast at this
    linarith
  · have := div_mono A (by rw [hmillion]; push_cast; linarith) hc hdiv
    rw [hval] at this
    push_cast at this
    linarith

/-- A rate that never bills more than another is at most the other. One token
or a million tells them apart, whichever the format holds exactly. -/
theorem rate_le_of_bills {x y : Decimal}
    (h : ∀ n c c', bill A n x = some c → bill A n y = some c' → c.val ≤ c'.val) :
    x.val ≤ y.val := by
  have hmillion : Representable (10 ^ 6 * x.val) → Representable (10 ^ 6 * y.val) →
      x.val ≤ y.val := fun hx hy =>
    h _ x y (million_tokens_exact A hx) (million_tokens_exact A hy)
  have hone : Representable (x.val / 10 ^ 6) → Representable (y.val / 10 ^ 6) → x.val ≤ y.val := by
    intro hx hy
    have hle : x.val / 10 ^ 6 ≤ y.val / 10 ^ 6 :=
      h _ _ _ (one_token_exact A hx) (one_token_exact A hy)
    exact (div_le_div_iff_of_pos_right (by norm_num)).mp hle
  rcases x.mul_million with hx | ⟨hx, hxbig⟩
  · rcases y.mul_million with hy | ⟨hy, hybig⟩
    · exact hmillion hx hy
    · rcases x.div_million with hx | hxsmall
      · exact hone hx hy
      · -- `y` is far from zero and `x` near it, so their bills are on the same sides.
        obtain ⟨c, hc, hlow, -⟩ := one_token_bounds A hxsmall
        have hle : c.val ≤ y.val / 10 ^ 6 := h _ _ _ hc (one_token_exact A hy)
        obtain ⟨-, hxhigh⟩ := abs_le.mp hxsmall
        rcases le_abs.mp hybig with hpos | hneg
        · linarith
        · exfalso
          have : y.val / 10 ^ 6 ≤ -2 := by
            rw [div_le_iff₀ (by norm_num)]
            linarith
          linarith
  · rcases y.div_million with hy | hysmall
    · exact hone hx hy
    · obtain ⟨c, hc, -, hhigh⟩ := one_token_bounds A hysmall
      have hle : x.val / 10 ^ 6 ≤ c.val := h _ _ _ (one_token_exact A hx) hc
      obtain ⟨hylow, -⟩ := abs_le.mp hysmall
      rcases le_abs.mp hxbig with hpos | hneg
      · exfalso
        have : 2 ≤ x.val / 10 ^ 6 := by
          rw [le_div_iff₀ (by norm_num)]
          linarith
        linarith
      · linarith

/-- One pricing never bills more than another exactly when it has no dearer rate. -/
theorem costs_le_iff (p q : Pricing) :
    (∀ usage c c', p.cost A usage = some c → q.cost A usage = some c' → c.val ≤ c'.val) ↔
      ∀ kind, (p.rate kind).val ≤ (q.rate kind).val := by
  constructor
  · intro h kind
    apply rate_le_of_bills A
    intro n c c' hc hc'
    rw [← cost_only] at hc hc'
    exact h _ c c' hc hc'
  · intro h usage c c' hc hc'
    exact cost_mono A h hc hc'

namespace RoutingPolicy

open TierLadder (floorRank)

/-- The first capable model of the most capable rung that has a rank. -/
def CeilingPick (policy : RoutingPolicy) (catalog : Catalog) (need : Requirements)
    (spec : ModelSpec) : Prop :=
  policy.FirstCapable catalog need (min (policy.ladder.rungs.length - 1) 255) spec

/-- The dearer, by input plus output, of the dearest served model and the
ceiling's; the served one where they tie. -/
def IsBaseline (policy : RoutingPolicy) (catalog : Catalog) (served : List String)
    (need : Requirements) (spec : ModelSpec) : Prop :=
  (catalog.Dearest served need spec ∧
    ∀ other, policy.CeilingPick catalog need other → other.price ≤ spec.price) ∨
  (policy.CeilingPick catalog need spec ∧
    ∀ other, catalog.Dearest served need other → other.price < spec.price)

theorem pick_ceiling_eq_some_iff (policy : RoutingPolicy) (catalog : Catalog) (need : Requirements)
    (spec : ModelSpec) :
    policy.ladder.pick policy.ladder.ceiling catalog need = some spec ↔
      policy.CeilingPick catalog need spec := by
  have hrank : policy.ladder.ceiling.rank.val = min (policy.ladder.rungs.length - 1) 255 := by
    unfold TierLadder.ceiling
    by_cases h : policy.ladder.rungs.length - 1 < 256
    · rw [(u8TryFrom_eq_some_iff (r := ⟨_, h⟩)).mpr rfl]
      show policy.ladder.rungs.length - 1 = _
      omega
    · rw [u8TryFrom_eq_none_iff.mpr (not_lt.mp h)]
      show 255 = _
      omega
  unfold CeilingPick
  rw [pick_eq_some_iff, hrank]

theorem baseline_eq_some_iff (policy : RoutingPolicy) (catalog : Catalog) (served : List String)
    (need : Requirements) (spec : ModelSpec) :
    policy.baseline catalog served need = some spec ↔
      policy.IsBaseline catalog served need spec := by
  unfold IsBaseline baseline
  simp only [← Catalog.dearestServed_eq_some_iff, ← pick_ceiling_eq_some_iff]
  cases catalog.dearestServed served need with
  | none =>
    cases policy.ladder.pick policy.ladder.ceiling catalog need with
    | none => simp
    | some ladderSpec => simp
  | some servedSpec =>
    cases policy.ladder.pick policy.ladder.ceiling catalog need with
    | none => simp
    | some ladderSpec =>
      by_cases h : servedSpec.price < ladderSpec.price
      · simp only [h, if_true, Option.some.injEq]
        constructor
        · intro heq
          subst heq
          exact Or.inr ⟨rfl, fun other hother => hother ▸ h⟩
        · intro hor
          rcases hor with ⟨heq, hle⟩ | ⟨heq, -⟩
          · subst heq
            exact absurd h (not_lt.mpr (hle ladderSpec rfl))
          · exact heq
      · simp only [h, if_false, Option.some.injEq]
        constructor
        · intro heq
          subst heq
          exact Or.inl ⟨rfl, fun other hother => hother ▸ not_lt.mp h⟩
        · intro hor
          rcases hor with ⟨heq, -⟩ | ⟨heq, hlt⟩
          · exact heq
          · subst heq
            exact absurd (hlt servedSpec rfl) h

/-- A managed request never costs more than its baseline would have exactly
when no rate of the model it is decided onto is above the baseline's. -/
theorem savings_nonneg_iff (policy : RoutingPolicy) (mode : RoutingMode)
    (requestedModel : Option String) (signal : RequestSignal) (budget : Budgets) (catalog : Catalog)
    (maxOutputTokens : ℕ) (served : List String)
    (hmanaged : ¬ (mode = .passthrough ∧ requestedModel.isSome)) :
    (∀ d baseline,
      policy.decide mode requestedModel signal budget catalog maxOutputTokens served = .ok d →
      d.ceilingModel = some baseline →
      ∀ usage c c', d.model.pricing.cost A usage = some c →
        counterfactual A usage baseline = some c' → c.val ≤ c'.val) ↔
      budget.pressure = .exhausted ∨
      ∀ r model baseline,
        policy.Lowest catalog (signal.requirements maxOutputTokens)
          (policy.startRank signal budget.pressure) r model →
        policy.IsBaseline catalog served (signal.requirements maxOutputTokens) baseline →
        ∀ kind, (model.pricing.rate kind).val ≤ (baseline.pricing.rate kind).val := by
  by_cases hpressure : budget.pressure = .exhausted
  · refine ⟨fun _ => Or.inl hpressure, ?_⟩
    intro _ d baseline hd
    unfold decide at hd
    rw [if_pos hpressure] at hd
    cases hd
  · rw [decide_managed_eq hpressure hmanaged, or_iff_right hpressure]
    generalize signal.requirements maxOutputTokens = need
    rcases policy.decideManaged_resolves catalog need signal budget.pressure
      (policy.baseline catalog served need) with ⟨d, tier, hd, -, hceiling, hlow⟩ | ⟨herr, hnone⟩
    · rw [hd]
      constructor
      · intro h r model baseline hmodel hbaseline
        obtain ⟨-, rfl⟩ := hlow.unique hmodel
        apply (costs_le_iff A _ _).mp
        exact h d baseline rfl
          (hceiling.trans ((policy.baseline_eq_some_iff catalog served need baseline).mpr hbaseline))
      · intro h d' baseline hd' hbaseline
        obtain rfl : d = d' := Except.ok.inj hd'
        apply (costs_le_iff A _ _).mpr
        exact h _ _ baseline hlow
          ((policy.baseline_eq_some_iff catalog served need baseline).mp (hceiling.symm.trans hbaseline))
    · rw [herr]
      constructor
      · intro _ r model baseline hmodel
        exact absurd hnone hmodel.not_noneFrom
      · intro _ d baseline hd
        cases hd

/-- A cheap model without a cache rate of its own. -/
def cachelessModel : ModelSpec :=
  { onlyModel with
    id := "kimi/k2"
    provider := .kimi
    upstreamName := "k2"
    pricing := ⟨.new 6 1, .new 25 1, none, none⟩ }

def cachelessCatalog : Catalog := Catalog.fromEntries [cachelessModel, onlyModel]

/-- A million tokens of input at 0.6 against 5. -/
theorem savings_nonneg_cacheless :
    ∃ d c c', twoRungs.decide .managed none {} noBudget cachelessCatalog 100 [] = .ok d ∧
      d.model = cachelessModel ∧ d.ceilingModel = some onlyModel ∧
      d.model.pricing.cost Arithmetic.down { inputTokens := 1000000 } = some c ∧
      counterfactual Arithmetic.down { inputTokens := 1000000 } onlyModel = some c' ∧
      c.val ≤ c'.val := by
  have hcost : cachelessModel.pricing.cost Arithmetic.down { inputTokens := 1000000 } =
      some (Decimal.new 6 1) := by
    refine (cost_only Arithmetic.down cachelessModel.pricing .input 1000000).trans ?_
    exact million_tokens_exact _ ⟨600000, 0, by decide, by decide, by
      norm_num [Pricing.rate, cachelessModel, Decimal.new]⟩
  have hother : counterfactual Arithmetic.down { inputTokens := 1000000 } onlyModel =
      some (Decimal.new 5 0) := by
    refine (cost_only Arithmetic.down onlyModel.pricing .input 1000000).trans ?_
    exact million_tokens_exact _ ⟨5000000, 0, by decide, by decide, by
      norm_num [Pricing.rate, onlyModel, Decimal.new]⟩
  have hrates : ∀ kind,
      (cachelessModel.pricing.rate kind).val ≤ (onlyModel.pricing.rate kind).val := by
    intro kind
    cases kind <;> norm_num [Pricing.rate, cachelessModel, onlyModel, Decimal.new]
  obtain ⟨d, hd, hmodel, hceiling⟩ :
      ∃ d, twoRungs.decide .managed none {} noBudget cachelessCatalog 100 [] = .ok d ∧
        d.model = cachelessModel ∧ d.ceilingModel = some onlyModel := ⟨_, rfl, rfl, rfl⟩
  refine ⟨d, _, _, hd, hmodel, hceiling, hmodel ▸ hcost, hother, ?_⟩
  refine (savings_nonneg_iff Arithmetic.down twoRungs .managed none {} noBudget cachelessCatalog 100
    [] (by simp)).mpr (Or.inr ?_) d onlyModel hd hceiling _ _ _ (hmodel ▸ hcost) hother
  intro r model baseline hlow hbaseline
  have hbase : some onlyModel = some baseline :=
    (twoRungs.baseline_eq_some_iff cachelessCatalog [] _ baseline).mpr hbaseline
  obtain ⟨rung, -, before, id, after, -, hget, -⟩ := hlow.first
  have hmem : model ∈ [onlyModel, cachelessModel] :=
    ((cachelessCatalog.get_eq_some_iff id model).mp hget).1
  rw [← Option.some.inj hbase]
  rcases List.mem_pair.mp hmem with rfl | rfl
  · intro kind
    exact le_refl _
  · exact hrates

/-- A dear model whose cache reads cost a tenth of its input. -/
def cachedModel : ModelSpec :=
  { onlyModel with
    pricing := ⟨.new 5 0, .new 25 0, some (.new 5 1), some (.new 625 2)⟩ }

def cachedCatalog : Catalog := Catalog.fromEntries [cachelessModel, cachedModel]

/-- A million cache reads cost 0.6 where they went and would have cost 0.5 on the baseline. -/
theorem cache_reads_cost_more_than_baseline :
    (twoRungs.decide .managed none {} noBudget cachedCatalog 100 []).toOption.map
        (fun d => (d.model, d.ceilingModel)) = some (cachelessModel, some cachedModel) ∧
      cachelessModel.pricing.cost Arithmetic.down { cacheReadTokens := 1000000 } =
        some (Decimal.new 6 1) ∧
      counterfactual Arithmetic.down { cacheReadTokens := 1000000 } cachedModel =
        some (Decimal.new 5 1) ∧
      (Decimal.new 5 1).val < (Decimal.new 6 1).val := by
  refine ⟨rfl, ?_, ?_, by norm_num [Decimal.new]⟩
  · refine (cost_only Arithmetic.down cachelessModel.pricing .cacheRead 1000000).trans ?_
    exact million_tokens_exact _ ⟨600000, 0, by decide, by decide, by
      norm_num [Pricing.rate, cachelessModel, Decimal.new]⟩
  · refine (cost_only Arithmetic.down cachedModel.pricing .cacheRead 1000000).trans ?_
    exact million_tokens_exact _ ⟨500000, 0, by decide, by decide, by
      norm_num [Pricing.rate, cachedModel, Decimal.new]⟩

end RoutingPolicy

end OpenAIGateway
