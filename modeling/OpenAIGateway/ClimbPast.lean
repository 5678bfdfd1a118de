import OpenAIGateway.Escalation
import OpenAIGateway.ManagedRouting

/-!
The climb past a provider. Every pass asks the walk up for the next rung with a
capable model and that rung for a model of another provider, so the climb ends
on the first rung above its start that has one, as far as ranks reach.
-/

set_option linter.all false

namespace OpenAIGateway.RoutingPolicy

/-- A model of another provider than the one to avoid. -/
def elsewhere (avoid : Provider) (spec : ModelSpec) : Bool := spec.provider != avoid

variable {policy : RoutingPolicy} {catalog : Catalog} {need : Requirements} {avoid : Provider}

theorem HasWhere.hasCapable {also : ModelSpec → Bool} {r : ℕ}
    (h : policy.HasWhere catalog need also r) : policy.HasCapable catalog need r := by
  obtain ⟨rung, hrung, id, hid, spec, hget, hspec, -⟩ := h
  exact ⟨rung, hrung, id, hid, spec, hget, hspec⟩

theorem FirstWhere.passes {also : ModelSpec → Bool} {r : ℕ} {spec : ModelSpec}
    (h : policy.FirstWhere catalog need also r spec) :
    also spec = true ∧ policy.HasWhere catalog need also r := by
  obtain ⟨rung, hrung, before, id, after, heq, hget, ⟨hspec, halso⟩, -⟩ := h
  exact ⟨halso, rung, hrung, id, by rw [heq]; simp, spec, hget, hspec, halso⟩

/-- A first capable model that passes is the first of those that pass. -/
theorem FirstCapable.where {also : ModelSpec → Bool} {r : ℕ} {spec : ModelSpec}
    (h : policy.FirstCapable catalog need r spec) (halso : also spec = true) :
    policy.FirstWhere catalog need also r spec := by
  obtain ⟨rung, hrung, before, id, after, heq, hget, hspec, hbefore⟩ := h
  refine ⟨rung, hrung, before, id, after, heq, hget, ⟨hspec, halso⟩, ?_⟩
  rintro other hother ⟨spec', hget', hspec', -⟩
  exact hbefore other hother ⟨spec', hget', hspec'⟩

/-- One rung up: the first capable model of the lowest rung above, or there is none. -/
theorem escalate_cases (policy : RoutingPolicy) (signal : RequestSignal) (catalog : Catalog)
    (maxOutputTokens : ℕ) (served : List String) (start : Tier) (gate : QualityGate) :
    (∃ d tier, policy.escalate signal catalog maxOutputTokens served start gate = some d ∧
      d.tier = some tier ∧ policy.Lowest catalog (signal.requirements maxOutputTokens)
        (start.rank.val + 1) tier.rank.val d.model) ∨
    (policy.escalate signal catalog maxOutputTokens served start gate = none ∧
      policy.NoneFrom catalog (signal.requirements maxOutputTokens) (start.rank.val + 1)) := by
  unfold escalate
  cases hnext : policy.ladder.escalate start with
  | none =>
    refine Or.inr ⟨rfl, ?_⟩
    intro r hle hlt hcap
    obtain ⟨rung, hrung, -⟩ := hcap
    have hlen := (List.getElem?_eq_some_iff.mp hrung).1
    have htop := (policy.ladder.escalate_eq_none_iff start).mp hnext
    omega
  | some next =>
    obtain ⟨rung, -, -, hrank⟩ := (policy.ladder.escalate_eq_some_iff start next).mp hnext
    rw [Option.bind_some, ← hrank]
    rcases policy.resolveFrom_resolves catalog (signal.requirements maxOutputTokens) next
      (.escalated start.name gate) (policy.baseline catalog served
        (signal.requirements maxOutputTokens)) with ⟨d, tier, hd, htier, -, hlow⟩ | ⟨herr, hnone⟩
    · exact Or.inl ⟨d, tier, congrArg Except.toOption hd, htier, hlow⟩
    · exact Or.inr ⟨congrArg Except.toOption herr, hnone⟩

/-- What the rung a pass came to is asked once more: it keeps its rung, and it
has a model of another provider exactly when the rung does, then the first. -/
theorem preferAnother_cases (avoid : Provider) (signal : RequestSignal) {maxOutputTokens : ℕ}
    {d : RoutingDecision} {tier : Tier} (htier : d.tier = some tier)
    (hfirst : policy.FirstCapable catalog (signal.requirements maxOutputTokens) tier.rank.val
      d.model) :
    let next := policy.preferAnother signal catalog maxOutputTokens avoid d
    next.tier = some tier ∧
      ((next.model.provider ≠ avoid ∧ policy.FirstWhere catalog
          (signal.requirements maxOutputTokens) (elsewhere avoid) tier.rank.val next.model) ∨
        (next.model.provider = avoid ∧ ¬ policy.HasWhere catalog
          (signal.requirements maxOutputTokens) (elsewhere avoid) tier.rank.val)) := by
  intro next
  by_cases hsame : d.model.provider = avoid
  · cases hpick : policy.ladder.pickWhere tier catalog (signal.requirements maxOutputTokens)
      (fun spec => spec.provider != avoid) with
    | some spec =>
      have hnext : next = { d with model := spec } := by
        simp only [next, preferAnother, if_pos hsame, htier, Option.bind_some, hpick]
      have hspec := pickWhere_eq_some_iff.mp hpick
      rw [hnext]
      exact ⟨htier, Or.inl ⟨bne_iff_ne.mp hspec.passes.1, hspec⟩⟩
    | none =>
      have hnext : next = d := by
        simp only [next, preferAnother, if_pos hsame, htier, Option.bind_some, hpick]
      rw [hnext]
      exact ⟨htier, Or.inr ⟨hsame, pickWhere_eq_none_iff.mp hpick⟩⟩
  · have hnext : next = d := by
      unfold next preferAnother
      rw [if_neg hsame]
    rw [hnext]
    exact ⟨htier, Or.inl ⟨hsame, hfirst.where (bne_iff_ne.mpr hsame)⟩⟩

/-- What the climb from a rung comes to: the first model of another provider on
the lowest rung above that has one, under the rung the request left; or no such
rung, as far as ranks reach. -/
def ClimbsPast (policy : RoutingPolicy) (catalog : Catalog) (need : Requirements) (avoid : Provider)
    (origin : TierName) (start : ℕ) (result : Option RoutingDecision) : Prop :=
  (∃ d tier, result = some d ∧ d.tier = some tier ∧ start < tier.rank.val ∧
    policy.FirstWhere catalog need (elsewhere avoid) tier.rank.val d.model ∧
    (∀ r, start < r → r < tier.rank.val → ¬ policy.HasWhere catalog need (elsewhere avoid) r) ∧
    d.reason = .escalated origin .noCredential) ∨
  (result = none ∧
    ∀ r, start < r → r < 256 → ¬ policy.HasWhere catalog need (elsewhere avoid) r)

/-- A climb from a rung above `start` is one from `start`, when nothing between serves. -/
theorem ClimbsPast.of_above {origin : TierName} {start cursor : ℕ}
    {result : Option RoutingDecision} (hle : start ≤ cursor)
    (hskip : ∀ r, start < r → r ≤ cursor → ¬ policy.HasWhere catalog need (elsewhere avoid) r)
    (h : ClimbsPast policy catalog need avoid origin cursor result) :
    ClimbsPast policy catalog need avoid origin start result := by
  rcases h with ⟨d, tier, hresult, htier, hlt, hfirst, hbelow, hreason⟩ | ⟨hresult, hnone⟩
  · refine Or.inl ⟨d, tier, hresult, htier, by omega, hfirst, ?_, hreason⟩
    intro r hr hrt
    by_cases hcursor : r ≤ cursor
    · exact hskip r hr hcursor
    · exact hbelow r (by omega) hrt
  · refine Or.inr ⟨hresult, ?_⟩
    intro r hr hlt
    by_cases hcursor : r ≤ cursor
    · exact hskip r hr hcursor
    · exact hnone r (by omega) hlt

/-- The climb, by induction on the ranks that are left above its cursor. -/
theorem climbPast_climbs (policy : RoutingPolicy) (signal : RequestSignal) (catalog : Catalog)
    (maxOutputTokens : ℕ) (served : List String) (origin : Tier) (avoid : Provider) {passes : ℕ}
    {cursor : Tier} (hpasses : 256 - cursor.rank.val ≤ passes) :
    ClimbsPast policy catalog (signal.requirements maxOutputTokens) avoid origin.name
      cursor.rank.val
      (policy.climbPast signal catalog maxOutputTokens served origin avoid passes cursor) := by
  induction passes generalizing cursor with
  | zero =>
    have := cursor.rank.isLt
    omega
  | succ passes ih =>
    unfold climbPast
    rcases policy.escalate_cases signal catalog maxOutputTokens served cursor .noCredential with
      ⟨d, tier, hd, htier, hlow⟩ | ⟨hnone, hempty⟩
    · have habove := hlow.start_le
      have hbetween : ∀ r, cursor.rank.val < r → r < tier.rank.val → ¬ policy.HasWhere catalog
          (signal.requirements maxOutputTokens) (elsewhere avoid) r := by
        intro r hr hlt hwhere
        exact hlow.below r hr hlt hwhere.hasCapable
      obtain ⟨hkept, hcases⟩ := preferAnother_cases avoid signal htier hlow.first
      rw [hd, Option.bind_some]
      rcases hcases with ⟨hother, hfirst⟩ | ⟨hsame, hnot⟩
      · rw [if_pos hother]
        exact Or.inl ⟨_, tier, rfl, hkept, habove, hfirst, hbetween, rfl⟩
      · -- The rung has only the provider to avoid, so the climb goes on from it.
        rw [if_neg (not_not.mpr hsame), hkept, Option.bind_some]
        apply ClimbsPast.of_above (by omega) _ (ih (by omega))
        intro r hr hle
        by_cases heq : r = tier.rank.val
        · rw [heq]
          exact hnot
        · exact hbetween r hr (by omega)
    · rw [hnone, Option.bind_none]
      refine Or.inr ⟨rfl, ?_⟩
      intro r hr hlt hwhere
      exact hempty r hr hlt hwhere.hasCapable

/-- Past a provider there is a decision exactly when a rung above the start,
with a rank, has a capable model of another provider. Then it is the first such
model of the lowest such rung, and the reason keeps the rung that was left. -/
theorem escalate_past_provider (policy : RoutingPolicy) (signal : RequestSignal)
    (catalog : Catalog) (maxOutputTokens : ℕ) (served : List String) (start : Tier)
    (avoid : Provider) :
    ((policy.escalatePastProvider signal catalog maxOutputTokens served start avoid).isSome ↔
      ∃ r, start.rank.val < r ∧ r < 256 ∧ policy.HasWhere catalog
        (signal.requirements maxOutputTokens) (elsewhere avoid) r) ∧
    ∀ d, policy.escalatePastProvider signal catalog maxOutputTokens served start avoid = some d →
      ∃ tier, d.tier = some tier ∧ start.rank.val < tier.rank.val ∧
        policy.FirstWhere catalog (signal.requirements maxOutputTokens) (elsewhere avoid)
          tier.rank.val d.model ∧
        (∀ r, start.rank.val < r → r < tier.rank.val → ¬ policy.HasWhere catalog
          (signal.requirements maxOutputTokens) (elsewhere avoid) r) ∧
        d.reason = .escalated start.name .noCredential := by
  unfold escalatePastProvider
  rcases policy.climbPast_climbs signal catalog maxOutputTokens served start avoid (le_refl _) with
    ⟨d, tier, hd, htier, hlt, hfirst, hbelow, hreason⟩ | ⟨hnone, hempty⟩
  · rw [hd]
    refine ⟨⟨fun _ => ⟨tier.rank.val, hlt, tier.rank.isLt, hfirst.passes.2⟩, fun _ => rfl⟩, ?_⟩
    intro d' hd'
    obtain rfl : d = d' := Option.some.inj hd'
    exact ⟨tier, htier, hlt, hfirst, hbelow, hreason⟩
  · rw [hnone]
    constructor
    · constructor
      · intro h
        cases h
      · rintro ⟨r, hr, hlt, hwhere⟩
        exact absurd hwhere (hempty r hr hlt)
    · intro d hd
      cases hd

/-- The climb ends at the last rank, below a rung that another provider could serve. -/
theorem other_provider_beyond_ranks :
    longPolicy.escalatePastProvider {} onlyCatalog 100 [] longPolicy.ladder.floor .kimi = none ∧
      longPolicy.ladder.floor.rank.val < 256 ∧
      longPolicy.HasWhere onlyCatalog (RequestSignal.requirements {} 100) (elsewhere .kimi) 256 := by
  refine ⟨?_, Fin.isLt _, ?_⟩
  · have hspec := escalate_past_provider longPolicy {} onlyCatalog 100 [] longPolicy.ladder.floor
      .kimi
    rw [← Option.not_isSome_iff_eq_none, hspec.1]
    rintro ⟨r, -, hlt, hwhere⟩
    exact longPolicy_empty hlt hwhere.hasCapable
  · exact ⟨_, longPolicy_top, "anthropic/opus", List.mem_singleton.mpr rfl, onlyModel, rfl, rfl, rfl⟩

end OpenAIGateway.RoutingPolicy
