import OpenAIGateway.ManagedRouting

/-!
The pin of a virtual name against the decision. The pin is read off the rungs
the name stands for; the decision starts where floor, classification and
budget put it and passes over models that cannot serve the request.
-/

set_option linter.all false

namespace OpenAIGateway.RoutingPolicy

/-- The rungs a virtual name stands for. -/
def namedRungs (policy : RoutingPolicy) (rung : Option TierName) (pressure : BudgetPressure) :
    List TierName :=
  match rung with
  | some name => [name]
  | none => policy.virtualNames pressure

theorem eq_of_sole {models : List ModelId} {m id : ModelId} (h : sole models = some m)
    (hid : id ∈ models) : id = m := by
  cases models with
  | nil => cases hid
  | cons first models =>
    rw [sole] at h
    by_cases hall : models.all (fun m => m == first) = true
    · rw [if_pos hall, Option.some.injEq] at h
      rw [← h]
      rcases List.mem_cons.mp hid with hid | hid
      · exact hid
      · simpa using List.all_eq_true.mp hall id hid
    · rw [if_neg hall] at h
      cases h

/-- Every model on a rung the name stands for is the pinned one. -/
theorem eq_of_pinnedModel {policy : RoutingPolicy} {rung : Option TierName}
    {pressure : BudgetPressure} {m : ModelId} (h : policy.pinnedModel rung pressure = some m)
    {r : Rung} (hr : r ∈ policy.ladder.rungs) (hname : r.name ∈ policy.namedRungs rung pressure)
    {id : ModelId} (hid : id ∈ r.models) : id = m := by
  have hpin : sole ((policy.ladder.rungs.filter
      (fun r => (policy.namedRungs rung pressure).contains r.name)).flatMap Rung.models) = some m := by
    cases rung <;> exact h
  apply eq_of_sole hpin
  exact List.mem_flatMap.mpr ⟨r, List.mem_filter.mpr ⟨hr, by simpa using hname⟩, hid⟩

/-- Of two places of a list, the one whose entry does not come before the other is after it. -/
theorem mem_before {α : Type*} {before before' after after' : List α} {x y : α}
    (h : before ++ x :: after = before' ++ y :: after') (hne : y ≠ x) (hy : y ∉ before) :
    x ∈ before' := by
  rcases List.append_eq_append_iff.mp h with ⟨cut, hbefore, htail⟩ | ⟨cut, hbefore, htail⟩
  · cases cut with
    | nil => exact absurd (List.cons.inj htail).1.symm hne
    | cons c cut =>
      rw [hbefore, (List.cons.inj htail).1]
      simp
  · cases cut with
    | nil => exact absurd (List.cons.inj htail).1 hne
    | cons c cut =>
      rw [hbefore, (List.cons.inj htail).1] at hy
      exact absurd (by simp) hy

/-- From `start` up, a capable model on a rung the name does not stand for
comes only after the pinned model, which is capable itself. -/
def PinComesFirst (policy : RoutingPolicy) (catalog : Catalog) (need : Requirements)
    (names : List TierName) (m : ModelId) (start : ℕ) : Prop :=
  ∀ r rung before id after, start ≤ r → r < 256 → policy.ladder.rungs[r]? = some rung →
    rung.name ∉ names → rung.models = before ++ id :: after → Capable catalog need id → id ≠ m →
    Capable catalog need m ∧ (m ∈ before ∨
      ∃ r' rung', start ≤ r' ∧ r' < r ∧ policy.ladder.rungs[r']? = some rung' ∧ m ∈ rung'.models)

/-- Under a pinned name a request is decided onto the pinned model exactly when
the walk from its start rung meets no other capable model before it. -/
theorem pinnedModel_served_iff (policy : RoutingPolicy) (catalog : Catalog)
    (rung : Option TierName) (m : ModelId) (signal : RequestSignal) (budget : Budgets)
    (maxOutputTokens : ℕ) (served : List String)
    (hpin : policy.pinnedModel rung budget.pressure = some m) :
    (∀ d, policy.decide .managed (some (virtualName rung))
        (policy.requestFor (virtualName rung) signal) budget catalog maxOutputTokens served = .ok d →
      d.model.id = m) ↔
      budget.pressure = .exhausted ∨
      policy.PinComesFirst catalog (signal.requirements maxOutputTokens)
        (policy.namedRungs rung budget.pressure) m
        (policy.startRank (policy.requestFor (virtualName rung) signal) budget.pressure) := by
  by_cases hpressure : budget.pressure = .exhausted
  · refine ⟨fun _ => Or.inl hpressure, ?_⟩
    intro _ d hd
    unfold decide at hd
    rw [if_pos hpressure] at hd
    cases hd
  · rw [decide_managed_eq hpressure (by simp), or_iff_right hpressure]
    have hneed : (policy.requestFor (virtualName rung) signal).requirements maxOutputTokens =
        signal.requirements maxOutputTokens := rfl
    rw [hneed]
    generalize policy.requestFor (virtualName rung) signal = request
    generalize signal.requirements maxOutputTokens = need
    rcases policy.decideManaged_resolves catalog need request budget.pressure
      (policy.baseline catalog served need) with ⟨d, tier, hd, -, -, hlow⟩ | ⟨herr, hnone⟩
    · obtain ⟨low, hlowRung, before₀, id₀, after₀, hsplit, hget, hsat, hbefore⟩ := hlow.first
      have hid₀ : d.model.id = id₀ := Catalog.id_eq_of_get hget
      rw [hd]
      constructor
      · intro h r rung' before id after hle hlt hrung _ heq hcap hne
        obtain rfl : id₀ = m := hid₀.symm.trans (h d rfl)
        refine ⟨⟨d.model, hget, hsat⟩, ?_⟩
        by_cases hr : tier.rank.val = r
        · subst hr
          obtain rfl : low = rung' := Option.some.inj (hlowRung.symm.trans hrung)
          exact Or.inl (mem_before (hsplit.symm.trans heq) hne (fun hmem => hbefore id hmem hcap))
        · by_cases hbelow : tier.rank.val < r
          · exact Or.inr ⟨tier.rank.val, low, hlow.start_le, hbelow, hlowRung, by rw [hsplit]; simp⟩
          · exact absurd ⟨rung', hrung, id, by rw [heq]; simp, hcap⟩
              (hlow.below r hle (by omega))
      · intro h d' hd'
        obtain rfl : d = d' := Except.ok.inj hd'
        by_contra hne
        rw [hid₀] at hne
        have hmem : id₀ ∈ low.models := by rw [hsplit]; simp
        have hunnamed : low.name ∉ policy.namedRungs rung budget.pressure := fun hname =>
          hne (eq_of_pinnedModel hpin (List.mem_of_getElem? hlowRung) hname hmem)
        obtain ⟨hcap, hm | ⟨r', rung', hle, hlt, hrung', hm⟩⟩ := h tier.rank.val low before₀ id₀ after₀
          hlow.start_le hlow.rank_lt hlowRung hunnamed hsplit ⟨d.model, hget, hsat⟩ hne
        · exact hbefore m hm hcap
        · exact hlow.below r' hle hlt ⟨rung', hrung', m, hm, hcap⟩
    · rw [herr]
      constructor
      · intro _ r rung' before id after hle hlt hrung _ heq hcap _
        exact absurd ⟨rung', hrung, id, by rw [heq]; simp, hcap⟩ (hnone r hle hlt)
      · intro _ d hd
        cases hd

theorem pinnedModel_served_frontier :
    shortPolicy.pinnedModel (some "frontier") noBudget.pressure = some "anthropic/opus" ∧
      ∀ d, shortPolicy.decide .managed (some "oag/frontier")
        (shortPolicy.requestFor "oag/frontier" {}) noBudget onlyCatalog 100 [] = .ok d →
        d.model.id = "anthropic/opus" := by
  have hpin : shortPolicy.pinnedModel (some "frontier") noBudget.pressure = some "anthropic/opus" := by
    decide +kernel
  refine ⟨hpin, (pinnedModel_served_iff shortPolicy onlyCatalog (some "frontier") _ {} noBudget 100 []
    hpin).mpr (Or.inr ?_)⟩
  intro r rung before id after _ _ hrung hname heq _ _
  match r with
  | 0 =>
    cases hrung
    simp at heq
  | 1 =>
    cases hrung
    exact absurd (List.mem_singleton.mpr rfl) hname
  | r + 2 => cases hrung

/-- A model with a window of 8,000 tokens. -/
def smallModel : ModelSpec :=
  { onlyModel with id := "kimi/k2", provider := .kimi, upstreamName := "k2", contextWindow := 8000 }

def steppedCatalog : Catalog := Catalog.fromEntries [smallModel, onlyModel]

/-- `oag/cheap` is pinned to the small model, and a long prompt under it goes to the large one. -/
theorem pinned_model_is_passed_over :
    twoRungs.virtualNames noBudget.pressure = ["cheap", "frontier"] ∧
      twoRungs.pinnedModel (some "cheap") noBudget.pressure = some "kimi/k2" ∧
      (twoRungs.decide .managed (some "oag/cheap")
        (twoRungs.requestFor "oag/cheap" { promptTokens := 9000 }) noBudget steppedCatalog 100
        []).toOption.map (fun d => d.model.id) = some "anthropic/opus" :=
  ⟨by decide +kernel, by decide +kernel, by decide +kernel⟩

end OpenAIGateway.RoutingPolicy
