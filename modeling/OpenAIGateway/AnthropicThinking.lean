import OpenAIGateway.AnthropicRequest

/-!
The thinking an Anthropic request asks for. A model takes either a budget or an
effort, and what is rendered is one of the two or neither: a budget inside the
vendor's bounds, or one of the vendor's words.
-/

set_option linter.all false

namespace OpenAIGateway.AnthropicRequest

/-- The levels of this vendor. -/
def effortWords : List String := ["low", "medium", "high", "xhigh", "max"]

/-- No budget above zero and no level but off. -/
def ThinkingOff (req : HubRequest) : Prop :=
  (∀ budget, req.thinkingBudget = some budget → budget = 0) ∧
    ∀ effort, req.thinkingEffort = some effort → effort = .off

theorem fromBudget_ne_off {budget : UInt32} (h : 0 < budget) : Effort.fromBudget budget ≠ .off := by
  unfold Effort.fromBudget
  have hne : budget ≠ 0 := by
    rintro rfl
    exact absurd h (by decide)
  rw [if_neg hne]
  split_ifs <;> exact Effort.noConfusion

/-- Thinking that is asked for has a level that is not off. -/
theorem effort_of_thinkingRequest {req : HubRequest} {budget : UInt32} {effort : Effort}
    (h : req.thinkingRequest = some (budget, effort)) : effort ≠ .off := by
  unfold HubRequest.thinkingRequest at h
  cases hbudget : req.thinkingBudget.filter (fun budget => 0 < budget) with
  | some asked =>
    rw [hbudget] at h
    cases h
    exact fromBudget_ne_off (of_decide_eq_true (Option.filter_eq_some_iff.mp hbudget).2)
  | none =>
    rw [hbudget] at h
    obtain ⟨level, hlevel, heq⟩ := Option.map_eq_some_iff.mp h
    cases heq
    exact of_decide_eq_true (Option.filter_eq_some_iff.mp hlevel).2

theorem thinkingRequest_of_off {req : HubRequest} (h : ThinkingOff req) :
    req.thinkingRequest = none := by
  have hbudget : req.thinkingBudget.filter (fun budget => 0 < budget) = none := by
    rw [Option.filter_eq_none_iff]
    intro budget hbudget hpos
    rw [h.1 budget hbudget] at hpos
    exact absurd hpos (by decide)
  have heffort : req.thinkingEffort.filter (fun effort => effort ≠ .off) = none := by
    rw [Option.filter_eq_none_iff]
    intro effort heffort hne
    exact of_decide_eq_true hne (h.2 effort heffort)
  unfold HubRequest.thinkingRequest
  rw [hbudget, heffort]
  rfl

theorem effortWord_mem {effort : Effort} (h : effort ≠ .off) : effortWord effort ∈ effortWords := by
  cases effort with
  | off => exact absurd rfl h
  | _ => decide

/-- A budget is at least the floor and strictly under the ceiling it counts against. -/
theorem anthropicBudget_bounds {req : HubRequest} {budget : UInt32}
    (h : anthropicBudget req = some budget) : 1024 ≤ budget ∧ budget < req.maxTokens := by
  obtain ⟨⟨asked, effort⟩, -, hbudget⟩ := Option.bind_eq_some_iff.mp h
  simp only at hbudget
  by_cases hzero : req.maxTokens = 0
  · rw [if_pos hzero] at hbudget
    cases hbudget
  · rw [if_neg hzero] at hbudget
    have hunder : req.maxTokens - 1 < req.maxTokens := by grind
    have hclamped : (if asked ≤ req.maxTokens - 1 then asked else req.maxTokens - 1) <
        req.maxTokens := by
      by_cases hle : asked ≤ req.maxTokens - 1
      · rw [if_pos hle]
        exact UInt32.lt_of_le_of_lt hle hunder
      · rw [if_neg hle]
        exact hunder
    by_cases hfloor : minThinkingBudget ≤
        if asked ≤ req.maxTokens - 1 then asked else req.maxTokens - 1
    · rw [if_pos hfloor, Option.some.injEq] at hbudget
      rw [hbudget] at hfloor hclamped
      exact ⟨hfloor, hclamped⟩
    · rw [if_neg hfloor] at hbudget
      cases hbudget

section Rendered

variable (req : HubRequest) (upstreamModel : String)

theorem lookup_thinking :
    (renderBody req upstreamModel).lookup "thinking" = (renderThinking req upstreamModel).1 := by
  simp (disch := decide) only [renderBody, Json.lookup_setSome_ne]
  refine Json.lookup_setSome_self ?_ _
  simp (disch := decide) only [Json.lookup_setSome_ne]
  rfl

theorem lookup_outputConfig :
    (renderBody req upstreamModel).lookup "output_config" = (renderThinking req upstreamModel).2 := by
  simp (disch := decide) only [renderBody, Json.lookup_setSome_ne]
  refine Json.lookup_setSome_self ?_ _
  simp (disch := decide) only [Json.lookup_setSome_ne]
  rfl

/-- What is rendered is nothing, a budget alone, or a level alone. -/
theorem renderThinking_cases :
    renderThinking req upstreamModel = (none, none) ∨
    (∃ budget, anthropicBudget req = some budget ∧ renderThinking req upstreamModel =
      (some (.obj [("type", .str "enabled"), ("budget_tokens", .u32 budget)]), none)) ∨
    ∃ budget effort, req.thinkingRequest = some (budget, effort) ∧
      renderThinking req upstreamModel = (some (.obj [("type", .str "adaptive")]),
        some (.obj [("effort", .str (effortWord effort))])) := by
  unfold renderThinking
  cases thinkingMode upstreamModel with
  | none => exact Or.inl rfl
  | some mode =>
    cases mode with
    | budget =>
      cases hbudget : anthropicBudget req with
      | none => exact Or.inl rfl
      | some budget => exact Or.inr (Or.inl ⟨budget, rfl, rfl⟩)
    | adaptive =>
      cases hrequest : req.thinkingRequest with
      | none => exact Or.inl rfl
      | some asked => exact Or.inr (Or.inr ⟨asked.1, asked.2, rfl, rfl⟩)

end Rendered

/-- Whatever budget is rendered is one the vendor takes under the ceiling that is
rendered beside it; a budget and a level are never both there; with thinking off
neither is; and a level is one of the vendor's words. -/
theorem thinking_is_legal (req : HubRequest) (upstreamModel : String) (body : Json)
    (hrender : renderRequest req upstreamModel = .ok body) :
    (∀ v, body["thinking"].get "budget_tokens" = some v → ∃ budget : UInt32, v = .u32 budget ∧
      body["max_tokens"] = .u32 req.maxTokens ∧ 1024 ≤ budget ∧ budget < req.maxTokens) ∧
    ¬ ((body["thinking"].get "budget_tokens").isSome ∧
      (body["thinking"].get "type" = some (.str "adaptive") ∨ (body.get "output_config").isSome)) ∧
    (ThinkingOff req → body.get "thinking" = none ∧ body.get "output_config" = none) ∧
    ∀ v, body["output_config"].get "effort" = some v → ∃ word ∈ effortWords, v = .str word := by
  obtain ⟨rfl, -, -⟩ := renderRequest_ok hrender
  have hthinking := lookup_thinking req upstreamModel
  have hconfig := lookup_outputConfig req upstreamModel
  have hmax : ((renderBody req upstreamModel).lookup "max_tokens").getD .null =
      .u32 req.maxTokens := by
    rw [lookup_maxTokens]
    rfl
  simp only [Json.getElem_obj]
  change _ ∧ ¬ (_ ∧ (_ ∨ ((renderBody req upstreamModel).lookup "output_config").isSome)) ∧
    (_ → (renderBody req upstreamModel).lookup "thinking" = none ∧
      (renderBody req upstreamModel).lookup "output_config" = none) ∧ _
  rw [hthinking, hconfig]
  rcases renderThinking_cases req upstreamModel with hnone | ⟨budget, hbudget, hone⟩ |
    ⟨asked, effort, hrequest, hone⟩
  · rw [hnone]
    refine ⟨?_, ?_, fun _ => ⟨rfl, rfl⟩, ?_⟩
    · intro v hv
      cases hv
    · rintro ⟨hsome, -⟩
      cases hsome
    · intro v hv
      cases hv
  · rw [hone]
    refine ⟨?_, ?_, ?_, ?_⟩
    · intro v hv
      obtain rfl : Json.u32 budget = v := Option.some.inj hv
      exact ⟨budget, rfl, hmax, anthropicBudget_bounds hbudget⟩
    · rintro ⟨-, hadaptive | hsome⟩
      · have hword : "enabled" = "adaptive" := Json.str.inj (Option.some.inj hadaptive)
        exact absurd hword (by decide)
      · cases hsome
    · intro hoff
      unfold anthropicBudget at hbudget
      rw [thinkingRequest_of_off hoff] at hbudget
      cases hbudget
    · intro v hv
      cases hv
  · rw [hone]
    refine ⟨?_, ?_, ?_, ?_⟩
    · intro v hv
      cases hv
    · rintro ⟨hsome, -⟩
      cases hsome
    · intro hoff
      rw [thinkingRequest_of_off hoff] at hrequest
      cases hrequest
    · intro v hv
      obtain rfl : Json.str (effortWord effort) = v := Option.some.inj hv
      exact ⟨_, effortWord_mem (effort_of_thinkingRequest hrequest), rfl⟩

/-- High effort under a ceiling of 4096. -/
def hardQuestion : HubRequest where
  messages := []
  maxTokens := 4096
  thinkingEffort := some .high

/-- It is rendered as a budget of 4095 for a model that takes budgets. -/
theorem thinking_is_legal_hardQuestion :
    ∃ body, renderRequest hardQuestion "claude-opus-4-5" = .ok body ∧
      body["thinking"].get "budget_tokens" = some (.u32 4095) ∧
      ∃ budget : UInt32, Json.u32 4095 = .u32 budget ∧
        body["max_tokens"] = .u32 hardQuestion.maxTokens ∧ 1024 ≤ budget ∧
          budget < hardQuestion.maxTokens := by
  refine ⟨_, rfl, rfl, ?_⟩
  exact (thinking_is_legal hardQuestion "claude-opus-4-5" _ rfl).1 _ rfl

end OpenAIGateway.AnthropicRequest
