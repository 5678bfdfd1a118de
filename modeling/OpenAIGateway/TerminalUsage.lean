import OpenAIGateway.ClientStream

/-!
The usage a client reads off its terminal frame. Each dialect has one frame
that ends the answer and carries the token counts: the `message_delta`, the
chunk with a finish reason, the `response.*` terminal. A renderer emits it
once, on the first stop, with the counts merged up to that stop.
-/

set_option linter.all false

namespace OpenAIGateway

/-- The usage object of a frame that ends the answer. -/
def terminalUsage (dialect : Dialect) (f : Frame) : Option Json :=
  match dialect with
  | .anthropicMessages =>
      if f.event = some "message_delta" then some f.data["usage"] else none
  | .openAIChatCompletions =>
      (f.data["choices"].asArray.bind List.head?).bind (fun choice =>
        if choice["finish_reason"].isNull then none else some f.data["usage"])
  | .geminiGenerateContent =>
      (f.data["candidates"].asArray.bind List.head?).bind (fun candidate =>
        if candidate["finishReason"].isNull then none else some f.data["usageMetadata"])
  | .openAIResponses =>
      if f.event = some "response.completed" ∨ f.event = some "response.incomplete" ∨
        f.event = some "response.failed" then some f.data["response"]["usage"] else none

def terminalUsages (dialect : Dialect) (frames : List Frame) : List Json :=
  frames.filterMap (terminalUsage dialect)

/-- The usage object a dialect's renderer writes. -/
def renderedUsage : Dialect → Usage → Json
  | .anthropicMessages => Anthropic.usageJson
  | .openAIChatCompletions => Chat.usageJson
  | .geminiGenerateContent => Gemini.usageJson
  | .openAIResponses => Responses.usageJson

/-- The usage object that says exactly `u` in a dialect's fields, its sums
taken without a machine word in the way. -/
def exactUsage (dialect : Dialect) (u : Usage) : Json :=
  match dialect with
  | .anthropicMessages =>
      .obj [("input_tokens", .nat u.inputTokens), ("output_tokens", .nat u.outputTokens),
        ("cache_read_input_tokens", .nat u.cacheReadTokens),
        ("cache_creation_input_tokens", .nat u.cacheWriteTokens)]
  | .openAIChatCompletions =>
      .obj [("prompt_tokens", .nat u.promptTokens), ("completion_tokens", .nat u.outputTokens),
        ("total_tokens", .nat u.sum),
        ("prompt_tokens_details", .obj [("cached_tokens", .nat u.cacheReadTokens)])]
  | .geminiGenerateContent =>
      .obj [("promptTokenCount", .nat u.promptTokens),
        ("cachedContentTokenCount", .nat u.cacheReadTokens),
        ("candidatesTokenCount", .nat u.outputTokens), ("totalTokenCount", .nat u.sum)]
  | .openAIResponses =>
      .obj [("input_tokens", .nat u.promptTokens),
        ("input_tokens_details", .obj [("cached_tokens", .nat u.cacheReadTokens)]),
        ("output_tokens", .nat u.outputTokens),
        ("output_tokens_details", .obj [("reasoning_tokens", .nat 0)]),
        ("total_tokens", .nat u.sum)]

theorem terminalUsages_append (dialect : Dialect) (xs ys : List Frame) :
    terminalUsages dialect (xs ++ ys) = terminalUsages dialect xs ++ terminalUsages dialect ys :=
  List.filterMap_append

/-- What rendering one event does to the renderer's usage and its terminal
frame. -/
structure Renders (dialect : Dialect) (usage : Usage) (finished : Bool) (e : StreamEvent)
    (usage' : Usage) (finished' : Bool) (frames : List Frame) : Prop where
  finished_eq : finished' = (finished || e.isStop)
  usage_eq : finished = false → usage' = usage.merge (e.usage?.getD {})
  frames_eq : terminalUsages dialect frames =
    if e.isStop && !finished then [renderedUsage dialect usage'] else []

/-- An event that ends nothing, carries no usage and renders no terminal frame. -/
theorem Renders.plain {dialect : Dialect} {usage usage' : Usage} {finished finished' : Bool}
    {e : StreamEvent} {frames : List Frame} (hstop : e.isStop = false)
    (hfinished : finished' = finished) (husage : usage' = usage.merge (e.usage?.getD {}))
    (hframes : terminalUsages dialect frames = []) :
    Renders dialect usage finished e usage' finished' frames := by
  refine ⟨?_, fun _ => husage, ?_⟩
  · rw [hfinished, hstop, Bool.or_false]
  · rw [hframes, hstop]
    rfl

/-- A stop after the first renders nothing. -/
theorem Renders.again {dialect : Dialect} {usage : Usage} {e : StreamEvent} :
    Renders dialect usage true e usage true [] := by
  refine ⟨rfl, fun h => ?_, ?_⟩
  · cases h
  · rw [Bool.not_true, Bool.and_false]
    rfl

section Chat

open Chat

theorem chat_toolIndex_kept (st : Chat.RenderState) (id : String) :
    (st.toolIndex id).1.usage = st.usage ∧ (st.toolIndex id).1.finished = st.finished := by
  unfold Chat.RenderState.toolIndex
  split <;> exact ⟨rfl, rfl⟩

theorem chat_renders (st : Chat.RenderState) (e : StreamEvent) :
    Renders .openAIChatCompletions st.usage st.finished e (Chat.renderEvent e st).1.usage
      (Chat.renderEvent e st).1.finished (Chat.renderEvent e st).2 := by
  cases e with
  | start model usage => exact Renders.plain rfl rfl rfl rfl
  | textDelta text => exact Renders.plain rfl rfl (st.usage.merge_default).symm rfl
  | thinkingDelta text => exact Renders.plain rfl rfl (st.usage.merge_default).symm rfl
  | toolUseStart id name =>
    obtain ⟨husage, hfinished⟩ := chat_toolIndex_kept st id
    exact Renders.plain rfl hfinished (husage.trans st.usage.merge_default.symm) rfl
  | toolUseDelta id partialJson =>
    obtain ⟨husage, hfinished⟩ := chat_toolIndex_kept st id
    exact Renders.plain rfl hfinished (husage.trans st.usage.merge_default.symm) rfl
  | toolUseEnd id => exact Renders.plain rfl rfl (st.usage.merge_default).symm rfl
  | usageUpdate usage => exact Renders.plain rfl rfl rfl rfl
  | stop reason usage =>
    cases hfinished : st.finished with
    | true =>
      simp only [Chat.renderEvent, hfinished, if_true]
      exact Renders.again
    | false =>
      simp only [Chat.renderEvent, hfinished]
      exact ⟨rfl, fun _ => rfl, rfl⟩
  | error message => exact Renders.plain rfl rfl (st.usage.merge_default).symm rfl

end Chat

section Gemini

variable (fromStr : String → Option Json)

theorem gemini_renders (st : Gemini.RenderState) (e : StreamEvent) :
    Renders .geminiGenerateContent st.usage st.finished e (Gemini.renderEvent fromStr e st).1.usage
      (Gemini.renderEvent fromStr e st).1.finished (Gemini.renderEvent fromStr e st).2 := by
  cases e with
  | start model usage => exact Renders.plain rfl rfl rfl rfl
  | textDelta text => exact Renders.plain rfl rfl (st.usage.merge_default).symm rfl
  | thinkingDelta text => exact Renders.plain rfl rfl (st.usage.merge_default).symm rfl
  | toolUseStart id name => exact Renders.plain rfl rfl (st.usage.merge_default).symm rfl
  | toolUseDelta id partialJson => exact Renders.plain rfl rfl (st.usage.merge_default).symm rfl
  | toolUseEnd id =>
    simp only [Gemini.renderEvent, Gemini.RenderState.takePending]
    cases st.pending.find? (fun call => decide (call.id = id)) with
    | none => exact Renders.plain rfl rfl (st.usage.merge_default).symm rfl
    | some call => exact Renders.plain rfl rfl (st.usage.merge_default).symm rfl
  | usageUpdate usage => exact Renders.plain rfl rfl rfl rfl
  | stop reason usage =>
    cases hfinished : st.finished with
    | true =>
      simp only [Gemini.renderEvent, hfinished, if_true]
      exact Renders.again
    | false =>
      simp only [Gemini.renderEvent, hfinished]
      exact ⟨rfl, fun _ => rfl, rfl⟩
  | error message => exact Renders.plain rfl rfl (st.usage.merge_default).symm rfl

end Gemini

section Anthropic

variable (st : Anthropic.RenderState)

/-- A helper of the Messages renderer: usage and end untouched, no terminal frame. -/
def AnthropicKeeps (out : Anthropic.RenderState × List Frame) : Prop :=
  out.1.usage = st.usage ∧ out.1.finished = st.finished ∧
    terminalUsages .anthropicMessages out.2 = []

theorem anthropic_ensureStarted_keeps : AnthropicKeeps st st.ensureStarted := by
  unfold Anthropic.RenderState.ensureStarted
  split <;> exact ⟨rfl, rfl, rfl⟩

theorem anthropic_closeText_keeps : AnthropicKeeps st st.closeText := by
  unfold Anthropic.RenderState.closeText
  split <;> exact ⟨rfl, rfl, rfl⟩

theorem anthropic_closeTool_keeps (id : String) : AnthropicKeeps st (st.closeTool id) := by
  unfold Anthropic.RenderState.closeTool
  split <;> exact ⟨rfl, rfl, rfl⟩

theorem anthropic_closeTools_keeps : AnthropicKeeps st st.closeTools := by
  refine ⟨rfl, rfl, ?_⟩
  apply List.filterMap_eq_nil_iff.mpr
  intro f hf
  obtain ⟨tool, -, rfl⟩ := List.mem_map.mp hf
  rfl

theorem anthropic_renderText_keeps (text : String) (thinking : Bool) :
    AnthropicKeeps st (Anthropic.renderText st text thinking) := by
  obtain ⟨husage, hfinished, hhead⟩ := anthropic_ensureStarted_keeps st
  obtain ⟨husage', hfinished', hstops⟩ := anthropic_closeTools_keeps st.ensureStarted.1
  have hdelta : ∀ index, terminalUsages .anthropicMessages
      [Anthropic.blockDelta index (Anthropic.textDelta thinking text)] = [] := fun _ => rfl
  unfold Anthropic.renderText
  simp only
  split
  · refine ⟨husage'.trans husage, hfinished'.trans hfinished, ?_⟩
    simp only [terminalUsages_append, hhead, hstops, hdelta, List.nil_append, List.append_nil]
    rfl
  · refine ⟨husage'.trans husage, hfinished'.trans hfinished, ?_⟩
    simp only [terminalUsages_append, hhead, hstops, hdelta, List.append_nil]

theorem AnthropicKeeps.renders {st : Anthropic.RenderState}
    {out : Anthropic.RenderState × List Frame} (h : AnthropicKeeps st out) {e : StreamEvent}
    (hstop : e.isStop = false) (hnone : e.usage? = none) :
    Renders .anthropicMessages st.usage st.finished e out.1.usage out.1.finished out.2 := by
  obtain ⟨husage, hfinished, hframes⟩ := h
  refine Renders.plain hstop hfinished ?_ hframes
  rw [husage, hnone]
  exact st.usage.merge_default.symm

theorem anthropic_renders (e : StreamEvent) :
    Renders .anthropicMessages st.usage st.finished e (Anthropic.renderEvent e st).1.usage
      (Anthropic.renderEvent e st).1.finished (Anthropic.renderEvent e st).2 := by
  cases e with
  | start model usage =>
    obtain ⟨husage, hfinished, hframes⟩ := anthropic_ensureStarted_keeps
      { st with model := adoptModel st.model model, usage := st.usage.merge usage }
    exact Renders.plain rfl hfinished husage hframes
  | textDelta text => exact (anthropic_renderText_keeps st text false).renders rfl rfl
  | thinkingDelta text => exact (anthropic_renderText_keeps st text true).renders rfl rfl
  | toolUseStart id name =>
    obtain ⟨husage, hfinished, hhead⟩ := anthropic_ensureStarted_keeps st
    obtain ⟨husage', hfinished', hstops⟩ := anthropic_closeText_keeps st.ensureStarted.1
    have hkeeps : AnthropicKeeps st (Anthropic.renderEvent (.toolUseStart id name) st) := by
      refine ⟨husage'.trans husage, hfinished'.trans hfinished, ?_⟩
      simp only [Anthropic.renderEvent, terminalUsages_append, hhead, hstops, List.nil_append]
      rfl
    exact hkeeps.renders rfl rfl
  | toolUseDelta id partialJson =>
    have hkeeps : AnthropicKeeps st (Anthropic.renderEvent (.toolUseDelta id partialJson) st) := by
      simp only [Anthropic.renderEvent]
      split <;> exact ⟨rfl, rfl, rfl⟩
    exact hkeeps.renders rfl rfl
  | toolUseEnd id => exact (anthropic_closeTool_keeps st id).renders rfl rfl
  | usageUpdate usage => exact Renders.plain rfl rfl rfl rfl
  | stop reason usage =>
    cases hfinished : st.finished with
    | true =>
      simp only [Anthropic.renderEvent, hfinished, if_true]
      exact Renders.again
    | false =>
      simp only [Anthropic.renderEvent, hfinished]
      generalize hst₀ : ({ st with finished := true, usage := st.usage.merge usage } :
        Anthropic.RenderState) = st₀
      obtain ⟨husage, hfin, hhead⟩ := anthropic_ensureStarted_keeps st₀
      obtain ⟨husage₁, hfin₁, htext⟩ := anthropic_closeText_keeps st₀.ensureStarted.1
      obtain ⟨husage₂, hfin₂, htools⟩ :=
        anthropic_closeTools_keeps st₀.ensureStarted.1.closeText.1
      have hfinal := husage₂.trans (husage₁.trans husage)
      refine ⟨?_, fun _ => ?_, ?_⟩
      · exact (hfin₂.trans (hfin₁.trans hfin)).trans (by rw [← hst₀]; rfl)
      · exact hfinal.trans (by rw [← hst₀]; rfl)
      · simp only [Bool.false_eq_true, if_false, terminalUsages_append, hhead, htext, htools,
          List.nil_append]
        rfl
  | error message => exact Renders.plain rfl rfl (st.usage.merge_default).symm rfl

end Anthropic

section Responses

variable (st : Responses.RenderState)

/-- The same of a helper of the Responses renderer. -/
def ResponsesKeeps (st' : Responses.RenderState) (frames : List Frame) : Prop :=
  st'.usage = st.usage ∧ st'.finished = st.finished ∧ terminalUsages .openAIResponses frames = []

theorem ResponsesKeeps.append {st st' st'' : Responses.RenderState} {xs ys : List Frame}
    (h : ResponsesKeeps st st' xs) (h' : ResponsesKeeps st' st'' ys) :
    ResponsesKeeps st st'' (xs ++ ys) := by
  refine ⟨h'.1.trans h.1, h'.2.1.trans h.2.1, ?_⟩
  rw [terminalUsages_append, h.2.2, h'.2.2]
  rfl

theorem responses_ensureCreated_keeps :
    ResponsesKeeps st st.ensureCreated.1 st.ensureCreated.2 := by
  unfold Responses.RenderState.ensureCreated
  split <;> exact ⟨rfl, rfl, rfl⟩

theorem responses_closeReasoning_keeps :
    ResponsesKeeps st st.closeReasoning.1 st.closeReasoning.2 := by
  unfold Responses.RenderState.closeReasoning
  split <;> exact ⟨rfl, rfl, rfl⟩

theorem responses_closeMessage_keeps :
    ResponsesKeeps st st.closeMessage.1 st.closeMessage.2 := by
  unfold Responses.RenderState.closeMessage
  split <;> exact ⟨rfl, rfl, rfl⟩

theorem responses_openMessage_keeps :
    ResponsesKeeps st st.openMessage.1 st.openMessage.2.1 := by
  unfold Responses.RenderState.openMessage
  split
  · exact ⟨rfl, rfl, rfl⟩
  · exact (responses_closeReasoning_keeps st).append ⟨rfl, rfl, rfl⟩

theorem responses_openReasoning_keeps :
    ResponsesKeeps st st.openReasoning.1 st.openReasoning.2.1 := by
  unfold Responses.RenderState.openReasoning
  split
  · exact ⟨rfl, rfl, rfl⟩
  · exact (responses_closeMessage_keeps st).append ⟨rfl, rfl, rfl⟩

/-- What a tool start and a stop do first. -/
theorem responses_closing_keeps :
    ResponsesKeeps st st.ensureCreated.1.closeReasoning.1.closeMessage.1
      (st.ensureCreated.2 ++ st.ensureCreated.1.closeReasoning.2 ++
        st.ensureCreated.1.closeReasoning.1.closeMessage.2) :=
  ((responses_ensureCreated_keeps st).append (responses_closeReasoning_keeps _)).append
    (responses_closeMessage_keeps _)

theorem ResponsesKeeps.renders {st st' : Responses.RenderState} {frames : List Frame}
    (h : ResponsesKeeps st st' frames) {e : StreamEvent} (hstop : e.isStop = false)
    (hnone : e.usage? = none) :
    Renders .openAIResponses st.usage st.finished e st'.usage st'.finished frames := by
  obtain ⟨husage, hfinished, hframes⟩ := h
  refine Renders.plain hstop hfinished ?_ hframes
  rw [husage, hnone]
  exact st.usage.merge_default.symm

theorem responses_renders (e : StreamEvent) (herror : Fold.errorMessage e = none) :
    Renders .openAIResponses st.usage st.finished e (Responses.renderEvent e st).1.usage
      (Responses.renderEvent e st).1.finished (Responses.renderEvent e st).2 := by
  cases e with
  | start model usage =>
    obtain ⟨husage, hfinished, hframes⟩ := responses_ensureCreated_keeps
      { st with model := adoptModel st.model model, usage := st.usage.merge usage }
    exact Renders.plain rfl hfinished husage hframes
  | textDelta text =>
    have hopening := (responses_ensureCreated_keeps st).append (responses_openMessage_keeps _)
    have hkeeps : ResponsesKeeps st (Responses.renderEvent (.textDelta text) st).1
        (Responses.renderEvent (.textDelta text) st).2 := hopening.append ⟨rfl, rfl, rfl⟩
    exact hkeeps.renders rfl rfl
  | thinkingDelta text =>
    have hopening := (responses_ensureCreated_keeps st).append (responses_openReasoning_keeps _)
    have hkeeps : ResponsesKeeps st (Responses.renderEvent (.thinkingDelta text) st).1
        (Responses.renderEvent (.thinkingDelta text) st).2 := hopening.append ⟨rfl, rfl, rfl⟩
    exact hkeeps.renders rfl rfl
  | toolUseStart id name =>
    have hkeeps : ResponsesKeeps st (Responses.renderToolStart st id name).1
        (Responses.renderToolStart st id name).2 :=
      (responses_closing_keeps st).append ⟨rfl, rfl, rfl⟩
    exact hkeeps.renders rfl rfl
  | toolUseDelta id partialJson =>
    have hkeeps : ResponsesKeeps st (Responses.renderToolDelta st id partialJson).1
        (Responses.renderToolDelta st id partialJson).2 := by
      unfold Responses.renderToolDelta
      split <;> exact ⟨rfl, rfl, rfl⟩
    exact hkeeps.renders rfl rfl
  | toolUseEnd id =>
    have hkeeps : ResponsesKeeps st (Responses.renderToolEnd st id).1
        (Responses.renderToolEnd st id).2 := by
      unfold Responses.renderToolEnd
      split <;> exact ⟨rfl, rfl, rfl⟩
    exact hkeeps.renders rfl rfl
  | usageUpdate usage => exact Renders.plain rfl rfl rfl rfl
  | stop reason usage =>
    cases hfinished : st.finished with
    | true =>
      simp only [Responses.renderEvent, hfinished, if_true]
      exact Renders.again
    | false =>
      simp only [Responses.renderEvent, hfinished]
      generalize hst₀ : ({ st with finished := true, usage := st.usage.merge usage } :
        Responses.RenderState) = st₀
      obtain ⟨husage, hfin, hframes⟩ := responses_closing_keeps st₀
      generalize st₀.ensureCreated.1.closeReasoning.1.closeMessage.1 = st₁ at husage hfin ⊢
      refine ⟨?_, fun _ => ?_, ?_⟩
      · exact hfin.trans (by rw [← hst₀]; rfl)
      · exact husage.trans (by rw [← hst₀]; rfl)
      · simp only [Bool.false_eq_true, if_false]
        rw [terminalUsages_append, hframes]
        cases reason <;> rfl
  | error message => simp [Fold.errorMessage] at herror

end Responses

namespace Renderer

def usage : Renderer → Usage
  | .none => {}
  | .chatCompletions st => st.usage
  | .anthropic st => st.usage
  | .gemini st => st.usage
  | .responses st => st.usage

def finished : Renderer → Bool
  | .none => false
  | .chatCompletions st => st.finished
  | .anthropic st => st.finished
  | .gemini st => st.finished
  | .responses st => st.finished

def dialect : Renderer → Option Dialect
  | .none => Option.none
  | .chatCompletions _ => some .openAIChatCompletions
  | .anthropic _ => some .anthropicMessages
  | .gemini _ => some .geminiGenerateContent
  | .responses _ => some .openAIResponses

/-- All four dialects alike: usage is merged until the first stop, and that
stop renders the one terminal frame. -/
theorem render_renders (fromStr : String → Option Json) (r : Renderer) (dialect : Dialect)
    (hr : r.dialect = some dialect) (e : StreamEvent)
    (herror : Fold.errorMessage e = Option.none) :
    (r.render fromStr e).1.dialect = some dialect ∧
      Renders dialect r.usage r.finished e (r.render fromStr e).1.usage
        (r.render fromStr e).1.finished (r.render fromStr e).2 := by
  cases r with
  | none => cases hr
  | chatCompletions st =>
    cases hr
    exact ⟨rfl, chat_renders st e⟩
  | anthropic st =>
    cases hr
    exact ⟨rfl, anthropic_renders st e⟩
  | gemini st =>
    cases hr
    exact ⟨rfl, gemini_renders fromStr st e⟩
  | responses st =>
    cases hr
    exact ⟨rfl, responses_renders st e herror⟩

theorem forDialect_fresh (dialect : Dialect) (requestId model : String) :
    (forDialect dialect requestId model).dialect = some dialect ∧
      (forDialect dialect requestId model).usage = {} ∧
      (forDialect dialect requestId model).finished = false := by
  cases dialect <;> exact ⟨rfl, rfl, rfl⟩

end Renderer

/-- A total that cannot leave the machine word, over counts that only grow,
shows the later counts exactly when nothing grew and nothing was lost. -/
theorem wordCounts_iff {u v : Usage} (h : Usage.Le u v) (total : ℕ) (hlt : total < 2 ^ 64)
    (hle : total ≤ u.sum) (hexact : u.sum < 2 ^ 64 → total = u.sum) :
    (wrappingAdd (wrappingAdd u.inputTokens u.cacheReadTokens) u.cacheWriteTokens =
          v.promptTokens ∧ u.outputTokens = v.outputTokens ∧
        u.cacheReadTokens = v.cacheReadTokens ∧ total = v.sum) ↔ u = v ∧ v.sum < 2 ^ 64 := by
  have hsum : u.sum ≤ v.sum := by
    unfold Usage.Le at h
    unfold Usage.sum
    omega
  constructor
  · rintro ⟨-, hout, hread, htotal⟩
    refine ⟨Usage.eq_of_le_of_counts h ?_ hout hread, by omega⟩
    have hu := u.promptTokens_add_output
    have hv := v.promptTokens_add_output
    omega
  · rintro ⟨rfl, hword⟩
    refine ⟨?_, rfl, rfl, hexact hword⟩
    unfold wrappingAdd Usage.promptTokens
    unfold Usage.sum at hword
    omega

/-- The total the Chat Completions and Responses renderers write. -/
theorem wrappingTotal_spec (u : Usage) :
    wrappingAdd (wrappingAdd (wrappingAdd u.inputTokens u.cacheReadTokens) u.cacheWriteTokens)
      u.outputTokens = u.sum % 2 ^ 64 := by
  unfold wrappingAdd Usage.sum
  omega

/-- The counts in a frame written at `u` are exactly those of a later usage
`v` when the two agree and no sum leaves the machine word. -/
theorem renderedUsage_eq_exactUsage_iff (dialect : Dialect) {u v : Usage} (h : Usage.Le u v) :
    renderedUsage dialect u = exactUsage dialect v ↔
      u = v ∧ (dialect = .anthropicMessages ∨ v.sum < 2 ^ 64) := by
  have hwrapped := wordCounts_iff h (u.sum % 2 ^ 64) (Nat.mod_lt u.sum (by decide)) (Nat.mod_le _ _)
    (fun hlt => Nat.mod_eq_of_lt hlt)
  have hsaturated := wordCounts_iff h u.total
    (by unfold Usage.total u64Max; omega) (by unfold Usage.total Usage.sum u64Max; omega)
    (fun hlt => u.total_eq_sum_iff.mpr hlt)
  cases dialect with
  | anthropicMessages =>
    simp [renderedUsage, exactUsage, Anthropic.usageJson, Json.nat_inj, Usage.ext_iff]
  | openAIChatCompletions =>
    simp only [renderedUsage, exactUsage, Chat.usageJson, wrappingTotal_spec, Json.obj.injEq,
      List.cons.injEq, Prod.mk.injEq, Json.nat_inj, true_and, and_true, reduceCtorEq, false_or]
    tauto
  | geminiGenerateContent =>
    simp only [renderedUsage, exactUsage, Gemini.usageJson, Json.obj.injEq, List.cons.injEq,
      Prod.mk.injEq, Json.nat_inj, true_and, and_true, reduceCtorEq, false_or]
    tauto
  | openAIResponses =>
    simp only [renderedUsage, exactUsage, Responses.usageJson, wrappingTotal_spec, Json.obj.injEq,
      List.cons.injEq, Prod.mk.injEq, Json.nat_inj, true_and, and_true, reduceCtorEq, false_or]
    tauto

end OpenAIGateway
