import OpenAIGateway.AnthropicRequest
import OpenAIGateway.GeminiRequest
import OpenAIGateway.ResponsesRequest

/-!
No setting is dropped in rendering. In each dialect a body that is rendered
reads back with the settings of the request, and a request with a setting the
dialect has no field for is refused by name. Function names on the OpenAI wire
and the formats of the other two dialects come back as those dialects say them.
-/

set_option linter.all false

namespace OpenAIGateway

/-- The settings that change what the model is asked for. -/
structure Settings where
  toolChoice : Option ToolChoice
  responseFormat : Option ResponseFormat
  stop : List String
  maxTokens : UInt32
  previousResponseId : Option String

def HubRequest.settings (req : HubRequest) : Settings where
  toolChoice := req.toolChoice
  responseFormat := req.responseFormat
  stop := req.stop
  maxTokens := req.maxTokens
  previousResponseId := req.previousResponseId

/-- The function names a request has on the OpenAI wire. -/
def HubRequest.wireNames (req : HubRequest) : FunctionNameMap :=
  WireNames.fromRequest req.toCanonicalRequest

/-- The residue is one that a body's parser captured; nothing else makes one. -/
def HubRequest.Captured (toStr : Json → String) (req : HubRequest) : Prop :=
  ∀ extra, req.passthrough = some extra →
    ∃ body, (GeminiRequest.parseRequest toStr body).passthrough = some extra

/-- A tool the request names keeps its name on the OpenAI wire, if that takes it. -/
theorem HubRequest.wireNames_of_legal {req : HubRequest} {name : String}
    (hchoice : req.toolChoice = some (.tool name))
    (hlegal : WireNames.isLegalOpenaiFunctionName name = true) :
    req.wireNames.wire name = name := by
  refine WireNames.wire_of_legal ?_ hlegal
  apply Naming.mem_firstSeen.mpr
  unfold WireNames.functionNames
  rw [hchoice]
  exact List.mem_append_left _ (List.mem_append_right _ (List.mem_singleton.mpr rfl))

namespace ChatRequest

variable {toStr : Json → String} {req : HubRequest} {upstreamModel : String}

theorem settings_parseRequest (fromStr : String → Option Json) {body : Json}
    (h : renderRequest toStr req upstreamModel = .ok body) :
    (parseRequest toStr fromStr body).settings =
      { req.settings with
        toolChoice := req.toolChoice.map (ToolChoice.rename req.wireNames.wire) } := by
  obtain ⟨hprevious, rfl⟩ := rendered_iff.mp h
  unfold HubRequest.settings
  rw [parseRequest_toolChoice, parseRequest_responseFormat, parseRequest_stop,
    parseRequest_maxTokens, Option.not_isSome_iff_eq_none.mp hprevious]
  rfl

end ChatRequest

namespace ResponsesRequest

variable {toStr : Json → String} {req : HubRequest} {upstreamModel : String}

theorem renderRequest_eq : renderRequest toStr req upstreamModel =
    if req.stop ≠ [] then .error ⟨"stop", .openAIResponses⟩
    else .ok (.obj (renderBody toStr req upstreamModel)) := by
  unfold renderRequest
  rw [ite_not]
  exact if_congr List.isEmpty_iff rfl rfl

theorem settings_parseRequest (fromStr : String → Option Json) {body : Json}
    (h : renderRequest toStr req upstreamModel = .ok body) :
    (parseRequest toStr fromStr body).settings =
      { req.settings with
        toolChoice := req.toolChoice.map (ToolChoice.rename req.wireNames.wire) } := by
  rw [renderRequest_eq] at h
  obtain ⟨hstop, rfl⟩ := rendered_iff.mp h
  unfold HubRequest.settings
  rw [parseRequest_toolChoice, parseRequest_responseFormat, parseRequest_maxTokens,
    parseRequest_previousResponseId, not_not.mp hstop]
  rfl

end ResponsesRequest

namespace GeminiRequest

variable {req : HubRequest}

theorem residue_of_captured {toStr : Json → String} (hcaptured : req.Captured toStr) :
    Residue subtracted req.passthrough := by
  intro extra hextra
  obtain ⟨body, hbody⟩ := hcaptured extra hextra
  exact residue_parseRequest toStr body extra hbody

section Parse

variable (toStr : Json → String) (hresidue : Residue subtracted req.passthrough)
include hresidue

theorem parseRequest_toolChoice :
    (parseRequest toStr (mergeResidue req.passthrough (.obj (renderBody req)))).toolChoice =
      req.toolChoice := by
  change parseToolChoice (field (field (mergeResidue req.passthrough (.obj (renderBody req)))
    "toolConfig") "functionCallingConfig") = _
  rw [field_mergeResidue (by decide) hresidue, field_toolConfig, parseToolChoice_renderToolChoice]

theorem parseRequest_responseFormat :
    (parseRequest toStr (mergeResidue req.passthrough (.obj (renderBody req)))).responseFormat =
      req.responseFormat.map normalise := by
  refine parseResponseFormat_eq ?_ ?_
  · rw [field_mergeResidue_config (by decide) hresidue, field_responseMimeType]
  · rw [field_mergeResidue_config (by decide) hresidue, field_responseSchema]

theorem parseRequest_stop :
    (parseRequest toStr (mergeResidue req.passthrough (.obj (renderBody req)))).stop =
      req.stop := by
  change ((field (field (mergeResidue req.passthrough (.obj (renderBody req))) "generationConfig")
    "stopSequences").asArray.getD []).filterMap Json.asStr = _
  rw [field_mergeResidue_config (by decide) hresidue, field_stopSequences]
  exact Json.filterMap_nonEmpty (fun _ _ => rfl)

theorem parseRequest_maxTokens :
    (parseRequest toStr (mergeResidue req.passthrough (.obj (renderBody req)))).maxTokens =
      req.maxTokens := by
  change ((field (field (mergeResidue req.passthrough (.obj (renderBody req))) "generationConfig")
    "maxOutputTokens").asU64.bind u32TryFrom).getD 4096 = _
  rw [field_mergeResidue_config (by decide) hresidue, field_maxOutputTokens, Json.asU64_u32,
    Option.bind_some, u32TryFrom_toNat, Option.getD_some]

theorem settings_parseRequest {body : Json} (h : renderRequest req = .ok body) :
    (parseRequest toStr body).settings =
      { req.settings with responseFormat := req.responseFormat.map normalise } := by
  obtain ⟨hprevious, rfl⟩ := rendered_iff.mp h
  unfold HubRequest.settings
  rw [parseRequest_toolChoice toStr hresidue, parseRequest_responseFormat toStr hresidue,
    parseRequest_stop toStr hresidue, parseRequest_maxTokens toStr hresidue,
    Option.not_isSome_iff_eq_none.mp hprevious]
  rfl

end Parse

end GeminiRequest

namespace AnthropicRequest

variable {req : HubRequest} {upstreamModel : String}

theorem renderRequest_error_iff (e : UnsupportedField) :
    renderRequest req upstreamModel = .error e ↔
      req.responseFormat.any ResponseFormat.constrainsOutput = true ∧
        e = ⟨"response_format", .anthropicMessages⟩ ∨
      req.responseFormat.any ResponseFormat.constrainsOutput = false ∧
        req.previousResponseId.isSome = true ∧
        e = ⟨"previous_response_id", .anthropicMessages⟩ := by
  unfold renderRequest
  by_cases hformat : req.responseFormat.any ResponseFormat.constrainsOutput = true
  · rw [if_pos hformat, Except.error.injEq, hformat]
    constructor
    · intro h
      exact Or.inl ⟨rfl, h.symm⟩
    · rintro (h | h)
      · exact h.2.symm
      · cases h.1
  · rw [if_neg hformat, refused_iff, Bool.eq_false_iff.mpr hformat]
    constructor
    · intro h
      exact Or.inr ⟨rfl, h⟩
    · rintro (h | h)
      · cases h.1
      · exact h.2

theorem settings_parseRequest (toStr : Json → String) {body : Json}
    (h : renderRequest req upstreamModel = .ok body) :
    (parseRequest toStr body).settings = { req.settings with responseFormat := none } ∧
      (req.responseFormat = none ∨ req.responseFormat = some .text) := by
  obtain ⟨rfl, hformat, hprevious⟩ := renderRequest_ok h
  constructor
  · unfold HubRequest.settings
    rw [parseRequest_toolChoice, parseRequest_stop, parseRequest_maxTokens, hprevious]
    rfl
  · cases hreq : req.responseFormat with
    | none => exact Or.inl rfl
    | some format =>
      rw [hreq] at hformat
      cases format with
      | text => exact Or.inr rfl
      | jsonObject => cases hformat
      | jsonSchema name schema strict => cases hformat

end AnthropicRequest

section Settings

variable (toStr : Json → String) (fromStr : String → Option Json) (req : HubRequest)
  (upstreamModel : String)

/-- In every dialect the settings of a request that renders come back from its body, a named tool
under its wire name and a format as the dialect says it, and the request is refused exactly when it
has a setting the dialect cannot carry. -/
theorem settings_come_back (hcaptured : req.Captured toStr) :
    (∀ body, ChatRequest.renderRequest toStr req upstreamModel = .ok body →
      (ChatRequest.parseRequest toStr fromStr body).settings =
        { req.settings with
          toolChoice := req.toolChoice.map (ToolChoice.rename req.wireNames.wire) }) ∧
    (∀ body, ResponsesRequest.renderRequest toStr req upstreamModel = .ok body →
      (ResponsesRequest.parseRequest toStr fromStr body).settings =
        { req.settings with
          toolChoice := req.toolChoice.map (ToolChoice.rename req.wireNames.wire) }) ∧
    (∀ body, GeminiRequest.renderRequest req = .ok body →
      (GeminiRequest.parseRequest toStr body).settings =
        { req.settings with
          responseFormat := req.responseFormat.map GeminiRequest.normalise }) ∧
    (∀ body, AnthropicRequest.renderRequest req upstreamModel = .ok body →
      (AnthropicRequest.parseRequest toStr body).settings =
        { req.settings with responseFormat := none } ∧
      (req.responseFormat = none ∨ req.responseFormat = some .text)) ∧
    (∀ name, req.toolChoice = some (.tool name) →
      WireNames.isLegalOpenaiFunctionName name = true → req.wireNames.wire name = name) ∧
    (∀ e, ChatRequest.renderRequest toStr req upstreamModel = .error e ↔
      req.previousResponseId.isSome = true ∧
        e = ⟨"previous_response_id", .openAIChatCompletions⟩) ∧
    (∀ e, ResponsesRequest.renderRequest toStr req upstreamModel = .error e ↔
      req.stop ≠ [] ∧ e = ⟨"stop", .openAIResponses⟩) ∧
    (∀ e, GeminiRequest.renderRequest req = .error e ↔
      req.previousResponseId.isSome = true ∧
        e = ⟨"previous_response_id", .geminiGenerateContent⟩) ∧
    (∀ e, AnthropicRequest.renderRequest req upstreamModel = .error e ↔
      req.responseFormat.any ResponseFormat.constrainsOutput = true ∧
        e = ⟨"response_format", .anthropicMessages⟩ ∨
      req.responseFormat.any ResponseFormat.constrainsOutput = false ∧
        req.previousResponseId.isSome = true ∧
        e = ⟨"previous_response_id", .anthropicMessages⟩) := by
  refine ⟨?_, ?_, ?_, ?_, ?_, ?_, ?_, ?_, ?_⟩
  · intro body h
    exact ChatRequest.settings_parseRequest fromStr h
  · intro body h
    exact ResponsesRequest.settings_parseRequest fromStr h
  · intro body h
    exact GeminiRequest.settings_parseRequest toStr (GeminiRequest.residue_of_captured hcaptured) h
  · intro body h
    exact AnthropicRequest.settings_parseRequest toStr h
  · intro name hchoice hlegal
    exact HubRequest.wireNames_of_legal hchoice hlegal
  · intro e
    exact refused_iff
  · intro e
    rw [ResponsesRequest.renderRequest_eq]
    exact refused_iff
  · intro e
    exact refused_iff
  · intro e
    exact AnthropicRequest.renderRequest_error_iff e

end Settings

/-- A configuration with a field that only the Gemini dialect knows. -/
def transcriptionBody : Json :=
  .obj [("generationConfig",
    .obj [("audioTranscriptionConfig", .obj [("language", .str "en")])])]

def transcription : HubRequest where
  messages := [⟨.user, [.text "transcribe" none]⟩]
  maxTokens := 512
  toolChoice := some (.tool "save")
  stop := ["END"]
  passthrough := (GeminiRequest.parseRequest (fun _ => "") transcriptionBody).passthrough

theorem settings_come_back_transcription :
    transcription.passthrough.isSome = true ∧
    ∃ body, GeminiRequest.renderRequest transcription = .ok body ∧
      (GeminiRequest.parseRequest (fun _ => "") body).settings = transcription.settings := by
  have hcaptured : transcription.Captured (fun _ => "") := by
    intro extra h
    exact ⟨transcriptionBody, h⟩
  refine ⟨by decide, _, rfl, ?_⟩
  exact (settings_come_back (fun _ => "") (fun _ => none) transcription "" hcaptured).2.2.1 _ rfl

/-- A tool named as its server names it, with a dot. -/
def dotted : HubRequest where
  messages := []
  maxTokens := 1
  toolChoice := some (.tool "files.read")

/-- The OpenAI wire does not take the dot, so another name comes back. -/
theorem dotted_comes_back_respelled :
    ∃ body, ChatRequest.renderRequest (fun _ => "") dotted "gpt-5" = .ok body ∧
      (ChatRequest.parseRequest (fun _ => "") (fun _ => none) body).toolChoice ≠
        dotted.toolChoice := by
  refine ⟨_, rfl, ?_⟩
  have hwire : dotted.wireNames.wire "files.read" = "files_read" := by
    decide
  rw [ChatRequest.parseRequest_toolChoice]
  change some (ToolChoice.tool (dotted.wireNames.wire "files.read")) ≠ some (.tool "files.read")
  rw [hwire]
  decide

end OpenAIGateway
