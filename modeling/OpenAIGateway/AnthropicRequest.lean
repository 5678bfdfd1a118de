import OpenAIGateway.HubRequest
import OpenAIGateway.WireToolUseIds

/-!
Requests in the Anthropic Messages dialect, which is the hub's own shape.
Rendering is close to identity, so parsing what was rendered gives the request
back: every block, the ones inside a tool result included.
-/

set_option linter.all false

namespace OpenAIGateway.AnthropicRequest

/-- Which of the two thinking controls a model accepts. -/
inductive ThinkingMode
  | budget
  | adaptive
  deriving DecidableEq

/-- The generation in a model name; a number of 100 or more is a date. -/
def generation (upstreamModel : String) : Option (ℕ × ℕ) :=
  match ((splitAny ['-', '.', '_', ':'] upstreamModel.toList).filterMap parseU32).filter
      (fun number => number < 100) with
  | [] => none
  | major :: parts => some (major, parts.head?.getD 0)

def thinkingMode (upstreamModel : String) : Option ThinkingMode :=
  (generation upstreamModel).map (fun (major, minor) =>
    if 4 < major ∨ (major = 4 ∧ 6 ≤ minor) then .adaptive else .budget)

/-- The floor for `budget_tokens`. -/
def minThinkingBudget : UInt32 := 1024

/-- The budget to render: under `max_tokens`, and none when that leaves less than the floor. -/
def anthropicBudget (req : HubRequest) : Option UInt32 :=
  req.thinkingRequest.bind (fun (asked, _) =>
    if req.maxTokens = 0 then none
    else
      let budget := if asked ≤ req.maxTokens - 1 then asked else req.maxTokens - 1
      if minThinkingBudget ≤ budget then some budget else none)

def ephemeral : Json := .obj [("type", .str "ephemeral")]

mutual

/-- A block, with every tool-call id spelled as Anthropic takes it. -/
def renderBlockWith (ids : ToolUseIds) : ContentBlock → Json
  | .text text cacheControl =>
    .obj (Json.setSome "cache_control" (cacheControl.map (fun _ => ephemeral))
      [("type", .str "text"), ("text", .str text)])
  | .image mediaType data =>
    .obj [("type", .str "image"),
      ("source", .obj [("type", .str "base64"), ("media_type", .str mediaType),
        ("data", .str data)])]
  | .toolUse id name input =>
    .obj [("type", .str "tool_use"), ("id", .str (ids.wire id)), ("name", .str name),
      ("input", input)]
  | .toolResult toolUseId content isError =>
    .obj [("type", .str "tool_result"), ("tool_use_id", .str (ids.wire toolUseId)),
      ("content", renderContent ids content), ("is_error", .bool isError)]
  | .thinking text signature =>
    .obj (Json.setSome "signature" (signature.map Json.str)
      [("type", .str "thinking"), ("thinking", .str text)])

/-- A string stays a string and blocks stay blocks. -/
def renderContent (ids : ToolUseIds) : ToolResultContent → Json
  | .text text => .str text
  | .blocks blocks => .arr (renderBlocks ids blocks)

def renderBlocks (ids : ToolUseIds) : List ContentBlock → List Json
  | [] => []
  | b :: blocks => renderBlockWith ids b :: renderBlocks ids blocks

end

def renderBlock (b : ContentBlock) : Json := renderBlockWith {} b

/-- There is no `system` or `tool` role here. -/
def renderRole (role : Role) : String :=
  match role with
  | .assistant => "assistant"
  | _ => "user"

def renderMessage (ids : ToolUseIds) (m : Message) : Json :=
  .obj [("role", .str (renderRole m.role)), ("content", .arr (renderBlocks ids m.content))]

def renderTool (t : Tool) : Json :=
  .obj (Json.setSome "cache_control" (t.cacheControl.map (fun _ => ephemeral))
    [("name", .str t.name), ("description", .str t.description), ("input_schema", t.inputSchema)])

def renderToolChoice (choice : ToolChoice) : Json :=
  match choice with
  | .auto => .obj [("type", .str "auto")]
  | .required => .obj [("type", .str "any")]
  | .none => .obj [("type", .str "none")]
  | .tool name => .obj [("type", .str "tool"), ("name", .str name)]

/-- The effort word; `ultra` is no level of this vendor's. -/
def effortWord (effort : Effort) : String :=
  (if effort = .ultra then Effort.max else effort).asStr

/-- What the request's thinking is rendered as: the control, and the depth beside it. -/
def renderThinking (req : HubRequest) (upstreamModel : String) : Option Json × Option Json :=
  match thinkingMode upstreamModel with
  | some .budget =>
    ((anthropicBudget req).map (fun budget =>
      .obj [("type", .str "enabled"), ("budget_tokens", .u32 budget)]), none)
  | some .adaptive =>
    (req.thinkingRequest.map (fun _ => .obj [("type", .str "adaptive")]),
      req.thinkingRequest.map (fun (_, effort) => .obj [("effort", .str (effortWord effort))]))
  | none => (none, none)

/-- The members of the body, before what this dialect has no field for is refused. -/
def renderBody (req : HubRequest) (upstreamModel : String) : List (String × Json) :=
  let ids := ToolUseIds.forAnthropic req.toCanonicalRequest
  let thinking := renderThinking req upstreamModel
  let body := [("model", .str upstreamModel), ("max_tokens", .u32 req.maxTokens),
    ("stream", .bool req.stream), ("messages", .arr (req.messages.map (renderMessage ids)))]
  let body := Json.setSome "system" (Json.nonEmpty req.system renderBlock) body
  let body := Json.setSome "tools" (Json.nonEmpty req.tools renderTool) body
  let body := Json.setSome "temperature" (req.temperature.map Json.float32) body
  let body := Json.setSome "thinking" thinking.1 body
  let body := Json.setSome "output_config" thinking.2 body
  let body := Json.setSome "tool_choice" (req.toolChoice.map renderToolChoice) body
  Json.setSome "stop_sequences" (Json.nonEmpty req.stop Json.str) body

/-- Canonical to Anthropic wire JSON. -/
def renderRequest (req : HubRequest) (upstreamModel : String) : Rendered :=
  if req.responseFormat.any ResponseFormat.constrainsOutput then
    .error ⟨"response_format", .anthropicMessages⟩
  else if req.previousResponseId.isSome then .error ⟨"previous_response_id", .anthropicMessages⟩
  else .ok (.obj (renderBody req upstreamModel))

section Parse

variable (toStr : Json → String)

def parseCacheControl (v : Json) : Option CacheControl :=
  v["cache_control"]["type"].asStr.map (fun _ => .ephemeral)

/-- A block, given what its `content` is as a tool's result. -/
def blockOf (v : Json) (result : ToolResultContent) : Option ContentBlock := do
  match ← v["type"].asStr with
  | "text" => return .text (← v["text"].asStr) (parseCacheControl v)
  | "image" => return .image (← v["source"]["media_type"].asStr) (← v["source"]["data"].asStr)
  | "tool_use" => return .toolUse (← v["id"].asStr) (← v["name"].asStr) v["input"]
  | "tool_result" =>
    return .toolResult (← v["tool_use_id"].asStr) result (v["is_error"].asBool.getD false)
  | "thinking" => return .thinking (v["thinking"].asStr.getD "") v["signature"].asStr
  | _ => none

mutual

def parseBlock : Json → Option ContentBlock
  | .obj members => blockOf (.obj members) (contentOf members)
  | _ => none

/-- The content of a tool result: the member `content`, which reads null when it is missing. -/
def contentOf : List (String × Json) → ToolResultContent
  | [] => .text (toStr .null)
  | (key, v) :: members => if key = "content" then parseResult v else contentOf members

def parseResult : Json → ToolResultContent
  | .str s => .text s
  | .arr items => .blocks (parseBlocks items)
  | other => .text (toStr other)

/-- The items that are blocks. -/
def parseBlocks : List Json → List ContentBlock
  | [] => []
  | v :: items =>
    match parseBlock v with
    | some b => b :: parseBlocks items
    | none => parseBlocks items

end

/-- A bare string is one text; an array is the blocks in it. -/
def parseBlockList (v : Json) : List ContentBlock :=
  match v with
  | .str s => [.text s none]
  | .arr items => parseBlocks toStr items
  | _ => []

def parseRole (role : String) : Role :=
  match role with
  | "assistant" => .assistant
  | "system" => .system
  | _ => .user

def parseMessage (v : Json) : Option Message := do
  let role ← v["role"].asStr
  return ⟨parseRole role, parseBlockList toStr v["content"]⟩

def parseTool (v : Json) : Option Tool := do
  let name ← v["name"].asStr
  return ⟨name, v["description"].asStr.getD "", v["input_schema"], parseCacheControl v⟩

def parseToolChoice (v : Json) : Option ToolChoice := do
  match ← v["type"].asStr with
  | "auto" => return .auto
  | "any" => return .required
  | "none" => return .none
  | "tool" => return .tool (← v["name"].asStr)
  | _ => none

/-- `adaptive` with no effort asks for the model's own default. -/
def parseAdaptive (body : Json) : Option Effort :=
  if body["thinking"]["type"].asStr = some "adaptive" then
    (body["output_config"]["effort"].asStr.bind Effort.parse).or (some .medium)
  else none

/-- Anthropic wire JSON to canonical. -/
def parseRequest (body : Json) : HubRequest :=
  let thinkingBudget := body["thinking"]["budget_tokens"].asU64.bind u32TryFrom
  { model := body["model"].asStr.getD ""
    system := parseBlockList toStr body["system"]
    messages := (body["messages"].asArray.getD []).filterMap (parseMessage toStr)
    tools := (body["tools"].asArray.getD []).filterMap parseTool
    maxTokens := (u32TryFrom (body["max_tokens"].asU64.getD 4096)).getD 4096
    stream := body["stream"].asBool.getD false
    temperature := body["temperature"].asF64.map Float.toFloat32
    thinkingBudget := thinkingBudget
    thinkingEffort := (thinkingBudget.map Effort.fromBudget).or (parseAdaptive body)
    clientSession := body["metadata"]["user_id"].asStr
    toolChoice := parseToolChoice body["tool_choice"]
    stop := (body["stop_sequences"].asArray.getD []).filterMap Json.asStr }

end Parse

section RoundTrip

variable (toStr : Json → String)

mutual

theorem parseBlock_renderBlockWith : ∀ b : ContentBlock,
    parseBlock toStr (renderBlockWith {} b) = some b
  | .text text cacheControl => by
    cases cacheControl with
    | none => rfl
    | some cacheControl =>
      cases cacheControl
      rfl
  | .image mediaType data => rfl
  | .toolUse id name input => rfl
  | .toolResult toolUseId content isError => by
    have hcontent := parseResult_renderContent content
    unfold renderBlockWith parseBlock
    change some (ContentBlock.toolResult toolUseId (parseResult toStr (renderContent {} content))
      isError) = _
    rw [hcontent]
  | .thinking text signature => by
    cases signature with
    | none => rfl
    | some signature => rfl

theorem parseResult_renderContent : ∀ content : ToolResultContent,
    parseResult toStr (renderContent {} content) = content
  | .text text => rfl
  | .blocks blocks => by
    have hblocks := parseBlocks_renderBlocks blocks
    unfold renderContent parseResult
    rw [hblocks]

theorem parseBlocks_renderBlocks : ∀ blocks : List ContentBlock,
    parseBlocks toStr (renderBlocks {} blocks) = blocks
  | [] => rfl
  | b :: blocks => by
    have hb := parseBlock_renderBlockWith b
    have hblocks := parseBlocks_renderBlocks blocks
    unfold renderBlocks parseBlocks
    rw [hb, hblocks]

end

theorem renderBlocks_eq_map (ids : ToolUseIds) (blocks : List ContentBlock) :
    renderBlocks ids blocks = blocks.map (renderBlockWith ids) := by
  induction blocks with
  | nil => rfl
  | cons b blocks ih =>
    unfold renderBlocks
    rw [List.map_cons, ih]

theorem parseBlockList_nonEmpty (blocks : List ContentBlock) :
    parseBlockList toStr ((Json.nonEmpty blocks renderBlock).getD .null) = blocks := by
  have hback := parseBlocks_renderBlocks toStr blocks
  rw [renderBlocks_eq_map] at hback
  cases blocks with
  | nil => rfl
  | cons b blocks => exact hback

theorem parseMessage_renderMessage {m : Message} (hrole : m.role = .user ∨ m.role = .assistant) :
    parseMessage toStr (renderMessage {} m) = some m := by
  obtain ⟨role, content⟩ := m
  have hread : parseRole (renderRole role) = role := by
    rcases hrole with rfl | rfl
    · rfl
    · rfl
  change some (Message.mk (parseRole (renderRole role))
    (parseBlocks toStr (renderBlocks {} content))) = _
  rw [hread, parseBlocks_renderBlocks]

theorem parseTool_renderTool (t : Tool) : parseTool (renderTool t) = some t := by
  obtain ⟨name, description, inputSchema, cacheControl⟩ := t
  cases cacheControl with
  | none => rfl
  | some cacheControl =>
    cases cacheControl
    rfl

theorem parseToolChoice_renderToolChoice (choice : Option ToolChoice) :
    parseToolChoice ((choice.map renderToolChoice).getD .null) = choice := by
  cases choice with
  | none => rfl
  | some choice => cases choice <;> rfl

/-- Ids that are inside the pattern are sent as they are. -/
theorem forAnthropic_eq {req : CanonicalRequest}
    (h : ∀ id ∈ ToolUseIds.historyIds req, ToolUseIds.legal ToolUseIds.anthropicByte id = true) :
    ToolUseIds.forAnthropic req = {} := by
  have hnone : (Naming.firstSeen (ToolUseIds.historyIds req)).filter
      (fun id => !ToolUseIds.legal ToolUseIds.anthropicByte id) = [] := by
    refine List.filter_eq_nil_iff.mpr ?_
    intro id hid hillegal
    rw [h id (Naming.mem_firstSeen.mp hid)] at hillegal
    cases hillegal
  simp only [ToolUseIds.forAnthropic, ToolUseIds.fromRequestBy, hnone]
  rfl

end RoundTrip

section Members

variable (req : HubRequest) (upstreamModel : String)

theorem lookup_maxTokens :
    (renderBody req upstreamModel).lookup "max_tokens" = some (.u32 req.maxTokens) := by
  simp (disch := decide) only [renderBody, Json.lookup_setSome_ne]
  rfl

theorem lookup_stream :
    (renderBody req upstreamModel).lookup "stream" = some (.bool req.stream) := by
  simp (disch := decide) only [renderBody, Json.lookup_setSome_ne]
  rfl

theorem lookup_messages :
    (renderBody req upstreamModel).lookup "messages" = some (.arr (req.messages.map
      (renderMessage (ToolUseIds.forAnthropic req.toCanonicalRequest)))) := by
  simp (disch := decide) only [renderBody, Json.lookup_setSome_ne]
  rfl

theorem lookup_system :
    (renderBody req upstreamModel).lookup "system" = Json.nonEmpty req.system renderBlock := by
  simp (disch := decide) only [renderBody, Json.lookup_setSome_ne]
  exact Json.lookup_setSome_self rfl _

theorem lookup_tools :
    (renderBody req upstreamModel).lookup "tools" = Json.nonEmpty req.tools renderTool := by
  simp (disch := decide) only [renderBody, Json.lookup_setSome_ne]
  refine Json.lookup_setSome_self ?_ _
  simp (disch := decide) only [Json.lookup_setSome_ne]
  rfl

theorem lookup_toolChoice :
    (renderBody req upstreamModel).lookup "tool_choice" = req.toolChoice.map renderToolChoice := by
  simp (disch := decide) only [renderBody, Json.lookup_setSome_ne]
  refine Json.lookup_setSome_self ?_ _
  simp (disch := decide) only [Json.lookup_setSome_ne]
  rfl

theorem lookup_stopSequences :
    (renderBody req upstreamModel).lookup "stop_sequences" = Json.nonEmpty req.stop Json.str := by
  refine Json.lookup_setSome_self ?_ _
  simp (disch := decide) only [Json.lookup_setSome_ne]
  rfl

end Members

/-- A body that is rendered is the members above; what it cannot carry was not asked for. -/
theorem renderRequest_ok {req : HubRequest} {upstreamModel : String} {body : Json}
    (h : renderRequest req upstreamModel = .ok body) :
    body = .obj (renderBody req upstreamModel) ∧
      req.responseFormat.any ResponseFormat.constrainsOutput = false ∧
      req.previousResponseId = none := by
  unfold renderRequest at h
  by_cases hformat : req.responseFormat.any ResponseFormat.constrainsOutput = true
  · rw [if_pos hformat] at h
    cases h
  · rw [if_neg hformat] at h
    obtain ⟨hprevious, hbody⟩ := rendered_iff.mp h
    exact ⟨hbody, Bool.eq_false_iff.mpr hformat, Option.not_isSome_iff_eq_none.mp hprevious⟩

section Settings

variable (toStr : Json → String) (req : HubRequest) (upstreamModel : String)

theorem parseRequest_maxTokens :
    (parseRequest toStr (.obj (renderBody req upstreamModel))).maxTokens = req.maxTokens := by
  change (u32TryFrom (((Json.obj (renderBody req upstreamModel))["max_tokens"]).asU64.getD
    4096)).getD 4096 = _
  rw [Json.getElem_obj, lookup_maxTokens, Option.getD_some, Json.asU64_u32, Option.getD_some,
    u32TryFrom_toNat, Option.getD_some]

theorem parseRequest_toolChoice :
    (parseRequest toStr (.obj (renderBody req upstreamModel))).toolChoice = req.toolChoice := by
  change parseToolChoice (Json.obj (renderBody req upstreamModel))["tool_choice"] = _
  rw [Json.getElem_obj, lookup_toolChoice, parseToolChoice_renderToolChoice]

theorem parseRequest_stop :
    (parseRequest toStr (.obj (renderBody req upstreamModel))).stop = req.stop := by
  change (((Json.obj (renderBody req upstreamModel))["stop_sequences"]).asArray.getD []).filterMap
    Json.asStr = _
  rw [Json.getElem_obj, lookup_stopSequences]
  exact Json.filterMap_nonEmpty (fun _ _ => rfl)

/-- A request of user and assistant turns whose ids need no respelling comes
back from its rendering: the system prompt, every message block by block, the
tools and the settings. -/
theorem request_comes_back (body : Json)
    (hroles : ∀ m ∈ req.messages, m.role = .user ∨ m.role = .assistant)
    (hids : ∀ id ∈ ToolUseIds.historyIds req.toCanonicalRequest,
      ToolUseIds.legal ToolUseIds.anthropicByte id = true)
    (hrender : renderRequest req upstreamModel = .ok body) :
    (parseRequest toStr body).system = req.system ∧
    (parseRequest toStr body).messages = req.messages ∧
    (parseRequest toStr body).tools = req.tools ∧
    (parseRequest toStr body).toolChoice = req.toolChoice ∧
    (parseRequest toStr body).stop = req.stop ∧
    (parseRequest toStr body).maxTokens = req.maxTokens ∧
    (parseRequest toStr body).stream = req.stream := by
  obtain ⟨rfl, -, -⟩ := renderRequest_ok hrender
  refine ⟨?_, ?_, ?_, parseRequest_toolChoice toStr req upstreamModel,
    parseRequest_stop toStr req upstreamModel, parseRequest_maxTokens toStr req upstreamModel, ?_⟩
  · change parseBlockList toStr (Json.obj (renderBody req upstreamModel))["system"] = _
    rw [Json.getElem_obj, lookup_system]
    exact parseBlockList_nonEmpty toStr req.system
  · change (((Json.obj (renderBody req upstreamModel))["messages"]).asArray.getD []).filterMap
      (parseMessage toStr) = _
    rw [Json.getElem_obj, lookup_messages, forAnthropic_eq hids]
    change (req.messages.map (renderMessage {})).filterMap (parseMessage toStr) = _
    rw [List.filterMap_map]
    calc req.messages.filterMap (parseMessage toStr ∘ renderMessage {})
        = req.messages.filterMap some :=
          List.filterMap_congr (fun m hm => parseMessage_renderMessage toStr (hroles m hm))
      _ = req.messages := List.filterMap_some
  · change (((Json.obj (renderBody req upstreamModel))["tools"]).asArray.getD []).filterMap
      parseTool = _
    rw [Json.getElem_obj, lookup_tools]
    exact Json.filterMap_nonEmpty (fun t _ => parseTool_renderTool t)
  · change ((Json.obj (renderBody req upstreamModel))["stream"]).asBool.getD false = _
    rw [Json.getElem_obj, lookup_stream]
    rfl

end Settings

/-- A call, and a screenshot as its result. -/
def screenshot : HubRequest where
  messages := [⟨.assistant, [.toolUse "toolu_1" "browse" (.obj [])]⟩,
    ⟨.user, [.toolResult "toolu_1" (.blocks [.image "image/png" "AA=="]) false]⟩]
  maxTokens := 1024

theorem request_comes_back_screenshot :
    ∃ body, renderRequest screenshot "claude-opus-4-5" = .ok body ∧
      (parseRequest (fun _ => "") body).messages = screenshot.messages := by
  have hroles : ∀ m ∈ screenshot.messages, m.role = .user ∨ m.role = .assistant := by
    intro m hm
    rcases List.mem_cons.mp hm with rfl | hm
    · exact Or.inr rfl
    · obtain rfl := List.mem_singleton.mp hm
      exact Or.inl rfl
  refine ⟨_, rfl, ?_⟩
  exact (request_comes_back (fun _ => "") screenshot "claude-opus-4-5" _ hroles (by decide)
    rfl).2.1

end OpenAIGateway.AnthropicRequest
