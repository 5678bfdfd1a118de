import OpenAIGateway.ChatRequest

/-!
Requests in the OpenAI Responses dialect. Calls and results are items beside
the messages, the structured output sits under `text`, and a conversation can
continue from a stored response. There is no `stop` here, so a request with
stop sequences is refused.
-/

set_option linter.all false

namespace OpenAIGateway.ResponsesRequest

section Render

variable (toStr : Json → String) (names : FunctionNameMap)

def renderTool (t : Tool) : Json :=
  .obj [("type", .str "function"), ("name", .str (names.wire t.name)),
    ("description", .str t.description), ("parameters", t.inputSchema)]

def renderToolChoice (choice : ToolChoice) : Json :=
  match choice with
  | .auto => .str "auto"
  | .required => .str "required"
  | .none => .str "none"
  | .tool name => .obj [("type", .str "function"), ("name", .str (names.wire name))]

/-- The schema is flat beside its name, without a wrapper. -/
def renderResponseFormat (format : ResponseFormat) : Json :=
  match format with
  | .text => .obj [("type", .str "text")]
  | .jsonObject => .obj [("type", .str "json_object")]
  | .jsonSchema name schema strict =>
    .obj [("type", .str "json_schema"), ("name", .str name), ("schema", schema),
      ("strict", .bool strict)]

def renderResult : ContentBlock → Option Json
  | .toolResult toolUseId content _ =>
    some (.obj [("type", .str "function_call_output"), ("call_id", .str toolUseId),
      ("output", .str content.asText)])
  | _ => none

/-- Parts are typed by direction. -/
def renderPart (assistant : Bool) : ContentBlock → Option Json
  | .text text _ =>
    some (.obj [("type", .str (if assistant then "output_text" else "input_text")),
      ("text", .str text)])
  | .image mediaType data =>
    some (.obj [("type", .str "input_image"), ("image_url", .str (dataUrl mediaType data))])
  | _ => none

def renderCall : ContentBlock → Option Json
  | .toolUse id name input =>
    some (.obj [("type", .str "function_call"), ("call_id", .str id),
      ("name", .str (names.wire name)), ("arguments", .str (toStr input))])
  | _ => none

/-- One canonical message becomes one or more `input` items. -/
def renderMessage (m : Message) : List Json :=
  let assistant : Bool := m.role = .assistant
  let parts := m.content.filterMap (renderPart assistant)
  let message :=
    if parts.isEmpty then []
    else [.obj [("type", .str "message"), ("role", .str (if assistant then "assistant" else "user")),
      ("content", .arr parts)]]
  m.content.filterMap renderResult ++ message ++ m.content.filterMap (renderCall toStr names)

end Render

def renderBody (toStr : Json → String) (req : HubRequest) (upstreamModel : String) :
    List (String × Json) :=
  let names := WireNames.fromRequest req.toCanonicalRequest
  let instructions := if req.system.isEmpty then none
    else some (.str (String.intercalate "\n\n" (blockTexts req.system)))
  let body := [("model", .str upstreamModel),
    ("input", .arr (req.messages.flatMap (renderMessage toStr names))),
    ("max_output_tokens", .u32 req.maxTokens), ("stream", .bool req.stream)]
  let body := Json.setSome "instructions" instructions body
  let body := Json.setSome "tools" (Json.nonEmpty req.tools (renderTool names)) body
  let body := Json.setSome "temperature" (req.temperature.map Json.float32) body
  let body := Json.setSome "reasoning"
    (req.effort.map (fun e => .obj [("effort", .str e.asStr)])) body
  let body := Json.setSome "tool_choice" (req.toolChoice.map (renderToolChoice names)) body
  let body := Json.setSome "text"
    (req.responseFormat.map (fun format => .obj [("format", renderResponseFormat format)])) body
  Json.setSome "previous_response_id" (req.previousResponseId.map Json.str) body

/-- Canonical to Responses wire JSON. -/
def renderRequest (toStr : Json → String) (req : HubRequest) (upstreamModel : String) : Rendered :=
  if req.stop.isEmpty then .ok (.obj (renderBody toStr req upstreamModel))
  else .error ⟨"stop", .openAIResponses⟩

section Parse

def parseToolChoice (v : Json) : Option ToolChoice :=
  match v.asStr with
  | some "auto" => some .auto
  | some "required" => some .required
  | some "none" => some .none
  | some _ => none
  | none => v["name"].asStr.map ToolChoice.tool

def parseResponseFormat (v : Json) : Option ResponseFormat := do
  match ← v["type"].asStr with
  | "text" => return .text
  | "json_object" => return .jsonObject
  | "json_schema" =>
    return .jsonSchema (v["name"].asStr.getD "response") v["schema"] (v["strict"].asBool.getD false)
  | _ => none

def parseTool (t : Json) : Option Tool := do
  let name ← t["name"].asStr
  return {
    name := name, description := t["description"].asStr.getD "", inputSchema := t["parameters"] }

variable (toStr : Json → String) (fromStr : String → Option Json)

/-- Both directions, because a conversation replayed has items sent back before. -/
def parsePart (p : Json) : Option ContentBlock :=
  match p["type"].asStr.getD "" with
  | "input_text" | "output_text" | "text" => some (.text (p["text"].asStr.getD "") none)
  | "input_image" =>
    (splitDataUrl (p["image_url"].asStr.getD "")).map (fun (mediaType, data) =>
      .image mediaType data)
  | _ => none

def parseItemContent (content : Json) : List ContentBlock :=
  match content with
  | .str s => if s.isEmpty then [] else [.text s none]
  | .arr parts => parts.filterMap parsePart
  | _ => []

def parseOutput (output : Json) : String :=
  match output with
  | .str s => s
  | other => toStr other

/-- Fold one `input` item into the messages. -/
def parseInputItem (messages : List Message) (item : Json) : List Message :=
  match item["type"].asStr.getD "message" with
  | "function_call" =>
    ChatRequest.joinTurn .assistant (.toolUse (item["call_id"].asStr.getD "")
      (item["name"].asStr.getD "")
      ((item["arguments"].asStr.bind fromStr).getD (.obj []))) messages
  | "function_call_output" =>
    ChatRequest.joinTurn .user (.toolResult (item["call_id"].asStr.getD "")
      (.text (parseOutput toStr item["output"])) false) messages
  -- Reasoning items are opaque and cannot be replayed.
  | "reasoning" => messages
  | _ =>
    let content := parseItemContent item["content"]
    if content.isEmpty then messages
    else
      messages ++ [⟨if item["role"].asStr = some "assistant" then .assistant else .user, content⟩]

def parseInput (input : Json) : List Message :=
  match input with
  | .str s => [⟨.user, [.text s none]⟩]
  | .arr items => items.foldl (parseInputItem toStr fromStr) []
  | _ => []

/-- Responses wire JSON to canonical. -/
def parseRequest (body : Json) : HubRequest :=
  let effort := body["reasoning"]["effort"].asStr.bind Effort.parse
  { model := body["model"].asStr.getD ""
    system := ((body["instructions"].asStr.filter (fun s => !s.isEmpty)).map
      (fun s => ContentBlock.text s none)).toList
    messages := parseInput toStr fromStr body["input"]
    tools := (body["tools"].asArray.getD []).filterMap parseTool
    maxTokens := (body["max_output_tokens"].asU64.bind u32TryFrom).getD 4096
    stream := body["stream"].asBool.getD false
    temperature := body["temperature"].asF64.map Float.toFloat32
    thinkingBudget := effort.map Effort.asBudget
    thinkingEffort := effort
    clientSession := body["user"].asStr
    toolChoice := parseToolChoice body["tool_choice"]
    responseFormat := parseResponseFormat body["text"]["format"]
    previousResponseId := body["previous_response_id"].asStr }

end Parse

section Settings

variable (toStr : Json → String) (req : HubRequest) (upstreamModel : String)

theorem lookup_maxTokens : (renderBody toStr req upstreamModel).lookup "max_output_tokens" =
    some (.u32 req.maxTokens) := by
  simp (disch := decide) only [renderBody, Json.lookup_setSome_ne]
  rfl

theorem lookup_toolChoice : (renderBody toStr req upstreamModel).lookup "tool_choice" =
    req.toolChoice.map (renderToolChoice (WireNames.fromRequest req.toCanonicalRequest)) := by
  simp (disch := decide) only [renderBody, Json.lookup_setSome_ne]
  refine Json.lookup_setSome_self ?_ _
  simp (disch := decide) only [Json.lookup_setSome_ne]
  rfl

theorem lookup_text : (renderBody toStr req upstreamModel).lookup "text" =
    req.responseFormat.map (fun format => .obj [("format", renderResponseFormat format)]) := by
  simp (disch := decide) only [renderBody, Json.lookup_setSome_ne]
  refine Json.lookup_setSome_self ?_ _
  simp (disch := decide) only [Json.lookup_setSome_ne]
  rfl

theorem lookup_previousResponseId :
    (renderBody toStr req upstreamModel).lookup "previous_response_id" =
      req.previousResponseId.map Json.str := by
  refine Json.lookup_setSome_self ?_ _
  simp (disch := decide) only [Json.lookup_setSome_ne]
  rfl

variable (fromStr : String → Option Json)

theorem parseToolChoice_renderToolChoice (names : FunctionNameMap) (choice : Option ToolChoice) :
    parseToolChoice ((choice.map (renderToolChoice names)).getD .null) =
      choice.map (ToolChoice.rename names.wire) := by
  cases choice with
  | none => rfl
  | some choice => cases choice <;> rfl

theorem parseRequest_toolChoice :
    (parseRequest toStr fromStr (.obj (renderBody toStr req upstreamModel))).toolChoice =
      req.toolChoice.map
        (ToolChoice.rename (WireNames.fromRequest req.toCanonicalRequest).wire) := by
  change parseToolChoice (Json.obj (renderBody toStr req upstreamModel))["tool_choice"] = _
  rw [Json.getElem_obj, lookup_toolChoice, parseToolChoice_renderToolChoice]

theorem parseRequest_responseFormat :
    (parseRequest toStr fromStr (.obj (renderBody toStr req upstreamModel))).responseFormat =
      req.responseFormat := by
  change parseResponseFormat (Json.obj (renderBody toStr req upstreamModel))["text"]["format"] = _
  rw [Json.getElem_obj, lookup_text]
  cases req.responseFormat with
  | none => rfl
  | some format => cases format <;> rfl

theorem parseRequest_maxTokens :
    (parseRequest toStr fromStr (.obj (renderBody toStr req upstreamModel))).maxTokens =
      req.maxTokens := by
  change ((Json.obj (renderBody toStr req upstreamModel))["max_output_tokens"].asU64.bind
    u32TryFrom).getD 4096 = _
  rw [Json.getElem_obj, lookup_maxTokens, Option.getD_some, Json.asU64_u32, Option.bind_some,
    u32TryFrom_toNat, Option.getD_some]

theorem parseRequest_previousResponseId :
    (parseRequest toStr fromStr (.obj (renderBody toStr req upstreamModel))).previousResponseId =
      req.previousResponseId := by
  change (Json.obj (renderBody toStr req upstreamModel))["previous_response_id"].asStr = _
  rw [Json.getElem_obj, lookup_previousResponseId]
  cases req.previousResponseId with
  | none => rfl
  | some id => rfl

end Settings

end OpenAIGateway.ResponsesRequest
