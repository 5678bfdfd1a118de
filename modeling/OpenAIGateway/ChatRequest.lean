import OpenAIGateway.HubRequest
import OpenAIGateway.WireNames

/-!
Requests in the OpenAI Chat Completions dialect. The system prompt is a message
here, a tool's result is a message of its own, and a function's name is sent as
the wire takes it. There is no stored response to continue from.
-/

set_option linter.all false

namespace OpenAIGateway

/-- `data:image/png;base64,AAAA` as its media type and payload. -/
def splitDataUrl (url : String) : Option (String × String) :=
  if "data:".toList <+: url.toList then
    splitOnce ";base64,".toList [] (url.toList.drop 5)
  else none
where
  /-- The text before the first occurrence of a separator, and the text after it. -/
  splitOnce (separator seen : List Char) : List Char → Option (String × String)
    | [] => none
    | c :: rest =>
      if separator <+: c :: rest then
        some (String.ofList seen, String.ofList ((c :: rest).drop separator.length))
      else splitOnce separator (seen ++ [c]) rest

/-- An image as the URL both OpenAI dialects take it in. -/
def dataUrl (mediaType data : String) : String := "data:" ++ mediaType ++ ";base64," ++ data

/-- The named tool under another name. -/
def ToolChoice.rename (f : String → String) : ToolChoice → ToolChoice
  | .tool name => .tool (f name)
  | choice => choice

namespace ChatRequest

/-- Whether the model refuses `max_tokens` and wants `max_completion_tokens`: the o-series, and
gpt-5 and later. -/
def reasoningModel (upstreamModel : String) : Bool :=
  let name := (splitAny ['/'] upstreamModel.toList).getLastD []
  let oSeries :=
    match name with
    | 'o' :: c :: _ => c.isDigit
    | _ => false
  let major := if "gpt-".toList <+: name then
      (splitAny ['.', '-'] (name.drop 4)).head?.bind parseU32
    else none
  oSeries || major.any (fun major => 5 ≤ major)

section Render

variable (toStr : Json → String) (names : FunctionNameMap)

def renderToolChoice (choice : ToolChoice) : Json :=
  match choice with
  | .auto => .str "auto"
  | .required => .str "required"
  | .none => .str "none"
  | .tool name =>
    .obj [("type", .str "function"), ("function", .obj [("name", .str (names.wire name))])]

def renderResponseFormat (format : ResponseFormat) : Json :=
  match format with
  | .text => .obj [("type", .str "text")]
  | .jsonObject => .obj [("type", .str "json_object")]
  | .jsonSchema name schema strict =>
    .obj [("type", .str "json_schema"),
      ("json_schema", .obj [("name", .str name), ("schema", schema), ("strict", .bool strict)])]

def renderTool (t : Tool) : Json :=
  .obj [("type", .str "function"),
    ("function", .obj [("name", .str (names.wire t.name)), ("description", .str t.description),
      ("parameters", t.inputSchema)])]

/-- A result is a message of its own, whatever turn it arrived in. -/
def renderResult : ContentBlock → Option Json
  | .toolResult toolUseId content _ =>
    some (.obj [("role", .str "tool"), ("tool_call_id", .str toolUseId),
      ("content", .str content.asText)])
  | _ => none

/-- A call's arguments are a JSON string here. -/
def renderCall : ContentBlock → Option Json
  | .toolUse id name input =>
    some (.obj [("id", .str id), ("type", .str "function"),
      ("function", .obj [("name", .str (names.wire name)), ("arguments", .str (toStr input))])])
  | _ => none

def renderImage : ContentBlock → Option Json
  | .image mediaType data =>
    some (.obj [("type", .str "image_url"),
      ("image_url", .obj [("url", .str (dataUrl mediaType data))])])
  | _ => none

def renderRole (role : Role) : String :=
  match role with
  | .assistant => "assistant"
  | .system => "system"
  | _ => "user"

/-- One canonical message becomes one or more wire messages. -/
def renderMessage (m : Message) : List Json :=
  let results := m.content.filterMap renderResult
  let text := String.intercalate "" (blockTexts m.content)
  let toolCalls := m.content.filterMap (renderCall toStr names)
  let images := m.content.filterMap renderImage
  if text.isEmpty && toolCalls.isEmpty && images.isEmpty then results
  else
    let content :=
      if images.isEmpty then .str text
      else .arr (.obj [("type", .str "text"), ("text", .str text)] :: images)
    let calls := if toolCalls.isEmpty then none else some (.arr toolCalls)
    results ++ [.obj (Json.setSome "tool_calls" calls
      [("role", .str (renderRole m.role)), ("content", content)])]

/-- The system prompt becomes a message, and comes first. -/
def renderSystem (system : List ContentBlock) : List Json :=
  let text := String.intercalate "\n\n" (blockTexts system)
  if system.isEmpty || text.isEmpty then []
  else [.obj [("role", .str "system"), ("content", .str text)]]

end Render

/-- One spelling of the ceiling, chosen by the model. -/
def maxTokensKey (upstreamModel : String) : String :=
  if reasoningModel upstreamModel then "max_completion_tokens" else "max_tokens"

def renderBody (toStr : Json → String) (req : HubRequest) (upstreamModel : String) :
    List (String × Json) :=
  let names := WireNames.fromRequest req.toCanonicalRequest
  let messages := renderSystem req.system ++ req.messages.flatMap (renderMessage toStr names)
  let body := [("model", .str upstreamModel), ("messages", .arr messages),
    ("stream", .bool req.stream)]
  let body := Json.setMember (maxTokensKey upstreamModel) (.u32 req.maxTokens) body
  let body := Json.setSome "reasoning_effort" (req.effort.map (fun e => .str e.asStr)) body
  let body := Json.setSome "stream_options"
    (if req.stream then some (.obj [("include_usage", .bool true)]) else none) body
  let body := Json.setSome "tools" (Json.nonEmpty req.tools (renderTool names)) body
  let body := Json.setSome "temperature" (req.temperature.map Json.float32) body
  let body := Json.setSome "tool_choice" (req.toolChoice.map (renderToolChoice names)) body
  let body := Json.setSome "response_format" (req.responseFormat.map renderResponseFormat) body
  Json.setSome "stop" (Json.nonEmpty req.stop Json.str) body

/-- Canonical to Chat Completions wire JSON. -/
def renderRequest (toStr : Json → String) (req : HubRequest) (upstreamModel : String) : Rendered :=
  if req.previousResponseId.isSome then
    .error ⟨"previous_response_id", .openAIChatCompletions⟩
  else .ok (.obj (renderBody toStr req upstreamModel))

section Parse

/-- The words, or the object form that names one tool, nested or flat. -/
def parseToolChoice (v : Json) : Option ToolChoice :=
  match v.asStr with
  | some "auto" => some .auto
  | some "required" | some "any" => some .required
  | some "none" => some .none
  | some _ => none
  | none => (v["function"]["name"].asStr.or v["name"].asStr).map ToolChoice.tool

def parseResponseFormat (v : Json) : Option ResponseFormat := do
  match ← v["type"].asStr with
  | "text" => return .text
  | "json_object" => return .jsonObject
  | "json_schema" =>
    let s := v["json_schema"]
    return .jsonSchema (s["name"].asStr.getD "response") s["schema"] (s["strict"].asBool.getD false)
  | _ => none

/-- `stop` is a bare string or an array of them. -/
def parseStop (v : Json) : List String :=
  match v with
  | .str s => [s]
  | .arr items => items.filterMap Json.asStr
  | _ => []

def parseTool (v : Json) : Option Tool := do
  let f := v["function"]
  let name ← f["name"].asStr
  return {
    name := name, description := f["description"].asStr.getD "", inputSchema := f["parameters"] }

variable (toStr : Json → String) (fromStr : String → Option Json)

def parseSystemContent (content : Json) : List ContentBlock :=
  match content with
  | .str text => [.text text none]
  | .arr parts => (parts.filterMap (fun p => p["text"].asStr)).map (fun text => .text text none)
  | _ => []

def parseResultText (content : Json) : String :=
  match content with
  | .str s => s
  | .arr parts => String.intercalate "\n" (parts.filterMap (fun p => p["text"].asStr))
  | other => toStr other

def parsePart (p : Json) : Option ContentBlock :=
  match p["type"].asStr.getD "" with
  | "text" => some (.text (p["text"].asStr.getD "") none)
  | "image_url" =>
    (splitDataUrl (p["image_url"]["url"].asStr.getD "")).map (fun (mediaType, data) =>
      .image mediaType data)
  | _ => none

def parseTurnContent (content : Json) : List ContentBlock :=
  match content with
  | .str s => if s.isEmpty then [] else [.text s none]
  | .arr parts => parts.filterMap parsePart
  | _ => []

def parseCall (call : Json) : ContentBlock :=
  .toolUse (call["id"].asStr.getD "") (call["function"]["name"].asStr.getD "")
    ((call["function"]["arguments"].asStr.bind fromStr).getD (.obj []))

/-- A block joins the last message when that is a turn of this role, else begins one. -/
def joinTurn (role : Role) (block : ContentBlock) (messages : List Message) : List Message :=
  match messages.getLast? with
  | some last =>
    if last.role = role then messages.dropLast ++ [{ last with content := last.content ++ [block] }]
    else messages ++ [⟨role, [block]⟩]
  | none => [⟨role, [block]⟩]

/-- Fold one wire message into the system prompt or the messages. -/
def parseOneMessage (parsed : List ContentBlock × List Message) (m : Json) :
    List ContentBlock × List Message :=
  let role := m["role"].asStr.getD "user"
  if role = "system" ∨ role = "developer" then
    (parsed.1 ++ parseSystemContent m["content"], parsed.2)
  else if role = "tool" then
    (parsed.1, joinTurn .user (.toolResult (m["tool_call_id"].asStr.getD "")
      (.text (parseResultText toStr m["content"])) false) parsed.2)
  else
    let content := parseTurnContent m["content"] ++
      (m["tool_calls"].asArray.getD []).map (parseCall fromStr)
    if content.isEmpty then parsed
    else
      (parsed.1, parsed.2 ++
        [⟨if m["role"].asStr = some "assistant" then .assistant else .user, content⟩])

/-- Chat Completions wire JSON to canonical. -/
def parseRequest (body : Json) : HubRequest :=
  let parsed := (body["messages"].asArray.getD []).foldl (parseOneMessage toStr fromStr) ([], [])
  let maxTokens := (body["max_completion_tokens"].asU64.or body["max_tokens"].asU64).getD 4096
  { model := body["model"].asStr.getD ""
    system := parsed.1
    messages := parsed.2
    tools := (body["tools"].asArray.getD []).filterMap parseTool
    maxTokens := (u32TryFrom maxTokens).getD 4096
    stream := body["stream"].asBool.getD false
    temperature := body["temperature"].asF64.map Float.toFloat32
    thinkingEffort := body["reasoning_effort"].asStr.bind Effort.parse
    clientSession := body["user"].asStr
    toolChoice := parseToolChoice body["tool_choice"]
    responseFormat := parseResponseFormat body["response_format"]
    stop := parseStop body["stop"] }

end Parse

section Settings

variable (toStr : Json → String) (req : HubRequest) (upstreamModel : String)

theorem lookup_setMaxTokens_ne {key : String} (hnew : key ≠ "max_completion_tokens")
    (hold : key ≠ "max_tokens") (value : Json) (members : List (String × Json)) :
    (Json.setMember (maxTokensKey upstreamModel) value members).lookup key =
      members.lookup key := by
  refine Json.lookup_setMember_ne ?_ value members
  unfold maxTokensKey
  by_cases hmodel : reasoningModel upstreamModel = true
  · rw [if_pos hmodel]
    exact hnew
  · rw [if_neg hmodel]
    exact hold

theorem lookup_toolChoice : (renderBody toStr req upstreamModel).lookup "tool_choice" =
    req.toolChoice.map (renderToolChoice (WireNames.fromRequest req.toCanonicalRequest)) := by
  simp (disch := decide) only [renderBody, Json.lookup_setSome_ne]
  refine Json.lookup_setSome_self ?_ _
  simp (disch := decide) only [Json.lookup_setSome_ne, lookup_setMaxTokens_ne]
  rfl

theorem lookup_responseFormat : (renderBody toStr req upstreamModel).lookup "response_format" =
    req.responseFormat.map renderResponseFormat := by
  simp (disch := decide) only [renderBody, Json.lookup_setSome_ne]
  refine Json.lookup_setSome_self ?_ _
  simp (disch := decide) only [Json.lookup_setSome_ne, lookup_setMaxTokens_ne]
  rfl

theorem lookup_stop : (renderBody toStr req upstreamModel).lookup "stop" =
    Json.nonEmpty req.stop Json.str := by
  refine Json.lookup_setSome_self ?_ _
  simp (disch := decide) only [Json.lookup_setSome_ne, lookup_setMaxTokens_ne]
  rfl

theorem lookup_maxTokens (key : String)
    (hkey : key = "max_completion_tokens" ∨ key = "max_tokens") :
    (renderBody toStr req upstreamModel).lookup key =
      if maxTokensKey upstreamModel = key then some (.u32 req.maxTokens) else none := by
  have hbase : (renderBody toStr req upstreamModel).lookup key =
      (Json.setMember (maxTokensKey upstreamModel) (.u32 req.maxTokens)
        [("model", .str upstreamModel),
          ("messages", .arr (renderSystem req.system ++ req.messages.flatMap
            (renderMessage toStr (WireNames.fromRequest req.toCanonicalRequest)))),
          ("stream", .bool req.stream)]).lookup key := by
    rcases hkey with rfl | rfl
    · simp (disch := decide) only [renderBody, Json.lookup_setSome_ne]
    · simp (disch := decide) only [renderBody, Json.lookup_setSome_ne]
  rw [hbase]
  by_cases hsame : maxTokensKey upstreamModel = key
  · rw [if_pos hsame, ← hsame, Json.lookup_setMember_self]
  · rw [if_neg hsame, Json.lookup_setMember_ne (Ne.symm hsame)]
    rcases hkey with rfl | rfl
    · rfl
    · rfl

variable (fromStr : String → Option Json)

theorem parseToolChoice_renderToolChoice (names : FunctionNameMap) (choice : Option ToolChoice) :
    parseToolChoice ((choice.map (renderToolChoice names)).getD .null) =
      choice.map (ToolChoice.rename names.wire) := by
  cases choice with
  | none => rfl
  | some choice => cases choice <;> rfl

theorem parseResponseFormat_renderResponseFormat (format : Option ResponseFormat) :
    parseResponseFormat ((format.map renderResponseFormat).getD .null) = format := by
  cases format with
  | none => rfl
  | some format => cases format <;> rfl

theorem parseStop_nonEmpty (stop : List String) :
    parseStop ((Json.nonEmpty stop Json.str).getD .null) = stop := by
  have hback : (((Json.nonEmpty stop Json.str).getD .null).asArray.getD []).filterMap Json.asStr =
      stop := Json.filterMap_nonEmpty (fun _ _ => rfl)
  cases stop with
  | nil => rfl
  | cons s stop => exact hback

theorem parseRequest_toolChoice :
    (parseRequest toStr fromStr (.obj (renderBody toStr req upstreamModel))).toolChoice =
      req.toolChoice.map
        (ToolChoice.rename (WireNames.fromRequest req.toCanonicalRequest).wire) := by
  change parseToolChoice (Json.obj (renderBody toStr req upstreamModel))["tool_choice"] = _
  rw [Json.getElem_obj, lookup_toolChoice, parseToolChoice_renderToolChoice]

theorem parseRequest_responseFormat :
    (parseRequest toStr fromStr (.obj (renderBody toStr req upstreamModel))).responseFormat =
      req.responseFormat := by
  change parseResponseFormat (Json.obj (renderBody toStr req upstreamModel))["response_format"] = _
  rw [Json.getElem_obj, lookup_responseFormat, parseResponseFormat_renderResponseFormat]

theorem parseRequest_stop :
    (parseRequest toStr fromStr (.obj (renderBody toStr req upstreamModel))).stop = req.stop := by
  change parseStop (Json.obj (renderBody toStr req upstreamModel))["stop"] = _
  rw [Json.getElem_obj, lookup_stop, parseStop_nonEmpty]

theorem parseRequest_maxTokens :
    (parseRequest toStr fromStr (.obj (renderBody toStr req upstreamModel))).maxTokens =
      req.maxTokens := by
  have hread : ((Json.obj (renderBody toStr req upstreamModel))["max_completion_tokens"].asU64.or
      (Json.obj (renderBody toStr req upstreamModel))["max_tokens"].asU64) =
        some req.maxTokens.toNat := by
    rw [Json.getElem_obj, Json.getElem_obj, lookup_maxTokens _ _ _ _ (Or.inl rfl),
      lookup_maxTokens _ _ _ _ (Or.inr rfl)]
    by_cases hmodel : reasoningModel upstreamModel = true
    · have hkey : maxTokensKey upstreamModel = "max_completion_tokens" := if_pos hmodel
      rw [hkey, if_pos rfl, Option.getD_some, Json.asU64_u32, Option.some_or]
    · have hkey : maxTokensKey upstreamModel = "max_tokens" := if_neg hmodel
      rw [hkey, if_neg (by decide), if_pos rfl, Option.getD_some, Json.asU64_u32]
      rfl
  change (u32TryFrom ((
    (Json.obj (renderBody toStr req upstreamModel))["max_completion_tokens"].asU64.or
    (Json.obj (renderBody toStr req upstreamModel))["max_tokens"].asU64).getD 4096)).getD 4096 = _
  rw [hread, Option.getD_some, u32TryFrom_toNat, Option.getD_some]

end Settings

end ChatRequest

end OpenAIGateway
