import OpenAIGateway.AnthropicParse
import OpenAIGateway.ChatParse
import OpenAIGateway.GeminiParse
import OpenAIGateway.ResponsesParse

/-!
A collected answer as one body in the client's dialect. Every pair goes through
the same hub: the events become an Anthropic message, and the converter of the
client's dialect takes that message. `fromStr` is serde_json's parser and
`toStr` its printer.
-/

set_option linter.all false

namespace OpenAIGateway

section Hub

variable (fromStr : String → Option Json)

/-- A content block under assembly. -/
inductive OpenBlock
  | text (text : String)
  | thinking (text : String)
  | tool (id name input : String)
  deriving DecidableEq, Repr

/-- The finished block. Fragments that never became JSON render as empty. -/
def OpenBlock.intoJson : OpenBlock → Json
  | .text words => .obj [("type", .str "text"), ("text", .str words)]
  | .thinking words => .obj [("type", .str "thinking"), ("thinking", .str words)]
  | .tool id name input => .obj [("type", .str "tool_use"), ("id", .str id), ("name", .str name),
      ("input", (fromStr input).getD (.obj []))]

/-- What the hub carries from event to event. -/
structure Hub where
  content : List Json := []
  block : Option OpenBlock := none
  usage : Usage := {}
  stopReason : Option StopReason := none
  model : String := ""

namespace Hub

/-- Close the open block, if any, into the content. -/
def closeBlock (hub : Hub) : Hub :=
  { hub with block := none, content := hub.content ++ hub.block.toList.map (OpenBlock.intoJson fromStr) }

def event (hub : Hub) : StreamEvent → Hub
  | .start announced usage =>
      { hub with model := adoptModel hub.model announced, usage := hub.usage.merge usage }
  | .usageUpdate usage => { hub with usage := hub.usage.merge usage }
  | .textDelta text =>
      match hub.block with
      | some (.text buf) => { hub with block := some (.text (buf ++ text)) }
      | _ => { hub.closeBlock fromStr with block := some (.text text) }
  | .thinkingDelta text =>
      match hub.block with
      | some (.thinking buf) => { hub with block := some (.thinking (buf ++ text)) }
      | _ => { hub.closeBlock fromStr with block := some (.thinking text) }
  | .toolUseStart id name => { hub.closeBlock fromStr with block := some (.tool id name "") }
  | .toolUseDelta id partialJson =>
      match hub.block with
      | some (.tool openId name input) =>
          if openId = id then { hub with block := some (.tool openId name (input ++ partialJson)) }
          else { hub.closeBlock fromStr with block := some (.tool id id partialJson) }
      | _ => { hub.closeBlock fromStr with block := some (.tool id id partialJson) }
  | .toolUseEnd _ => hub.closeBlock fromStr
  | .stop reason usage => { hub with usage := hub.usage.merge usage, stopReason := some reason }
  | .error _ => hub

end Hub

namespace Anthropic

/-- A message with a call in it stops for the call. -/
def normalised (reason : StopReason) (hasToolUse : Bool) : StopReason :=
  match reason with
  | .endTurn => if hasToolUse then .toolUse else .endTurn
  | reason => reason

/-- Canonical events to a complete Anthropic Messages response body. -/
def renderFromEvents (events : List StreamEvent) (requestId model : String) : Json :=
  let hub := (events.foldl (Hub.event fromStr) { model := model }).closeBlock fromStr
  let hasToolUse := hub.content.any (fun b => b["type"].asStr = some "tool_use")
  .obj [("id", .str ("msg_" ++ requestId)), ("type", .str "message"), ("role", .str "assistant"),
    ("model", .str hub.model), ("content", .arr hub.content),
    ("stop_reason", (hub.stopReason.map (fun reason =>
      .str (stopReasonStr (normalised reason hasToolUse)))).getD .null),
    ("stop_sequence", .null), ("usage", usageJson hub.usage)]

end Anthropic

end Hub

section Converters

variable (toStr : Json → String)

/-- The blocks of an Anthropic message. -/
def blocksOf (anthropic : Json) : List Json := anthropic["content"].asArray.getD []

/-- The text of the blocks of one kind, run together. -/
def joined (kind : String) (blocks : List Json) : String :=
  blocks.foldl (fun text block =>
    if block["type"].asStr.getD "" = kind then text ++ block[kind].asStr.getD "" else text) ""

/-- What a converter makes of every call among the blocks. -/
def callsOf (call : Json → Json) (blocks : List Json) : List Json :=
  blocks.flatMap (fun block =>
    if block["type"].asStr.getD "" = "tool_use" then [call block] else [])

/-- The word an Anthropic message stopped with. -/
def stopWord (anthropic : Json) : String := anthropic["stop_reason"].asStr.getD "end_turn"

section Counts

variable (anthropic : Json)

def inputCount : ℕ := anthropic["usage"]["input_tokens"].asU64.getD 0

def cachedCount : ℕ := anthropic["usage"]["cache_read_input_tokens"].asU64.getD 0

def writtenCount : ℕ := anthropic["usage"]["cache_creation_input_tokens"].asU64.getD 0

def outputCount : ℕ := anthropic["usage"]["output_tokens"].asU64.getD 0

/-- Every prompt-side token. -/
def promptCount : ℕ :=
  wrappingAdd (wrappingAdd (inputCount anthropic) (cachedCount anthropic)) (writtenCount anthropic)

end Counts

namespace Chat

def finishOf (stop : String) : String :=
  match stop with
  | "max_tokens" => "length"
  | "tool_use" => "tool_calls"
  | "refusal" => "content_filter"
  | _ => "stop"

def wholeCall (block : Json) : Json :=
  .obj [("id", block["id"]), ("type", .str "function"),
    ("function", .obj [("name", block["name"]), ("arguments", .str (toStr block["input"]))])]

/-- The message of a completion. Its content is null when the turn is only calls. -/
def message (text thinking : String) (toolCalls : List Json) : Json :=
  let content : Json := if !toolCalls.isEmpty && text.isEmpty then .null else .str text
  .obj ([("role", .str "assistant"), ("content", content)] ++
    (if thinking.isEmpty then [] else [("reasoning_content", .str thinking)]) ++
    (if toolCalls.isEmpty then [] else [("tool_calls", .arr toolCalls)]))

/-- An Anthropic Messages response to a Chat Completions response. -/
def renderCompletion (anthropic : Json) (requestId : String) : Json :=
  let blocks := blocksOf anthropic
  .obj [("id", .str ("chatcmpl-" ++ requestId)), ("object", .str "chat.completion"),
    ("created", .nat 0), ("model", anthropic["model"]),
    ("choices", .arr [.obj [("index", .nat 0),
      ("message", message (joined "text" blocks) (joined "thinking" blocks)
        (callsOf (wholeCall toStr) blocks)),
      ("finish_reason", .str (finishOf (stopWord anthropic)))]]),
    ("usage", .obj [("prompt_tokens", .nat (promptCount anthropic)),
      ("completion_tokens", .nat (outputCount anthropic)),
      ("total_tokens", .nat (wrappingAdd (promptCount anthropic) (outputCount anthropic))),
      ("prompt_tokens_details", .obj [("cached_tokens", .nat (cachedCount anthropic))])])]

end Chat

namespace Gemini

def finishOf (stop : String) : String :=
  match stop with
  | "max_tokens" => "MAX_TOKENS"
  | "refusal" => "SAFETY"
  | _ => "STOP"

/-- A block as a part. Reasoning is a text part flagged `thought`. -/
def partOf (block : Json) : List Json :=
  match block["type"].asStr.getD "" with
  | "text" => [.obj [("text", block["text"])]]
  | "thinking" => [.obj [("text", block["thinking"]), ("thought", .bool true)]]
  | "tool_use" =>
      [.obj [("functionCall", .obj [("name", block["name"]), ("args", block["input"])])]]
  | _ => []

/-- An Anthropic Messages response to a Gemini `generateContent` response. -/
def renderMessageResponse (anthropic : Json) : Json :=
  .obj [("candidates", .arr [.obj [
      ("content", .obj [("role", .str "model"),
        ("parts", .arr ((blocksOf anthropic).flatMap partOf))]),
      ("finishReason", .str (finishOf (stopWord anthropic))), ("index", .nat 0)]]),
    ("usageMetadata", .obj [("promptTokenCount", .nat (promptCount anthropic)),
      ("cachedContentTokenCount", .nat (cachedCount anthropic)),
      ("candidatesTokenCount", .nat (outputCount anthropic)),
      ("totalTokenCount", .nat (wrappingAdd (promptCount anthropic) (outputCount anthropic)))])]

end Gemini

namespace Responses

/-- A call as an output item, numbered by the items before it. -/
def wholeCalls (requestId : String) (count : ℕ) : List Json → List Json
  | [] => []
  | block :: rest =>
      if block["type"].asStr.getD "" = "tool_use" then
        .obj [("id", .str ("fc_" ++ requestId ++ "_" ++ toString count)),
          ("type", .str "function_call"), ("status", .str "completed"),
          ("call_id", block["id"]), ("name", block["name"]),
          ("arguments", .str (toStr block["input"]))] :: wholeCalls requestId (count + 1) rest
      else wholeCalls requestId count rest

/-- The output: the reasoning before the message, the message before the calls. -/
def output (blocks : List Json) (requestId : String) : List Json :=
  let text := joined "text" blocks
  let thinking := joined "thinking" blocks
  (if thinking.isEmpty then [] else [.obj [("id", .str ("rs_" ++ requestId ++ "_0")),
    ("type", .str "reasoning"), ("status", .str "completed"),
    ("summary", .arr [summaryPart thinking])]]) ++
  (if text.isEmpty then [] else [messageItem ("msg_" ++ requestId ++ "_0") "completed"
    [outputPart text]]) ++
  wholeCalls toStr requestId 0 blocks

/-- An Anthropic Messages response to a Responses response. -/
def renderResponse (anthropic : Json) (requestId : String) : Json :=
  let stop := stopWord anthropic
  let incomplete := stop = "max_tokens" ∨ stop = "refusal"
  .obj ([("id", .str ("resp_" ++ requestId)), ("object", .str "response"), ("created_at", .nat 0),
      ("status", .str (if incomplete then "incomplete" else "completed")),
      ("model", anthropic["model"]),
      ("output", .arr (output toStr (blocksOf anthropic) requestId)),
      ("usage", .obj [("input_tokens", .nat (promptCount anthropic)),
        ("input_tokens_details", .obj [("cached_tokens", .nat (cachedCount anthropic))]),
        ("output_tokens", .nat (outputCount anthropic)),
        ("output_tokens_details", .obj [("reasoning_tokens", .nat 0)]),
        ("total_tokens", .nat (wrappingAdd (promptCount anthropic) (outputCount anthropic)))])] ++
    (if incomplete then [("incomplete_details", .obj [("reason",
      .str (if stop = "max_tokens" then "max_output_tokens" else "content_filter"))])] else []))

end Responses

/-- Render a collected answer as one body in the client's dialect. -/
def renderCollected (fromStr : String → Option Json) (events : List StreamEvent)
    (ingress : Dialect) (requestId model : String) : Json :=
  let hub := Anthropic.renderFromEvents fromStr events requestId model
  match ingress with
  | .anthropicMessages => hub
  | .openAIChatCompletions => Chat.renderCompletion toStr hub requestId
  | .geminiGenerateContent => Gemini.renderMessageResponse hub
  | .openAIResponses => Responses.renderResponse toStr hub requestId

end Converters

end OpenAIGateway
