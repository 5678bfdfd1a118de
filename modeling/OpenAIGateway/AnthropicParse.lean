import OpenAIGateway.ClientStream

/-!
Reading the Anthropic Messages dialect: one `data:` payload of a stream, or a
complete body, to canonical events. Deltas address blocks by index, so a
fragment of arguments is the call's that opened last; a block that stops ends
the call still open, if there is one. `fromStr` is serde_json's parser and
`toStr` its printer.
-/

set_option linter.all false

namespace OpenAIGateway.Anthropic

def parseUsage (v : Json) : Usage where
  inputTokens := v["input_tokens"].asU64.getD 0
  outputTokens := v["output_tokens"].asU64.getD 0
  cacheReadTokens := v["cache_read_input_tokens"].asU64.getD 0
  cacheWriteTokens := v["cache_creation_input_tokens"].asU64.getD 0

def parseStopReason (raw : String) : StopReason :=
  match raw with
  | "max_tokens" => .maxTokens
  | "stop_sequence" => .stopSequence
  | "tool_use" => .toolUse
  | "refusal" => .refusal
  | _ => .endTurn

/-- Only tool blocks need an opening event. -/
def openingEvents (block : Json) : List StreamEvent :=
  match block["type"].asStr.getD "" with
  | "tool_use" => [.toolUseStart (block["id"].asStr.getD "") (block["name"].asStr.getD "")]
  | _ => []

def deltaEvents (delta : Json) (acc : StreamAccumulator) : List StreamEvent :=
  match delta["type"].asStr.getD "" with
  | "text_delta" => [.textDelta (delta["text"].asStr.getD "")]
  | "thinking_delta" => [.thinkingDelta (delta["thinking"].asStr.getD "")]
  | "input_json_delta" =>
      [.toolUseDelta (acc.currentToolId.getD "") (delta["partial_json"].asStr.getD "")]
  | _ => []

/-- The events of a parsed payload. -/
def payloadEvents (v : Json) (acc : StreamAccumulator) : List StreamEvent :=
  match v["type"].asStr.getD "" with
  | "message_start" =>
      [.start (v["message"]["model"].asStr.getD "") (parseUsage v["message"]["usage"])]
  | "content_block_start" => openingEvents v["content_block"]
  | "content_block_delta" => deltaEvents v["delta"] acc
  | "content_block_stop" => acc.openTool.toList.map .toolUseEnd
  | "message_delta" =>
      .usageUpdate (parseUsage v["usage"]) :: v["delta"]["stop_reason"].asStr.toList.map
        (fun reason => .stop (parseStopReason reason) (parseUsage v["usage"]))
  | "error" => [.error (v["error"]["message"].asStr.getD "upstream error")]
  | _ => []

/-- One SSE `data:` payload to canonical events; nothing when it is not JSON. -/
def parseEvent (fromStr : String → Option Json) : ParseEvent := fun payload acc =>
  (fromStr payload).map (fun v => (acc, payloadEvents v acc))

variable (toStr : Json → String)

/-- A block of a complete message; a call's arguments come whole. -/
def parseBlock (block : Json) : List StreamEvent :=
  match block["type"].asStr.getD "" with
  | "text" => [.textDelta (block["text"].asStr.getD "")]
  | "thinking" => [.thinkingDelta (block["thinking"].asStr.getD "")]
  | "tool_use" =>
      let id := block["id"].asStr.getD ""
      [.toolUseStart id (block["name"].asStr.getD ""), .toolUseDelta id (toStr block["input"]),
        .toolUseEnd id]
  | _ => []

/-- A complete response to the events its stream would have carried. -/
def parseResponse (body : Json) : List StreamEvent :=
  let usage := parseUsage body["usage"]
  .usageUpdate usage :: (body["content"].asArray.getD []).flatMap (parseBlock toStr) ++
    body["stop_reason"].asStr.toList.map (fun reason => .stop (parseStopReason reason) usage)

end OpenAIGateway.Anthropic
