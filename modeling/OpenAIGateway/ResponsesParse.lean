import OpenAIGateway.ClientStream

/-!
Reading the Responses dialect: one `data:` payload of a stream, or a complete
body, to canonical events. Calls are announced when their output item is added
and their arguments go to the call opened last; the terminal event carries the
whole response, and its own reading of it decides the stop reason. `fromStr` is
serde_json's parser.
-/

set_option linter.all false

namespace OpenAIGateway.Responses

/-- `input_tokens` includes the cached prefix, which is taken back out. -/
def parseUsage (v : Json) : Usage where
  inputTokens := v["input_tokens"].asU64.getD 0 -
    v["input_tokens_details"]["cached_tokens"].asU64.getD 0
  outputTokens := v["output_tokens"].asU64.getD 0
  cacheReadTokens := v["input_tokens_details"]["cached_tokens"].asU64.getD 0
  cacheWriteTokens := 0

/-- Whether an item or a part is of this kind. -/
def isType (kind : String) (v : Json) : Bool := v["type"].asStr = some kind

def hasRefusal (item : Json) : Bool := (item["content"].asArray.getD []).any (isType "refusal")

/-- Why the response ended, from the reason it gave and what its output holds. -/
def stopReason (given : Option String) (refused calledATool : Bool) : StopReason :=
  match given with
  | some "max_output_tokens" => .maxTokens
  | some "content_filter" => .refusal
  | _ => if refused then .refusal else if calledATool then .toolUse else .endTurn

/-- The terminal event: usage, then the stop. The calls are looked for in the accumulator and in
the response's own output. -/
def terminalEvents (response : Json) (acc : StreamAccumulator) : List StreamEvent :=
  let usage := parseUsage response["usage"]
  let output := response["output"].asArray.getD []
  let calledATool := acc.sawToolCall || output.any (isType "function_call")
  [.usageUpdate usage,
    .stop (stopReason response["incomplete_details"]["reason"].asStr (output.any hasRefusal)
      calledATool) usage]

/-- The events of a parsed payload. -/
def payloadEvents (v : Json) (acc : StreamAccumulator) : List StreamEvent :=
  match v["type"].asStr.getD "" with
  | "response.created" =>
      [.start (v["response"]["model"].asStr.getD "") (parseUsage v["response"]["usage"])]
  | "response.output_text.delta" => [.textDelta (v["delta"].asStr.getD "")]
  | "response.reasoning_summary_text.delta" | "response.reasoning_text.delta" =>
      [.thinkingDelta (v["delta"].asStr.getD "")]
  | "response.output_item.added" =>
      if isType "function_call" v["item"] then
        [.toolUseStart (v["item"]["call_id"].asStr.getD "")
          (acc.restoreFunctionName (v["item"]["name"].asStr.getD ""))]
      else []
  | "response.function_call_arguments.delta" =>
      [.toolUseDelta (acc.currentToolId.getD "") (v["delta"].asStr.getD "")]
  | "response.output_item.done" =>
      if isType "function_call" v["item"] then
        [.toolUseEnd ((v["item"]["call_id"].asStr.or acc.currentToolId).getD "")]
      else []
  | "response.completed" | "response.incomplete" => terminalEvents v["response"] acc
  | "response.failed" | "error" =>
      [.error ((v["response"]["error"]["message"].asStr.or v["message"].asStr).getD "upstream error")]
  | _ => []

/-- One SSE `data:` payload to canonical events; nothing when it is not JSON. -/
def parseEvent (fromStr : String → Option Json) : ParseEvent := fun payload acc =>
  (fromStr payload).map (fun v => (acc, payloadEvents v acc))

/-- A part of a message: its text, or a refusal's own words. -/
def parsePart (part : Json) : List StreamEvent :=
  match part["type"].asStr.getD "" with
  | "output_text" => [.textDelta (part["text"].asStr.getD "")]
  | "refusal" => [.textDelta (part["refusal"].asStr.getD "")]
  | _ => []

def parseSummary (part : Json) : List StreamEvent :=
  (part["text"].asStr.filter (fun s => !s.isEmpty)).toList.map .thinkingDelta

/-- An item of a complete response's output. -/
def parseItem (item : Json) : List StreamEvent :=
  match item["type"].asStr.getD "" with
  | "message" => (item["content"].asArray.getD []).flatMap parsePart
  | "reasoning" => (item["summary"].asArray.getD []).flatMap parseSummary
  | "function_call" =>
      let id := item["call_id"].asStr.getD ""
      [.toolUseStart id (item["name"].asStr.getD ""),
        .toolUseDelta id (item["arguments"].asStr.getD ""), .toolUseEnd id]
  | _ => []

/-- A refusal part of a message item; other kinds of item are not looked into. -/
def refuses (item : Json) : Bool := isType "message" item && hasRefusal item

/-- A complete response to the events its stream would have carried. -/
def parseResponse (body : Json) : List StreamEvent :=
  let usage := parseUsage body["usage"]
  let output := body["output"].asArray.getD []
  .usageUpdate usage :: output.flatMap parseItem ++
    [.stop (stopReason body["incomplete_details"]["reason"].asStr (output.any refuses)
      (output.any (isType "function_call"))) usage]

end OpenAIGateway.Responses
