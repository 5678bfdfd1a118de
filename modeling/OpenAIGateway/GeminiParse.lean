import OpenAIGateway.ClientStream

/-!
Reading the Gemini dialect. A whole response is one chunk's candidates and
usage, so a stream's chunks and a complete body have one reader. A call has no
id on the wire: it is known by its function's name and its place among the
calls of the response. `fromStr` is serde_json's parser and `toStr` its printer.
-/

set_option linter.all false

namespace OpenAIGateway.Gemini

/-- The canonical id for the `ordinal`-th call of a response, to `name`. -/
def callId (name : String) (ordinal : ℕ) : String :=
  if ordinal = 0 then name else name ++ "#" ++ toString ordinal

/-- `promptTokenCount` includes the cached prefix, which is taken back out. -/
def parseUsage (v : Json) : Usage where
  inputTokens := v["promptTokenCount"].asU64.getD 0 - v["cachedContentTokenCount"].asU64.getD 0
  outputTokens := v["candidatesTokenCount"].asU64.getD 0
  cacheReadTokens := v["cachedContentTokenCount"].asU64.getD 0
  cacheWriteTokens := 0

variable (toStr : Json → String)

/-- The text of a part, which is reasoning when it is flagged so. -/
def partText (part : Json) : List StreamEvent :=
  (part["text"].asStr.filter (fun s => !s.isEmpty)).toList.map (fun text =>
    if part["thought"].asBool.getD false then .thinkingDelta text else .textDelta text)

/-- The call of a part, the `calls`-th of the response. -/
def partCall (calls : ℕ) (part : Json) : List StreamEvent :=
  (part.get "functionCall").toList.flatMap (fun call =>
    let name := call["name"].asStr.getD ""
    let id := callId name calls
    [.toolUseStart id name, .toolUseDelta id (toStr call["args"]), .toolUseEnd id])

/-- The parts of a chunk, with the number of calls after them. -/
def parseParts (calls : ℕ) : List Json → ℕ × List StreamEvent
  | [] => (calls, [])
  | part :: rest =>
      let more := parseParts (if (part.get "functionCall").isSome then calls + 1 else calls) rest
      (more.1, partText part ++ partCall toStr calls part ++ more.2)

/-- Why the response ended, from its word and what it called. -/
def finishReason (raw : String) (calledATool : Bool) : StopReason :=
  match raw with
  | "MAX_TOKENS" => .maxTokens
  | "SAFETY" | "PROHIBITED_CONTENT" | "BLOCKLIST" => .refusal
  | _ => if calledATool then .toolUse else .endTurn

/-- One chunk, or one whole body, to canonical events. `priorCalls` is how many calls the earlier
chunks of the stream carried. -/
def parseChunk (v : Json) (priorCalls : ℕ) : List StreamEvent :=
  let usage := (v.get "usageMetadata").map parseUsage
  usage.toList.map .usageUpdate ++
    match v["candidates"].asArray.bind List.head? with
    | none => []
    | some candidate =>
        let (calls, events) := parseParts toStr priorCalls
          (candidate["content"]["parts"].asArray.getD [])
        events ++ (candidate["finishReason"].asStr.filter (fun s => !s.isEmpty)).toList.map
          (fun reason => .stop (finishReason reason (decide (0 < calls))) (usage.getD {}))

/-- One SSE `data:` payload to canonical events; nothing when it is not JSON. -/
def parseEvent (fromStr : String → Option Json) : ParseEvent := fun payload acc =>
  (fromStr payload).map (fun v => (acc, parseChunk toStr v acc.toolCalls))

/-- A complete response to the events its stream would have carried. -/
def parseResponse (v : Json) : List StreamEvent := parseChunk toStr v 0

end OpenAIGateway.Gemini
