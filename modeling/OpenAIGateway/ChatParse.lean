import OpenAIGateway.Json
import OpenAIGateway.Stream

/-!
Reading a Chat Completions stream: one `data:` payload to canonical events.
Usage comes in a field of its own, most often in a chunk that follows the one
with the finish reason; calls announce their id once and are addressed by
index afterwards. `fromStr` is serde_json's parser.
-/

set_option linter.all false

namespace OpenAIGateway.Chat

variable (fromStr : String → Option Json)

/-- A string member that is there and not empty. -/
def nonEmptyStr (v : Json) : Option String := v.asStr.filter (fun s => !s.isEmpty)

/-- The prompt is reported in total, so the cached prefix is taken back out. -/
def parseUsage (v : Json) : Usage where
  inputTokens := v["prompt_tokens"].asU64.getD 0 -
    v["prompt_tokens_details"]["cached_tokens"].asU64.getD 0
  outputTokens := v["completion_tokens"].asU64.getD 0
  cacheReadTokens := v["prompt_tokens_details"]["cached_tokens"].asU64.getD 0
  cacheWriteTokens := 0

/-- A word that names the reason outright beats what arrived with it. -/
def finishReason (raw : String) (calledATool refused : Bool) : StopReason :=
  match raw with
  | "length" => .maxTokens
  | "tool_calls" | "function_call" => .toolUse
  | "content_filter" => .refusal
  | _ => if refused then .refusal else if calledATool then .toolUse else .endTurn

/-- The id of the `index`-th call, counting the accumulator's calls first and
this payload's after them. -/
def resolveOpened (opened : List String) (acc : StreamAccumulator) (index : ℕ) : Option String :=
  (acc.toolIdAt index).or
    (if acc.toolIds.length ≤ index then opened[index - acc.toolIds.length]? else none)

/-- One entry of `tool_calls`: the calls opened by this payload so far, with
this one's announcement and its argument fragment. -/
def parseCall (acc : StreamAccumulator) (opened : List String) (call : Json) :
    List String × List StreamEvent :=
  let announced := nonEmptyStr call["id"]
  let opened := opened ++ announced.toList
  let start := announced.toList.map (fun id =>
    StreamEvent.toolUseStart id
      (acc.restoreFunctionName (call["function"]["name"].asStr.getD "")))
  let fragment := (nonEmptyStr call["function"]["arguments"]).toList.map (fun args =>
    let id := ((announced.or ((call["index"].asU64).bind (resolveOpened opened acc))).or
      opened.getLast?).or acc.currentToolId
    StreamEvent.toolUseDelta (id.getD "") args)
  (opened, start ++ fragment)

def parseCalls (acc : StreamAccumulator) (opened : List String) :
    List Json → List String × List StreamEvent
  | [] => (opened, [])
  | call :: rest =>
      let (opened, events) := parseCall acc opened call
      let (opened, more) := parseCalls acc opened rest
      (opened, events ++ more)

/-- The finish ends every call, then the response. -/
def finishEvents (acc : StreamAccumulator) (opened : List String) (reason : String) :
    List StreamEvent :=
  let ended := acc.toolIds ++ opened.filter (fun id => id ∉ acc.toolIds)
  ended.map .toolUseEnd ++
    [.stop (finishReason reason (acc.sawToolCall || !opened.isEmpty) acc.sawRefusal) {}]

/-- The first choice of a chunk. A refusal is text, and is noted as one. -/
def parseChoice (choice : Json) (acc : StreamAccumulator) :
    StreamAccumulator × List StreamEvent :=
  let delta := choice["delta"]
  let content := (nonEmptyStr delta["content"]).toList.map .textDelta
  let refusal := nonEmptyStr delta["refusal"]
  let acc := if refusal.isSome then acc.noteRefusal else acc
  let reasoning := ((delta["reasoning_content"].asStr.or delta["reasoning"].asStr).filter
    (fun s => !s.isEmpty)).toList.map .thinkingDelta
  let (opened, calls) := parseCalls acc [] (delta["tool_calls"].asArray.getD [])
  let finish := (nonEmptyStr choice["finish_reason"]).toList.flatMap (finishEvents acc opened)
  (acc, content ++ refusal.toList.map .textDelta ++ reasoning ++ calls ++ finish)

/-- The usage a chunk reports, if it reports any. -/
def reported (v : Json) : Option Usage :=
  ((v.get "usage").filter (fun u => !u.isNull)).map parseUsage

def firstChoice (v : Json) : Option Json := v["choices"].asArray.bind List.head?

/-- One SSE `data:` payload to canonical events; nothing when it is not JSON. -/
def parseEvent (payload : String) (acc : StreamAccumulator) :
    Option (StreamAccumulator × List StreamEvent) :=
  if payload = "[DONE]" then some (acc, [])
  else
    (fromStr payload).map (fun v =>
      let usage := (reported v).toList.map .usageUpdate
      match firstChoice v with
      | none => (acc, usage)
      | some choice =>
          let (acc, events) := parseChoice choice acc
          (acc, usage ++ events))

/-- A call of a complete message; its arguments come whole. -/
def parseWholeCall (call : Json) : List StreamEvent :=
  let id := call["id"].asStr.getD ""
  [.toolUseStart id (call["function"]["name"].asStr.getD ""),
    .toolUseDelta id (call["function"]["arguments"].asStr.getD ""), .toolUseEnd id]

/-- A complete response to the events its stream would have carried. -/
def parseResponse (body : Json) : List StreamEvent :=
  let usage := parseUsage body["usage"]
  let choice := (firstChoice body).getD .null
  let message := choice["message"]
  let refusal := nonEmptyStr message["refusal"]
  let reasoning := (message["reasoning_content"].asStr.or message["reasoning"].asStr).filter
    (fun s => !s.isEmpty)
  let calls := message["tool_calls"].asArray.getD []
  .usageUpdate usage :: (nonEmptyStr message["content"]).toList.map .textDelta ++
    refusal.toList.map .textDelta ++ reasoning.toList.map .thinkingDelta ++
    calls.flatMap parseWholeCall ++
    (nonEmptyStr choice["finish_reason"]).toList.map (fun reason =>
      .stop (finishReason reason (!calls.isEmpty) refusal.isSome) usage)

end OpenAIGateway.Chat
