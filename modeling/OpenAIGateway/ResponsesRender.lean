import OpenAIGateway.Render

/-!
Rendering canonical events as Responses SSE.
Output is a list of items, each with its own index, added and done. A message
item and a reasoning item exclude one another; function calls are a list
keyed by call id. The closing frames repeat what the item accumulated.
-/

set_option linter.all false

namespace OpenAIGateway.Responses

/-- An open `function_call` output item. -/
structure ToolCall where
  callId : String
  index : ℕ
  itemId : String
  name : String
  args : String
  deriving DecidableEq, Repr

structure RenderState where
  id : String := ""
  model : String := ""
  created : Bool := false
  nextIndex : ℕ := 0
  /-- The open message item, if any: its index and id. -/
  message : Option (ℕ × String) := none
  text : String := ""
  /-- The open reasoning item, if any: its index and id. -/
  reasoning : Option (ℕ × String) := none
  reasoningText : String := ""
  /-- Open tool calls, in the order they were opened. -/
  tools : List ToolCall := []
  usage : Usage := {}
  finished : Bool := false
  deriving DecidableEq, Repr

def RenderState.new (requestId model : String) : RenderState :=
  { id := "resp_" ++ requestId, model := model }

def frame (name : String) (body : Json) : Frame := ⟨some name, body⟩

/-- Every prompt-side token in `input_tokens`, so the totals add up. -/
def usageJson (u : Usage) : Json :=
  let input := wrappingAdd (wrappingAdd u.inputTokens u.cacheReadTokens) u.cacheWriteTokens
  .obj [("input_tokens", .nat input),
    ("input_tokens_details", .obj [("cached_tokens", .nat u.cacheReadTokens)]),
    ("output_tokens", .nat u.outputTokens),
    ("output_tokens_details", .obj [("reasoning_tokens", .nat 0)]),
    ("total_tokens", .nat (wrappingAdd input u.outputTokens))]

section Frames

variable (index : ℕ) (itemId text : String)

def itemAdded (item : Json) : Frame :=
  frame "response.output_item.added" (.obj [("type", .str "response.output_item.added"),
    ("output_index", .nat index), ("item", item)])

def itemDone (item : Json) : Frame :=
  frame "response.output_item.done" (.obj [("type", .str "response.output_item.done"),
    ("output_index", .nat index), ("item", item)])

def summaryPart : Json := .obj [("type", .str "summary_text"), ("text", .str text)]

def outputPart : Json :=
  .obj [("type", .str "output_text"), ("text", .str text), ("annotations", .arr [])]

def reasoningItem (summary : List Json) : Json :=
  .obj [("id", .str itemId), ("type", .str "reasoning"), ("summary", .arr summary)]

def messageItem (status : String) (content : List Json) : Json :=
  .obj [("id", .str itemId), ("type", .str "message"), ("status", .str status),
    ("role", .str "assistant"), ("content", .arr content)]

def callItem (status callId name args : String) : Json :=
  .obj [("id", .str itemId), ("type", .str "function_call"), ("status", .str status),
    ("call_id", .str callId), ("name", .str name), ("arguments", .str args)]

/-- The frames of a reasoning item address its one summary part. -/
def summaryFrame (name : String) (field : String × Json) : Frame :=
  frame name (.obj [("type", .str name), ("item_id", .str itemId), ("output_index", .nat index),
    ("summary_index", .nat 0), field])

/-- The frames of a message item address its one content part. -/
def contentFrame (name : String) (field : String × Json) : Frame :=
  frame name (.obj [("type", .str name), ("item_id", .str itemId), ("output_index", .nat index),
    ("content_index", .nat 0), field])

def argumentsFrame (name : String) (field : String × Json) : Frame :=
  frame name (.obj [("type", .str name), ("item_id", .str itemId), ("output_index", .nat index),
    field])

def terminalFrame (name : String) (response : List (String × Json)) : Frame :=
  frame name (.obj [("type", .str name), ("response", .obj response)])

end Frames

namespace RenderState

def createdFrame (st : RenderState) : Frame :=
  frame "response.created" (.obj [("type", .str "response.created"),
    ("response", .obj [("id", .str st.id), ("object", .str "response"), ("created_at", .nat 0),
      ("status", .str "in_progress"), ("model", .str st.model), ("output", .arr [])])])

/-- Item id unique across responses, not just within one. -/
def itemId (st : RenderState) (kind : String) (index : ℕ) : String :=
  let rest := (stripPrefix "resp_" st.id).getD st.id
  kind ++ "_" ++ rest ++ "_" ++ toString index

def ensureCreated (st : RenderState) : RenderState × List Frame :=
  if st.created then (st, []) else ({ st with created := true }, [st.createdFrame])

def closeReasoning (st : RenderState) : RenderState × List Frame :=
  match st.reasoning with
  | none => (st, [])
  | some (index, itemId) =>
      let text := st.reasoningText
      ({ st with reasoning := none, reasoningText := "" },
        [summaryFrame index itemId "response.reasoning_summary_text.done" ("text", .str text),
          summaryFrame index itemId "response.reasoning_summary_part.done"
            ("part", summaryPart text),
          itemDone index (reasoningItem itemId [summaryPart text])])

def closeMessage (st : RenderState) : RenderState × List Frame :=
  match st.message with
  | none => (st, [])
  | some (index, itemId) =>
      let text := st.text
      ({ st with message := none, text := "" },
        [contentFrame index itemId "response.output_text.done" ("text", .str text),
          contentFrame index itemId "response.content_part.done" ("part", outputPart text),
          itemDone index (messageItem itemId "completed" [outputPart text])])

/-- Open a reasoning item and its first summary part; the item's index and id
come back with the frames. -/
def openReasoning (st : RenderState) : RenderState × List Frame × ℕ × String :=
  match st.reasoning with
  | some item => (st, [], item)
  | none =>
      let (st, closing) := st.closeMessage
      let index := st.nextIndex
      let itemId := st.itemId "rs" index
      ({ st with nextIndex := index + 1, reasoning := some (index, itemId) },
        closing ++ [itemAdded index (reasoningItem itemId []),
          summaryFrame index itemId "response.reasoning_summary_part.added"
            ("part", summaryPart "")],
        index, itemId)

/-- Open a message item and its first content part. -/
def openMessage (st : RenderState) : RenderState × List Frame × ℕ × String :=
  match st.message with
  | some item => (st, [], item)
  | none =>
      let (st, closing) := st.closeReasoning
      let index := st.nextIndex
      let itemId := st.itemId "msg" index
      ({ st with nextIndex := index + 1, message := some (index, itemId) },
        closing ++ [itemAdded index (messageItem itemId "in_progress" []),
          contentFrame index itemId "response.content_part.added" ("part", outputPart "")],
        index, itemId)

/-- What every terminal frame of this response starts with. -/
def responseHead (st : RenderState) (status : String) : List (String × Json) :=
  [("id", .str st.id), ("object", .str "response"), ("created_at", .nat 0),
    ("status", .str status), ("model", .str st.model)]

end RenderState

/-- A truncated or refused response is incomplete, and says why. -/
def isIncomplete : StopReason → Bool
  | .maxTokens | .refusal => true
  | _ => false

def incompleteReason : StopReason → String
  | .maxTokens => "max_output_tokens"
  | _ => "content_filter"

def stopFrame (st : RenderState) (reason : StopReason) : Frame :=
  if isIncomplete reason then
    terminalFrame "response.incomplete" (st.responseHead "incomplete" ++
      [("usage", usageJson st.usage),
        ("incomplete_details", .obj [("reason", .str (incompleteReason reason))])])
  else
    terminalFrame "response.completed" (st.responseHead "completed" ++
      [("usage", usageJson st.usage)])

def failedFrame (st : RenderState) (message : String) : Frame :=
  terminalFrame "response.failed" (st.responseHead "failed" ++
    [("error", .obj [("code", .str "server_error"), ("message", .str message)]),
      ("usage", usageJson st.usage)])

/-- Terminate the response as failed, unless it has ended already. -/
def renderFailure (st : RenderState) (message : String) : RenderState × List Frame :=
  if st.finished then (st, [])
  else
    let st := { st with finished := true }
    let (st, head) := st.ensureCreated
    let (st, reasoning) := st.closeReasoning
    let (st, text) := st.closeMessage
    (st, head ++ reasoning ++ text ++ [failedFrame st message])

/-- Open a `function_call` item, closing any open message item first. -/
def renderToolStart (st : RenderState) (id name : String) : RenderState × List Frame :=
  let (st, head) := st.ensureCreated
  let (st, reasoning) := st.closeReasoning
  let (st, text) := st.closeMessage
  let index := st.nextIndex
  let itemId := st.itemId "fc" index
  ({ st with
      nextIndex := index + 1
      tools := st.tools ++ [⟨id, index, itemId, name, ""⟩] },
    head ++ reasoning ++ text ++ [itemAdded index (callItem itemId "in_progress" id name "")])

/-- Append a fragment to the first call open under `id`. -/
def pushArgs (id partialJson : String) : List ToolCall → List ToolCall
  | [] => []
  | call :: rest =>
      if call.callId = id then { call with args := call.args ++ partialJson } :: rest
      else call :: pushArgs id partialJson rest

/-- Emit an argument fragment for an open tool call. -/
def renderToolDelta (st : RenderState) (id partialJson : String) : RenderState × List Frame :=
  match st.tools.find? (fun call => call.callId = id) with
  | none => (st, [])
  | some call =>
      ({ st with tools := pushArgs id partialJson st.tools },
        [argumentsFrame call.index call.itemId "response.function_call_arguments.delta"
          ("delta", .str partialJson)])

/-- Close a tool call, emitting its assembled arguments. -/
def renderToolEnd (st : RenderState) (id : String) : RenderState × List Frame :=
  match st.tools.find? (fun call => call.callId = id) with
  | none => (st, [])
  | some call =>
      ({ st with tools := st.tools.eraseP (fun call => call.callId = id) },
        [argumentsFrame call.index call.itemId "response.function_call_arguments.done"
            ("arguments", .str call.args),
          itemDone call.index (callItem call.itemId "completed" call.callId call.name call.args)])

/-- One canonical event as Responses SSE frames, if it produces any. -/
def renderEvent (event : StreamEvent) (st : RenderState) : RenderState × List Frame :=
  match event with
  | .start model usage =>
      ({ st with model := adoptModel st.model model, usage := st.usage.merge usage }).ensureCreated
  | .textDelta text =>
      let (st, head) := st.ensureCreated
      let (st, opening, index, itemId) := st.openMessage
      ({ st with text := st.text ++ text },
        head ++ opening ++
          [contentFrame index itemId "response.output_text.delta" ("delta", .str text)])
  | .thinkingDelta text =>
      let (st, head) := st.ensureCreated
      let (st, opening, index, itemId) := st.openReasoning
      ({ st with reasoningText := st.reasoningText ++ text },
        head ++ opening ++
          [summaryFrame index itemId "response.reasoning_summary_text.delta" ("delta", .str text)])
  | .toolUseStart id name => renderToolStart st id name
  | .toolUseDelta id partialJson => renderToolDelta st id partialJson
  | .toolUseEnd id => renderToolEnd st id
  | .usageUpdate usage => ({ st with usage := st.usage.merge usage }, [])
  | .stop reason usage =>
      if st.finished then (st, [])
      else
        let st := { st with finished := true, usage := st.usage.merge usage }
        let (st, head) := st.ensureCreated
        let (st, reasoning) := st.closeReasoning
        let (st, text) := st.closeMessage
        (st, head ++ reasoning ++ text ++ [stopFrame st reason])
  | .error message => renderFailure st message

end OpenAIGateway.Responses
