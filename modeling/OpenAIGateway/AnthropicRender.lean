import OpenAIGateway.Render

/-!
Rendering canonical events as Anthropic Messages SSE.
Content arrives as indexed blocks that are explicitly opened and closed. One
text or thinking block is open at a time; tool blocks are a list keyed by
call id, because parallel calls arrive interleaved. Each function takes the
render state and returns it with the frames it appends to the output.
-/

set_option linter.all false

namespace OpenAIGateway.Anthropic

structure RenderState where
  id : String := ""
  model : String := ""
  started : Bool := false
  /-- The text or thinking block currently open, if any. -/
  openText : Option ℕ := none
  /-- Tool blocks opened and not yet closed, in the order they opened. -/
  openTools : List (String × ℕ) := []
  nextIndex : ℕ := 0
  usage : Usage := {}
  finished : Bool := false
  deriving DecidableEq, Repr

def RenderState.new (requestId model : String) : RenderState :=
  { id := "msg_" ++ requestId, model := model }

/-- Both lines: this dialect's clients dispatch on the `event:` name. -/
def frame (event : String) (body : Json) : Frame := ⟨some event, body⟩

def usageJson (u : Usage) : Json :=
  .obj [("input_tokens", .nat u.inputTokens), ("output_tokens", .nat u.outputTokens),
    ("cache_read_input_tokens", .nat u.cacheReadTokens),
    ("cache_creation_input_tokens", .nat u.cacheWriteTokens)]

def stopReasonStr : StopReason → String
  | .maxTokens => "max_tokens"
  | .stopSequence => "stop_sequence"
  | .toolUse => "tool_use"
  | .refusal => "refusal"
  | .endTurn => "end_turn"

def messageStart (st : RenderState) : Frame :=
  frame "message_start" (.obj [("type", .str "message_start"),
    ("message", .obj [("id", .str st.id), ("type", .str "message"), ("role", .str "assistant"),
      ("model", .str st.model), ("content", .arr []), ("stop_reason", .null),
      ("usage", usageJson st.usage)])])

def blockStart (index : ℕ) (contentBlock : Json) : Frame :=
  frame "content_block_start" (.obj [("type", .str "content_block_start"),
    ("index", .nat index), ("content_block", contentBlock)])

def blockDelta (index : ℕ) (delta : Json) : Frame :=
  frame "content_block_delta" (.obj [("type", .str "content_block_delta"),
    ("index", .nat index), ("delta", delta)])

def blockStop (index : ℕ) : Frame :=
  frame "content_block_stop" (.obj [("type", .str "content_block_stop"), ("index", .nat index)])

def messageDelta (reason : StopReason) (usage : Usage) : Frame :=
  frame "message_delta" (.obj [("type", .str "message_delta"),
    ("delta", .obj [("stop_reason", .str (stopReasonStr reason)), ("stop_sequence", .null)]),
    ("usage", usageJson usage)])

def messageStop : Frame := frame "message_stop" (.obj [("type", .str "message_stop")])

def errorFrame (message : String) : Frame :=
  frame "error" (.obj [("type", .str "error"),
    ("error", .obj [("type", .str "api_error"), ("message", .str message)])])

def emptyBlock (thinking : Bool) : Json :=
  if thinking then .obj [("type", .str "thinking"), ("thinking", .str "")]
  else .obj [("type", .str "text"), ("text", .str "")]

def textDelta (thinking : Bool) (text : String) : Json :=
  if thinking then .obj [("type", .str "thinking_delta"), ("thinking", .str text)]
  else .obj [("type", .str "text_delta"), ("text", .str text)]

def toolUseBlock (id name : String) : Json :=
  .obj [("type", .str "tool_use"), ("id", .str id), ("name", .str name), ("input", .obj [])]

def inputJsonDelta (partialJson : String) : Json :=
  .obj [("type", .str "input_json_delta"), ("partial_json", .str partialJson)]

namespace RenderState

def closeText (st : RenderState) : RenderState × List Frame :=
  match st.openText with
  | some index => ({ st with openText := none }, [blockStop index])
  | none => (st, [])

/-- Close the tool block for `id`, if it is open. -/
def closeTool (st : RenderState) (id : String) : RenderState × List Frame :=
  match st.openTools.find? (fun tool => tool.1 = id) with
  | some (_, index) =>
      ({ st with openTools := st.openTools.eraseP (fun tool => tool.1 = id) }, [blockStop index])
  | none => (st, [])

/-- Close every open tool block, in the order they opened. -/
def closeTools (st : RenderState) : RenderState × List Frame :=
  ({ st with openTools := [] }, st.openTools.map (fun tool => blockStop tool.2))

/-- The block a tool fragment belongs to: the one opened under its id, or the
most recently opened call for a fragment whose id opened nothing. -/
def toolBlock (st : RenderState) (id : String) : Option ℕ :=
  ((st.openTools.find? (fun tool => tool.1 = id)).or st.openTools.getLast?).map Prod.snd

def ensureStarted (st : RenderState) : RenderState × List Frame :=
  if st.started then (st, []) else ({ st with started := true }, [messageStart st])

end RenderState

/-- Emit a text or reasoning delta, opening a block first if none is open. -/
def renderText (st : RenderState) (text : String) (thinking : Bool) : RenderState × List Frame :=
  let (st, head) := st.ensureStarted
  let (st, stops) := st.closeTools
  let (st, opening) :=
    match st.openText with
    | none =>
        ({ st with nextIndex := st.nextIndex + 1, openText := some st.nextIndex },
          [blockStart st.nextIndex (emptyBlock thinking)])
    | some _ => (st, [])
  (st, head ++ stops ++ opening ++
    [blockDelta (st.openText.getD 0) (textDelta thinking text)])

/-- One canonical event as Anthropic SSE frames, if it produces any. -/
def renderEvent (event : StreamEvent) (st : RenderState) : RenderState × List Frame :=
  match event with
  | .start model usage =>
      ({ st with model := adoptModel st.model model, usage := st.usage.merge usage }).ensureStarted
  | .textDelta text => renderText st text false
  | .thinkingDelta text => renderText st text true
  | .toolUseStart id name =>
      let (st, head) := st.ensureStarted
      let (st, stops) := st.closeText
      ({ st with
          nextIndex := st.nextIndex + 1
          openTools := st.openTools ++ [(id, st.nextIndex)] },
        head ++ stops ++ [blockStart st.nextIndex (toolUseBlock id name)])
  | .toolUseDelta id partialJson =>
      match st.toolBlock id with
      | some index => (st, [blockDelta index (inputJsonDelta partialJson)])
      | none => (st, [])
  | .toolUseEnd id => st.closeTool id
  | .usageUpdate usage => ({ st with usage := st.usage.merge usage }, [])
  | .stop reason usage =>
      if st.finished then (st, [])
      else
        let st := { st with finished := true, usage := st.usage.merge usage }
        let (st, head) := st.ensureStarted
        let (st, text) := st.closeText
        let (st, tools) := st.closeTools
        (st, head ++ text ++ tools ++ [messageDelta reason st.usage, messageStop])
  | .error message => (st, [errorFrame message])

end OpenAIGateway.Anthropic
