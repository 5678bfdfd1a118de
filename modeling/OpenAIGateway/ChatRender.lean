import OpenAIGateway.Render

/-!
Rendering canonical events as Chat Completions SSE.
The wire format is positional where the canonical form is nominal: calls are
addressed by their index among the calls of this response, and the first
chunk announces the role that later chunks omit. Usage rides on the terminal
chunk alone.
-/

set_option linter.all false

namespace OpenAIGateway.Chat

structure RenderState where
  id : String := ""
  model : String := ""
  roleSent : Bool := false
  toolIds : List String := []
  finished : Bool := false
  /-- Merged across the whole response, not taken from the terminal event. -/
  usage : Usage := {}
  deriving DecidableEq, Repr

namespace RenderState

def new (requestId model : String) : RenderState :=
  { id := "chatcmpl-" ++ requestId, model := model }

/-- The index of a call, given out on first sight. -/
def toolIndex (st : RenderState) (id : String) : RenderState × ℕ :=
  match st.toolIds.findIdx? (· = id) with
  | some index => (st, index)
  | none => ({ st with toolIds := st.toolIds ++ [id] }, st.toolIds.length)

def chunk (st : RenderState) (delta : Json) (finish : Option String) : List (String × Json) :=
  [("id", .str st.id), ("object", .str "chat.completion.chunk"), ("created", .nat 0),
    ("model", .str st.model),
    ("choices", .arr [.obj [("index", .nat 0), ("delta", delta),
      ("finish_reason", (finish.map Json.str).getD .null)]])]

end RenderState

def finishWord : StopReason → String
  | .maxTokens => "length"
  | .toolUse => "tool_calls"
  | .refusal => "content_filter"
  | .endTurn | .stopSequence => "stop"

/-- Every prompt-side token goes in `prompt_tokens`, cache writes included. -/
def usageJson (u : Usage) : Json :=
  let prompt := wrappingAdd (wrappingAdd u.inputTokens u.cacheReadTokens) u.cacheWriteTokens
  .obj [("prompt_tokens", .nat prompt), ("completion_tokens", .nat u.outputTokens),
    ("total_tokens", .nat (wrappingAdd prompt u.outputTokens)),
    ("prompt_tokens_details", .obj [("cached_tokens", .nat u.cacheReadTokens)])]

/-- This dialect names no event. -/
def frame (body : List (String × Json)) : Frame := ⟨none, .obj body⟩

/-- One canonical event as a Chat Completions frame, if it produces one. -/
def renderEvent (event : StreamEvent) (st : RenderState) : RenderState × List Frame :=
  match event with
  | .start model usage =>
      let st := { st with
        model := adoptModel st.model model
        usage := st.usage.merge usage
        roleSent := true }
      (st, [frame (st.chunk (.obj [("role", .str "assistant"), ("content", .str "")]) none)])
  | .textDelta text =>
      let delta : Json :=
        if st.roleSent then .obj [("content", .str text)]
        else .obj [("role", .str "assistant"), ("content", .str text)]
      let st := { st with roleSent := true }
      (st, [frame (st.chunk delta none)])
  | .thinkingDelta text =>
      (st, [frame (st.chunk (.obj [("reasoning_content", .str text)]) none)])
  | .toolUseStart id name =>
      let (st, index) := st.toolIndex id
      (st, [frame (st.chunk (.obj [("tool_calls", .arr [.obj [("index", .nat index),
        ("id", .str id), ("type", .str "function"),
        ("function", .obj [("name", .str name), ("arguments", .str "")])]])]) none)])
  | .toolUseDelta id partialJson =>
      let (st, index) := st.toolIndex id
      (st, [frame (st.chunk (.obj [("tool_calls", .arr [.obj [("index", .nat index),
        ("function", .obj [("arguments", .str partialJson)])]])]) none)])
  | .toolUseEnd _ => (st, [])
  | .usageUpdate usage => ({ st with usage := st.usage.merge usage }, [])
  | .stop reason usage =>
      if st.finished then (st, [])
      else
        let st := { st with usage := st.usage.merge usage, finished := true }
        (st, [frame (st.chunk (.obj []) (some (finishWord reason)) ++
          [("usage", usageJson st.usage)])])
  | .error message =>
      (st, [frame [("error", .obj [("message", .str message), ("type", .str "upstream_error")])]])

end OpenAIGateway.Chat
