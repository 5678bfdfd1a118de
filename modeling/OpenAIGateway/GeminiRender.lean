import OpenAIGateway.Render

/-!
Rendering canonical events as Gemini SSE.
There is no block lifecycle and no opening frame: a chunk is self-contained
and carries the usage so far. A tool call is delivered whole, so its
fragments are held until it ends. `fromStr` is serde_json's parser.
-/

set_option linter.all false

namespace OpenAIGateway.Gemini

variable (fromStr : String → Option Json)

/-- A tool call under assembly. -/
structure PendingCall where
  id : String
  name : String
  args : String
  deriving DecidableEq, Repr

/-- The `functionCall` part, with the arguments parsed if they parse. -/
def PendingCall.part (call : PendingCall) : Json :=
  .obj [("functionCall", .obj [("name", .str call.name),
    ("args", (fromStr call.args).getD (.obj []))])]

structure RenderState where
  usage : Usage := {}
  finished : Bool := false
  /-- Tool calls opened but not yet ended, in the order they opened. -/
  pending : List PendingCall := []
  deriving DecidableEq, Repr

def usageJson (u : Usage) : Json :=
  .obj [("promptTokenCount", .nat
      (wrappingAdd (wrappingAdd u.inputTokens u.cacheReadTokens) u.cacheWriteTokens)),
    ("cachedContentTokenCount", .nat u.cacheReadTokens),
    ("candidatesTokenCount", .nat u.outputTokens), ("totalTokenCount", .nat u.total)]

/-- Append a fragment to the first call held under `id`, holding one under its
id if there is none. -/
def pushArgs (id partialJson : String) : List PendingCall → List PendingCall
  | [] => [⟨id, id, partialJson⟩]
  | call :: rest =>
      if call.id = id then { call with args := call.args ++ partialJson } :: rest
      else call :: pushArgs id partialJson rest

namespace RenderState

def new : RenderState := {}

/-- Take the call with this id out of the pending list, if it is there. -/
def takePending (st : RenderState) (id : String) : RenderState × Option PendingCall :=
  ({ st with pending := st.pending.eraseP (fun call => call.id = id) },
    st.pending.find? (fun call => call.id = id))

def chunk (st : RenderState) (parts : List Json) (finish : Option String) : Frame :=
  ⟨none, .obj [("candidates", .arr [.obj ([("content", .obj [("role", .str "model"),
      ("parts", .arr parts)]), ("index", .nat 0)] ++
      finish.toList.map (fun f => ("finishReason", .str f)))]),
    ("usageMetadata", usageJson st.usage)]⟩

end RenderState

def finishWord : StopReason → String
  | .maxTokens => "MAX_TOKENS"
  | .refusal => "SAFETY"
  | _ => "STOP"

/-- One canonical event as a Gemini frame, if it produces one. -/
def renderEvent (event : StreamEvent) (st : RenderState) : RenderState × List Frame :=
  match event with
  | .start _ usage | .usageUpdate usage => ({ st with usage := st.usage.merge usage }, [])
  | .textDelta text => (st, [st.chunk [.obj [("text", .str text)]] none])
  | .thinkingDelta text =>
      (st, [st.chunk [.obj [("text", .str text), ("thought", .bool true)]] none])
  | .toolUseStart id name => ({ st with pending := st.pending ++ [⟨id, name, ""⟩] }, [])
  | .toolUseDelta id partialJson =>
      ({ st with pending := pushArgs id partialJson st.pending }, [])
  | .toolUseEnd id =>
      match st.takePending id with
      | (_, none) => (st, [])
      | (st, some call) => (st, [st.chunk [call.part fromStr] none])
  | .stop reason usage =>
      if st.finished then (st, [])
      else
        let calls := st.pending
        let st := { st with finished := true, usage := st.usage.merge usage, pending := [] }
        (st, [st.chunk (calls.map (PendingCall.part fromStr)) (some (finishWord reason))])
  | .error message =>
      (st, [⟨none, .obj [("error", .obj [("code", .nat 500), ("message", .str message),
        ("status", .str "INTERNAL")])]⟩])

end OpenAIGateway.Gemini
