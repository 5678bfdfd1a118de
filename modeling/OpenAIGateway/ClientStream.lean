import OpenAIGateway.AnthropicRender
import OpenAIGateway.ChatRender
import OpenAIGateway.GeminiRender
import OpenAIGateway.ResponsesRender

/-!
The fold of a stream: every payload is parsed by the upstream's adapter, each
event is observed by the accumulator, which is what the ledger records, and
rendered for the client. The pump calls the fold once for every read and
carries its state across, so a whole response is one fold over its payloads.
-/

set_option linter.all false

namespace OpenAIGateway

inductive Dialect
  | openAIChatCompletions
  | anthropicMessages
  | geminiGenerateContent
  | openAIResponses
  deriving DecidableEq, Repr

/-- The client's half of a stream; passthrough renders nothing. -/
inductive Renderer
  | none
  | chatCompletions (st : Chat.RenderState)
  | anthropic (st : Anthropic.RenderState)
  | gemini (st : Gemini.RenderState)
  | responses (st : Responses.RenderState)
  deriving DecidableEq, Repr

namespace Renderer

def forDialect (dialect : Dialect) (requestId model : String) : Renderer :=
  match dialect with
  | .openAIChatCompletions => .chatCompletions (.new requestId model)
  | .anthropicMessages => .anthropic (.new requestId model)
  | .geminiGenerateContent => .gemini .new
  | .openAIResponses => .responses (.new requestId model)

def render (fromStr : String → Option Json) (r : Renderer) (event : StreamEvent) :
    Renderer × List Frame :=
  match r with
  | .none => (.none, [])
  | .chatCompletions st =>
      let out := Chat.renderEvent event st
      (.chatCompletions out.1, out.2)
  | .anthropic st =>
      let out := Anthropic.renderEvent event st
      (.anthropic out.1, out.2)
  | .gemini st =>
      let out := Gemini.renderEvent fromStr event st
      (.gemini out.1, out.2)
  | .responses st =>
      let out := Responses.renderEvent event st
      (.responses out.1, out.2)

end Renderer

/-- `adapter.parse_event`: the events of a payload, and the accumulator with
what the parser noted on it; nothing for a payload it cannot parse. -/
abbrev ParseEvent := String → StreamAccumulator → Option (StreamAccumulator × List StreamEvent)

/-- What the pump carries from payload to payload. -/
structure Fold where
  acc : StreamAccumulator := {}
  render : Renderer := .none
  /-- The first error the upstream reported inside its stream. -/
  inBand : Option String := none
  sawContent : Bool := false
  out : List Frame := []

namespace Fold

variable (fromStr : String → Option Json) (parse : ParseEvent)

def isContent : StreamEvent → Bool
  | .textDelta _ | .thinkingDelta _ | .toolUseStart _ _ => true
  | _ => false

def errorMessage : StreamEvent → Option String
  | .error message => some message
  | _ => none

def event (f : Fold) (e : StreamEvent) : Fold :=
  let rendered := f.render.render fromStr e
  { acc := f.acc.observe e
    render := rendered.1
    inBand := f.inBand.or (errorMessage e)
    sawContent := f.sawContent || isContent e
    out := f.out ++ rendered.2 }

/-- An unparseable payload is skipped. -/
def payload (f : Fold) (p : String) : Fold :=
  match parse p f.acc with
  | none => f
  | some (acc, events) => events.foldl (event fromStr) { f with acc := acc }

/-- `fold_payloads`. -/
def payloads (f : Fold) (ps : List String) : Fold := ps.foldl (payload fromStr parse) f

end Fold

/-- The state a stream to a client of `dialect` starts from. -/
def Fold.start (names : FunctionNameMap) (dialect : Dialect) (requestId model : String) : Fold :=
  { acc := { functionNames := names }, render := .forDialect dialect requestId model }

end OpenAIGateway
