import OpenAIGateway.ClientStream
import OpenAIGateway.CollectStream
import OpenAIGateway.SseCuts

/-!
Pumping a streamed response from an upstream to a client, to its last frame. The
pump meets its surroundings turn by turn: what the read comes to, whether the
client takes what it is offered, and whether the ceiling has passed. The clocks
of the outcome are left to the surroundings too.
-/

set_option linter.all false

namespace OpenAIGateway.StreamPump

open CollectStream (Deadlines maxPending)

/-- What reads an upstream's stream. A parser leaves the stop to the events, and what is
left after the complete frames are taken holds no complete frame. -/
structure Adapter where
  takePayloads : List UInt8 → List UInt8 × List String
  parseEvent : ParseEvent
  keepsStop : ∀ payload acc acc' events, parseEvent payload acc = some (acc', events) →
    acc'.stopReason = acc.stopReason
  takesAll : ∀ buf, takePayloads (takePayloads buf).1 = ((takePayloads buf).1, [])

/-- How the client's bytes are produced. -/
inductive Egress
  /-- Verbatim; the dialect is there for a failure. -/
  | passthrough (dialect : Dialect) (requestId model : String)
  | chatCompletions (requestId model : String)
  | anthropicMessages (requestId model : String)
  | gemini
  | responses (requestId model : String)
  deriving DecidableEq

namespace Egress

/-- The dialect the pump itself writes. -/
def rendered : Egress → Option Dialect
  | passthrough _ _ _ => none
  | chatCompletions _ _ => some .openAIChatCompletions
  | anthropicMessages _ _ => some .anthropicMessages
  | gemini => some .geminiGenerateContent
  | responses _ _ => some .openAIResponses

/-- `Renderer::new`. -/
def renderer : Egress → Renderer
  | passthrough _ _ _ => .none
  | chatCompletions requestId model => .chatCompletions (.new requestId model)
  | anthropicMessages requestId model => .anthropic (.new requestId model)
  | gemini => .gemini .new
  | responses requestId model => .responses (.new requestId model)

end Egress

/-- What the client is sent. -/
inductive Sent
  | keepalive
  | verbatim (bytes : List UInt8)
  | frames (frames : List Frame)
  /-- An error the pump reports itself. -/
  | failure (frames : List Frame)
  /-- `data: [DONE]`. -/
  | done

/-- Whether a frame is the pump's own last word. -/
def Sent.closes : Sent → Bool
  | failure _ | done => true
  | _ => false

/-- What becomes of a frame that is offered. -/
inductive Delivery
  | taken
  | hungUp
  | timedOut
  deriving DecidableEq

inductive Next
  | idle
  | ended
  | failed (message : String)
  | chunk (bytes : List UInt8)

/-- One turn of the read loop. -/
structure Turn where
  /-- The ceiling has passed at the top. -/
  overdue : Bool := false
  /-- The keepalive ticks of the wait. -/
  ticks : List Delivery := []
  next : Next
  delivery : Delivery := .taken
  /-- The ceiling has passed by the end of a send. -/
  overdueAfter : Bool := false

/-- The locals of the pump, and what the client has taken. -/
structure Pump where
  pending : List UInt8 := []
  fold : Fold
  clientGone : Bool := false
  error : Option String := none
  sent : List Sent := []

namespace Pump

variable (fromStr : String → Option Json) (adapter : Adapter) (deadlines : Deadlines)
  (egress : Egress)

/-- A frame that is not taken is a client that is gone. -/
def offer (p : Pump) (delivery : Delivery) (s : Sent) : Pump :=
  match delivery with
  | .taken => { p with sent := p.sent ++ [s] }
  | _ => { p with clientGone := true }

/-- A keepalive goes out between frames only. -/
def tick (p : Pump) (delivery : Delivery) : Pump :=
  if !p.clientGone && p.pending.isEmpty then p.offer delivery .keepalive else p

/-- Take what is complete out of the buffer and fold it, with the frames it renders to. -/
def take (p : Pump) (chunk : List UInt8) : Pump :=
  let taken := adapter.takePayloads (p.pending ++ chunk)
  { p with
    pending := taken.1
    fold := Fold.payloads fromStr adapter.parseEvent { p.fold with sawContent := false, out := [] }
      taken.2 }

/-- Verbatim when the dialects match, translated when they do not. -/
def outbound (p : Pump) (chunk : List UInt8) : Option Sent :=
  match egress with
  | .passthrough _ _ _ => if chunk.isEmpty then none else some (.verbatim chunk)
  | _ => if p.fold.out.isEmpty then none else some (.frames p.fold.out)

def markCommitted (p : Pump) : Pump :=
  { p with fold := { p.fold with acc := { p.fold.acc with committed := true } } }

/-- Send what a read came to. -/
def forward (p : Pump) (delivery : Delivery) (s : Sent) : Pump :=
  match delivery with
  | .taken => (p.offer delivery s).markCommitted
  | _ => p.offer delivery s

def exceeded : String := "stream exceeded " ++ toString deadlines.maxDuration ++ "s"

/-- A read, once it has been folded and sent: the loop goes on unless something stops it. -/
def afterRead (p : Pump) : Pump × Bool :=
  if maxPending < p.pending.length then
    ({ p with
        error := some ("upstream sent " ++ toString p.pending.length ++
          " bytes without completing an event")
        pending := [] }, false)
  else (p, true)

/-- The body of the loop from a read on, and whether the loop goes on. -/
def read (p : Pump) (turn : Turn) (bytes : List UInt8) : Pump × Bool :=
  let p := p.take fromStr adapter bytes
  match if p.clientGone then none else p.outbound egress bytes with
  | none => p.afterRead
  | some s =>
    let p := p.forward turn.delivery s
    if turn.overdueAfter then ({ p with error := some (exceeded deadlines) }, false)
    else p.afterRead

/-- The read loop. A body that has no more turns has ended. -/
def loop : Pump → List Turn → Pump
  | p, [] => p
  | p, turn :: turns =>
    if turn.overdue then { p with error := some (exceeded deadlines) }
    else
      let p := turn.ticks.foldl tick p
      match turn.next with
      | .idle =>
        { p with error := some ("upstream idle for " ++ toString deadlines.idleTimeout ++ "s") }
      | .ended => p
      | .failed message => { p with error := some ("upstream read failed: " ++ message) }
      | .chunk bytes =>
        let read := p.read fromStr adapter deadlines egress turn bytes
        if read.2 then loop read.1 turns else read.1

/-- Whatever is left is tried once more; what it renders to goes nowhere. -/
def foldLeft (p : Pump) : Pump :=
  if p.pending.isEmpty then p else p.take fromStr adapter []

/-- What the stream is taken to have failed of. -/
def settle (p : Pump) : Pump :=
  let error := (p.fold.inBand.map fun message => "upstream stream error: " ++ message).or p.error
  { p with
    error :=
      if error.isNone && p.fold.acc.stopReason.isNone then
        some "upstream closed before the response was complete"
      else error }

/-- The frames that report a failure in the client's dialect, if they can. -/
def errorFrames (p : Pump) (message : String) : List Frame :=
  match egress with
  | .passthrough dialect requestId model =>
    ((Renderer.forDialect dialect requestId model).render fromStr (.error message)).2
  | _ => (p.fold.render.render fromStr (.error message)).2

/-- A last frame is sent and no more is made of how it went. -/
def close (p : Pump) (delivery : Delivery) (s : Sent) : Pump :=
  if delivery = .taken then { p with sent := p.sent ++ [s] } else p

/-- A stream that died mid-flight says so on the wire, once. -/
def sayFailed (p : Pump) (delivery : Delivery) : Pump :=
  if p.fold.acc.stopReason.isNone && !p.clientGone && p.fold.inBand.isNone then
    match p.error with
    | none => p
    | some message =>
      match p.errorFrames fromStr egress message with
      | [] => p
      | frame :: frames => p.close delivery (.failure (frame :: frames))
  else p

/-- The sentinel a translated Chat Completions stream ends with. -/
def sayDone (p : Pump) (delivery : Delivery) : Pump :=
  match egress with
  | .chatCompletions _ _ =>
    if !p.clientGone && p.fold.acc.stopReason.isSome then p.close delivery .done else p
  | _ => p

end Pump

/-- The state a pump starts from. -/
def start (egress : Egress) (names : FunctionNameMap) : Pump where
  fold := { acc := { functionNames := names }, render := egress.renderer }

/-- `pump_with`: the loop, what is left, and the way it ends. -/
def pumpWith (fromStr : String → Option Json) (adapter : Adapter) (deadlines : Deadlines)
    (egress : Egress) (names : FunctionNameMap) (turns : List Turn) (atError atDone : Delivery) :
    Pump :=
  let p := ((start egress names).loop fromStr adapter deadlines egress turns).foldLeft fromStr
    adapter
  (p.settle.sayFailed fromStr egress atError).sayDone egress atDone

end OpenAIGateway.StreamPump
