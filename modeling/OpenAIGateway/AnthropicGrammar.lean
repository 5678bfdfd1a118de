import Mathlib.Data.List.Chain
import OpenAIGateway.AnthropicRender
import OpenAIGateway.Lifecycle

/-!
The Messages stream grammar, read off the frames a client receives, and
exactly which event sequences the renderer keeps inside it. A frame is
classified by its `event:` name and the fields of its body. The block frames
are a lifecycle trace whose kinds are the declared block types. Two kinds of
input break the grammar: an error before the message has opened, and a
switch between text and thinking with no tool call starting in between.
-/

set_option linter.all false

namespace OpenAIGateway.Anthropic

open Lifecycle

inductive BlockKind
  | text
  | thinking
  | toolUse
  deriving DecidableEq, Repr

def BlockKind.ofBlock : String → Option BlockKind
  | "text" => some .text
  | "thinking" => some .thinking
  | "tool_use" => some .toolUse
  | _ => none

def BlockKind.ofDelta : String → Option BlockKind
  | "text_delta" => some .text
  | "thinking_delta" => some .thinking
  | "input_json_delta" => some .toolUse
  | _ => none

/-- What one frame says to a client of this dialect. -/
inductive Part
  | messageStart
  | block (act : Lifecycle.Act BlockKind)
  | messageDelta
  | messageStop
  | error
  | other
  deriving DecidableEq

def indexOf (body : Json) : Option ℕ :=
  match body["index"] with
  | .num (.posInt n) => some n
  | _ => none

def readFrame (f : Frame) : Part :=
  match f.event with
  | some "message_start" => .messageStart
  | some "content_block_start" =>
      match indexOf f.data, (f.data["content_block"]["type"].asStr).bind BlockKind.ofBlock with
      | some index, some kind => .block (.opened index kind)
      | _, _ => .other
  | some "content_block_delta" =>
      match indexOf f.data, (f.data["delta"]["type"].asStr).bind BlockKind.ofDelta with
      | some index, some kind => .block (.used index kind)
      | _, _ => .other
  | some "content_block_stop" =>
      match indexOf f.data with
      | some index => .block (.closed index none)
      | none => .other
  | some "message_delta" => .messageDelta
  | some "message_stop" => .messageStop
  | some "error" => .error
  | _ => .other

def parts (frames : List Frame) : List Part := frames.map readFrame

def Part.act? : Part → Option (Lifecycle.Act BlockKind)
  | .block act => some act
  | _ => none

def acts (ps : List Part) : List (Lifecycle.Act BlockKind) := ps.filterMap Part.act?

/-- The stream grammar. The message opens first and once, blocks are numbered
from zero and each is stopped, and what ends the message comes last. -/
structure Grammar (ps : List Part) : Prop where
  known : .other ∉ ps
  start : ∃ rest, ps = .messageStart :: rest ∧ .messageStart ∉ rest
  blocks : WellFormed (acts ps)
  closed : AllClosed (acts ps)
  ending : ∃ body, .messageDelta ∉ body ∧ .messageStop ∉ body ∧
    (ps = body ∨ ps = body ++ [.messageDelta, .messageStop])

/-- Nothing follows the first stop. -/
def NothingAfterStop (events : List StreamEvent) : Prop :=
  ∀ pre e post, events = pre ++ e :: post → e.isStop → post = []

def opensMessage : StreamEvent → Bool
  | .start _ _ | .textDelta _ | .thinkingDelta _ | .toolUseStart _ _ | .stop _ _ => true
  | _ => false

def isError : StreamEvent → Bool
  | .error _ => true
  | _ => false

/-- Some event opens the message, and no error comes before it. -/
def OpensFirst (events : List StreamEvent) : Prop :=
  (events.find? (fun e => opensMessage e || isError e)).any opensMessage

/-- The three events that decide which block a text or thinking delta lands in. -/
def slotEvent? : StreamEvent → Option BlockKind
  | .textDelta _ => some .text
  | .thinkingDelta _ => some .thinking
  | .toolUseStart _ _ => some .toolUse
  | _ => none

def Compatible (a b : BlockKind) : Prop :=
  ¬ (a = .text ∧ b = .thinking) ∧ ¬ (a = .thinking ∧ b = .text)

/-- No text delta is followed by a thinking delta, or the other way round,
without a tool call starting between the two. -/
def NoKindSwitch (events : List StreamEvent) : Prop :=
  (events.filterMap slotEvent?).IsChain Compatible

/-- The calls started since the last text or thinking delta and not ended. -/
def callsStep (calls : List String) : StreamEvent → List String
  | .textDelta _ | .thinkingDelta _ => []
  | .toolUseStart id _ => calls ++ [id]
  | .toolUseEnd id => calls.erase id
  | _ => calls

/-- A sequence that leaves no block open without being stopped: the last of its
text deltas, thinking deltas and tool starts is not one of the first two, and
every call started since has been ended. -/
def NothingLeftOpen (events : List StreamEvent) : Prop :=
  (events.filterMap slotEvent?).getLast?.all (· = .toolUse) ∧ events.foldl callsStep [] = []

def EndsInStop (events : List StreamEvent) : Prop := events.getLast?.any StreamEvent.isStop

instance (events : List StreamEvent) : Decidable (OpensFirst events) := by
  unfold OpensFirst
  infer_instance

instance : DecidableRel Compatible := fun a b => by
  unfold Compatible
  infer_instance

instance (events : List StreamEvent) : Decidable (NoKindSwitch events) := by
  unfold NoKindSwitch
  infer_instance

instance (events : List StreamEvent) : Decidable (NothingLeftOpen events) := by
  unfold NothingLeftOpen
  infer_instance

instance (events : List StreamEvent) : Decidable (EndsInStop events) := by
  unfold EndsInStop
  infer_instance

section Reading

variable (index : ℕ)

@[simp] theorem readFrame_messageStart (st : RenderState) :
    readFrame (messageStart st) = .messageStart := rfl

@[simp] theorem readFrame_emptyBlock (thinking : Bool) :
    readFrame (blockStart index (emptyBlock thinking)) =
      .block (.opened index (if thinking then .thinking else .text)) := by
  cases thinking <;> rfl

@[simp] theorem readFrame_toolUseBlock (id name : String) :
    readFrame (blockStart index (toolUseBlock id name)) = .block (.opened index .toolUse) := rfl

@[simp] theorem readFrame_textDelta (thinking : Bool) (text : String) :
    readFrame (blockDelta index (textDelta thinking text)) =
      .block (.used index (if thinking then .thinking else .text)) := by
  cases thinking <;> rfl

@[simp] theorem readFrame_inputJsonDelta (partialJson : String) :
    readFrame (blockDelta index (inputJsonDelta partialJson)) = .block (.used index .toolUse) := rfl

@[simp] theorem readFrame_blockStop : readFrame (blockStop index) = .block (.closed index none) := rfl

@[simp] theorem readFrame_messageDelta (reason : StopReason) (usage : Usage) :
    readFrame (messageDelta reason usage) = .messageDelta := rfl

@[simp] theorem readFrame_messageStop : readFrame messageStop = .messageStop := rfl

@[simp] theorem readFrame_errorFrame (message : String) :
    readFrame (errorFrame message) = .error := rfl

@[simp] theorem parts_nil : parts [] = [] := rfl

@[simp] theorem parts_cons (f : Frame) (fs : List Frame) :
    parts (f :: fs) = readFrame f :: parts fs := rfl

@[simp] theorem parts_append (xs ys : List Frame) : parts (xs ++ ys) = parts xs ++ parts ys :=
  List.map_append ..

@[simp] theorem acts_nil : acts [] = [] := rfl

@[simp] theorem acts_cons (p : Part) (ps : List Part) :
    acts (p :: ps) = p.act?.toList ++ acts ps := by
  cases h : p.act? <;> simp [acts, h]

@[simp] theorem acts_append (xs ys : List Part) : acts (xs ++ ys) = acts xs ++ acts ys :=
  List.filterMap_append ..

end Reading

end OpenAIGateway.Anthropic
