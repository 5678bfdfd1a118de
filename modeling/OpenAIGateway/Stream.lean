import OpenAIGateway.FunctionNames
import OpenAIGateway.Usage

/-!
Dialect-independent stream events and the state that folds them.
Every upstream dialect is parsed into these events and every client dialect
is rendered from them. The accumulator's usage is what the ledger records.
-/

set_option linter.all false

namespace OpenAIGateway

inductive StopReason
  | endTurn
  | maxTokens
  | stopSequence
  | toolUse
  | refusal
  deriving DecidableEq, Repr

inductive StreamEvent
  | start (model : String) (usage : Usage)
  | textDelta (text : String)
  | thinkingDelta (text : String)
  | toolUseStart (id name : String)
  | toolUseDelta (id partialJson : String)
  | toolUseEnd (id : String)
  | usageUpdate (usage : Usage)
  | stop (reason : StopReason) (usage : Usage)
  | error (message : String)
  deriving DecidableEq, Repr

namespace StreamEvent

/-- The usage an event carries: three of the nine kinds do. -/
def usage? : StreamEvent → Option Usage
  | .start _ usage | .usageUpdate usage | .stop _ usage => some usage
  | _ => none

def isStop : StreamEvent → Bool
  | .stop _ _ => true
  | _ => false

end StreamEvent

/-- Take the model a `start` event announced, keeping the current one when it
announced none. -/
def adoptModel (current announced : String) : String :=
  if announced.isEmpty then current else announced

/-- `saturating_add` on a `usize`. -/
def saturatingAdd (a b : ℕ) : ℕ := min (a + b) u64Max

/-- State carried across the events of one response. -/
structure StreamAccumulator where
  usage : Usage := {}
  committed : Bool := false
  textLen : ℕ := 0
  toolCalls : ℕ := 0
  stopReason : Option StopReason := none
  toolBuffers : List (String × String) := []
  openTool : Option String := none
  unparsed : Bool := false
  sawRefusal : Bool := false
  heldStop : Option StopReason := none
  functionNames : FunctionNameMap := {}
  deriving DecidableEq, Repr

/-- Append a fragment to the first buffer held under `id`. -/
def pushFragment (id fragment : String) : List (String × String) → List (String × String)
  | [] => []
  | (key, buf) :: rest =>
      if key = id then (key, buf ++ fragment) :: rest
      else (key, buf) :: pushFragment id fragment rest

namespace StreamAccumulator

/-- Fold an event in. Usage is merged and never assigned. -/
def observe (acc : StreamAccumulator) : StreamEvent → StreamAccumulator
  | .start _ usage | .usageUpdate usage => { acc with usage := acc.usage.merge usage }
  | .stop reason usage =>
      { acc with usage := acc.usage.merge usage, stopReason := some reason }
  | .textDelta text | .thinkingDelta text =>
      { acc with textLen := saturatingAdd acc.textLen text.utf8ByteSize }
  | .toolUseStart id _ =>
      { acc with
        toolCalls := saturatingAdd acc.toolCalls 1
        toolBuffers := acc.toolBuffers ++ [(id, "")]
        openTool := some id }
  | .toolUseDelta id partialJson =>
      { acc with toolBuffers := pushFragment id partialJson acc.toolBuffers }
  | .toolUseEnd _ => { acc with openTool := none }
  | .error _ => acc

def noteRefusal (acc : StreamAccumulator) : StreamAccumulator := { acc with sawRefusal := true }

def restoreFunctionName (acc : StreamAccumulator) (wire : String) : String :=
  acc.functionNames.original wire

def currentToolId (acc : StreamAccumulator) : Option String :=
  acc.toolBuffers.getLast?.map Prod.fst

def toolIdAt (acc : StreamAccumulator) (index : ℕ) : Option String :=
  acc.toolBuffers[index]?.map Prod.fst

def toolIds (acc : StreamAccumulator) : List String := acc.toolBuffers.map Prod.fst

def sawToolCall (acc : StreamAccumulator) : Bool := decide (0 < acc.toolCalls)

/-- Folding moves the usage by what the event carries and by nothing else. -/
theorem observe_usage (acc : StreamAccumulator) (e : StreamEvent) :
    (acc.observe e).usage = acc.usage.merge (e.usage?.getD {}) := by
  cases e <;> simp [observe, StreamEvent.usage?, Usage.merge_default]

end StreamAccumulator

namespace FunctionNameMap

/-- Restore client-facing names, and ids, on a parsed event. -/
def restoreInEvent (names : FunctionNameMap) : StreamEvent → StreamEvent
  | .toolUseStart id name => .toolUseStart (names.originalToolUseId id) (names.original name)
  | .toolUseDelta id partialJson => .toolUseDelta (names.originalToolUseId id) partialJson
  | .toolUseEnd id => .toolUseEnd (names.originalToolUseId id)
  | e => e

def restoreInEvents (names : FunctionNameMap) (events : List StreamEvent) : List StreamEvent :=
  events.map names.restoreInEvent

end FunctionNameMap

end OpenAIGateway
