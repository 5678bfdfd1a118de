import OpenAIGateway.Failover
import OpenAIGateway.ResponsesParse
import OpenAIGateway.SseFraming

/-!
Reading a streamed upstream response to its end when the client wants one
body: the events it carried, or the failure with what the provider had
produced by then. What a failure is taken for depends on the usage folded so
far, so it depends on whether the upstream had reported any.
-/

set_option linter.all false

namespace OpenAIGateway.CollectStream

open Failover (Outcome collectFailed)

/-- What reads an upstream's stream: its framing and its dialect's parser. A parser notes what it
saw on the accumulator, and leaves the usage to the events. -/
structure Adapter where
  takePayloads : List UInt8 → List UInt8 × List String
  parseEvent : ParseEvent
  keepsUsage : ∀ payload acc acc' events, parseEvent payload acc = some (acc', events) →
    acc'.usage = acc.usage

/-- What one turn of the read loop meets; the body ends when there are no more. -/
inductive Read
  | overdue
  | idle
  | failed (message : String)
  | chunk (bytes : List UInt8)
  deriving DecidableEq, Repr

/-- The deadlines of a stream, in seconds. -/
structure Deadlines where
  idleTimeout : ℕ
  maxDuration : ℕ

/-- Past this the tail is not a large frame but an upstream that never sends the delimiter. -/
def maxPending : ℕ := 8 * 1024 * 1024

/-- The buffer, the accumulator and the events folded so far. -/
structure Collect where
  pending : List UInt8 := []
  acc : StreamAccumulator
  events : List StreamEvent := []

section Collecting

variable (adapter : Adapter) (deadlines : Deadlines)

/-- An unparseable payload is skipped. -/
def collectPayload (c : Collect) (payload : String) : Collect :=
  match adapter.parseEvent payload c.acc with
  | none => c
  | some (acc, parsed) =>
      { c with acc := parsed.foldl StreamAccumulator.observe acc, events := c.events ++ parsed }

def collectPayloads (c : Collect) (payloads : List String) : Collect :=
  payloads.foldl (collectPayload adapter) c

/-- Take what is complete out of the buffer and fold it. -/
def takeAndCollect (c : Collect) (chunk : List UInt8) : Collect :=
  let taken := adapter.takePayloads (c.pending ++ chunk)
  collectPayloads adapter { c with pending := taken.1 } taken.2

/-- The read loop: the state at the end of the body, or the failure and the state it left. -/
def collectReads : Collect → List Read → Option GatewayError × Collect
  | c, [] => (none, c)
  | c, .overdue :: _ =>
      (some (.internal ("upstream stream exceeded " ++ toString deadlines.maxDuration ++ "s")), c)
  | c, .idle :: _ =>
      (some (.internal ("upstream idle for " ++ toString deadlines.idleTimeout ++ "s")), c)
  | c, .failed message :: _ => (some (.internal ("upstream read failed: " ++ message)), c)
  | c, .chunk bytes :: reads =>
      let c := takeAndCollect adapter c bytes
      if maxPending < c.pending.length then
        (some (.internal ("upstream sent " ++ toString c.pending.length ++
          " bytes without completing an event")), c)
      else collectReads c reads

/-- Whatever is left is tried once more, in case it completed exactly at the end. -/
def collectLeft (c : Collect) : Collect :=
  if c.pending.isEmpty then c else takeAndCollect adapter c []

/-- What the end of the body is taken for: an error inside the stream, or an answer without its
stop, is a failure. -/
def atEnd (c : Collect) : Option GatewayError :=
  match c.events.findSome? Fold.errorMessage with
  | some message => some (.internal ("upstream stream error: " ++ message))
  | none =>
      if c.acc.stopReason.isNone then some (.internal "upstream closed before the response was complete")
      else none

/-- Read a stream to completion and fold it into events. -/
def collectStreamWith (names : FunctionNameMap) (reads : List Read) : Option GatewayError × Collect :=
  let read := collectReads adapter deadlines { acc := { functionNames := names } } reads
  match read.1 with
  | some e => (some e, read.2)
  | none => (atEnd (collectLeft adapter read.2), collectLeft adapter read.2)

end Collecting

/-- A content delta: text, thinking or tool arguments. -/
def isDelta : StreamEvent → Bool
  | .textDelta _ | .thinkingDelta _ | .toolUseDelta _ _ => true
  | _ => false

/-- An event that reports tokens the provider generated. -/
def reportsOutput (e : StreamEvent) : Bool := e.usage?.any (fun u => decide (0 < u.outputTokens))

/-! The usage folded is what the events folded report. -/

/-- The accumulator counts output exactly when one of its events reported some. -/
def Counted (c : Collect) : Prop :=
  0 < c.acc.usage.outputTokens ↔ c.events.any reportsOutput = true

theorem observe_output (acc : StreamAccumulator) (e : StreamEvent) :
    0 < (acc.observe e).usage.outputTokens ↔ 0 < acc.usage.outputTokens ∨ reportsOutput e = true := by
  rw [StreamAccumulator.observe_usage]
  unfold reportsOutput
  cases e.usage? with
  | none => simp [Usage.merge]
  | some u => simp [Usage.merge]

theorem foldl_observe_output (acc : StreamAccumulator) (events : List StreamEvent) :
    0 < (events.foldl StreamAccumulator.observe acc).usage.outputTokens ↔
      0 < acc.usage.outputTokens ∨ events.any reportsOutput = true := by
  induction events generalizing acc with
  | nil => simp
  | cons e events ih =>
    rw [List.foldl_cons, ih, observe_output, List.any_cons, Bool.or_eq_true, or_assoc]

section Counting

variable (adapter : Adapter) (deadlines : Deadlines)

theorem Counted.payload {c : Collect} (h : Counted c) (payload : String) :
    Counted (collectPayload adapter c payload) := by
  unfold collectPayload
  cases hparse : adapter.parseEvent payload c.acc with
  | none => exact h
  | some parsed =>
    obtain ⟨acc, events⟩ := parsed
    unfold Counted
    rw [foldl_observe_output, List.any_append, Bool.or_eq_true,
      adapter.keepsUsage payload c.acc acc events hparse]
    exact or_congr_left h

theorem Counted.payloads {c : Collect} (h : Counted c) (payloads : List String) :
    Counted (collectPayloads adapter c payloads) := by
  induction payloads generalizing c with
  | nil => exact h
  | cons payload payloads ih => exact ih (h.payload adapter payload)

theorem Counted.take {c : Collect} (h : Counted c) (chunk : List UInt8) :
    Counted (takeAndCollect adapter c chunk) := by
  unfold takeAndCollect
  exact Counted.payloads adapter
    (c := { c with pending := (adapter.takePayloads (c.pending ++ chunk)).1 }) h _

theorem Counted.reads {c : Collect} (h : Counted c) (reads : List Read) :
    Counted (collectReads adapter deadlines c reads).2 := by
  induction reads generalizing c with
  | nil => exact h
  | cons read reads ih =>
    cases read with
    | overdue => exact h
    | idle => exact h
    | failed message => exact h
    | chunk bytes =>
      unfold collectReads
      have htaken := h.take adapter bytes
      by_cases hlong : maxPending < (takeAndCollect adapter c bytes).pending.length
      · simp only [if_pos hlong]
        exact htaken
      · simp only [if_neg hlong]
        exact ih htaken

theorem Counted.left {c : Collect} (h : Counted c) : Counted (collectLeft adapter c) := by
  unfold collectLeft
  by_cases hempty : c.pending.isEmpty = true
  · rw [if_pos hempty]
    exact h
  · rw [if_neg hempty]
    exact h.take adapter []

theorem counted_collectStreamWith (names : FunctionNameMap) (reads : List Read) :
    Counted (collectStreamWith adapter deadlines names reads).2 := by
  have hstart : Counted { acc := { functionNames := names } } := by simp [Counted]
  have hreads := hstart.reads adapter deadlines reads
  simp only [collectStreamWith]
  cases (collectReads adapter deadlines { acc := { functionNames := names } } reads).1 with
  | none => exact hreads.left adapter
  | some e => exact hreads

/-- Whether the failure was taken for an answer lost. -/
def isLost : Outcome → Bool
  | .lost _ _ => true
  | _ => false

/-- For every adapter, framing and timeline of reads that fails: a failure after content is taken
for a lost answer exactly when the upstream had reported output tokens by then. -/
theorem lost_iff_reported (names : FunctionNameMap) (reads : List Read) {e : GatewayError} {c : Collect}
    (hfailed : collectStreamWith adapter deadlines names reads = (some e, c)) :
    (c.events.any isDelta = true → isLost (collectFailed e c.acc) = true) ↔
      (c.events.any isDelta = true → c.events.any reportsOutput = true) := by
  have hcounted := counted_collectStreamWith adapter deadlines names reads
  rw [hfailed] at hcounted
  have hlost : isLost (collectFailed e c.acc) = true ↔ c.events.any reportsOutput = true := by
    rw [← show _ ↔ _ from hcounted, collectFailed]
    by_cases h : 0 < c.acc.usage.outputTokens
    · rw [if_pos h]
      exact ⟨fun _ => h, fun _ => rfl⟩
    · rw [if_neg h]
      exact ⟨fun hfalse => absurd hfalse Bool.false_ne_true, fun hpos => absurd hpos h⟩
  rw [hlost]

end Counting

/-! A Codex seat: SSE frames in the Responses dialect. -/

theorem responses_keepsUsage (fromStr : String → Option Json) (payload : String)
    (acc acc' : StreamAccumulator) (events : List StreamEvent)
    (h : Responses.parseEvent fromStr payload acc = some (acc', events)) : acc'.usage = acc.usage := by
  obtain ⟨v, -, hv⟩ := Option.map_eq_some_iff.mp h
  exact congrArg StreamAccumulator.usage (congrArg Prod.fst hv).symm

def codexAdapter (fromStr : String → Option Json) : Adapter :=
  ⟨Sse.takeSsePayloads, Responses.parseEvent fromStr, responses_keepsUsage fromStr⟩

/-- The payloads of the streams below: some text, and the end of an answer of five tokens. -/
def textPayload : String := "\x7b\"type\":\"response.output_text.delta\",\"delta\":\"Hello\"\x7d"

def endPayload : String :=
  "\x7b\"type\":\"response.completed\",\"response\":\x7b\"usage\":\x7b\"output_tokens\":5\x7d\x7d\x7d"

/-- The two payloads as serde_json reads them. -/
def readAnswer (payload : String) : Option Json :=
  if payload = textPayload then
    some (.obj [("type", .str "response.output_text.delta"), ("delta", .str "Hello")])
  else if payload = endPayload then
    some (.obj [("type", .str "response.completed"),
      ("response", .obj [("usage", .obj [("output_tokens", .nat 5)])])])
  else none

def sseFrame (payload : String) : List UInt8 := Utf8.encode ("data: " ++ payload ++ "\n\n").toList

section Ends

variable {adapter : Adapter} {deadlines : Deadlines} {names : FunctionNameMap} {reads : List Read}
  {c : Collect}

theorem collectStreamWith_failed {e : GatewayError}
    (h : collectReads adapter deadlines { acc := { functionNames := names } } reads = (some e, c)) :
    collectStreamWith adapter deadlines names reads = (some e, c) := by
  simp only [collectStreamWith, h]

theorem collectStreamWith_ended
    (h : collectReads adapter deadlines { acc := { functionNames := names } } reads = (none, c)) :
    collectStreamWith adapter deadlines names reads =
      (atEnd (collectLeft adapter c), collectLeft adapter c) := by
  simp only [collectStreamWith, h]

end Ends

theorem takeSsePayloads_text :
    Sse.takeSsePayloads (sseFrame textPayload) = ([], [textPayload]) := by
  decide +kernel

theorem takeSsePayloads_end : Sse.takeSsePayloads (sseFrame endPayload) = ([], [endPayload]) := by
  decide +kernel

/-- A chunk that is one whole frame is its payload. -/
theorem collectReads_frame {fromStr : String → Option Json} {deadlines : Deadlines}
    {payload : String} (hframe : Sse.takeSsePayloads (sseFrame payload) = ([], [payload]))
    (acc : StreamAccumulator) (events : List StreamEvent) (reads : List Read) :
    collectReads (codexAdapter fromStr) deadlines ⟨[], acc, events⟩
        (.chunk (sseFrame payload) :: reads) =
      collectReads (codexAdapter fromStr) deadlines
        (collectPayload (codexAdapter fromStr) ⟨[], acc, events⟩ payload) reads := by
  have htaken : takeAndCollect (codexAdapter fromStr) ⟨[], acc, events⟩ (sseFrame payload) =
      collectPayload (codexAdapter fromStr) ⟨[], acc, events⟩ payload := by
    simp only [takeAndCollect, codexAdapter, List.nil_append, hframe, collectPayloads,
      List.foldl_cons, List.foldl_nil]
  have hnone : (collectPayload (codexAdapter fromStr) ⟨[], acc, events⟩ payload).pending = [] := by
    unfold collectPayload
    cases (codexAdapter fromStr).parseEvent payload acc <;> rfl
  rw [collectReads, htaken, hnone]
  rfl

theorem readAnswer_text : readAnswer textPayload =
    some (.obj [("type", .str "response.output_text.delta"), ("delta", .str "Hello")]) :=
  if_pos rfl

theorem readAnswer_end : readAnswer endPayload =
    some (.obj [("type", .str "response.completed"),
      ("response", .obj [("usage", .obj [("output_tokens", .nat 5)])])]) := by
  have hother : endPayload ≠ textPayload := by decide +kernel
  unfold readAnswer
  rw [if_neg hother, if_pos rfl]

/-- The text as it is folded. -/
theorem collect_text (acc : StreamAccumulator) (events : List StreamEvent) :
    collectPayload (codexAdapter readAnswer) ⟨[], acc, events⟩ textPayload =
      ⟨[], acc.observe (.textDelta "Hello"), events ++ [.textDelta "Hello"]⟩ := by
  simp only [collectPayload, codexAdapter, Responses.parseEvent, readAnswer_text]
  rfl

/-- The end of an answer that called nothing, as it is folded. -/
theorem collect_end {acc : StreamAccumulator} (events : List StreamEvent) (h : acc.toolCalls = 0) :
    collectPayload (codexAdapter readAnswer) ⟨[], acc, events⟩ endPayload =
      ⟨[], (acc.observe (.usageUpdate ⟨0, 5, 0, 0⟩)).observe (.stop .endTurn ⟨0, 5, 0, 0⟩),
        events ++ [.usageUpdate ⟨0, 5, 0, 0⟩, .stop .endTurn ⟨0, 5, 0, 0⟩]⟩ := by
  have hcalled : acc.sawToolCall = false := by
    unfold StreamAccumulator.sawToolCall
    rw [h]
    rfl
  have hevents : Responses.payloadEvents (.obj [("type", .str "response.completed"),
      ("response", .obj [("usage", .obj [("output_tokens", .nat 5)])])]) acc =
      [.usageUpdate ⟨0, 5, 0, 0⟩, .stop (Responses.stopReason none false (acc.sawToolCall || false))
        ⟨0, 5, 0, 0⟩] := rfl
  rw [hcalled] at hevents
  simp only [collectPayload, codexAdapter, Responses.parseEvent, readAnswer_end, Option.map_some,
    hevents]
  rfl

theorem collect_answer :
    collectStreamWith (codexAdapter readAnswer) ⟨60, 600⟩ {}
        [.chunk (sseFrame textPayload), .chunk (sseFrame endPayload), .failed "reset"] =
      (some (.internal "upstream read failed: reset"),
        ⟨[], ((StreamAccumulator.observe {} (.textDelta "Hello")).observe
          (.usageUpdate ⟨0, 5, 0, 0⟩)).observe (.stop .endTurn ⟨0, 5, 0, 0⟩),
          [.textDelta "Hello", .usageUpdate ⟨0, 5, 0, 0⟩, .stop .endTurn ⟨0, 5, 0, 0⟩]⟩) := by
  refine collectStreamWith_failed ?_
  rw [collectReads_frame takeSsePayloads_text, collect_text,
    collectReads_frame takeSsePayloads_end, collect_end _ rfl, collectReads]
  rfl

theorem collect_dropped :
    collectStreamWith (codexAdapter readAnswer) ⟨60, 600⟩ {} [.chunk (sseFrame textPayload)] =
      (some (.internal "upstream closed before the response was complete"),
        ⟨[], StreamAccumulator.observe {} (.textDelta "Hello"), [.textDelta "Hello"]⟩) := by
  have hreads : collectReads (codexAdapter readAnswer) ⟨60, 600⟩ { acc := { functionNames := {} } }
      [.chunk (sseFrame textPayload)] =
      (none, ⟨[], StreamAccumulator.observe {} (.textDelta "Hello"), [.textDelta "Hello"]⟩) := by
    rw [collectReads_frame takeSsePayloads_text, collect_text, collectReads]
    rfl
  rw [collectStreamWith_ended hreads]
  rfl

/-- A Codex connection that fails after the terminal event: the tokens are known and the answer
is metered. -/
theorem lost_when_reported :
    let run := collectStreamWith (codexAdapter readAnswer) ⟨60, 600⟩ {}
      [.chunk (sseFrame textPayload), .chunk (sseFrame endPayload), .failed "reset"]
    run.1 = some (.internal "upstream read failed: reset") ∧
      (run.2.events.any isDelta = true →
        isLost (collectFailed (.internal "upstream read failed: reset") run.2.acc) = true) := by
  have hreported := (lost_iff_reported _ _ _ _ collect_answer).mpr (fun _ => rfl)
  simp only [collect_answer]
  exact ⟨trivial, hreported⟩

/-- A Codex connection that drops after some text: the text is folded, the dialect has not said
yet what it cost, and the answer is forgotten. -/
theorem dropped_text_is_switched :
    let run := collectStreamWith (codexAdapter readAnswer) ⟨60, 600⟩ {} [.chunk (sseFrame textPayload)]
    run.1 = some (.internal "upstream closed before the response was complete") ∧
      run.2.events = [.textDelta "Hello"] ∧ run.2.events.any isDelta = true ∧
      isLost (collectFailed (.internal "upstream closed before the response was complete")
        run.2.acc) = false := by
  simp only [collect_dropped]
  exact ⟨trivial, trivial, rfl, rfl⟩

end OpenAIGateway.CollectStream
