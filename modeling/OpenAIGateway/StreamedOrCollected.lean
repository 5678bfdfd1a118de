import OpenAIGateway.ChatReadBack
import OpenAIGateway.CollectedReadBack

/-!
A client is told the same answer whether or not it streams, in two of the four
dialects always. An Anthropic stream passes on a turn's end where the collected
body says the turn stopped for its calls, and a Chat Completions stream cannot
announce a call whose id is empty.
-/

set_option linter.all false

namespace OpenAIGateway

section Clients

variable (serde : Serde)

/-- `parse_event` of a dialect. -/
def parseEventOf : Dialect → ParseEvent
  | .openAIChatCompletions => Chat.parseEvent serde.fromStr
  | .anthropicMessages => Anthropic.parseEvent serde.fromStr
  | .geminiGenerateContent => Gemini.parseEvent serde.toString serde.fromStr
  | .openAIResponses => Responses.parseEvent serde.fromStr

/-- `parse_response` of a dialect. -/
def parseResponseOf : Dialect → Json → List StreamEvent
  | .openAIChatCompletions => Chat.parseResponse
  | .anthropicMessages => Anthropic.parseResponse serde.toString
  | .geminiGenerateContent => Gemini.parseResponse serde.toString
  | .openAIResponses => Responses.parseResponse

variable (dialect : Dialect) (requestId model : String) (events : List StreamEvent)

/-- The frames a client of this dialect is sent. -/
def streamFrames : List Frame :=
  (renderAll (fun e r => r.render serde.fromStr e) events
    (Renderer.forDialect dialect requestId model)).2

/-- What a client that streams is told. -/
def streamed : Told :=
  Told.of (Reading.frames serde (parseEventOf serde dialect) {}
    (streamFrames serde dialect requestId model events)).events

/-- What a client that does not stream is told. -/
def collected : Told :=
  Told.of (parseResponseOf serde dialect
    (renderCollected serde.toString serde.fromStr events dialect requestId model))

/-- An answer as a client takes it: calls by name and by the value of their arguments. -/
structure Heard where
  text : String
  thinking : String
  calls : List (String × Option Json)
  stop : Option StopReason
  usage : Usage

/-- The value of arguments; none count as the empty object. -/
def argumentsValue (fromStr : String → Option Json) (arguments : String) : Option Json :=
  if arguments = "" then some (.obj []) else fromStr arguments

def Told.heard (fromStr : String → Option Json) (t : Told) : Heard where
  text := t.text
  thinking := t.thinking
  calls := t.calls.map (fun call => (call.name, argumentsValue fromStr call.arguments))
  stop := t.stop
  usage := t.usage

end Clients

section Frames

variable (serde : Serde) (requestId model : String) (events : List StreamEvent)

/-- A renderer's frames are those of its dialect's state. -/
theorem renderAll_wrapped {σ : Type} {fromStr : String → Option Json}
    {render : StreamEvent → σ → σ × List Frame} {wrap : σ → Renderer}
    (hwrap : ∀ e st, (wrap st).render fromStr e = (wrap (render e st).1, (render e st).2))
    (events : List StreamEvent) (st : σ) :
    (renderAll (fun e r => r.render fromStr e) events (wrap st)).2 =
      (renderAll render events st).2 := by
  induction events generalizing st with
  | nil => rfl
  | cons e events ih =>
    rw [renderAll_cons, renderAll_cons, hwrap, ih]

theorem streamFrames_chat : streamFrames serde .openAIChatCompletions requestId model events =
    (renderAll Chat.renderEvent events (.new requestId model)).2 :=
  renderAll_wrapped (fun _ _ => rfl) events (Chat.RenderState.new requestId model)

theorem streamFrames_anthropic : streamFrames serde .anthropicMessages requestId model events =
    (renderAll Anthropic.renderEvent events (.new requestId model)).2 :=
  renderAll_wrapped (fun _ _ => rfl) events (Anthropic.RenderState.new requestId model)

theorem streamFrames_gemini : streamFrames serde .geminiGenerateContent requestId model events =
    (renderAll (Gemini.renderEvent serde.fromStr) events .new).2 :=
  renderAll_wrapped (fun _ _ => rfl) events Gemini.RenderState.new

theorem streamFrames_responses : streamFrames serde .openAIResponses requestId model events =
    (renderAll Responses.renderEvent events (.new requestId model)).2 :=
  renderAll_wrapped (fun _ _ => rfl) events (Responses.RenderState.new requestId model)

/-- What frames tell, a reader of their text is told. -/
theorem Tells.told {serde : Serde} {values : Json → StreamAccumulator → List StreamEvent}
    {fs : List Frame} {t : Told} (h : Tells values fs {} t) (hreads : serde.Reads fs)
    {parse : ParseEvent}
    (hparse : ∀ p acc, parse p acc = (serde.fromStr p).map (fun v => (acc, values v acc))) :
    Told.of (Reading.frames serde parse {} fs).events = t := by
  rw [Reading.frames_eq_foldl_value values hreads parse hparse]
  exact (h (unread {}) (reads_unread {})).told

end Frames

/-- serde_json on an answer: the text of each frame reads as the frame's value, the printed value of
a call's arguments reads as that value, and nothing is not JSON. -/
structure Serde.Carries (serde : Serde) (frames : List Frame) (calls : List ToldCall) : Prop
    extends serde.Reads frames where
  arguments : ∀ call ∈ calls, serde.fromStr (serde.toString (call.value serde.fromStr)) =
    some (call.value serde.fromStr)
  empty : serde.fromStr "" = none

namespace WholeAnswer

variable {serde : Serde} (a : WholeAnswer serde.fromStr) (requestId model : String)

theorem calls_events : (Told.of a.events).calls = a.told.calls := by
  rw [a.told_events]

theorem word_usage : Chat.Word (Told.of a.events).usage :=
  Chat.word_told {} a.events Chat.word_zero a.words

theorem usage_lt : (Told.of a.events).usage.promptTokens < 2 ^ 64 := by
  rw [a.told_events]
  exact a.promptTokens_lt

theorem calls_lt : a.told.calls.length < 2 ^ 64 := by
  rw [a.told_calls]
  exact a.counted

/-- The calls of a body are told as they were printed. -/
theorem hear_printed : (a.told.calls.map (ToldCall.printed serde.fromStr serde.toString)).foldl
    hear [] = a.told.calls.map (ToldCall.printed serde.fromStr serde.toString) := by
  refine foldl_hear_of_nodup ?_
  have hids : (a.told.calls.map (ToldCall.printed serde.fromStr serde.toString)).map ToldCall.id =
      a.told.calls.map ToldCall.id := by
    rw [List.map_map]
    rfl
  rw [hids, a.fits.ids]
  exact a.fits.nodup

section Streamed

theorem streamed_anthropic
    (h : serde.Reads (streamFrames serde .anthropicMessages requestId model a.events)) :
    streamed serde .anthropicMessages requestId model a.events = Told.of a.events := by
  unfold streamed
  rw [streamFrames_anthropic] at h ⊢
  exact (Anthropic.stream_told a requestId model).told h (fun _ _ => rfl)

theorem streamed_chat
    (h : serde.Reads (streamFrames serde .openAIChatCompletions requestId model a.events))
    (hids : "" ∉ a.seen) :
    streamed serde .openAIChatCompletions requestId model a.events =
      { a.told with
        usage := Chat.foldWrites (Told.of a.events).usage
        stop := some (Chat.collapse a.reason (!a.told.calls.isEmpty)) } := by
  unfold streamed
  rw [streamFrames_chat] at h ⊢
  exact Chat.stream_told serde a requestId model hids h

theorem streamed_chat_lost
    (h : serde.Reads (streamFrames serde .openAIChatCompletions requestId model a.events))
    (hids : "" ∈ a.seen) :
    (streamed serde .openAIChatCompletions requestId model a.events).calls.length <
      a.told.calls.length := by
  unfold streamed
  rw [streamFrames_chat] at h ⊢
  exact Chat.call_lost serde a requestId model hids h

theorem streamed_responses
    (h : serde.Reads (streamFrames serde .openAIResponses requestId model a.events)) :
    streamed serde .openAIResponses requestId model a.events =
      { a.told with
        usage := Chat.foldWrites (Told.of a.events).usage
        stop := some (Responses.collapse a.reason (!a.told.calls.isEmpty)) } := by
  unfold streamed
  rw [streamFrames_responses] at h ⊢
  exact (Responses.stream_told a requestId model).told h (fun _ _ => rfl)

theorem streamed_gemini
    (h : serde.Reads (streamFrames serde .geminiGenerateContent requestId model a.events)) :
    streamed serde .geminiGenerateContent requestId model a.events =
      { a.told with
        calls := (Gemini.wireCalls serde.fromStr serde.toString a.told.calls).foldl hear []
        usage := Chat.foldWrites (Told.of a.events).usage
        stop := some (Responses.collapse a.reason (!a.told.calls.isEmpty)) } := by
  unfold streamed
  rw [streamFrames_gemini] at h ⊢
  exact (Gemini.stream_told serde.toString a).told h (fun _ _ => rfl)

end Streamed

section Collected

theorem collected_anthropic : collected serde .anthropicMessages requestId model a.events =
    { a.told with
      calls := a.told.calls.map (ToldCall.printed serde.fromStr serde.toString)
      usage := (Told.of a.events).usage
      stop := some (Anthropic.normalised a.reason (!a.told.calls.isEmpty)) } := by
  obtain ⟨adopted, blocks, hblocks, hhub⟩ := renderFromEvents_eq a requestId model
  have hbody := Anthropic.body_told serde.fromStr serde.toString requestId adopted blocks a.reason
    a.word_usage
  rw [hblocks, ← hhub] at hbody
  rw [← a.hear_printed]
  exact hbody

theorem collected_chat : collected serde .openAIChatCompletions requestId model a.events =
    { a.told with
      calls := a.told.calls.map (ToldCall.printed serde.fromStr serde.toString)
      usage := Chat.foldWrites (Told.of a.events).usage
      stop := some (Chat.collapse a.reason (!a.told.calls.isEmpty)) } := by
  obtain ⟨adopted, blocks, hblocks, hhub⟩ := renderFromEvents_eq a requestId model
  have hbody := Chat.body_told serde.fromStr serde.toString requestId adopted blocks a.reason
    a.word_usage a.usage_lt
  rw [hblocks, ← hhub] at hbody
  rw [← a.hear_printed]
  exact hbody

theorem collected_responses : collected serde .openAIResponses requestId model a.events =
    { a.told with
      calls := a.told.calls.map (ToldCall.printed serde.fromStr serde.toString)
      usage := Chat.foldWrites (Told.of a.events).usage
      stop := some (Responses.collapse a.reason (!a.told.calls.isEmpty)) } := by
  obtain ⟨adopted, blocks, hblocks, hhub⟩ := renderFromEvents_eq a requestId model
  have hbody := Responses.body_told serde.fromStr serde.toString requestId adopted blocks a.reason
    a.word_usage a.usage_lt
  rw [hblocks, ← hhub] at hbody
  rw [← a.hear_printed]
  exact hbody

theorem collected_gemini : collected serde .geminiGenerateContent requestId model a.events =
    { a.told with
      calls := (Gemini.wireCalls serde.fromStr serde.toString a.told.calls).foldl hear []
      usage := Chat.foldWrites (Told.of a.events).usage
      stop := some (Responses.collapse a.reason (!a.told.calls.isEmpty)) } := by
  obtain ⟨adopted, blocks, hblocks, hhub⟩ := renderFromEvents_eq a requestId model
  have hcount : (tellBlocks blocks).calls.length < 2 ^ 64 := by
    rw [hblocks]
    exact a.calls_lt
  have hbody := Gemini.body_told serde.fromStr serde.toString requestId adopted blocks a.reason
    a.word_usage a.usage_lt hcount
  rw [hblocks, ← hhub] at hbody
  exact hbody

end Collected

section Heard

/-- Printing the arguments of a call does not change what they are. -/
theorem heard_printed {frames : List Frame} (h : serde.Carries frames (Told.of a.events).calls) :
    (a.told.calls.map (ToldCall.printed serde.fromStr serde.toString)).map
        (fun call => (call.name, argumentsValue serde.fromStr call.arguments)) =
      a.told.calls.map (fun call => (call.name, argumentsValue serde.fromStr call.arguments)) := by
  rw [List.map_map]
  refine List.map_congr_left (fun call hcall => ?_)
  have hback := h.arguments call (a.calls_events ▸ hcall)
  have hprinted : argumentsValue serde.fromStr (serde.toString (call.value serde.fromStr)) =
      some (call.value serde.fromStr) := by
    have hsome : serde.toString (call.value serde.fromStr) ≠ "" := by
      intro hnothing
      rw [hnothing, h.empty] at hback
      cases hback
    rw [argumentsValue, if_neg hsome, hback]
  have htold : argumentsValue serde.fromStr call.arguments = some (call.value serde.fromStr) := by
    rw [a.told_calls] at hcall
    by_cases hnothing : call.arguments = ""
    · rw [argumentsValue, if_pos hnothing, ToldCall.value, hnothing, h.empty, Option.getD_none]
    · obtain ⟨v, hv⟩ := Option.isSome_iff_exists.mp ((a.arguments call hcall).resolve_left hnothing)
      rw [argumentsValue, if_neg hnothing, ToldCall.value, hv, Option.getD_some]
  exact Prod.ext rfl (hprinted.trans htold.symm)

/-- Two readings of the answer's calls, one as they were and one as they were printed. -/
theorem heard_eq_iff {frames : List Frame} (h : serde.Carries frames (Told.of a.events).calls)
    (usage : Usage) (stop stop' : Option StopReason) :
    Told.heard serde.fromStr { a.told with usage := usage, stop := stop } =
        Told.heard serde.fromStr { a.told with
          calls := a.told.calls.map (ToldCall.printed serde.fromStr serde.toString)
          usage := usage
          stop := stop' } ↔ stop = stop' := by
  unfold Told.heard
  rw [Heard.mk.injEq, a.heard_printed h]
  exact ⟨fun hsame => hsame.2.2.2.1, fun hstop => ⟨rfl, rfl, rfl, hstop, rfl⟩⟩

theorem heard_anthropic_iff (h : serde.Carries
    (streamFrames serde .anthropicMessages requestId model a.events) (Told.of a.events).calls) :
    (streamed serde .anthropicMessages requestId model a.events).heard serde.fromStr =
        (collected serde .anthropicMessages requestId model a.events).heard serde.fromStr ↔
      (a.reason = .endTurn → a.told.calls = []) := by
  rw [a.streamed_anthropic requestId model h.toReads, a.collected_anthropic, a.told_events,
    a.heard_eq_iff h]
  cases a.reason <;> cases a.told.calls <;> simp [Anthropic.normalised]

theorem heard_chat_iff (h : serde.Carries
    (streamFrames serde .openAIChatCompletions requestId model a.events) (Told.of a.events).calls) :
    (streamed serde .openAIChatCompletions requestId model a.events).heard serde.fromStr =
        (collected serde .openAIChatCompletions requestId model a.events).heard serde.fromStr ↔
      ∀ call ∈ a.told.calls, call.id ≠ "" := by
  have hseen : (∀ call ∈ a.told.calls, call.id ≠ "") ↔ "" ∉ a.seen := by
    have hids : a.told.calls.map ToldCall.id = a.seen := a.fits.ids
    rw [← hids, List.mem_map, not_exists]
    simp only [not_and]
  rw [hseen, a.collected_chat]
  constructor
  · intro hsame hids
    have hlost := a.streamed_chat_lost requestId model h.toReads hids
    have hlength := congrArg (fun heard => heard.calls.length) hsame
    simp only [Told.heard, List.length_map] at hlength
    exact absurd hlength (Nat.ne_of_lt hlost)
  · intro hids
    rw [a.streamed_chat requestId model h.toReads hids]
    exact (a.heard_eq_iff h _ _ _).mpr rfl

theorem heard_responses (h : serde.Carries
    (streamFrames serde .openAIResponses requestId model a.events) (Told.of a.events).calls) :
    (streamed serde .openAIResponses requestId model a.events).heard serde.fromStr =
      (collected serde .openAIResponses requestId model a.events).heard serde.fromStr := by
  rw [a.streamed_responses requestId model h.toReads, a.collected_responses]
  exact (a.heard_eq_iff h _ _ _).mpr rfl

theorem heard_gemini (h : serde.Carries
    (streamFrames serde .geminiGenerateContent requestId model a.events) (Told.of a.events).calls) :
    (streamed serde .geminiGenerateContent requestId model a.events).heard serde.fromStr =
      (collected serde .geminiGenerateContent requestId model a.events).heard serde.fromStr := by
  rw [a.streamed_gemini requestId model h.toReads, a.collected_gemini]

end Heard

end WholeAnswer

/-- A client is told the same answer whether or not it streams, except for an Anthropic client when
the turn ends with calls in it, and for a Chat Completions client when a call has an empty id. -/
theorem heard_same_iff (serde : Serde) (a : WholeAnswer serde.fromStr) (dialect : Dialect)
    (requestId model : String)
    (h : serde.Carries (streamFrames serde dialect requestId model a.events)
      (Told.of a.events).calls) :
    (streamed serde dialect requestId model a.events).heard serde.fromStr =
        (collected serde dialect requestId model a.events).heard serde.fromStr ↔
      (dialect = .anthropicMessages → a.reason = .endTurn → (Told.of a.events).calls = []) ∧
        (dialect = .openAIChatCompletions → ∀ call ∈ (Told.of a.events).calls, call.id ≠ "") := by
  rw [a.calls_events]
  cases dialect with
  | anthropicMessages =>
    rw [a.heard_anthropic_iff requestId model h]
    exact ⟨fun hreason => ⟨fun _ => hreason, nofun⟩, fun hboth => hboth.1 rfl⟩
  | openAIChatCompletions =>
    rw [a.heard_chat_iff requestId model h]
    exact ⟨fun hids => ⟨nofun, fun _ => hids⟩, fun hboth => hboth.2 rfl⟩
  | geminiGenerateContent =>
    exact ⟨fun _ => ⟨nofun, nofun⟩, fun _ => a.heard_gemini requestId model h⟩
  | openAIResponses =>
    exact ⟨fun _ => ⟨nofun, nofun⟩, fun _ => a.heard_responses requestId model h⟩

section Lookup

theorem lookup_sums (reason : StopReason) : (Told.of [.toolUseStart "toolu_1" "lookup",
    .toolUseEnd "toolu_1", .stop reason {}]).usage.sum < 2 ^ 64 :=
  Nat.two_pow_pos 64

/-- A turn that is one call without arguments. -/
def lookupAnswer (fromStr : String → Option Json) (reason : StopReason) : WholeAnswer fromStr where
  start := none
  body := [.toolUseStart "toolu_1" "lookup", .toolUseEnd "toolu_1"]
  reason := reason
  usage := {}
  seen := ["toolu_1"]
  sequential := rfl
  words := by
    intro e he
    rcases List.mem_cons.mp he with rfl | he
    · exact Chat.word_zero
    · rcases List.mem_pair.mp he with rfl | rfl <;> exact Chat.word_zero
  sums := lookup_sums reason
  arguments := by
    intro call hcall
    rw [List.mem_singleton.mp hcall]
    exact .inl rfl
  counted := Nat.one_lt_two_pow (by omega)

def lookupStart : Json :=
  .obj [("type", .str "message_start"), ("message", .obj [("id", .str "msg_1"),
    ("type", .str "message"), ("role", .str "assistant"), ("model", .str "m"),
    ("content", .arr []), ("stop_reason", .null), ("usage", Anthropic.usageJson {})])]

def lookupOpens : Json :=
  .obj [("type", .str "content_block_start"), ("index", .nat 0),
    ("content_block", .obj [("type", .str "tool_use"), ("id", .str "toolu_1"),
      ("name", .str "lookup"), ("input", .obj [])])]

def lookupCloses : Json := .obj [("type", .str "content_block_stop"), ("index", .nat 0)]

def lookupDelta (reason : StopReason) : Json :=
  .obj [("type", .str "message_delta"), ("delta", .obj [
    ("stop_reason", .str (Anthropic.stopReasonStr reason)), ("stop_sequence", .null)]),
    ("usage", Anthropic.usageJson {})]

def lookupStop : Json := .obj [("type", .str "message_stop")]

theorem lookup_frames (serde : Serde) (reason : StopReason) :
    (streamFrames serde .anthropicMessages "1" "m" (lookupAnswer serde.fromStr reason).events).map
      Frame.data = [lookupStart, lookupOpens, lookupCloses, lookupDelta reason, lookupStop] := rfl

def noTokensText : String :=
  "\x7b\"input_tokens\":0,\"output_tokens\":0,\"cache_read_input_tokens\":0," ++
  "\"cache_creation_input_tokens\":0\x7d"

def lookupStartText : String :=
  "\x7b\"type\":\"message_start\",\"message\":\x7b\"id\":\"msg_1\",\"type\":\"message\"," ++
  "\"role\":\"assistant\",\"model\":\"m\",\"content\":[],\"stop_reason\":null,\"usage\":" ++
  noTokensText ++ "\x7d\x7d"

def lookupOpensText : String :=
  "\x7b\"type\":\"content_block_start\",\"index\":0,\"content_block\":\x7b\"type\":" ++
  "\"tool_use\",\"id\":\"toolu_1\",\"name\":\"lookup\",\"input\":\x7b\x7d\x7d\x7d"

def lookupClosesText : String := "\x7b\"type\":\"content_block_stop\",\"index\":0\x7d"

def lookupDeltaText (reason : StopReason) : String :=
  "\x7b\"type\":\"message_delta\",\"delta\":\x7b\"stop_reason\":\"" ++
  Anthropic.stopReasonStr reason ++ "\",\"stop_sequence\":null\x7d,\"usage\":" ++ noTokensText ++
  "\x7d"

def lookupStopText : String := "\x7b\"type\":\"message_stop\"\x7d"

/-- serde_json on the frames of a lookup and on its arguments. -/
def lookupSerde (reason : StopReason) : Serde where
  toString v :=
    match v["type"].asStr.getD "" with
    | "message_start" => lookupStartText
    | "content_block_start" => lookupOpensText
    | "content_block_stop" => lookupClosesText
    | "message_delta" => lookupDeltaText reason
    | "message_stop" => lookupStopText
    | _ => "\x7b\x7d"
  fromStr text :=
    if text = lookupStartText then some lookupStart
    else if text = lookupOpensText then some lookupOpens
    else if text = lookupClosesText then some lookupCloses
    else if text = lookupStopText then some lookupStop
    else if text = "\x7b\x7d" then some (.obj [])
    else if text = lookupDeltaText reason then some (lookupDelta reason)
    else none

section Reads

variable (reason : StopReason)

/-- No text is another's, nor the sentinel. -/
theorem lookupTexts_nodup : ["[DONE]", "", lookupDeltaText reason, "\x7b\x7d", lookupStopText,
    lookupClosesText, lookupOpensText, lookupStartText].Nodup := by
  cases reason <;> decide +kernel

theorem lookupSerde_start : (lookupSerde reason).fromStr lookupStartText = some lookupStart := by
  simp only [lookupSerde, if_true]

theorem lookupSerde_opens : (lookupSerde reason).fromStr lookupOpensText = some lookupOpens := by
  have hapart := lookupTexts_nodup reason
  simp only [List.nodup_cons, List.mem_cons, not_or] at hapart
  simp only [lookupSerde, hapart, if_true, if_false]

theorem lookupSerde_closes : (lookupSerde reason).fromStr lookupClosesText = some lookupCloses := by
  have hapart := lookupTexts_nodup reason
  simp only [List.nodup_cons, List.mem_cons, not_or] at hapart
  simp only [lookupSerde, hapart, if_true, if_false]

theorem lookupSerde_stop : (lookupSerde reason).fromStr lookupStopText = some lookupStop := by
  have hapart := lookupTexts_nodup reason
  simp only [List.nodup_cons, List.mem_cons, not_or] at hapart
  simp only [lookupSerde, hapart, if_true, if_false]

theorem lookupSerde_object : (lookupSerde reason).fromStr "\x7b\x7d" = some (.obj []) := by
  have hapart := lookupTexts_nodup reason
  simp only [List.nodup_cons, List.mem_cons, not_or] at hapart
  simp only [lookupSerde, hapart, if_true, if_false]

theorem lookupSerde_delta :
    (lookupSerde reason).fromStr (lookupDeltaText reason) = some (lookupDelta reason) := by
  have hapart := lookupTexts_nodup reason
  simp only [List.nodup_cons, List.mem_cons, not_or] at hapart
  simp only [lookupSerde, hapart, if_true, if_false]

theorem lookupSerde_empty : (lookupSerde reason).fromStr "" = none := by
  have hapart := lookupTexts_nodup reason
  simp only [List.nodup_cons, List.mem_cons, not_or] at hapart
  simp only [lookupSerde, hapart, if_false]

theorem lookupSerde_done : (lookupSerde reason).fromStr "[DONE]" = none := by
  have hapart := lookupTexts_nodup reason
  simp only [List.nodup_cons, List.mem_cons, not_or] at hapart
  simp only [lookupSerde, hapart, if_false]

theorem lookup_carries : (lookupSerde reason).Carries
    (streamFrames (lookupSerde reason) .anthropicMessages "1" "m"
      (lookupAnswer (lookupSerde reason).fromStr reason).events)
    (Told.of (lookupAnswer (lookupSerde reason).fromStr reason).events).calls where
  back := by
    have hback : ∀ v ∈ [lookupStart, lookupOpens, lookupCloses, lookupDelta reason, lookupStop],
        (lookupSerde reason).fromStr ((lookupSerde reason).toString v) = some v := by
      intro v hv
      simp only [List.mem_cons, List.not_mem_nil, or_false] at hv
      rcases hv with rfl | rfl | rfl | rfl | rfl
      · exact lookupSerde_start reason
      · exact lookupSerde_opens reason
      · exact lookupSerde_closes reason
      · exact lookupSerde_delta reason
      · exact lookupSerde_stop reason
    rw [← lookup_frames (lookupSerde reason) reason] at hback
    intro f hf
    exact hback f.data (List.mem_map_of_mem hf)
  done := lookupSerde_done reason
  empty := lookupSerde_empty reason
  arguments := by
    intro call hcall
    rw [List.mem_singleton.mp hcall]
    have hvalue : ToldCall.value (lookupSerde reason).fromStr ⟨"toolu_1", "lookup", ""⟩ =
        .obj [] := by
      rw [ToldCall.value, lookupSerde_empty, Option.getD_none]
    rw [hvalue]
    exact lookupSerde_object reason

end Reads

/-- A turn that stops for its call is told alike. -/
theorem lookup_heard_same :
    (Told.of (lookupAnswer (lookupSerde .toolUse).fromStr .toolUse).events).calls =
        [⟨"toolu_1", "lookup", ""⟩] ∧
      (streamed (lookupSerde .toolUse) .anthropicMessages "1" "m"
        (lookupAnswer (lookupSerde .toolUse).fromStr .toolUse).events).heard
          (lookupSerde .toolUse).fromStr =
      (collected (lookupSerde .toolUse) .anthropicMessages "1" "m"
        (lookupAnswer (lookupSerde .toolUse).fromStr .toolUse).events).heard
          (lookupSerde .toolUse).fromStr :=
  ⟨rfl, (heard_same_iff (lookupSerde .toolUse) (lookupAnswer _ .toolUse) .anthropicMessages "1" "m"
    (lookup_carries .toolUse)).mpr ⟨nofun, nofun⟩⟩

/-- A turn that ends with a call in it: the stream says it ended, the body that it called. -/
theorem ended_turn_heard_apart :
    (streamed (lookupSerde .endTurn) .anthropicMessages "1" "m"
        (lookupAnswer (lookupSerde .endTurn).fromStr .endTurn).events).stop = some .endTurn ∧
      (collected (lookupSerde .endTurn) .anthropicMessages "1" "m"
        (lookupAnswer (lookupSerde .endTurn).fromStr .endTurn).events).stop = some .toolUse ∧
      ¬ ∀ (serde : Serde) (a : WholeAnswer serde.fromStr) (dialect : Dialect)
        (requestId model : String),
        serde.Carries (streamFrames serde dialect requestId model a.events)
          (Told.of a.events).calls →
        (streamed serde dialect requestId model a.events).heard serde.fromStr =
          (collected serde dialect requestId model a.events).heard serde.fromStr := by
  have hstreamed : (streamed (lookupSerde .endTurn) .anthropicMessages "1" "m"
      (lookupAnswer (lookupSerde .endTurn).fromStr .endTurn).events).stop = some .endTurn := by
    rw [WholeAnswer.streamed_anthropic _ _ _ (lookup_carries .endTurn).toReads]
    rfl
  have hcollected : (collected (lookupSerde .endTurn) .anthropicMessages "1" "m"
      (lookupAnswer (lookupSerde .endTurn).fromStr .endTurn).events).stop = some .toolUse := by
    rw [WholeAnswer.collected_anthropic]
    rfl
  refine ⟨hstreamed, hcollected, ?_⟩
  intro hall
  have hstop := congrArg Heard.stop (hall (lookupSerde .endTurn) (lookupAnswer _ .endTurn)
    .anthropicMessages "1" "m" (lookup_carries .endTurn))
  simp only [Told.heard] at hstop
  rw [hstreamed, hcollected] at hstop
  cases hstop

end Lookup

end OpenAIGateway
