import OpenAIGateway.MessageBlocks

/-!
A message in a client's dialect, read back. Each converter regroups the blocks:
texts are joined, reasoning goes ahead of them or is flagged, and a call's input
is printed. What the dialect's reader is told is still what the blocks said.
-/

set_option linter.all false

namespace OpenAIGateway

section Brings

/-- Whether an event is about a call. -/
def isCallEvent : StreamEvent → Bool
  | .toolUseStart _ _ | .toolUseDelta _ _ | .toolUseEnd _ => true
  | _ => false

def callEvents (events : List StreamEvent) : List StreamEvent := events.filter isCallEvent

theorem callEvents_calls (calls : List ToldCall) :
    callEvents (calls.flatMap ToldCall.events) = calls.flatMap ToldCall.events := by
  induction calls with
  | nil => rfl
  | cons call calls ih =>
    unfold callEvents at *
    rw [List.flatMap_cons, List.filter_append, ih]
    rfl

/-- Events that bring this text, this thinking and these calls, and nothing of the usage or the
stop. -/
structure Brings (events : List StreamEvent) (text thinking : String) (calls : List ToldCall) :
    Prop where
  text : ∀ t : Told, (t.tellAll events).text = t.text ++ text
  thinking : ∀ t : Told, (t.tellAll events).thinking = t.thinking ++ thinking
  calls : callEvents events = calls.flatMap ToldCall.events
  usage : ∀ t : Told, (t.tellAll events).usage = t.usage

theorem brings_nothing : Brings [] "" "" [] where
  text := fun _ => String.append_empty.symm
  thinking := fun _ => String.append_empty.symm
  calls := rfl
  usage := fun _ => rfl

theorem Brings.append {events more : List StreamEvent} {text text' thinking thinking' : String}
    {calls calls' : List ToldCall} (h : Brings events text thinking calls)
    (h' : Brings more text' thinking' calls') :
    Brings (events ++ more) (text ++ text') (thinking ++ thinking') (calls ++ calls') where
  text := by
    intro t
    rw [Told.tellAll_append, h'.text, h.text, String.append_assoc]
  thinking := by
    intro t
    rw [Told.tellAll_append, h'.thinking, h.thinking, String.append_assoc]
  calls := by
    have hevents : callEvents (events ++ more) = callEvents events ++ callEvents more :=
      List.filter_append ..
    rw [hevents, h.calls, h'.calls, List.flatMap_append]
  usage := by
    intro t
    rw [Told.tellAll_append, h'.usage, h.usage]

/-- A text that is not empty is one delta. -/
theorem brings_text (text : String) :
    Brings ((Chat.nonEmptyStr (.str text)).toList.map .textDelta) text "" [] where
  text := fun t => by rw [Chat.tellAll_text]
  thinking := fun t => by rw [Chat.tellAll_text, String.append_empty]
  calls := by
    rw [Chat.nonEmptyStr_str]
    cases text.isEmpty <;> rfl
  usage := fun t => by rw [Chat.tellAll_text]

theorem brings_thinking (text : String) :
    Brings ((Chat.nonEmptyStr (.str text)).toList.map .thinkingDelta) "" text [] where
  text := fun t => by rw [Chat.tellAll_thinking, String.append_empty]
  thinking := fun t => by rw [Chat.tellAll_thinking]
  calls := by
    rw [Chat.nonEmptyStr_str]
    cases text.isEmpty <;> rfl
  usage := fun t => by rw [Chat.tellAll_thinking]

theorem brings_calls (calls : List ToldCall) :
    Brings (calls.flatMap ToldCall.events) "" "" calls where
  text := fun t => by rw [tellAll_calls, String.append_empty]
  thinking := fun t => by rw [tellAll_calls, String.append_empty]
  calls := callEvents_calls calls
  usage := fun t => by rw [tellAll_calls]

end Brings

section Blocks

variable {toStr : Json → String}

/-- The four kinds of block, by what they are read as. -/
theorem said_cases (block : Json) :
    (block["type"].asStr.getD "" = "text" ∧
      said block = some (.text (block["text"].asStr.getD ""))) ∨
    (block["type"].asStr.getD "" = "thinking" ∧
      said block = some (.thinking (block["thinking"].asStr.getD ""))) ∨
    (block["type"].asStr.getD "" = "tool_use" ∧
      said block = some (.call ⟨block["id"].asStr.getD "", block["name"].asStr.getD "",
        block["input"]⟩)) ∨
    (block["type"].asStr.getD "" ∉ ["text", "thinking", "tool_use"] ∧ said block = none) := by
  unfold said
  split
  · rename_i htype
    exact Or.inl ⟨htype, rfl⟩
  · rename_i htype
    exact Or.inr (Or.inl ⟨htype, rfl⟩)
  · rename_i htype
    exact Or.inr (Or.inr (Or.inl ⟨htype, rfl⟩))
  · rename_i htext hthinking hcall
    refine Or.inr (Or.inr (Or.inr ⟨?_, rfl⟩))
    simp only [List.mem_cons, List.not_mem_nil, or_false, not_or]
    exact ⟨htext, hthinking, hcall⟩

theorem joined_cons (kind : String) (block : Json) (blocks : List Json) :
    joined kind (block :: blocks) =
      (if block["type"].asStr.getD "" = kind then block[kind].asStr.getD "" else "") ++
        joined kind blocks := by
  have hfrom : ∀ (blocks : List Json) (before : String),
      blocks.foldl (fun text block => if block["type"].asStr.getD "" = kind then
        text ++ block[kind].asStr.getD "" else text) before = before ++ joined kind blocks := by
    intro blocks
    induction blocks with
    | nil => exact fun before => String.append_empty.symm
    | cons block blocks ih =>
      intro before
      unfold joined
      rw [List.foldl_cons, List.foldl_cons, ih, ih, ← String.append_assoc]
      split <;> simp
  unfold joined
  rw [List.foldl_cons, hfrom]
  split <;> simp [joined]

/-- The converters' joined texts are what the blocks say. -/
theorem joined_said (blocks : List Json) :
    joined "text" blocks = String.join ((blocks.filterMap said).map Said.words) ∧
      joined "thinking" blocks = String.join ((blocks.filterMap said).map Said.thoughts) := by
  induction blocks with
  | nil => exact ⟨rfl, rfl⟩
  | cons block blocks ih =>
    rw [joined_cons, joined_cons, ih.1, ih.2]
    rcases said_cases block with ⟨htype, hsaid⟩ | ⟨htype, hsaid⟩ | ⟨htype, hsaid⟩ | ⟨htype, hsaid⟩
    · rw [List.filterMap_cons_some hsaid, htype]
      simp [Said.words, Said.thoughts, String.join_cons]
    · rw [List.filterMap_cons_some hsaid, htype]
      simp [Said.words, Said.thoughts, String.join_cons]
    · rw [List.filterMap_cons_some hsaid, htype]
      simp [Said.words, Said.thoughts, String.join_cons]
    · rw [List.filterMap_cons_none hsaid]
      simp only [List.mem_cons, not_or] at htype
      simp [htype.1, htype.2.1]

/-- A call as the readers tell it: its arguments are its input, printed. -/
def MessageCall.told (toStr : Json → String) (c : MessageCall) : ToldCall where
  id := c.id
  name := c.name
  arguments := toStr c.input

theorem callsOf_cons (convert : Json → Json) (block : Json) (blocks : List Json) :
    callsOf convert (block :: blocks) =
      (if block["type"].asStr.getD "" = "tool_use" then [convert block] else []) ++
        callsOf convert blocks := List.flatMap_cons

/-- The converters' calls are what the blocks call. -/
theorem callsOf_said (blocks : List Json) :
    (callsOf (Chat.wholeCall toStr) blocks).flatMap Chat.parseWholeCall =
        (((blocks.filterMap said).flatMap Said.calls).map (MessageCall.told toStr)).flatMap
          ToldCall.events ∧
      (callsOf (Chat.wholeCall toStr) blocks).isEmpty =
        ((blocks.filterMap said).flatMap Said.calls).isEmpty := by
  induction blocks with
  | nil => exact ⟨rfl, rfl⟩
  | cons block blocks ih =>
    rw [callsOf_cons, List.flatMap_append, ih.1]
    rcases said_cases block with ⟨htype, hsaid⟩ | ⟨htype, hsaid⟩ | ⟨htype, hsaid⟩ | ⟨htype, hsaid⟩
    · rw [List.filterMap_cons_some hsaid, htype]
      exact ⟨rfl, ih.2⟩
    · rw [List.filterMap_cons_some hsaid, htype]
      exact ⟨rfl, ih.2⟩
    · rw [List.filterMap_cons_some hsaid, htype]
      exact ⟨rfl, rfl⟩
    · have hother : block["type"].asStr.getD "" ≠ "tool_use" := by
        intro heq
        simp [heq] at htype
      rw [List.filterMap_cons_none hsaid, if_neg hother]
      exact ⟨rfl, ih.2⟩

end Blocks

section Bodies

/-- The stop reason of a body that is read back: two words keep theirs, and any other turns on
whether the message calls. -/
def stopRead (called : Bool) (word : String) : StopReason :=
  match word with
  | "max_tokens" => .maxTokens
  | "refusal" => .refusal
  | _ => if called then .toolUse else .endTurn

theorem stopRead_of_ne {called : Bool} {word : String} (hlength : word ≠ "max_tokens")
    (hrefusal : word ≠ "refusal") :
    stopRead called word = if called then .toolUse else .endTurn := by
  unfold stopRead
  split
  · contradiction
  · contradiction
  · rfl

/-- Events that tell a message of these calls: its texts, its thinking, every call whole and in
order, its stop and its counts, with the cache writes in the input. -/
structure ReadAs (message : Json) (calls : List ToldCall) (word : String)
    (events : List StreamEvent) : Prop where
  text : (Told.of events).text = textIn message
  thinking : (Told.of events).thinking = thinkingIn message
  calls : callEvents events = calls.flatMap ToldCall.events
  stop : (Told.of events).stop = some (stopRead (!(callsIn message).isEmpty) word)
  input : (Told.of events).usage.inputTokens = inputCount message + writtenCount message
  output : (Told.of events).usage.outputTokens = outputCount message
  cached : (Told.of events).usage.cacheReadTokens = cachedCount message

variable {message : Json} {calls : List ToldCall} {word : String}

/-- A body that brings what a message says, between its usage and its stop, is read as it. -/
theorem Brings.readAs {events : List StreamEvent} {usage : Usage} {stop : StopReason}
    (h : Brings events (textIn message) (thinkingIn message) calls)
    (husage : usage = Chat.foldWrites (Anthropic.parseUsage message["usage"]))
    (hstop : stop = stopRead (!(callsIn message).isEmpty) word) :
    ReadAs message calls word (.usageUpdate usage :: events ++ [.stop stop usage]) := by
  have hmerged : Usage.merge {} usage = usage := by simp [Usage.merge]
  have hsame : usage.merge usage = usage := by simp [Usage.merge]
  have htold : Told.of (.usageUpdate usage :: events ++ [.stop stop usage]) =
      (Told.tellAll { usage := usage } events).tell (.stop stop usage) := by
    rw [List.cons_append]
    unfold Told.of Told.tellAll
    rw [List.foldl_cons, List.foldl_append]
    simp only [Told.tell, hmerged, List.foldl_cons, List.foldl_nil]
  have hcounts : (Told.of (.usageUpdate usage :: events ++ [.stop stop usage])).usage =
      Chat.foldWrites (Anthropic.parseUsage message["usage"]) := by
    rw [htold, ← husage]
    simp only [Told.tell, h.usage, hsame]
  refine ⟨?_, ?_, ?_, ?_, ?_, ?_, ?_⟩
  · rw [htold]
    exact (h.text _).trans String.empty_append
  · rw [htold]
    exact (h.thinking _).trans String.empty_append
  · have hevents : callEvents (.usageUpdate usage :: events ++ [.stop stop usage]) =
        callEvents events := by
      simp [callEvents, isCallEvent]
    rw [hevents, h.calls]
  · rw [htold, ← hstop]
    rfl
  · rw [hcounts]
    rfl
  · rw [hcounts]
    rfl
  · rw [hcounts]
    rfl

variable (toStr : Json → String) (requestId : String)

section Regrouped

variable (message : Json)

theorem joined_textIn : joined "text" (blocksOf message) = textIn message :=
  (joined_said (blocksOf message)).1

theorem joined_thinkingIn : joined "thinking" (blocksOf message) = thinkingIn message :=
  (joined_said (blocksOf message)).2

theorem parseWholeCall_callsIn :
    (callsOf (Chat.wholeCall toStr) (blocksOf message)).flatMap Chat.parseWholeCall =
      ((callsIn message).map (MessageCall.told toStr)).flatMap ToldCall.events :=
  (callsOf_said (blocksOf message)).1

theorem isEmpty_callsOf :
    (callsOf (Chat.wholeCall toStr) (blocksOf message)).isEmpty = (callsIn message).isEmpty :=
  (callsOf_said (blocksOf message)).2

end Regrouped

theorem Chat.finishReason_stopRead (hcalled : word = "tool_use" → callsIn message ≠ []) :
    Chat.finishReason (Chat.finishOf word) (!(callsIn message).isEmpty) false =
      stopRead (!(callsIn message).isEmpty) word := by
  by_cases hlength : word = "max_tokens"
  · rw [hlength]
    rfl
  by_cases hrefusal : word = "refusal"
  · rw [hrefusal]
    rfl
  rw [stopRead_of_ne hlength hrefusal]
  by_cases htool : word = "tool_use"
  · have hsome : (callsIn message).isEmpty = false := by
      simpa using hcalled htool
    rw [htool, hsome]
    rfl
  · have hstop : Chat.finishOf word = "stop" := by
      unfold Chat.finishOf
      split
      · contradiction
      · contradiction
      · contradiction
      · rfl
    rw [hstop]
    rfl

theorem Chat.parseUsage_message
    (hsum : (Anthropic.parseUsage message["usage"]).promptTokens < 2 ^ 64) :
    Chat.parseUsage (Chat.usageJson (Anthropic.parseUsage message["usage"])) =
      Chat.foldWrites (Anthropic.parseUsage message["usage"]) := by
  have hword := Anthropic.word_parseUsage message["usage"]
  rw [Chat.parseUsage_usageJson hword, (Chat.readUsage_eq_iff hword).mpr hsum]

theorem stopWord_eq (hstop : message["stop_reason"].asStr = some word) :
    stopWord message = word := by
  unfold stopWord
  rw [hstop, Option.getD_some]

/-- A completion of a message is read as the message. -/
theorem Chat.readAs (hstop : message["stop_reason"].asStr = some word)
    (hcalled : word = "tool_use" → callsIn message ≠ [])
    (hsum : (Anthropic.parseUsage message["usage"]).promptTokens < 2 ^ 64) :
    ReadAs message ((callsIn message).map (MessageCall.told toStr)) word
      (Chat.parseResponse (Chat.renderCompletion toStr message requestId)) := by
  have husage : (Chat.renderCompletion toStr message requestId)["usage"] =
      Chat.usageJson (Anthropic.parseUsage message["usage"]) := rfl
  rw [Chat.parseResponse_message _ _ _ (Chat.finishOf_ne_empty (stopWord message)) rfl husage,
    joined_textIn, joined_thinkingIn, parseWholeCall_callsIn, isEmpty_callsOf, stopWord_eq hstop]
  have hbrings := ((brings_text (textIn message)).append
    (brings_thinking (thinkingIn message))).append
      (brings_calls ((callsIn message).map (MessageCall.told toStr)))
  simp only [String.append_empty, String.empty_append, List.nil_append] at hbrings
  exact hbrings.readAs (Chat.parseUsage_message hsum) (Chat.finishReason_stopRead hcalled)

theorem Responses.stopReason_stopRead (called : Bool) (hstop : stopWord message = word) :
    Responses.stopReason (Responses.renderResponse toStr message
      requestId)["incomplete_details"]["reason"].asStr false called = stopRead called word := by
  rw [Responses.details_renderResponse, hstop]
  by_cases hlength : word = "max_tokens"
  · subst hlength
    rfl
  by_cases hrefusal : word = "refusal"
  · subst hrefusal
    rfl
  rw [if_neg (not_or.mpr ⟨hlength, hrefusal⟩), stopRead_of_ne hlength hrefusal]
  rfl

/-- A response of a message is read as the message. -/
theorem Responses.readAs (hstop : message["stop_reason"].asStr = some word)
    (hsum : (Anthropic.parseUsage message["usage"]).promptTokens < 2 ^ 64) :
    ReadAs message ((callsIn message).map (MessageCall.told toStr)) word
      (Responses.parseResponse (Responses.renderResponse toStr message requestId)) := by
  obtain ⟨hcalled, hrefuses⟩ := Responses.any_output toStr requestId (blocksOf message)
  have hevents : Responses.parseResponse (Responses.renderResponse toStr message requestId) =
      .usageUpdate (Responses.parseUsage
          (Responses.usageJson (Anthropic.parseUsage message["usage"]))) ::
        (Responses.output toStr (blocksOf message) requestId).flatMap Responses.parseItem ++
        [.stop (Responses.stopReason (Responses.renderResponse toStr message
            requestId)["incomplete_details"]["reason"].asStr
          ((Responses.output toStr (blocksOf message) requestId).any Responses.refuses)
          ((Responses.output toStr (blocksOf message) requestId).any
            (Responses.isType "function_call")))
          (Responses.parseUsage (Responses.usageJson (Anthropic.parseUsage message["usage"])))] :=
    rfl
  rw [hevents, hcalled, hrefuses, Responses.flatMap_output, joined_textIn, joined_thinkingIn,
    parseWholeCall_callsIn, isEmpty_callsOf]
  have hbrings := ((brings_thinking (thinkingIn message)).append
    (brings_text (textIn message))).append
      (brings_calls ((callsIn message).map (MessageCall.told toStr)))
  simp only [String.append_empty, String.empty_append, List.nil_append] at hbrings
  have hword := Anthropic.word_parseUsage message["usage"]
  exact hbrings.readAs (Responses.parseUsage_usageJson hword hsum)
    (Responses.stopReason_stopRead toStr requestId _ (stopWord_eq hstop))

namespace Gemini

/-- The calls of a body, each under its name and its place: this dialect carries no id. -/
def placed : ℕ → List MessageCall → List ToldCall
  | _, [] => []
  | place, c :: cs =>
      { c.told toStr with id := callId c.name place } :: placed (place + 1) cs

theorem nonEmptyStr_getD (v : Json) :
    Chat.nonEmptyStr (.str (v.asStr.getD "")) = v.asStr.filter (fun s => !s.isEmpty) := by
  cases v <;> rfl

/-- What one block's part is read as. -/
theorem brings_part (place : ℕ) (block : Json) :
    (parseParts toStr place (partOf block)).1 =
        place + ((said block).toList.flatMap Said.calls).length ∧
      Brings (parseParts toStr place (partOf block)).2
        (String.join ((said block).toList.map Said.words))
        (String.join ((said block).toList.map Said.thoughts))
        (placed toStr place ((said block).toList.flatMap Said.calls)) := by
  rcases said_cases block with ⟨htype, hsaid⟩ | ⟨htype, hsaid⟩ | ⟨htype, hsaid⟩ | ⟨htype, hsaid⟩
  · have hpart : parseParts toStr place (partOf block) = (place,
        (Chat.nonEmptyStr (.str (block["text"].asStr.getD ""))).toList.map .textDelta ++
          [] ++ []) := by
      unfold partOf
      rw [htype, nonEmptyStr_getD]
      rfl
    rw [hpart, hsaid, List.append_nil, List.append_nil]
    refine ⟨rfl, ?_⟩
    simpa [Said.words, Said.thoughts, Said.calls, placed, String.join_cons] using
      brings_text (block["text"].asStr.getD "")
  · have hpart : parseParts toStr place (partOf block) = (place,
        (Chat.nonEmptyStr (.str (block["thinking"].asStr.getD ""))).toList.map .thinkingDelta ++
          [] ++ []) := by
      unfold partOf
      rw [htype, nonEmptyStr_getD]
      rfl
    rw [hpart, hsaid, List.append_nil, List.append_nil]
    refine ⟨rfl, ?_⟩
    simpa [Said.words, Said.thoughts, Said.calls, placed, String.join_cons] using
      brings_thinking (block["thinking"].asStr.getD "")
  · have hpart : parseParts toStr place (partOf block) = (place + 1,
        (placed toStr place [⟨block["id"].asStr.getD "", block["name"].asStr.getD "",
          block["input"]⟩]).flatMap ToldCall.events) := by
      unfold partOf
      rw [htype]
      rfl
    rw [hpart, hsaid]
    refine ⟨rfl, ?_⟩
    exact brings_calls _
  · have hpart : partOf block = [] := by
      simp only [List.mem_cons, List.not_mem_nil, or_false, not_or] at htype
      unfold partOf
      split
      · exact absurd ‹_› htype.1
      · exact absurd ‹_› htype.2.1
      · exact absurd ‹_› htype.2.2
      · rfl
    rw [hpart, hsaid]
    exact ⟨rfl, brings_nothing⟩

theorem placed_append (place : ℕ) (cs ds : List MessageCall) :
    placed toStr place (cs ++ ds) =
      placed toStr place cs ++ placed toStr (place + cs.length) ds := by
  induction cs generalizing place with
  | nil => rfl
  | cons c cs ih =>
    rw [List.cons_append, placed, placed, ih, List.length_cons, List.cons_append, Nat.add_right_comm,
      Nat.add_assoc place]

theorem brings_parts (place : ℕ) (blocks : List Json) :
    (parseParts toStr place (blocks.flatMap partOf)).1 =
        place + ((blocks.filterMap said).flatMap Said.calls).length ∧
      Brings (parseParts toStr place (blocks.flatMap partOf)).2
        (String.join ((blocks.filterMap said).map Said.words))
        (String.join ((blocks.filterMap said).map Said.thoughts))
        (placed toStr place ((blocks.filterMap said).flatMap Said.calls)) := by
  induction blocks generalizing place with
  | nil => exact ⟨rfl, brings_nothing⟩
  | cons block blocks ih =>
    obtain ⟨hplace, hpart⟩ := brings_part toStr place block
    obtain ⟨hcount, hrest⟩ := ih (place + ((said block).toList.flatMap Said.calls).length)
    have hsplit : (block :: blocks).filterMap said =
        (said block).toList ++ blocks.filterMap said := by
      rw [List.filterMap_cons]
      cases said block <;> rfl
    rw [List.flatMap_cons, parseParts_append, hplace, hsplit, List.map_append, List.map_append,
      List.flatMap_append, placed_append, String.join_append, String.join_append]
    refine ⟨?_, hpart.append hrest⟩
    rw [hcount, List.length_append, Nat.add_assoc]

theorem finishReason_stopRead (called : Bool) (word : String) :
    finishReason (finishOf word) called = stopRead called word := by
  by_cases hlength : word = "max_tokens"
  · rw [hlength]
    rfl
  by_cases hrefusal : word = "refusal"
  · rw [hrefusal]
    rfl
  have hstop : finishOf word = "STOP" := by
    unfold finishOf
    split
    · contradiction
    · contradiction
    · rfl
  rw [hstop, stopRead_of_ne hlength hrefusal]
  rfl

/-- A Gemini response of a message is read as the message. -/
theorem readAs (hstop : message["stop_reason"].asStr = some word)
    (hsum : (Anthropic.parseUsage message["usage"]).promptTokens < 2 ^ 64) :
    ReadAs message (placed toStr 0 (callsIn message)) word
      (parseResponse toStr (renderMessageResponse message)) := by
  obtain ⟨hcount, hbrings⟩ := brings_parts toStr 0 (blocksOf message)
  have hcalled : decide (0 < (parseParts toStr 0 ((blocksOf message).flatMap partOf)).1) =
      !(callsIn message).isEmpty := by
    rw [hcount, Nat.zero_add]
    unfold callsIn saidIn
    cases ((blocksOf message).filterMap said).flatMap Said.calls <;> rfl
  have hevents : parseResponse toStr (renderMessageResponse message) =
      .usageUpdate (parseUsage (usageJson (Anthropic.parseUsage message["usage"]))) ::
        ((parseParts toStr 0 ((blocksOf message).flatMap partOf)).2 ++
        (Chat.nonEmptyStr (.str (finishOf (stopWord message)))).toList.map
          (fun word => .stop (finishReason word
              (decide (0 < (parseParts toStr 0 ((blocksOf message).flatMap partOf)).1)))
            (parseUsage (usageJson (Anthropic.parseUsage message["usage"]))))) := rfl
  rw [hevents, Chat.nonEmptyStr_of_ne (finishOf_ne_empty _), hcalled, stopWord_eq hstop,
    Option.toList_some, List.map_singleton]
  have hword := Anthropic.word_parseUsage message["usage"]
  have husage : parseUsage (usageJson (Anthropic.parseUsage message["usage"])) =
      Chat.foldWrites (Anthropic.parseUsage message["usage"]) := by
    rw [parseUsage_usageJson hword, (Chat.readUsage_eq_iff hword).mpr hsum]
  exact hbrings.readAs husage (finishReason_stopRead _ word)

end Gemini

/-- A collected message survives every client dialect: what the dialect's reader makes of the body
is what the message said. -/
theorem collected_read_as (toStr : Json → String) (requestId : String) (message : Json)
    (word : String) (hstop : message["stop_reason"].asStr = some word)
    (hcalled : word = "tool_use" → callsIn message ≠ [])
    (hsum : (Anthropic.parseUsage message["usage"]).sum < 2 ^ 64) :
    ReadAs message ((callsIn message).map (MessageCall.told toStr)) word
        (Chat.parseResponse (Chat.renderCompletion toStr message requestId)) ∧
      ReadAs message (Gemini.placed toStr 0 (callsIn message)) word
        (Gemini.parseResponse toStr (Gemini.renderMessageResponse message)) ∧
      ReadAs message ((callsIn message).map (MessageCall.told toStr)) word
        (Responses.parseResponse (Responses.renderResponse toStr message requestId)) := by
  have hprompt : (Anthropic.parseUsage message["usage"]).promptTokens < 2 ^ 64 := by
    unfold Usage.sum at hsum
    unfold Usage.promptTokens
    omega
  exact ⟨Chat.readAs toStr requestId hstop hcalled hprompt, Gemini.readAs toStr hstop hprompt,
    Responses.readAs toStr requestId hstop hprompt⟩

/-! A message of two texts around a thought, and a call. -/

def weatherInput : Json := .obj [("city", .str "Oslo")]

def weatherText : String := "\x7b\"city\":\"Oslo\"\x7d"

def weatherMessage : Json :=
  .obj [("id", .str "msg_1"), ("model", .str "m"), ("content", .arr [
      .obj [("type", .str "text"), ("text", .str "Let me ")],
      .obj [("type", .str "thinking"), ("thinking", .str "Which city?")],
      .obj [("type", .str "text"), ("text", .str "look.")],
      .obj [("type", .str "tool_use"), ("id", .str "toolu_1"), ("name", .str "weather"),
        ("input", weatherInput)]]),
    ("stop_reason", .str "tool_use"), ("usage", .obj [("input_tokens", .nat 7),
      ("output_tokens", .nat 5), ("cache_read_input_tokens", .nat 3),
      ("cache_creation_input_tokens", .nat 2)])]

theorem weather_read_as :
    ReadAs weatherMessage [⟨"toolu_1", "weather", weatherText⟩] "tool_use"
        (Chat.parseResponse (Chat.renderCompletion (fun _ => weatherText) weatherMessage "r")) ∧
      ReadAs weatherMessage [⟨"weather", "weather", weatherText⟩] "tool_use"
        (Gemini.parseResponse (fun _ => weatherText)
          (Gemini.renderMessageResponse weatherMessage)) ∧
      ReadAs weatherMessage [⟨"toolu_1", "weather", weatherText⟩] "tool_use"
        (Responses.parseResponse
          (Responses.renderResponse (fun _ => weatherText) weatherMessage "r")) := by
  have hcalls : callsIn weatherMessage = [⟨"toolu_1", "weather", weatherInput⟩] := rfl
  exact collected_read_as (fun _ => weatherText) "r" weatherMessage "tool_use" rfl
    (by simp [hcalls]) (by decide)

end Bodies

end OpenAIGateway
