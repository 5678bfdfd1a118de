import OpenAIGateway.HubReadBack
import OpenAIGateway.AnthropicReadBack
import OpenAIGateway.GeminiReadBack

/-!
A collected body read back. What each converter makes of the hub's message is
read as the answer's text, thinking and calls, with every call's arguments
printed from their value; the stop reason and the usage are the dialect's own
reading of what the hub wrote.
-/

set_option linter.all false

namespace OpenAIGateway

section Bodies

variable (fromStr : String → Option Json) (toStr : Json → String) (requestId model : String)
  (blocks : List OpenBlock) (reason : StopReason) {usage : Usage}

/-- A body reports its usage before and after what it tells. -/
theorem told_body {text thinking : String} {calls : List ToldCall} {usage : Usage}
    {events : List StreamEvent} (stop : StopReason)
    (h : Told.tellAll { usage := usage } events = ⟨text, thinking, calls, usage, none⟩) :
    Told.of (.usageUpdate usage :: events ++ [.stop stop usage]) =
      ⟨text, thinking, calls, usage, some stop⟩ := by
  have hfirst : Told.of (.usageUpdate usage :: events ++ [.stop stop usage]) =
      (Told.tellAll { usage := Usage.merge {} usage } events).tell (.stop stop usage) := by
    rw [List.cons_append]
    exact List.foldl_append
  have hempty : Usage.merge {} usage = usage := by simp [Usage.merge]
  have hsame : usage.merge usage = usage := by simp [Usage.merge]
  rw [hfirst, hempty, h]
  simp only [Told.tell, hsame]

theorem Anthropic.tellAll_blocks (usage : Usage) :
    Told.tellAll { usage := usage }
      ((blocks.map (OpenBlock.intoJson fromStr)).flatMap (Anthropic.parseBlock toStr)) =
      { tellBlocks blocks with
        calls := ((tellBlocks blocks).calls.map (ToldCall.printed fromStr toStr)).foldl hear []
        usage := usage
        stop := none } := by
  induction blocks using List.reverseRecOn with
  | nil => rfl
  | append_singleton blocks b ih =>
    rw [List.map_append, List.flatMap_append, Told.tellAll_append, ih, tellBlocks_append_singleton]
    cases b with
    | text words => rfl
    | thinking words => rfl
    | tool id name input =>
      simp only [OpenBlock.tell, List.map_append, List.foldl_append]
      rfl

theorem Anthropic.body_told (hword : Chat.Word usage) :
    Told.of (Anthropic.parseResponse toStr
      (Anthropic.messageOf fromStr requestId model blocks reason usage)) =
      { tellBlocks blocks with
        calls := ((tellBlocks blocks).calls.map (ToldCall.printed fromStr toStr)).foldl hear []
        usage := usage
        stop := some (Anthropic.normalised reason (!(tellBlocks blocks).calls.isEmpty)) } := by
  have hevents : Anthropic.parseResponse toStr
      (Anthropic.messageOf fromStr requestId model blocks reason usage) =
      .usageUpdate (Anthropic.parseUsage (Anthropic.usageJson usage)) ::
        (blocks.map (OpenBlock.intoJson fromStr)).flatMap (Anthropic.parseBlock toStr) ++
        [.stop (Anthropic.parseStopReason (Anthropic.stopReasonStr
          (Anthropic.normalised reason (!(tellBlocks blocks).calls.isEmpty))))
          (Anthropic.parseUsage (Anthropic.usageJson usage))] := rfl
  rw [hevents, Anthropic.parseUsage_usageJson hword, Anthropic.parseStopReason_stopReasonStr]
  exact told_body _ (Anthropic.tellAll_blocks fromStr toStr blocks usage)

/-- A converter reads the counts the hub wrote. -/
theorem counts_messageOf (hword : Chat.Word usage) :
    inputCount (Anthropic.messageOf fromStr requestId model blocks reason usage) =
        usage.inputTokens ∧
      cachedCount (Anthropic.messageOf fromStr requestId model blocks reason usage) =
        usage.cacheReadTokens ∧
      writtenCount (Anthropic.messageOf fromStr requestId model blocks reason usage) =
        usage.cacheWriteTokens ∧
      outputCount (Anthropic.messageOf fromStr requestId model blocks reason usage) =
        usage.outputTokens := by
  have hread : ∀ n : ℕ, n < 2 ^ 64 → (Json.nat n).asU64.getD 0 = n := by
    intro n hn
    have hsome : (Json.nat n).asU64 = some n := if_pos hn
    rw [hsome, Option.getD_some]
  exact ⟨hread _ hword.inputTokens, hread _ hword.cacheReadTokens, hread _ hword.cacheWriteTokens,
    hread _ hword.outputTokens⟩

section Chat

variable (text thinking : String) (toolCalls : List Json)

theorem Chat.nonEmptyStr_str :
    Chat.nonEmptyStr (.str text) = if text.isEmpty then none else some text := by
  show (some text).filter (fun s => !s.isEmpty) = _
  rw [Option.filter_some]
  cases text.isEmpty <;> rfl

theorem Chat.nonEmptyStr_of_ne {text : String} (h : text ≠ "") :
    Chat.nonEmptyStr (.str text) = some text := by
  rw [Chat.nonEmptyStr_str, if_neg (fun hempty => h (String.isEmpty_iff.mp hempty))]

theorem Chat.message_content :
    Chat.nonEmptyStr (Chat.message text thinking toolCalls)["content"] =
      Chat.nonEmptyStr (.str text) := by
  have hcontent : (Chat.message text thinking toolCalls)["content"] =
      if !toolCalls.isEmpty && text.isEmpty then .null else .str text := rfl
  rw [hcontent]
  by_cases hnull : (!toolCalls.isEmpty && text.isEmpty) = true
  · obtain ⟨-, hempty⟩ := Bool.and_eq_true_iff.mp hnull
    rw [if_pos hnull, Chat.nonEmptyStr_str, if_pos hempty]
    rfl
  · rw [if_neg hnull]

theorem Chat.message_refusal : Chat.nonEmptyStr (Chat.message text thinking toolCalls)["refusal"] =
    none := by
  unfold Chat.message
  cases thinking.isEmpty <;> cases toolCalls.isEmpty <;> rfl

theorem Chat.message_reasoning :
    ((Chat.message text thinking toolCalls)["reasoning_content"].asStr.or
      (Chat.message text thinking toolCalls)["reasoning"].asStr).filter (fun s => !s.isEmpty) =
      Chat.nonEmptyStr (.str thinking) := by
  have hreasoning : (Chat.message text thinking toolCalls)["reasoning_content"].asStr.or
      (Chat.message text thinking toolCalls)["reasoning"].asStr =
      if thinking.isEmpty then none else some thinking := by
    unfold Chat.message
    cases thinking.isEmpty <;> cases toolCalls.isEmpty <;> rfl
  rw [hreasoning, Chat.nonEmptyStr_str]
  cases hempty : thinking.isEmpty with
  | true => rfl
  | false =>
    rw [if_neg Bool.false_ne_true, Option.filter_some, hempty]
    rfl

theorem Chat.message_calls :
    (Chat.message text thinking toolCalls)["tool_calls"].asArray.getD [] = toolCalls := by
  unfold Chat.message
  cases toolCalls with
  | nil => cases thinking.isEmpty <;> rfl
  | cons call rest => cases thinking.isEmpty <;> rfl

/-- A completion whose first choice is this message. -/
theorem Chat.parseResponse_message {body : Json} {finish : String} (hfinish : finish ≠ "")
    (hchoice : (Chat.firstChoice body).getD .null = .obj [("index", .nat 0),
      ("message", Chat.message text thinking toolCalls), ("finish_reason", .str finish)])
    (husage : body["usage"] = Chat.usageJson usage) :
    Chat.parseResponse body =
      .usageUpdate (Chat.parseUsage (Chat.usageJson usage)) ::
        ((Chat.nonEmptyStr (.str text)).toList.map .textDelta ++
          (Chat.nonEmptyStr (.str thinking)).toList.map .thinkingDelta ++
          toolCalls.flatMap Chat.parseWholeCall) ++
        [.stop (Chat.finishReason finish (!toolCalls.isEmpty) false)
          (Chat.parseUsage (Chat.usageJson usage))] := by
  have hevents : Chat.parseResponse body =
      .usageUpdate (Chat.parseUsage (Chat.usageJson usage)) ::
        (Chat.nonEmptyStr (Chat.message text thinking toolCalls)["content"]).toList.map
          .textDelta ++
        (Chat.nonEmptyStr (Chat.message text thinking toolCalls)["refusal"]).toList.map
          .textDelta ++
        (((Chat.message text thinking toolCalls)["reasoning_content"].asStr.or
          (Chat.message text thinking toolCalls)["reasoning"].asStr).filter
          (fun s => !s.isEmpty)).toList.map .thinkingDelta ++
        ((Chat.message text thinking toolCalls)["tool_calls"].asArray.getD []).flatMap
          Chat.parseWholeCall ++
        (Chat.nonEmptyStr (.str finish)).toList.map (fun reason => .stop (Chat.finishReason reason
          (!((Chat.message text thinking toolCalls)["tool_calls"].asArray.getD []).isEmpty)
          (Chat.nonEmptyStr (Chat.message text thinking toolCalls)["refusal"]).isSome)
          (Chat.parseUsage (Chat.usageJson usage))) := by
    unfold Chat.parseResponse
    rw [hchoice, husage]
    rfl
  rw [hevents, Chat.message_content, Chat.message_refusal, Chat.message_reasoning,
    Chat.message_calls, Chat.nonEmptyStr_of_ne hfinish]
  simp only [Option.toList_none, Option.toList_some, List.map_nil, List.map_cons, List.append_nil,
    List.cons_append, List.append_assoc, Option.isSome_none]

/-- A completion of this message. -/
def Chat.completionOf (finish : String) (usage : Usage) : Json :=
  .obj [("id", .str ("chatcmpl-" ++ requestId)), ("object", .str "chat.completion"),
    ("created", .nat 0), ("model", .str model),
    ("choices", .arr [.obj [("index", .nat 0), ("message", Chat.message text thinking toolCalls),
      ("finish_reason", .str finish)]]),
    ("usage", Chat.usageJson usage)]

theorem Chat.parseResponse_completionOf {finish : String} (hfinish : finish ≠ "") :
    Chat.parseResponse (Chat.completionOf requestId model text thinking toolCalls finish usage) =
      .usageUpdate (Chat.parseUsage (Chat.usageJson usage)) ::
        ((Chat.nonEmptyStr (.str text)).toList.map .textDelta ++
          (Chat.nonEmptyStr (.str thinking)).toList.map .thinkingDelta ++
          toolCalls.flatMap Chat.parseWholeCall) ++
        [.stop (Chat.finishReason finish (!toolCalls.isEmpty) false)
          (Chat.parseUsage (Chat.usageJson usage))] :=
  Chat.parseResponse_message text thinking toolCalls hfinish rfl rfl

end Chat

theorem Chat.finishReason_finishOf (called : Bool) :
    Chat.finishReason (Chat.finishOf (Anthropic.stopReasonStr (Anthropic.normalised reason called)))
      called false = Chat.collapse reason called := by
  cases reason <;> cases called <;> rfl

theorem Chat.finishOf_ne_empty (stop : String) : Chat.finishOf stop ≠ "" := by
  unfold Chat.finishOf
  split <;> decide

theorem Chat.renderCompletion_messageOf (hword : Chat.Word usage) :
    Chat.renderCompletion toStr (Anthropic.messageOf fromStr requestId model blocks reason usage)
      requestId = Chat.completionOf requestId model (tellBlocks blocks).text
        (tellBlocks blocks).thinking ((tellBlocks blocks).calls.map (fun call =>
          Chat.wholeCall toStr
            (OpenBlock.intoJson fromStr (.tool call.id call.name call.arguments))))
        (Chat.finishOf (Anthropic.stopReasonStr
          (Anthropic.normalised reason (!(tellBlocks blocks).calls.isEmpty)))) usage := by
  obtain ⟨hinput, hcached, hwritten, houtput⟩ :=
    counts_messageOf fromStr requestId model blocks reason hword
  rw [← callsOf_blocks, ← joined_text fromStr, ← joined_thinking fromStr]
  unfold Chat.renderCompletion promptCount
  simp only [hinput, hcached, hwritten, houtput]
  rfl

theorem Chat.body_told (hword : Chat.Word usage) (hsum : usage.promptTokens < 2 ^ 64) :
    Told.of (Chat.parseResponse (Chat.renderCompletion toStr
      (Anthropic.messageOf fromStr requestId model blocks reason usage) requestId)) =
      { tellBlocks blocks with
        calls := ((tellBlocks blocks).calls.map (ToldCall.printed fromStr toStr)).foldl hear []
        usage := Chat.foldWrites usage
        stop := some (Chat.collapse reason (!(tellBlocks blocks).calls.isEmpty)) } := by
  rw [Chat.renderCompletion_messageOf fromStr toStr requestId model blocks reason hword,
    Chat.parseResponse_completionOf _ _ _ _ _ (Chat.finishOf_ne_empty _), parseWholeCall_blocks,
    List.isEmpty_map,
    Chat.finishReason_finishOf, Chat.parseUsage_usageJson hword,
    (Chat.readUsage_eq_iff hword).mpr hsum]
  refine told_body _ ?_
  rw [Told.tellAll_append, Told.tellAll_append, Chat.tellAll_text, Chat.tellAll_thinking,
    tellAll_calls]
  simp only [String.empty_append]

namespace Responses

section Output

variable (js : List Json)

/-- Its calls are read as a completion's are. -/
theorem flatMap_wholeCalls (count : ℕ) : (wholeCalls toStr requestId count js).flatMap parseItem =
    (callsOf (Chat.wholeCall toStr) js).flatMap Chat.parseWholeCall := by
  induction js generalizing count with
  | nil => rfl
  | cons block rest ih =>
    have hcalls : callsOf (Chat.wholeCall toStr) (block :: rest) =
        (if block["type"].asStr.getD "" = "tool_use" then [Chat.wholeCall toStr block] else []) ++
          callsOf (Chat.wholeCall toStr) rest := List.flatMap_cons
    rw [hcalls, List.flatMap_append, wholeCalls]
    by_cases hcall : block["type"].asStr.getD "" = "tool_use"
    · rw [if_pos hcall, if_pos hcall, List.flatMap_cons, ih]
      rfl
    · rw [if_neg hcall, if_neg hcall, ih]
      rfl

theorem any_wholeCalls (count : ℕ) :
    (wholeCalls toStr requestId count js).any (isType "function_call") =
        !(callsOf (Chat.wholeCall toStr) js).isEmpty ∧
      (wholeCalls toStr requestId count js).any refuses = false := by
  induction js generalizing count with
  | nil => exact ⟨rfl, rfl⟩
  | cons block rest ih =>
    have hcalls : callsOf (Chat.wholeCall toStr) (block :: rest) =
        (if block["type"].asStr.getD "" = "tool_use" then [Chat.wholeCall toStr block] else []) ++
          callsOf (Chat.wholeCall toStr) rest := List.flatMap_cons
    rw [hcalls, wholeCalls]
    by_cases hcall : block["type"].asStr.getD "" = "tool_use"
    · rw [if_pos hcall, if_pos hcall, List.any_cons, List.any_cons, (ih (count + 1)).2]
      exact ⟨rfl, rfl⟩
    · rw [if_neg hcall, if_neg hcall, List.nil_append]
      exact ih count

theorem flatMap_output : (output toStr js requestId).flatMap parseItem =
    (Chat.nonEmptyStr (.str (joined "thinking" js))).toList.map .thinkingDelta ++
      (Chat.nonEmptyStr (.str (joined "text" js))).toList.map .textDelta ++
      (callsOf (Chat.wholeCall toStr) js).flatMap Chat.parseWholeCall := by
  have hreasoning : (if (joined "thinking" js).isEmpty then [] else
      [Json.obj [("id", .str ("rs_" ++ requestId ++ "_0")), ("type", .str "reasoning"),
        ("status", .str "completed"),
        ("summary", .arr [summaryPart (joined "thinking" js)])]]).flatMap parseItem =
        (Chat.nonEmptyStr (.str (joined "thinking" js))).toList.map .thinkingDelta := by
    cases hempty : (joined "thinking" js).isEmpty with
    | true =>
      rw [Chat.nonEmptyStr_str, hempty]
      rfl
    | false => exact (List.append_nil _).trans (List.append_nil _)
  have hmessage : (if (joined "text" js).isEmpty then [] else
      [messageItem ("msg_" ++ requestId ++ "_0") "completed"
        [outputPart (joined "text" js)]]).flatMap parseItem =
        (Chat.nonEmptyStr (.str (joined "text" js))).toList.map .textDelta := by
    rw [Chat.nonEmptyStr_str]
    cases (joined "text" js).isEmpty <;> rfl
  unfold output
  rw [List.flatMap_append, List.flatMap_append, hreasoning, hmessage, flatMap_wholeCalls]

theorem any_output : (output toStr js requestId).any (isType "function_call") =
      !(callsOf (Chat.wholeCall toStr) js).isEmpty ∧
    (output toStr js requestId).any refuses = false := by
  obtain ⟨hcalls, hrefuses⟩ := any_wholeCalls toStr requestId js 0
  unfold output
  rw [List.any_append, List.any_append, List.any_append, List.any_append, hcalls, hrefuses]
  cases (joined "thinking" js).isEmpty <;> cases (joined "text" js).isEmpty <;> exact ⟨rfl, rfl⟩

theorem details_renderResponse (m : Json) :
    (renderResponse toStr m requestId)["incomplete_details"]["reason"].asStr =
      if stopWord m = "max_tokens" ∨ stopWord m = "refusal" then
        some (if stopWord m = "max_tokens" then "max_output_tokens" else "content_filter")
      else none := by
  unfold renderResponse
  by_cases hincomplete : stopWord m = "max_tokens" ∨ stopWord m = "refusal"
  · simp only [if_pos hincomplete]
    rfl
  · simp only [if_neg hincomplete]
    rfl

theorem stopReason_renderResponse {m : Json} {called : Bool}
    (hstop : stopWord m = Anthropic.stopReasonStr (Anthropic.normalised reason called)) :
    stopReason (renderResponse toStr m requestId)["incomplete_details"]["reason"].asStr false
      called = collapse reason called := by
  rw [details_renderResponse, hstop]
  cases reason <;> cases called <;> rfl

end Output

theorem body_told (hword : Chat.Word usage) (hsum : usage.promptTokens < 2 ^ 64) :
    Told.of (parseResponse (renderResponse toStr
      (Anthropic.messageOf fromStr requestId model blocks reason usage) requestId)) =
      { tellBlocks blocks with
        calls := ((tellBlocks blocks).calls.map (ToldCall.printed fromStr toStr)).foldl hear []
        usage := Chat.foldWrites usage
        stop := some (collapse reason (!(tellBlocks blocks).calls.isEmpty)) } := by
  obtain ⟨hinput, hcached, hwritten, houtput⟩ :=
    counts_messageOf fromStr requestId model blocks reason hword
  obtain ⟨hcalled, hrefuses⟩ := any_output toStr requestId (blocks.map (OpenBlock.intoJson fromStr))
  have husage : (renderResponse toStr
      (Anthropic.messageOf fromStr requestId model blocks reason usage) requestId)["usage"] =
      usageJson usage := by
    unfold renderResponse promptCount
    simp only [hinput, hcached, hwritten, houtput]
    rfl
  have hevents : parseResponse (renderResponse toStr
      (Anthropic.messageOf fromStr requestId model blocks reason usage) requestId) =
      .usageUpdate (parseUsage (usageJson usage)) ::
        (output toStr (blocks.map (OpenBlock.intoJson fromStr)) requestId).flatMap parseItem ++
        [.stop (stopReason (renderResponse toStr
          (Anthropic.messageOf fromStr requestId model blocks reason usage)
          requestId)["incomplete_details"]["reason"].asStr
          ((output toStr (blocks.map (OpenBlock.intoJson fromStr)) requestId).any refuses)
          ((output toStr (blocks.map (OpenBlock.intoJson fromStr)) requestId).any
            (isType "function_call"))) (parseUsage (usageJson usage))] := by
    rw [← husage]
    rfl
  rw [hevents, hcalled, hrefuses, callsOf_blocks, List.isEmpty_map,
    stopReason_renderResponse toStr requestId reason rfl, parseUsage_usageJson hword hsum,
    flatMap_output, joined_text, joined_thinking, callsOf_blocks, parseWholeCall_blocks]
  refine told_body _ ?_
  rw [Told.tellAll_append, Told.tellAll_append, Chat.tellAll_text, Chat.tellAll_thinking,
    tellAll_calls]
  simp only [String.empty_append]

end Responses

namespace Gemini

theorem parseParts_append (calls : ℕ) (parts more : List Json) :
    parseParts toStr calls (parts ++ more) =
      ((parseParts toStr (parseParts toStr calls parts).1 more).1,
        (parseParts toStr calls parts).2 ++
          (parseParts toStr (parseParts toStr calls parts).1 more).2) := by
  induction parts generalizing calls with
  | nil => rfl
  | cons part parts ih =>
    rw [List.cons_append, parseParts, ih]
    simp only [parseParts, List.append_assoc]

/-- The parts of a body are read with every call under its place. -/
theorem tellAll_parts (usage : Usage) (hcount : (tellBlocks blocks).calls.length < 2 ^ 64) :
    (parseParts toStr 0 ((blocks.map (OpenBlock.intoJson fromStr)).flatMap partOf)).1 =
        (tellBlocks blocks).calls.length ∧
      Told.tellAll { usage := usage }
        (parseParts toStr 0 ((blocks.map (OpenBlock.intoJson fromStr)).flatMap partOf)).2 =
        { tellBlocks blocks with
          calls := (wireCalls fromStr toStr (tellBlocks blocks).calls).foldl hear []
          usage := usage
          stop := none } := by
  induction blocks using List.reverseRecOn with
  | nil => exact ⟨rfl, rfl⟩
  | append_singleton blocks b ih =>
    rw [tellBlocks_append_singleton] at hcount ⊢
    have hbefore : (tellBlocks blocks).calls.length < 2 ^ 64 := by
      refine lt_of_le_of_lt ?_ hcount
      cases b with
      | text words | thinking words => exact le_refl _
      | tool id name input => simp [OpenBlock.tell]
    obtain ⟨hcalls, htold⟩ := ih hbefore
    rw [List.map_append, List.flatMap_append, parseParts_append, hcalls]
    simp only [Told.tellAll_append, htold]
    cases b with
    | text words =>
      have hpart : (parseParts toStr (tellBlocks blocks).calls.length
          (([OpenBlock.text words].map (OpenBlock.intoJson fromStr)).flatMap partOf)).2 =
          (Chat.nonEmptyStr (.str words)).toList.map .textDelta ++ [] ++ [] := rfl
      refine ⟨rfl, ?_⟩
      rw [hpart, List.append_nil, List.append_nil, Chat.tellAll_text]
      rfl
    | thinking words =>
      have hpart : (parseParts toStr (tellBlocks blocks).calls.length
          (([OpenBlock.thinking words].map (OpenBlock.intoJson fromStr)).flatMap partOf)).2 =
          (Chat.nonEmptyStr (.str words)).toList.map .thinkingDelta ++ [] ++ [] := rfl
      refine ⟨rfl, ?_⟩
      rw [hpart, List.append_nil, List.append_nil, Chat.tellAll_thinking]
      rfl
    | tool id name input =>
      have hplace : min (tellBlocks blocks).calls.length u64Max =
          (tellBlocks blocks).calls.length := by
        unfold u64Max
        omega
      have hwire : wireCalls fromStr toStr
          (OpenBlock.tell (tellBlocks blocks) (.tool id name input)).calls =
          wireCalls fromStr toStr (tellBlocks blocks).calls ++
            [wireCall fromStr toStr (tellBlocks blocks).calls.length ⟨id, name, input⟩] := by
        unfold wireCalls
        simp only [OpenBlock.tell]
        rw [List.mapIdx_concat, hplace]
      refine ⟨?_, ?_⟩
      · simp only [OpenBlock.tell, List.length_append, List.length_singleton]
        rfl
      · rw [hwire, List.foldl_append]
        rfl

theorem finishReason_finishOf (called : Bool) :
    finishReason (finishOf (Anthropic.stopReasonStr (Anthropic.normalised reason called))) called =
      Responses.collapse reason called := by
  cases reason <;> cases called <;> rfl

theorem finishOf_ne_empty (stop : String) : finishOf stop ≠ "" := by
  unfold finishOf
  split <;> decide

theorem body_told (hword : Chat.Word usage) (hsum : usage.promptTokens < 2 ^ 64)
    (hcount : (tellBlocks blocks).calls.length < 2 ^ 64) :
    Told.of (parseResponse toStr (renderMessageResponse
      (Anthropic.messageOf fromStr requestId model blocks reason usage))) =
      { tellBlocks blocks with
        calls := (wireCalls fromStr toStr (tellBlocks blocks).calls).foldl hear []
        usage := Chat.foldWrites usage
        stop := some (Responses.collapse reason (!(tellBlocks blocks).calls.isEmpty)) } := by
  obtain ⟨hinput, hcached, hwritten, houtput⟩ :=
    counts_messageOf fromStr requestId model blocks reason hword
  obtain ⟨hcalls, htold⟩ := tellAll_parts fromStr toStr blocks (Chat.foldWrites usage) hcount
  have husage : parseUsage (renderMessageResponse
      (Anthropic.messageOf fromStr requestId model blocks reason usage))["usageMetadata"] =
      parseUsage (usageJson usage) := by
    unfold renderMessageResponse promptCount
    simp only [hinput, hcached, hwritten, houtput]
    rfl
  have hcalled : decide (0 < (tellBlocks blocks).calls.length) =
      !(tellBlocks blocks).calls.isEmpty := by
    cases (tellBlocks blocks).calls <;> rfl
  have hevents : parseResponse toStr (renderMessageResponse
      (Anthropic.messageOf fromStr requestId model blocks reason usage)) =
      .usageUpdate (parseUsage (usageJson usage)) ::
        ((parseParts toStr 0 ((blocks.map (OpenBlock.intoJson fromStr)).flatMap partOf)).2 ++
        (Chat.nonEmptyStr (.str (finishOf (Anthropic.stopReasonStr (Anthropic.normalised reason
          (!(tellBlocks blocks).calls.isEmpty)))))).toList.map
          (fun word => .stop (finishReason word (decide (0 < (parseParts toStr 0
            ((blocks.map (OpenBlock.intoJson fromStr)).flatMap partOf)).1)))
            (parseUsage (usageJson usage)))) := by
    rw [← husage]
    rfl
  rw [hevents, Chat.nonEmptyStr_of_ne (finishOf_ne_empty _), hcalls, hcalled,
    parseUsage_usageJson hword, (Chat.readUsage_eq_iff hword).mpr hsum, Option.toList_some,
    List.map_singleton, finishReason_finishOf]
  exact told_body _ htold

end Gemini

end Bodies

end OpenAIGateway
