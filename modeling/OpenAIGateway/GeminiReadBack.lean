import OpenAIGateway.GeminiParse
import OpenAIGateway.WholeAnswer
import OpenAIGateway.ResponsesReadBack

/-!
A Gemini stream rendered and read back. A call goes out whole when it ends, and
is read under an id of its own making: the function's name and the call's place.
Every chunk reports the usage so far, and the last one all of it.
-/

set_option linter.all false

namespace OpenAIGateway.Gemini

variable {fromStr : String → Option Json} {toStr : Json → String}

/-- The events of a chunk, by what the reader has folded. -/
def chunkEvents (toStr : Json → String) (v : Json) (acc : StreamAccumulator) : List StreamEvent :=
  parseChunk toStr v acc.toolCalls

section Chunks

variable {t : Told} {st : RenderState}

theorem parseUsage_usageJson {u : Usage} (h : Chat.Word u) :
    parseUsage (usageJson u) = Chat.readUsage u := by
  obtain ⟨-, hout, hread, -⟩ := h
  have hprompt := u.wrappingAdd_promptTokens
  have hfits : u.promptTokens % 2 ^ 64 < 2 ^ 64 := Nat.mod_lt _ (Nat.two_pow_pos 64)
  have hinput : (usageJson u)["promptTokenCount"].asU64 = some (u.promptTokens % 2 ^ 64) := by
    rw [← hprompt] at hfits ⊢
    exact if_pos hfits
  have houtput : (usageJson u)["candidatesTokenCount"].asU64 = some u.outputTokens := if_pos hout
  have hcached : (usageJson u)["cachedContentTokenCount"].asU64 = some u.cacheReadTokens :=
    if_pos hread
  unfold parseUsage Chat.readUsage
  simp only [hinput, houtput, hcached, Option.getD_some]

theorem readUsage_le (u : Usage) : Usage.Le (Chat.readUsage u) (Chat.foldWrites u) := by
  have hmod := Nat.mod_le (u.inputTokens + u.cacheReadTokens + u.cacheWriteTokens) (2 ^ 64)
  simp only [Usage.Le, Chat.readUsage, Chat.foldWrites, Usage.promptTokens]
  omega

theorem foldWrites_mono {u v : Usage} (h : Usage.Le u v) :
    Usage.Le (Chat.foldWrites u) (Chat.foldWrites v) := by
  simp only [Usage.Le, Chat.foldWrites] at h ⊢
  omega

theorem chunkEvents_chunk (parts : List Json) (acc : StreamAccumulator) :
    chunkEvents toStr (st.chunk parts none).data acc =
      .usageUpdate (parseUsage (usageJson st.usage)) ::
        (parseParts toStr acc.toolCalls parts).2 := by
  have hevents : chunkEvents toStr (st.chunk parts none).data acc =
      .usageUpdate (parseUsage (usageJson st.usage)) ::
        ((parseParts toStr acc.toolCalls parts).2 ++ []) := rfl
  rw [hevents, List.append_nil]

/-- A part that is text, or thinking, told after the usage. -/
theorem tells_text (text : String) (hword : Chat.Word st.usage) :
    Tells (chunkEvents toStr) [st.chunk [.obj [("text", .str text)]] none] t
      { t with usage := t.usage.merge (Chat.readUsage st.usage), text := t.text ++ text } := by
  refine tells_frame (fun acc _ _ => ?_)
  have hparts : (parseParts toStr acc.toolCalls [.obj [("text", .str text)]]).2 =
      (Chat.nonEmptyStr (.str text)).toList.map .textDelta ++ [] ++ [] := rfl
  rw [chunkEvents_chunk, hparts, List.append_nil, List.append_nil, parseUsage_usageJson hword]
  exact Chat.tellAll_text (t.tell (.usageUpdate (Chat.readUsage st.usage))) text

theorem tells_thinking (text : String) (hword : Chat.Word st.usage) :
    Tells (chunkEvents toStr)
      [st.chunk [.obj [("text", .str text), ("thought", .bool true)]] none] t
      { t with
        usage := t.usage.merge (Chat.readUsage st.usage)
        thinking := t.thinking ++ text } := by
  refine tells_frame (fun acc _ _ => ?_)
  have hparts : (parseParts toStr acc.toolCalls
      [.obj [("text", .str text), ("thought", .bool true)]]).2 =
      (Chat.nonEmptyStr (.str text)).toList.map .thinkingDelta ++ [] ++ [] := rfl
  rw [chunkEvents_chunk, hparts, List.append_nil, List.append_nil, parseUsage_usageJson hword]
  exact Chat.tellAll_thinking (t.tell (.usageUpdate (Chat.readUsage st.usage))) text

/-- A call as it is read: under its name and its place. -/
def wireCall (fromStr : String → Option Json) (toStr : Json → String) (ordinal : ℕ)
    (call : ToldCall) : ToldCall where
  id := callId call.name ordinal
  name := call.name
  arguments := toStr ((fromStr call.arguments).getD (.obj []))

def wireCalls (fromStr : String → Option Json) (toStr : Json → String) (calls : List ToldCall) :
    List ToldCall :=
  calls.mapIdx (fun k call => wireCall fromStr toStr (min k u64Max) call)

def PendingCall.told (call : PendingCall) : ToldCall := ⟨call.id, call.name, call.args⟩

theorem tells_part (call : PendingCall) (hword : Chat.Word st.usage) :
    Tells (chunkEvents toStr) [st.chunk [call.part fromStr] none] t
      { t with
        usage := t.usage.merge (Chat.readUsage st.usage)
        calls := hear t.calls
          (wireCall fromStr toStr (min t.calls.length u64Max) call.told) } := by
  refine tells_frame (fun acc hagrees _ => ?_)
  have hparts : (parseParts toStr acc.toolCalls [call.part fromStr]).2 =
      [.toolUseStart (callId call.name acc.toolCalls) call.name,
        .toolUseDelta (callId call.name acc.toolCalls)
          (toStr ((fromStr call.args).getD (.obj []))),
        .toolUseEnd (callId call.name acc.toolCalls)] := rfl
  rw [chunkEvents_chunk, hparts, parseUsage_usageJson hword, hagrees.toolCalls]
  rfl

/-- A stop that is not for the cap or the filter is for the calls, if there are any. -/
theorem finishReason_finishWord (reason : StopReason) (called : Bool) :
    finishReason (finishWord reason) called = Responses.collapse reason called := by
  cases reason <;> rfl

end Chunks

/-- The renderer and what was read from it, in the middle of an answer: the calls that have ended
were read, and the one that is open is held back. -/
structure Mirrors (fromStr : String → Option Json) (toStr : Json → String) (p : AnswerPhase)
    (t t' : Told) (st : RenderState) : Prop where
  text : t'.text = t.text
  thinking : t'.thinking = t.thinking
  calls : ∃ ended, t.calls = ended ++ st.pending.map PendingCall.told ∧
    t'.calls = (wireCalls fromStr toStr ended).foldl hear []
  stop : t'.stop = none
  usage : st.usage = t.usage
  word : Chat.Word st.usage
  below : Usage.Le t'.usage (Chat.foldWrites t.usage)
  unfinished : st.finished = false
  pending : st.pending.map PendingCall.id = p.called.toList

section Steps

variable {p p' : AnswerPhase} {t t' : Told} {st : RenderState}

theorem Mirrors.report (h : Mirrors fromStr toStr p t t' st) :
    Usage.Le (t'.usage.merge (Chat.readUsage st.usage)) (Chat.foldWrites t.usage) := by
  refine h.below.merge ?_
  rw [h.usage]
  exact readUsage_le t.usage

theorem Mirrors.merge (h : Mirrors fromStr toStr p t t' st) {usage : Usage}
    (hword : Chat.Word usage) :
    Mirrors fromStr toStr p { t with usage := t.usage.merge usage } t'
      { st with usage := st.usage.merge usage } := by
  refine ⟨h.text, h.thinking, h.calls, h.stop, ?_, h.word.merge hword, ?_, h.unfinished, h.pending⟩
  · simp only [h.usage]
  · exact h.below.trans (foldWrites_mono (Usage.le_merge_left _ _))

/-- A start is told with the next chunk. -/
theorem Mirrors.start (h : Mirrors fromStr toStr {} t t' st)
    (model : String) {usage : Usage} (hword : Chat.Word usage) :
    ∃ t'', Tells (chunkEvents toStr) (renderEvent fromStr (.start model usage) st).2 t' t'' ∧
      Mirrors fromStr toStr {} (t.tell (.start model usage)) t''
        (renderEvent fromStr (.start model usage) st).1 :=
  ⟨t', tells_nil t', h.merge hword⟩

theorem Mirrors.held (h : Mirrors fromStr toStr p t t' st) {id : String}
    (hphase : p.called = some id) : ∃ call, st.pending = [call] ∧ call.id = id := by
  have hpending := h.pending
  rw [hphase] at hpending
  obtain ⟨call, rest, hopen, hcall, hrest⟩ := List.map_eq_cons_iff.mp hpending
  rw [List.map_eq_nil_iff.mp hrest] at hopen
  exact ⟨call, hopen, hcall⟩

theorem length_foldl_hear (cs told : List ToldCall) :
    (cs.foldl hear told).length = told.length + cs.length := by
  have hids := congrArg List.length (map_id_foldl_hear cs told)
  simpa using hids

theorem Mirrors.open (h : Mirrors fromStr toStr p t t' st) (id name : String)
    (hphase : p.called = none) :
    ∃ t'', Tells (chunkEvents toStr) (renderEvent fromStr (.toolUseStart id name) st).2 t' t'' ∧
      Mirrors fromStr toStr ⟨p.seen ++ [id], some id⟩ (t.tell (.toolUseStart id name)) t''
        (renderEvent fromStr (.toolUseStart id name) st).1 := by
  obtain ⟨ended, hcalls, hread⟩ := h.calls
  have hpending := h.pending
  rw [hphase] at hpending
  refine ⟨t', tells_nil t', h.text, h.thinking, ⟨ended, ?_, hread⟩, h.stop, h.usage, h.word,
    h.below, h.unfinished, ?_⟩
  · simp only [renderEvent, Told.tell, hcalls, List.map_append, List.append_assoc]
    rfl
  · simp only [renderEvent, List.map_append, hpending]
    rfl

theorem Mirrors.fill (h : Mirrors fromStr toStr p t t' st) (hfits : p.Fits t) {id : String}
    (partialJson : String) (hphase : p.called = some id) :
    ∃ t'', Tells (chunkEvents toStr) (renderEvent fromStr (.toolUseDelta id partialJson) st).2 t'
        t'' ∧
      Mirrors fromStr toStr p (t.tell (.toolUseDelta id partialJson)) t''
        (renderEvent fromStr (.toolUseDelta id partialJson) st).1 := by
  obtain ⟨call, hheld, rfl⟩ := h.held hphase
  obtain ⟨ended, hcalls, hread⟩ := h.calls
  rw [hheld] at hcalls
  have hpushed : pushArgs call.id partialJson st.pending =
      [{ call with args := call.args ++ partialJson }] := by
    simp [hheld, pushArgs]
  have htold := hfits.tell_delta hcalls partialJson
  refine ⟨t', tells_nil t', h.text, h.thinking, ⟨ended, ?_, hread⟩, h.stop, h.usage, h.word,
    h.below, h.unfinished, ?_⟩
  · simp only [renderEvent, hpushed]
    exact htold
  · simp only [renderEvent, hpushed, hphase]
    rfl

theorem Mirrors.close (h : Mirrors fromStr toStr p t t' st) {id : String}
    (hphase : p.called = some id) :
    ∃ t'', Tells (chunkEvents toStr) (renderEvent fromStr (.toolUseEnd id) st).2 t' t'' ∧
      Mirrors fromStr toStr { p with called := none } (t.tell (.toolUseEnd id)) t''
        (renderEvent fromStr (.toolUseEnd id) st).1 := by
  obtain ⟨call, hheld, rfl⟩ := h.held hphase
  obtain ⟨ended, hcalls, hread⟩ := h.calls
  have hrender : renderEvent fromStr (.toolUseEnd call.id) st = ({ st with pending := [] },
      [RenderState.chunk { st with pending := [] } [call.part fromStr] none]) := by
    simp [renderEvent, RenderState.takePending, hheld]
  rw [hrender]
  refine ⟨_, tells_part call h.word, h.text, h.thinking, ⟨ended ++ [call.told], ?_, ?_⟩, h.stop,
    h.usage, h.word, h.report, h.unfinished, rfl⟩
  · simp only [Told.tell, hcalls, hheld, List.map_cons, List.map_nil, List.append_nil]
  · have hlength : t'.calls.length = ended.length := by
      rw [hread, length_foldl_hear]
      simp [wireCalls]
    have hwire : wireCalls fromStr toStr (ended ++ [call.told]) = wireCalls fromStr toStr ended ++
        [wireCall fromStr toStr (min t'.calls.length u64Max) call.told] := by
      unfold wireCalls
      rw [List.mapIdx_concat, hlength]
    rw [hwire, List.foldl_append, ← hread]
    rfl

theorem Mirrors.step (h : Mirrors fromStr toStr p t t' st) (hfits : p.Fits t) {e : StreamEvent}
    (hword : Chat.Word (e.usage?.getD {})) (hstep : p.step e = some p') :
    ∃ t'', Tells (chunkEvents toStr) (renderEvent fromStr e st).2 t' t'' ∧
      Mirrors fromStr toStr p' (t.tell e) t'' (renderEvent fromStr e st).1 := by
  induction e, p', hstep using AnswerPhase.step_cases with
  | textDelta text hstep hphase =>
    refine ⟨_, tells_text text h.word, ?_, h.thinking, h.calls, h.stop, h.usage, h.word, h.report,
      h.unfinished, h.pending⟩
    simp only [Told.tell, h.text]
  | thinkingDelta text hstep hphase =>
    refine ⟨_, tells_thinking text h.word, h.text, ?_, h.calls, h.stop, h.usage, h.word, h.report,
      h.unfinished, h.pending⟩
    simp only [Told.tell, h.thinking]
  | usageUpdate usage hstep hphase =>
    exact ⟨t', tells_nil t', h.merge hword⟩
  | toolUseStart id name hstep hphase hnew =>
    exact h.open id name hphase
  | toolUseDelta id partialJson hstep hphase =>
    exact h.fill hfits partialJson hphase
  | toolUseEnd id hstep hphase =>
    exact h.close hphase

/-- The last chunk reports the whole usage and why it stopped. -/
theorem Mirrors.finish (h : Mirrors fromStr toStr p t t' st) (hphase : p.called = none)
    (reason : StopReason) {usage : Usage} (hword : Chat.Word usage)
    (hsum : (t.usage.merge usage).promptTokens < 2 ^ 64) :
    Tells (chunkEvents toStr) (renderEvent fromStr (.stop reason usage) st).2 t'
      { t with
        calls := (wireCalls fromStr toStr t.calls).foldl hear []
        usage := Chat.foldWrites (t.usage.merge usage)
        stop := some (Responses.collapse reason (!t.calls.isEmpty)) } := by
  obtain ⟨ended, hcalls, hread⟩ := h.calls
  have hnone : st.pending = [] := by
    have hpending := h.pending
    rw [hphase] at hpending
    exact List.map_eq_nil_iff.mp hpending
  rw [hnone, List.map_nil, List.append_nil] at hcalls
  rw [← hcalls] at hread
  have hmerged := h.word.merge hword
  have hrender : (renderEvent fromStr (.stop reason usage) st).2 =
      [RenderState.chunk { st with finished := true, usage := st.usage.merge usage, pending := [] }
        [] (some (finishWord reason))] := by
    simp only [renderEvent, h.unfinished, Bool.false_eq_true, if_false, hnone, List.map_nil]
  rw [hrender]
  refine tells_frame (fun acc hagrees _ => ?_)
  have hevents : chunkEvents toStr (RenderState.chunk
      { st with finished := true, usage := st.usage.merge usage, pending := [] }
      [] (some (finishWord reason))).data acc =
      [.usageUpdate (parseUsage (usageJson (st.usage.merge usage))),
        .stop (finishReason (finishWord reason) acc.sawToolCall)
          (parseUsage (usageJson (st.usage.merge usage)))] := by
    cases reason <;> rfl
  have hempty : t'.calls.isEmpty = t.calls.isEmpty := by
    have hlength : t'.calls.length = t.calls.length := by
      rw [hread, length_foldl_hear]
      simp [wireCalls]
    rw [Bool.eq_iff_iff, List.isEmpty_iff_length_eq_zero, List.isEmpty_iff_length_eq_zero, hlength]
  have husage : (t'.usage.merge (Chat.foldWrites (t.usage.merge usage))).merge
      (Chat.foldWrites (t.usage.merge usage)) = Chat.foldWrites (t.usage.merge usage) := by
    have hle := h.below.trans (foldWrites_mono (Usage.le_merge_left t.usage usage))
    simp only [Usage.Le, Usage.merge] at hle ⊢
    rw [Usage.ext_iff]
    simp only
    omega
  rw [hevents, parseUsage_usageJson hmerged, finishReason_finishWord, hagrees.sawToolCall, hempty,
    h.usage, (Chat.readUsage_eq_iff (h.usage ▸ hmerged)).mpr hsum]
  have htold : t'.tellAll [.usageUpdate (Chat.foldWrites (t.usage.merge usage)),
      .stop (Responses.collapse reason (!t.calls.isEmpty))
        (Chat.foldWrites (t.usage.merge usage))] =
      { t' with
        usage := (t'.usage.merge (Chat.foldWrites (t.usage.merge usage))).merge
          (Chat.foldWrites (t.usage.merge usage))
        stop := some (Responses.collapse reason (!t.calls.isEmpty)) } := rfl
  rw [htold, husage, Told.mk.injEq]
  exact ⟨h.text, h.thinking, hread, rfl, rfl⟩

end Steps

theorem mirrors_new : Mirrors fromStr toStr {} {} {} .new where
  text := rfl
  thinking := rfl
  calls := ⟨[], rfl, rfl⟩
  stop := rfl
  usage := rfl
  word := Chat.word_zero
  below := Usage.Le.refl _
  unfinished := rfl
  pending := rfl

/-- What an answer's stream is read back as. -/
theorem stream_told (toStr : Json → String) (a : WholeAnswer fromStr) :
    Tells (chunkEvents toStr) (renderAll (renderEvent fromStr) a.events .new).2 {}
      { a.told with
        calls := (wireCalls fromStr toStr a.told.calls).foldl hear []
        usage := Chat.foldWrites (Told.of a.events).usage
        stop := some (Responses.collapse a.reason (!a.told.calls.isEmpty)) } := by
  obtain ⟨t', htells, hmirrors⟩ := follow_told
    (fun _ _ _ model _ h hword => Mirrors.start h model hword)
    (fun _ _ _ _ _ _ hfits h hword hp => Mirrors.step h hfits hword hp) a mirrors_new
  rw [a.renderAll_events, a.told_events]
  exact htells.append (hmirrors.finish rfl a.reason a.word_stop a.promptTokens_lt)

end OpenAIGateway.Gemini
