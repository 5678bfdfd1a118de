import OpenAIGateway.ResponsesParse
import OpenAIGateway.WholeAnswer

/-!
A Responses stream rendered and read back. The frames that open and close items
are read as nothing; a fragment of arguments is read for the call opened last,
which is its own while calls come one after another. Usage rides on the terminal
frame, with the cache writes in the input.
-/

set_option linter.all false

namespace OpenAIGateway.Responses

theorem parseUsage_usageJson {u : Usage} (h : Chat.Word u) (hsum : u.promptTokens < 2 ^ 64) :
    parseUsage (usageJson u) = Chat.foldWrites u := by
  obtain ⟨-, hout, hread, -⟩ := h
  have hprompt : wrappingAdd (wrappingAdd u.inputTokens u.cacheReadTokens) u.cacheWriteTokens =
      u.promptTokens := u.wrappingAdd_promptTokens.trans (Nat.mod_eq_of_lt hsum)
  have hinput : (usageJson u)["input_tokens"].asU64 = some u.promptTokens := by
    rw [← hprompt] at hsum ⊢
    exact if_pos hsum
  have houtput : (usageJson u)["output_tokens"].asU64 = some u.outputTokens := if_pos hout
  have hcached : (usageJson u)["input_tokens_details"]["cached_tokens"].asU64 =
      some u.cacheReadTokens := if_pos hread
  unfold parseUsage Chat.foldWrites
  simp only [hinput, houtput, hcached, Option.getD_some]
  rw [Usage.mk.injEq]
  unfold Usage.promptTokens
  omega

section Quiet

variable {t : Told} {st : RenderState}

/-- Frames that tell nothing, and leave the usage and the open calls. -/
structure Quiet (st : RenderState) (out : RenderState × List Frame) : Prop where
  usage : out.1.usage = st.usage
  finished : out.1.finished = st.finished
  tools : out.1.tools = st.tools
  tells : ∀ t, Tells payloadEvents out.2 t t

theorem tells_reasoningAdded (index : ℕ) (itemId : String) :
    Tells payloadEvents [itemAdded index (reasoningItem itemId [])] t t :=
  tells_frame (fun _ _ _ => rfl)

theorem tells_messageAdded (index : ℕ) (itemId : String) :
    Tells payloadEvents [itemAdded index (messageItem itemId "in_progress" [])] t t :=
  tells_frame (fun _ _ _ => rfl)

theorem quiet_ensureCreated (st : RenderState) : Quiet st st.ensureCreated := by
  unfold RenderState.ensureCreated
  cases st.created with
  | true => exact ⟨rfl, rfl, rfl, tells_nil⟩
  | false =>
    refine ⟨rfl, rfl, rfl, fun t => tells_frame (fun acc _ _ => ?_)⟩
    have hevents : payloadEvents st.createdFrame.data acc = [.start st.model {}] := rfl
    rw [hevents]
    simp [Told.tellAll, Told.tell, Usage.merge_default]

theorem quiet_closeReasoning (st : RenderState) : Quiet st st.closeReasoning := by
  unfold RenderState.closeReasoning
  cases st.reasoning with
  | none => exact ⟨rfl, rfl, rfl, tells_nil⟩
  | some item =>
    refine ⟨rfl, rfl, rfl, fun t => tells_silent (fun f hf => tells_frame (fun acc _ _ => ?_))⟩
    simp only [List.mem_cons, List.not_mem_nil, or_false] at hf
    rcases hf with rfl | rfl | rfl <;> rfl

theorem quiet_closeMessage (st : RenderState) : Quiet st st.closeMessage := by
  unfold RenderState.closeMessage
  cases st.message with
  | none => exact ⟨rfl, rfl, rfl, tells_nil⟩
  | some item =>
    refine ⟨rfl, rfl, rfl, fun t => tells_silent (fun f hf => tells_frame (fun acc _ _ => ?_))⟩
    simp only [List.mem_cons, List.not_mem_nil, or_false] at hf
    rcases hf with rfl | rfl | rfl <;> rfl

theorem Quiet.trans {out : RenderState × List Frame} {next : RenderState × List Frame}
    (h : Quiet st out) (h' : Quiet out.1 next) : Quiet st (next.1, out.2 ++ next.2) where
  usage := h'.usage.trans h.usage
  finished := h'.finished.trans h.finished
  tools := h'.tools.trans h.tools
  tells t := (h.tells t).append (h'.tells t)

theorem quiet_openReasoning (st : RenderState) :
    Quiet st (st.openReasoning.1, st.openReasoning.2.1) := by
  unfold RenderState.openReasoning
  cases st.reasoning with
  | some item => exact ⟨rfl, rfl, rfl, tells_nil⟩
  | none =>
    have hclose := quiet_closeMessage st
    rcases hclosed : st.closeMessage with ⟨closed, closing⟩
    rw [hclosed] at hclose
    refine ⟨hclose.usage, hclose.finished, hclose.tools, fun t => (hclose.tells t).append ?_⟩
    exact (tells_reasoningAdded _ _).append (tells_frame (fun _ _ _ => rfl))

theorem quiet_openMessage (st : RenderState) :
    Quiet st (st.openMessage.1, st.openMessage.2.1) := by
  unfold RenderState.openMessage
  cases st.message with
  | some item => exact ⟨rfl, rfl, rfl, tells_nil⟩
  | none =>
    have hclose := quiet_closeReasoning st
    rcases hclosed : st.closeReasoning with ⟨closed, closing⟩
    rw [hclosed] at hclose
    refine ⟨hclose.usage, hclose.finished, hclose.tools, fun t => (hclose.tells t).append ?_⟩
    exact (tells_messageAdded _ _).append (tells_frame (fun _ _ _ => rfl))

end Quiet

/-- The renderer and what was read from it, in the middle of an answer. -/
structure Mirrors (p : AnswerPhase) (t t' : Told) (st : RenderState) : Prop where
  told : t' = { t with usage := {}, stop := none }
  usage : st.usage = t.usage
  word : Chat.Word st.usage
  unfinished : st.finished = false
  tools : st.tools.map ToolCall.callId = p.called.toList

section Steps

variable {p p' : AnswerPhase} {t t' : Told} {st : RenderState}

/-- Frames that tell one delta after quiet ones. -/
theorem Mirrors.quiet (h : Mirrors p t t' st) {out : RenderState × List Frame}
    (hquiet : Quiet st out) {frame : Frame} {next : RenderState} {u : Told}
    (htells : Tells payloadEvents [frame] t' { u with usage := {}, stop := none })
    (husage : u.usage = t.usage) (hstate : next.usage = out.1.usage)
    (hfinished : next.finished = out.1.finished) (htools : next.tools = out.1.tools) :
    ∃ t'', Tells payloadEvents (out.2 ++ [frame]) t' t'' ∧ Mirrors p u t'' next := by
  refine ⟨_, (hquiet.tells t').append htells, rfl, ?_, ?_, ?_, ?_⟩
  · rw [hstate, hquiet.usage, h.usage, husage]
  · rw [hstate, hquiet.usage]
    exact h.word
  · rw [hfinished, hquiet.finished, h.unfinished]
  · rw [htools, hquiet.tools, h.tools]

theorem Mirrors.start (h : Mirrors {} t t' st) (model : String) {usage : Usage}
    (hword : Chat.Word usage) :
    ∃ t'', Tells payloadEvents (renderEvent (.start model usage) st).2 t' t'' ∧
      Mirrors {} (t.tell (.start model usage)) t'' (renderEvent (.start model usage) st).1 := by
  have hquiet := quiet_ensureCreated
    { st with model := adoptModel st.model model, usage := st.usage.merge usage }
  refine ⟨t', hquiet.tells t', h.told, ?_, ?_, hquiet.finished.trans h.unfinished, ?_⟩
  · rw [renderEvent, hquiet.usage]
    simp only [Told.tell, h.usage]
  · rw [renderEvent, hquiet.usage]
    exact h.word.merge hword
  · rw [renderEvent, hquiet.tools]
    exact h.tools

theorem Mirrors.text (h : Mirrors p t t' st) (text : String) :
    ∃ t'', Tells payloadEvents (renderEvent (.textDelta text) st).2 t' t'' ∧
      Mirrors p (t.tell (.textDelta text)) t'' (renderEvent (.textDelta text) st).1 := by
  have hcreated := quiet_ensureCreated st
  rcases hfirst : st.ensureCreated with ⟨created, head⟩
  rw [hfirst] at hcreated
  have hopened := hcreated.trans (quiet_openMessage created)
  rcases hsecond : created.openMessage with ⟨opened, opening, index, itemId⟩
  rw [hsecond] at hopened
  simp only [renderEvent, hfirst, hsecond]
  refine h.quiet hopened (tells_frame (fun acc _ _ => ?_)) rfl rfl rfl rfl
  rw [h.told]
  rfl

theorem Mirrors.thinking (h : Mirrors p t t' st) (text : String) :
    ∃ t'', Tells payloadEvents (renderEvent (.thinkingDelta text) st).2 t' t'' ∧
      Mirrors p (t.tell (.thinkingDelta text)) t'' (renderEvent (.thinkingDelta text) st).1 := by
  have hcreated := quiet_ensureCreated st
  rcases hfirst : st.ensureCreated with ⟨created, head⟩
  rw [hfirst] at hcreated
  have hopened := hcreated.trans (quiet_openReasoning created)
  rcases hsecond : created.openReasoning with ⟨opened, opening, index, itemId⟩
  rw [hsecond] at hopened
  simp only [renderEvent, hfirst, hsecond]
  refine h.quiet hopened (tells_frame (fun acc _ _ => ?_)) rfl rfl rfl rfl
  rw [h.told]
  rfl

/-- What comes before a call or the stop: the response is created, and no item is left open. -/
def cleared (st : RenderState) : RenderState × List Frame :=
  (st.ensureCreated.1.closeReasoning.1.closeMessage.1, st.ensureCreated.2 ++
    st.ensureCreated.1.closeReasoning.2 ++ st.ensureCreated.1.closeReasoning.1.closeMessage.2)

theorem quiet_cleared (st : RenderState) : Quiet st (cleared st) :=
  ((quiet_ensureCreated st).trans (quiet_closeReasoning _)).trans (quiet_closeMessage _)

theorem Mirrors.open (h : Mirrors p t t' st) (id name : String) (hphase : p.called = none) :
    ∃ t'', Tells payloadEvents (renderEvent (.toolUseStart id name) st).2 t' t'' ∧
      Mirrors ⟨p.seen ++ [id], some id⟩ (t.tell (.toolUseStart id name)) t''
        (renderEvent (.toolUseStart id name) st).1 := by
  have hquiet := quiet_cleared st
  generalize hclear : cleared st = out at hquiet
  have hnone : out.1.tools = [] := by
    rw [hquiet.tools]
    have htools := h.tools
    rw [hphase] at htools
    exact List.map_eq_nil_iff.mp htools
  have hrender : renderEvent (.toolUseStart id name) st =
      ({ out.1 with
          nextIndex := out.1.nextIndex + 1
          tools := out.1.tools ++
            [⟨id, out.1.nextIndex, out.1.itemId "fc" out.1.nextIndex, name, ""⟩] },
        out.2 ++ [itemAdded out.1.nextIndex
          (callItem (out.1.itemId "fc" out.1.nextIndex) "in_progress" id name "")]) := by
    rw [← hclear]
    rfl
  rw [hrender]
  refine ⟨{ t.tell (.toolUseStart id name) with usage := {}, stop := none },
    (hquiet.tells t').append (tells_frame (fun acc _ hnames => ?_)), ?_⟩
  · have hevents : payloadEvents (itemAdded out.1.nextIndex
        (callItem (out.1.itemId "fc" out.1.nextIndex) "in_progress" id name "")).data acc =
        [.toolUseStart id (acc.restoreFunctionName name)] := rfl
    have hname : acc.restoreFunctionName name = name := by
      unfold StreamAccumulator.restoreFunctionName
      rw [hnames]
      rfl
    rw [hevents, hname, h.told]
    rfl
  · refine ⟨rfl, hquiet.usage.trans h.usage, ?_, hquiet.finished.trans h.unfinished, ?_⟩
    · rw [hquiet.usage]
      exact h.word
    · rw [hnone]
      rfl

theorem Mirrors.tool (h : Mirrors p t t' st) {id : String} (hphase : p.called = some id) :
    ∃ call, st.tools = [call] ∧ call.callId = id := by
  have htools := h.tools
  rw [hphase] at htools
  obtain ⟨call, rest, hopen, hcall, hrest⟩ := List.map_eq_cons_iff.mp htools
  rw [List.map_eq_nil_iff.mp hrest] at hopen
  exact ⟨call, hopen, hcall⟩

theorem Mirrors.fill (h : Mirrors p t t' st) (hfits : p.Fits t) {id : String} (partialJson : String)
    (hphase : p.called = some id) :
    ∃ t'', Tells payloadEvents (renderEvent (.toolUseDelta id partialJson) st).2 t' t'' ∧
      Mirrors p (t.tell (.toolUseDelta id partialJson)) t''
        (renderEvent (.toolUseDelta id partialJson) st).1 := by
  obtain ⟨call, htool, rfl⟩ := h.tool hphase
  obtain ⟨before, name, arguments, hcalls⟩ := hfits.last call.callId hphase
  have hrender : renderEvent (.toolUseDelta call.callId partialJson) st =
      ({ st with tools := [{ call with args := call.args ++ partialJson }] },
        [argumentsFrame call.index call.itemId "response.function_call_arguments.delta"
          ("delta", .str partialJson)]) := by
    simp [renderEvent, renderToolDelta, htool, pushArgs]
  rw [hrender]
  refine ⟨{ t.tell (.toolUseDelta call.callId partialJson) with usage := {}, stop := none },
    tells_frame (fun acc hagrees _ => ?_), rfl, h.usage, h.word, h.unfinished, ?_⟩
  · have hcurrent : acc.currentToolId = some call.callId := by
      have hids : acc.toolIds = t.calls.map ToldCall.id := by
        rw [hagrees.toolIds, h.told]
      unfold StreamAccumulator.toolIds at hids
      unfold StreamAccumulator.currentToolId
      rw [← List.getLast?_map, hids, hcalls]
      simp
    have hevents : payloadEvents (argumentsFrame call.index call.itemId
        "response.function_call_arguments.delta" ("delta", .str partialJson)).data acc =
        [.toolUseDelta (acc.currentToolId.getD "") partialJson] := rfl
    rw [hevents, hcurrent, h.told]
    rfl
  · rw [hphase]
    rfl

theorem Mirrors.close (h : Mirrors p t t' st) {id : String} (hphase : p.called = some id) :
    ∃ t'', Tells payloadEvents (renderEvent (.toolUseEnd id) st).2 t' t'' ∧
      Mirrors { p with called := none } (t.tell (.toolUseEnd id)) t''
        (renderEvent (.toolUseEnd id) st).1 := by
  obtain ⟨call, htool, rfl⟩ := h.tool hphase
  have hrender : renderEvent (.toolUseEnd call.callId) st = ({ st with tools := [] },
      [argumentsFrame call.index call.itemId "response.function_call_arguments.done"
          ("arguments", .str call.args),
        itemDone call.index
          (callItem call.itemId "completed" call.callId call.name call.args)]) := by
    simp [renderEvent, renderToolEnd, htool]
  rw [hrender]
  refine ⟨t', tells_silent (fun f hf => tells_frame (fun acc _ _ => ?_)), h.told, h.usage, h.word,
    h.unfinished, rfl⟩
  simp only [List.mem_cons, List.not_mem_nil, or_false] at hf
  rcases hf with rfl | rfl <;> rfl

theorem Mirrors.step (h : Mirrors p t t' st) (hfits : p.Fits t) {e : StreamEvent}
    (hword : Chat.Word (e.usage?.getD {})) (hstep : p.step e = some p') :
    ∃ t'', Tells payloadEvents (renderEvent e st).2 t' t'' ∧
      Mirrors p' (t.tell e) t'' (renderEvent e st).1 := by
  induction e, p', hstep using AnswerPhase.step_cases with
  | textDelta text hstep hphase =>
    exact h.text text
  | thinkingDelta text hstep hphase =>
    exact h.thinking text
  | usageUpdate usage hstep hphase =>
    refine ⟨t', tells_nil t', h.told, ?_, h.word.merge hword, h.unfinished, h.tools⟩
    simp only [renderEvent, Told.tell, h.usage]
  | toolUseStart id name hstep hphase hnew =>
    exact h.open id name hphase
  | toolUseDelta id partialJson hstep hphase =>
    exact h.fill hfits partialJson hphase
  | toolUseEnd id hstep hphase =>
    exact h.close hphase

/-- A response that is complete stopped for its calls, if it has any. -/
def collapse (reason : StopReason) (called : Bool) : StopReason :=
  match reason with
  | .maxTokens => .maxTokens
  | .refusal => .refusal
  | _ => if called then .toolUse else .endTurn

theorem tells_stopFrame (reason : StopReason) (hword : Chat.Word st.usage)
    (hsum : st.usage.promptTokens < 2 ^ 64) (husage : t.usage = {}) :
    Tells payloadEvents [stopFrame st reason] t
      { t with
        usage := Chat.foldWrites st.usage
        stop := some (collapse reason (!t.calls.isEmpty)) } := by
  refine tells_frame (fun acc hagrees _ => ?_)
  have hevents : payloadEvents (stopFrame st reason).data acc =
      [.usageUpdate (parseUsage (usageJson st.usage)),
        .stop (collapse reason acc.sawToolCall) (parseUsage (usageJson st.usage))] := by
    cases reason with
    | maxTokens | refusal => rfl
    | endTurn | stopSequence | toolUse =>
      have hterminal : payloadEvents (stopFrame st .endTurn).data acc =
          [.usageUpdate (parseUsage (usageJson st.usage)),
            .stop (stopReason none false (acc.sawToolCall || false))
              (parseUsage (usageJson st.usage))] := rfl
      rw [Bool.or_false] at hterminal
      exact hterminal
  rw [hevents, parseUsage_usageJson hword hsum, hagrees.sawToolCall]
  simp [Told.tellAll, Told.tell, husage, Usage.merge]

theorem Mirrors.finish (h : Mirrors p t t' st) (reason : StopReason) {usage : Usage}
    (hword : Chat.Word usage) (hsum : (t.usage.merge usage).promptTokens < 2 ^ 64) :
    Tells payloadEvents (renderEvent (.stop reason usage) st).2 t'
      { t with
        usage := Chat.foldWrites (t.usage.merge usage)
        stop := some (collapse reason (!t.calls.isEmpty)) } := by
  have hquiet := quiet_cleared { st with finished := true, usage := st.usage.merge usage }
  generalize hclear : cleared { st with finished := true, usage := st.usage.merge usage } = out
    at hquiet
  have hrender : (renderEvent (.stop reason usage) st).2 = out.2 ++ [stopFrame out.1 reason] := by
    rw [← hclear, renderEvent, h.unfinished, if_neg Bool.false_ne_true]
    rfl
  have husage : out.1.usage = t.usage.merge usage := by
    rw [hquiet.usage, ← h.usage]
  have hmerged : Chat.Word out.1.usage := by
    rw [hquiet.usage]
    exact h.word.merge hword
  rw [← husage] at hsum
  have hstop := tells_stopFrame (t := t') reason hmerged hsum (by rw [h.told])
  rw [hrender]
  have hall := (hquiet.tells t').append hstop
  rw [husage, h.told] at hall
  exact h.told ▸ hall

end Steps

theorem mirrors_new (requestId model : String) : Mirrors {} {} {} (.new requestId model) where
  told := rfl
  usage := rfl
  word := Chat.word_zero
  unfinished := rfl
  tools := rfl

/-- What an answer's stream is read back as. -/
theorem stream_told {fromStr : String → Option Json} (a : WholeAnswer fromStr)
    (requestId model : String) :
    Tells payloadEvents (renderAll renderEvent a.events (.new requestId model)).2 {}
      { a.told with
        usage := Chat.foldWrites (Told.of a.events).usage
        stop := some (collapse a.reason (!a.told.calls.isEmpty)) } := by
  obtain ⟨t', htells, hmirrors⟩ := follow_told
    (fun _ _ _ model _ h hword => Mirrors.start h model hword)
    (fun _ _ _ _ _ _ hfits h hword hp => Mirrors.step h hfits hword hp) a
    (mirrors_new requestId model)
  rw [a.renderAll_events, a.told_events]
  exact htells.append (hmirrors.finish a.reason a.word_stop a.promptTokens_lt)

end OpenAIGateway.Responses
