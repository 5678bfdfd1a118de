import OpenAIGateway.AnthropicParse
import OpenAIGateway.WholeAnswer

/-!
An Anthropic stream rendered and read back. The calls of an answer are opened
one after another, so the call a fragment is read for, the one opened last, is
its own. Usage comes back from the last frame, whatever the first one said.
-/

set_option linter.all false

namespace OpenAIGateway.Anthropic

section Frames

variable {t : Told}

theorem parseUsage_usageJson {u : Usage} (h : Chat.Word u) : parseUsage (usageJson u) = u := by
  obtain ⟨hin, hout, hread, hwrite⟩ := h
  have hinput : (usageJson u)["input_tokens"].asU64 = some u.inputTokens := if_pos hin
  have houtput : (usageJson u)["output_tokens"].asU64 = some u.outputTokens := if_pos hout
  have hcached : (usageJson u)["cache_read_input_tokens"].asU64 = some u.cacheReadTokens :=
    if_pos hread
  have hwritten : (usageJson u)["cache_creation_input_tokens"].asU64 = some u.cacheWriteTokens :=
    if_pos hwrite
  unfold parseUsage
  simp only [hinput, houtput, hcached, hwritten, Option.getD_some]

theorem parseStopReason_stopReasonStr (reason : StopReason) :
    parseStopReason (stopReasonStr reason) = reason := by
  cases reason <;> rfl

theorem tells_messageStart (st : RenderState) (hword : Chat.Word st.usage) :
    Tells payloadEvents [messageStart st] t { t with usage := t.usage.merge st.usage } := by
  refine tells_frame (fun acc _ _ => ?_)
  have hevents : payloadEvents (messageStart st).data acc =
      [.start st.model (parseUsage (usageJson st.usage))] := rfl
  rw [hevents, parseUsage_usageJson hword]
  rfl

theorem tells_blockStart_empty (index : ℕ) (thinking : Bool) :
    Tells payloadEvents [blockStart index (emptyBlock thinking)] t t := by
  refine tells_frame (fun acc _ _ => ?_)
  cases thinking <;> rfl

theorem tells_blockStart_tool (index : ℕ) (id name : String) :
    Tells payloadEvents [blockStart index (toolUseBlock id name)] t
      (t.tell (.toolUseStart id name)) :=
  tells_frame (fun _ _ _ => rfl)

theorem tells_textDelta (index : ℕ) (text : String) :
    Tells payloadEvents [blockDelta index (textDelta false text)] t (t.tell (.textDelta text)) :=
  tells_frame (fun _ _ _ => rfl)

theorem tells_thinkingDelta (index : ℕ) (text : String) :
    Tells payloadEvents [blockDelta index (textDelta true text)] t
      (t.tell (.thinkingDelta text)) :=
  tells_frame (fun _ _ _ => rfl)

/-- A fragment of arguments is read for the call opened last. -/
theorem tells_inputJsonDelta (index : ℕ) {id : String} (partialJson : String)
    (hlast : (t.calls.map ToldCall.id).getLast? = some id) :
    Tells payloadEvents [blockDelta index (inputJsonDelta partialJson)] t
      (t.tell (.toolUseDelta id partialJson)) := by
  refine tells_frame (fun acc hagrees _ => ?_)
  have hcurrent : acc.currentToolId = some id := by
    rw [← hlast, ← hagrees.toolIds, StreamAccumulator.toolIds, List.getLast?_map]
    rfl
  have hevents : payloadEvents (blockDelta index (inputJsonDelta partialJson)).data acc =
      [.toolUseDelta (acc.currentToolId.getD "") partialJson] := rfl
  rw [hevents, hcurrent]
  rfl

theorem tells_blockStop (index : ℕ) : Tells payloadEvents [blockStop index] t t := by
  refine tells_frame (fun acc _ _ => ?_)
  have hevents : payloadEvents (blockStop index).data acc = acc.openTool.toList.map .toolUseEnd :=
    rfl
  rw [hevents]
  cases acc.openTool <;> rfl

theorem tells_messageDelta (reason : StopReason) {usage : Usage} (hword : Chat.Word usage) :
    Tells payloadEvents [messageDelta reason usage, messageStop] t
      { t with usage := (t.usage.merge usage).merge usage, stop := some reason } := by
  have hdelta : Tells payloadEvents [messageDelta reason usage] t
      { t with usage := (t.usage.merge usage).merge usage, stop := some reason } := by
    refine tells_frame (fun acc _ _ => ?_)
    have hevents : payloadEvents (messageDelta reason usage).data acc =
        [.usageUpdate (parseUsage (usageJson usage)),
          .stop (parseStopReason (stopReasonStr reason)) (parseUsage (usageJson usage))] := rfl
    rw [hevents, parseUsage_usageJson hword, parseStopReason_stopReasonStr]
    rfl
  exact hdelta.append (tells_frame (fun _ _ _ => rfl))

end Frames

/-- The renderer and what was read from it, in the middle of an answer. -/
structure Mirrors (p : AnswerPhase) (t t' : Told) (st : RenderState) : Prop where
  text : t'.text = t.text
  thinking : t'.thinking = t.thinking
  calls : t'.calls = t.calls
  stop : t'.stop = none
  usage : st.usage = t.usage
  word : Chat.Word st.usage
  below : Usage.Le t'.usage t.usage
  unfinished : st.finished = false
  tools : st.openTools.map Prod.fst = p.called.toList

section Steps

variable {p p' : AnswerPhase} {t t' : Told} {st : RenderState}

theorem ensureStarted_eq (st : RenderState) :
    st.ensureStarted = ({ st with started := true }, st.ensureStarted.2) := by
  unfold RenderState.ensureStarted
  cases hstarted : st.started with
  | true =>
    rw [if_pos rfl]
    cases st
    simp_all
  | false => simp

/-- The opening frame reports the usage so far. -/
theorem tells_ensureStarted (st : RenderState) (hword : Chat.Word st.usage)
    (hbelow : Usage.Le t'.usage st.usage) :
    ∃ usage, Usage.Le usage st.usage ∧
      Tells payloadEvents st.ensureStarted.2 t' { t' with usage := usage } := by
  unfold RenderState.ensureStarted
  cases st.started with
  | true => exact ⟨t'.usage, hbelow, tells_nil t'⟩
  | false =>
    exact ⟨t'.usage.merge st.usage, hbelow.merge (Usage.Le.refl _), tells_messageStart st hword⟩

theorem tells_closeText : Tells payloadEvents st.closeText.2 t' t' := by
  unfold RenderState.closeText
  cases st.openText with
  | none => exact tells_nil t'
  | some index => exact tells_blockStop index

theorem tells_closeTools : Tells payloadEvents st.closeTools.2 t' t' := by
  refine tells_silent (fun f hf => ?_)
  obtain ⟨tool, -, rfl⟩ := List.mem_map.mp hf
  exact tells_blockStop tool.2

theorem closeText_eq (st : RenderState) :
    st.closeText = ({ st with openText := none }, st.closeText.2) := by
  unfold RenderState.closeText
  cases hopen : st.openText with
  | none =>
    cases st
    simp_all
  | some index => rfl

/-- What a delta of text or thinking tells. -/
def spoken (thinking : Bool) (text : String) : StreamEvent :=
  if thinking then .thinkingDelta text else .textDelta text

theorem tells_spoken (index : ℕ) (thinking : Bool) (text : String) :
    Tells payloadEvents [blockDelta index (textDelta thinking text)] t'
      (t'.tell (spoken thinking text)) := by
  cases thinking with
  | false => exact tells_textDelta index text
  | true => exact tells_thinkingDelta index text

/-- A text block is opened, if none is open, and told its delta. -/
theorem renderText_spec (st : RenderState) (thinking : Bool) (text : String)
    (hword : Chat.Word st.usage) (hbelow : Usage.Le t'.usage st.usage) :
    (renderText st text thinking).1.usage = st.usage ∧
      (renderText st text thinking).1.finished = st.finished ∧
      (renderText st text thinking).1.openTools = [] ∧
      ∃ usage, Usage.Le usage st.usage ∧ Tells payloadEvents (renderText st text thinking).2 t'
        (Told.tell { t' with usage := usage } (spoken thinking text)) := by
  obtain ⟨usage, hle, hstart⟩ := tells_ensureStarted st hword hbelow
  have hclosed : Tells payloadEvents (RenderState.closeTools { st with started := true }).2
      { t' with usage := usage } { t' with usage := usage } := tells_closeTools
  unfold renderText
  rw [ensureStarted_eq]
  simp only [RenderState.closeTools] at hclosed ⊢
  cases st.openText with
  | none =>
    refine ⟨rfl, rfl, rfl, usage, hle, ?_⟩
    exact ((hstart.append hclosed).append (tells_blockStart_empty _ thinking)).append
      (tells_spoken _ thinking text)
  | some index =>
    refine ⟨rfl, rfl, rfl, usage, hle, ?_⟩
    exact ((hstart.append hclosed).append (tells_nil _)).append (tells_spoken _ thinking text)

theorem Mirrors.start (h : Mirrors {} t t' st) (model : String) {usage : Usage}
    (hword : Chat.Word usage) :
    ∃ t'', Tells payloadEvents (renderEvent (.start model usage) st).2 t' t'' ∧
      Mirrors {} (t.tell (.start model usage)) t'' (renderEvent (.start model usage) st).1 := by
  have hmerged := h.word.merge hword
  have hbelow : Usage.Le t'.usage (st.usage.merge usage) := by
    rw [h.usage]
    exact h.below.trans (Usage.le_merge_left _ _)
  obtain ⟨reported, hle, htells⟩ := tells_ensureStarted
    { st with model := adoptModel st.model model, usage := st.usage.merge usage } hmerged hbelow
  refine ⟨{ t' with usage := reported }, htells, ?_⟩
  rw [renderEvent, ensureStarted_eq]
  refine ⟨h.text, h.thinking, h.calls, h.stop, ?_, hmerged, ?_, h.unfinished, h.tools⟩
  · simp only [Told.tell, h.usage]
  · simpa only [Told.tell, h.usage] using hle

theorem Mirrors.spoken (h : Mirrors p t t' st) (thinking : Bool) (text : String)
    (hphase : p.called = none) :
    ∃ t'', Tells payloadEvents (renderText st text thinking).2 t' t'' ∧
      Mirrors p (t.tell (Anthropic.spoken thinking text)) t'' (renderText st text thinking).1 := by
  have hbelow : Usage.Le t'.usage st.usage := by
    rw [h.usage]
    exact h.below
  obtain ⟨husage, hfinished, htools, usage, hle, htells⟩ :=
    renderText_spec st thinking text h.word hbelow
  rw [h.usage] at hle
  refine ⟨_, htells, ?_⟩
  cases thinking with
  | false =>
    refine ⟨?_, h.thinking, h.calls, h.stop, husage.trans h.usage, ?_, hle,
      hfinished.trans h.unfinished, ?_⟩
    · simp only [Anthropic.spoken, Bool.false_eq_true, if_false, Told.tell, h.text]
    · rw [husage]
      exact h.word
    · rw [htools, hphase]
      rfl
  | true =>
    refine ⟨h.text, ?_, h.calls, h.stop, husage.trans h.usage, ?_, hle,
      hfinished.trans h.unfinished, ?_⟩
    · simp only [Anthropic.spoken, if_true, Told.tell, h.thinking]
    · rw [husage]
      exact h.word
    · rw [htools, hphase]
      rfl

theorem Mirrors.open (h : Mirrors p t t' st) (id name : String) (hphase : p.called = none) :
    ∃ t'', Tells payloadEvents (renderEvent (.toolUseStart id name) st).2 t' t'' ∧
      Mirrors ⟨p.seen ++ [id], some id⟩ (t.tell (.toolUseStart id name)) t''
        (renderEvent (.toolUseStart id name) st).1 := by
  have hbelow : Usage.Le t'.usage st.usage := by
    rw [h.usage]
    exact h.below
  obtain ⟨usage, hle, hstart⟩ := tells_ensureStarted st h.word hbelow
  rw [h.usage] at hle
  have hnone : st.openTools = [] := by
    have htools := h.tools
    rw [hphase] at htools
    exact List.map_eq_nil_iff.mp htools
  refine ⟨Told.tell { t' with usage := usage } (.toolUseStart id name), ?_, ?_⟩
  · rw [renderEvent, ensureStarted_eq]
    simp only
    rw [closeText_eq]
    exact (hstart.append tells_closeText).append (tells_blockStart_tool _ id name)
  · rw [renderEvent, ensureStarted_eq]
    simp only
    rw [closeText_eq]
    refine ⟨h.text, h.thinking, ?_, h.stop, h.usage, h.word, hle, h.unfinished, ?_⟩
    · simp only [Told.tell, h.calls]
    · simp [hnone]

/-- While a call is open, its block is the one that is. -/
theorem Mirrors.openTool (h : Mirrors p t t' st) {id : String} (hphase : p.called = some id) :
    ∃ tool, st.openTools = [tool] ∧ tool.1 = id := by
  have htools := h.tools
  rw [hphase] at htools
  obtain ⟨tool, rest, hopen, htool, hrest⟩ := List.map_eq_cons_iff.mp htools
  rw [List.map_eq_nil_iff.mp hrest] at hopen
  exact ⟨tool, hopen, htool⟩

theorem Mirrors.fill (h : Mirrors p t t' st) (hfits : p.Fits t) {id : String} (partialJson : String)
    (hphase : p.called = some id) :
    ∃ t'', Tells payloadEvents (renderEvent (.toolUseDelta id partialJson) st).2 t' t'' ∧
      Mirrors p (t.tell (.toolUseDelta id partialJson)) t''
        (renderEvent (.toolUseDelta id partialJson) st).1 := by
  obtain ⟨⟨key, index⟩, htool, rfl⟩ := h.openTool hphase
  have hblock : st.toolBlock key = some index := by
    simp [RenderState.toolBlock, htool]
  obtain ⟨before, name, arguments, hcalls⟩ := hfits.last key hphase
  have hlast : (t'.calls.map ToldCall.id).getLast? = some key := by
    rw [h.calls, hcalls]
    simp
  refine ⟨t'.tell (.toolUseDelta key partialJson), ?_, ?_⟩
  · simp only [renderEvent, hblock]
    exact tells_inputJsonDelta index partialJson hlast
  · simp only [renderEvent, hblock]
    refine ⟨h.text, h.thinking, ?_, h.stop, h.usage, h.word, h.below, h.unfinished, h.tools⟩
    simp only [Told.tell, h.calls]

theorem Mirrors.close (h : Mirrors p t t' st) {id : String} (hphase : p.called = some id) :
    ∃ t'', Tells payloadEvents (renderEvent (.toolUseEnd id) st).2 t' t'' ∧
      Mirrors { p with called := none } (t.tell (.toolUseEnd id)) t''
        (renderEvent (.toolUseEnd id) st).1 := by
  obtain ⟨⟨key, index⟩, htool, rfl⟩ := h.openTool hphase
  have hclose : st.closeTool key = ({ st with openTools := [] }, [blockStop index]) := by
    simp [RenderState.closeTool, htool]
  refine ⟨t', ?_, ?_⟩
  · simp only [renderEvent, hclose]
    exact tells_blockStop index
  · simp only [renderEvent, hclose]
    exact ⟨h.text, h.thinking, h.calls, h.stop, h.usage, h.word, h.below, h.unfinished, rfl⟩

theorem Mirrors.step (h : Mirrors p t t' st) (hfits : p.Fits t) {e : StreamEvent}
    (hword : Chat.Word (e.usage?.getD {})) (hstep : p.step e = some p') :
    ∃ t'', Tells payloadEvents (renderEvent e st).2 t' t'' ∧
      Mirrors p' (t.tell e) t'' (renderEvent e st).1 := by
  induction e, p', hstep using AnswerPhase.step_cases with
  | textDelta text hstep hphase =>
    exact h.spoken false text hphase
  | thinkingDelta text hstep hphase =>
    exact h.spoken true text hphase
  | usageUpdate usage hstep hphase =>
    refine ⟨t', tells_nil t', h.text, h.thinking, h.calls, h.stop, ?_, h.word.merge hword, ?_,
      h.unfinished, h.tools⟩
    · simp only [renderEvent, Told.tell, h.usage]
    · exact h.below.trans (Usage.le_merge_left _ _)
  | toolUseStart id name hstep hphase hnew =>
    exact h.open id name hphase
  | toolUseDelta id partialJson hstep hphase =>
    exact h.fill hfits partialJson hphase
  | toolUseEnd id hstep hphase =>
    exact h.close hphase

/-- The stop reports the whole usage, whatever the opening frame said. -/
theorem Mirrors.finish (h : Mirrors p t t' st) (reason : StopReason) {usage : Usage}
    (hword : Chat.Word usage) :
    Tells payloadEvents (renderEvent (.stop reason usage) st).2 t'
      { t with usage := t.usage.merge usage, stop := some reason } := by
  have hmerged := h.word.merge hword
  have hbelow : Usage.Le t'.usage (st.usage.merge usage) := by
    rw [h.usage]
    exact h.below.trans (Usage.le_merge_left _ _)
  obtain ⟨reported, hle, hstart⟩ := tells_ensureStarted
    { st with finished := true, usage := st.usage.merge usage } hmerged hbelow
  have hlast := tells_messageDelta (t := { t' with usage := reported }) reason hmerged
  have husage : (reported.merge (st.usage.merge usage)).merge (st.usage.merge usage) =
      t.usage.merge usage := by
    rw [← h.usage]
    simp only [Usage.Le, Usage.merge] at hle ⊢
    rw [Usage.mk.injEq]
    omega
  simp only [husage] at hlast
  have hall : Tells payloadEvents (renderEvent (.stop reason usage) st).2 t'
      { t' with usage := t.usage.merge usage, stop := some reason } := by
    rw [renderEvent, h.unfinished, if_neg Bool.false_ne_true]
    simp only
    rw [ensureStarted_eq]
    simp only
    rw [closeText_eq]
    exact ((hstart.append tells_closeText).append tells_closeTools).append hlast
  have hsame : ({ t' with usage := t.usage.merge usage, stop := some reason } : Told) =
      { t with usage := t.usage.merge usage, stop := some reason } := by
    rw [Told.mk.injEq]
    exact ⟨h.text, h.thinking, h.calls, rfl, rfl⟩
  rwa [hsame] at hall

end Steps

theorem mirrors_new (requestId model : String) : Mirrors {} {} {} (.new requestId model) where
  text := rfl
  thinking := rfl
  calls := rfl
  stop := rfl
  usage := rfl
  word := Chat.word_zero
  below := Usage.Le.refl _
  unfinished := rfl
  tools := rfl

/-- An answer is read back from its stream as it was told. -/
theorem stream_told {fromStr : String → Option Json} (a : WholeAnswer fromStr)
    (requestId model : String) :
    Tells payloadEvents (renderAll renderEvent a.events (.new requestId model)).2 {}
      (Told.of a.events) := by
  obtain ⟨t', htells, hmirrors⟩ := follow_told
    (fun _ _ _ model _ h hword => Mirrors.start h model hword)
    (fun _ _ _ _ _ _ hfits h hword hp => Mirrors.step h hfits hword hp) a
    (mirrors_new requestId model)
  rw [a.renderAll_events, a.told_events]
  exact htells.append (hmirrors.finish a.reason a.word_stop)

end OpenAIGateway.Anthropic
