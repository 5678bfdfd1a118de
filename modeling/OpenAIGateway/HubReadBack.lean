import OpenAIGateway.Collected
import OpenAIGateway.WholeAnswer
import Mathlib.Data.List.Induction

/-!
The hub's message. Blocks are closed into its content in the order the answer
told them, so the message holds the answer's text, thinking and calls, and a
converter that joins the texts and maps the calls sees all of them in order.
-/

set_option linter.all false

namespace OpenAIGateway

section Blocks

/-- What a block tells. -/
def OpenBlock.tell (t : Told) : OpenBlock → Told
  | .text words => { t with text := t.text ++ words }
  | .thinking words => { t with thinking := t.thinking ++ words }
  | .tool id name input => { t with calls := t.calls ++ [⟨id, name, input⟩] }

def tellBlocks (blocks : List OpenBlock) : Told := blocks.foldl OpenBlock.tell {}

theorem tellBlocks_append_singleton (blocks : List OpenBlock) (b : OpenBlock) :
    tellBlocks (blocks ++ [b]) = OpenBlock.tell (tellBlocks blocks) b :=
  List.foldl_append

/-- What was told of the answer itself. -/
def Told.content (t : Told) : Told := { t with usage := {}, stop := none }

/-- The hub in the middle of an answer that told `t` so far. -/
structure Assembles (fromStr : String → Option Json) (p : AnswerPhase) (t : Told) (hub : Hub) :
    Prop where
  content : ∃ blocks, hub.content = blocks.map (OpenBlock.intoJson fromStr) ∧
    tellBlocks (blocks ++ hub.block.toList) = t.content
  usage : hub.usage = t.usage
  stop : hub.stopReason = t.stop
  called : ∀ id, p.called = some id → ∃ name input, hub.block = some (.tool id name input)

variable {fromStr : String → Option Json} {p p' : AnswerPhase} {t : Told} {hub : Hub}

theorem assembles_new (model : String) : Assembles fromStr {} {} { model := model } where
  content := ⟨[], rfl, rfl⟩
  usage := rfl
  stop := rfl
  called := by
    intro id hid
    cases hid

/-- The open block is closed and another opened. -/
theorem Assembles.reopen (h : Assembles fromStr p t hub) (t' : Told) (b : OpenBlock)
    (htold : OpenBlock.tell t.content b = t'.content) (husage : t'.usage = t.usage)
    (hstop : t'.stop = t.stop)
    (hcalled : ∀ id, p'.called = some id → ∃ name input, b = .tool id name input) :
    Assembles fromStr p' t' { hub.closeBlock fromStr with block := some b } := by
  obtain ⟨blocks, hcontent, hblocks⟩ := h.content
  refine ⟨⟨blocks ++ hub.block.toList, ?_, ?_⟩, h.usage.trans husage.symm,
    h.stop.trans hstop.symm, ?_⟩
  · simp only [Hub.closeBlock, hcontent, List.map_append]
  · rw [Option.toList_some, tellBlocks_append_singleton, hblocks, htold]
  · intro id hid
    obtain ⟨name, input, rfl⟩ := hcalled id hid
    exact ⟨name, input, rfl⟩

/-- The open block takes what it is told. -/
theorem Assembles.extend (h : Assembles fromStr p t hub) (t' : Told) {b : OpenBlock}
    (hopen : hub.block = some b) (b' : OpenBlock)
    (htold : ∀ before, OpenBlock.tell before b = t.content → OpenBlock.tell before b' = t'.content)
    (husage : t'.usage = t.usage) (hstop : t'.stop = t.stop)
    (hcalled : ∀ id, p.called = some id → ∃ name input, b' = .tool id name input) :
    Assembles fromStr p t' { hub with block := some b' } := by
  obtain ⟨blocks, hcontent, hblocks⟩ := h.content
  rw [hopen, Option.toList_some, tellBlocks_append_singleton] at hblocks
  refine ⟨⟨blocks, hcontent, ?_⟩, h.usage.trans husage.symm, h.stop.trans hstop.symm, ?_⟩
  · rw [Option.toList_some, tellBlocks_append_singleton]
    exact htold _ hblocks
  · intro id hid
    obtain ⟨name, input, rfl⟩ := hcalled id hid
    exact ⟨name, input, rfl⟩

/-- Text goes to the open block of its kind, or opens one. -/
theorem Assembles.spoken (h : Assembles fromStr p t hub) (hphase : p.called = none) (t' : Told)
    (kind : String → OpenBlock) (text : String) {hub' : Hub}
    (hhub : hub' = { hub.closeBlock fromStr with block := some (kind text) } ∨
      ∃ buf, hub.block = some (kind buf) ∧ hub' = { hub with block := some (kind (buf ++ text)) })
    (htold : OpenBlock.tell t.content (kind text) = t'.content)
    (hjoin : ∀ before buf, OpenBlock.tell before (kind (buf ++ text)) =
      OpenBlock.tell (OpenBlock.tell before (kind buf)) (kind text))
    (husage : t'.usage = t.usage) (hstop : t'.stop = t.stop) : Assembles fromStr p t' hub' := by
  have huncalled : ∀ b id, p.called = some id → ∃ name input, b = OpenBlock.tool id name input := by
    intro b id hid
    cases hphase.symm.trans hid
  rcases hhub with rfl | ⟨buf, hopen, rfl⟩
  · exact h.reopen t' (kind text) htold husage hstop (huncalled _)
  · refine h.extend t' hopen (kind (buf ++ text)) ?_ husage hstop (huncalled _)
    intro before hbefore
    rw [hjoin, hbefore, htold]

theorem Assembles.textDelta (h : Assembles fromStr p t hub) (hphase : p.called = none)
    (text : String) :
    Assembles fromStr p (t.tell (.textDelta text)) (hub.event fromStr (.textDelta text)) := by
  refine h.spoken hphase _ .text text ?_ rfl ?_ rfl rfl
  · cases hopen : hub.block with
    | none => exact .inl (by simp only [Hub.event, hopen])
    | some b =>
      cases b with
      | text buf => exact .inr ⟨buf, rfl, by simp only [Hub.event, hopen]⟩
      | thinking buf => exact .inl (by simp only [Hub.event, hopen])
      | tool id name input => exact .inl (by simp only [Hub.event, hopen])
  · intro before buf
    simp only [OpenBlock.tell, String.append_assoc]

theorem Assembles.thinkingDelta (h : Assembles fromStr p t hub) (hphase : p.called = none)
    (text : String) :
    Assembles fromStr p (t.tell (.thinkingDelta text))
      (hub.event fromStr (.thinkingDelta text)) := by
  refine h.spoken hphase _ .thinking text ?_ rfl ?_ rfl rfl
  · cases hopen : hub.block with
    | none => exact .inl (by simp only [Hub.event, hopen])
    | some b =>
      cases b with
      | text buf => exact .inl (by simp only [Hub.event, hopen])
      | thinking buf => exact .inr ⟨buf, rfl, by simp only [Hub.event, hopen]⟩
      | tool id name input => exact .inl (by simp only [Hub.event, hopen])
  · intro before buf
    simp only [OpenBlock.tell, String.append_assoc]

theorem Assembles.fill (h : Assembles fromStr p t hub) (hfits : p.Fits t) {id : String}
    (partialJson : String) (hphase : p.called = some id) :
    Assembles fromStr p (t.tell (.toolUseDelta id partialJson))
      (hub.event fromStr (.toolUseDelta id partialJson)) := by
  obtain ⟨name, input, hopen⟩ := h.called id hphase
  have hextend := h.extend (t.tell (.toolUseDelta id partialJson)) hopen
    (.tool id name (input ++ partialJson)) (by
      intro before hbefore
      obtain ⟨htext, hthinking, hcalls, husage, hstop⟩ := Told.mk.inj hbefore
      have hpushed := hfits.tell_delta hcalls.symm partialJson
      exact (Told.mk.injEq ..).mpr ⟨htext, hthinking, hpushed.symm, husage, hstop⟩) rfl rfl (by
      intro id' hid'
      obtain rfl : id = id' := Option.some.inj (hphase.symm.trans hid')
      exact ⟨name, _, rfl⟩)
  simpa only [Hub.event, hopen, if_true] using hextend

/-- The hub follows every event of an answer. -/
theorem Assembles.step (h : Assembles fromStr p t hub) (hfits : p.Fits t) {e : StreamEvent}
    (hstep : p.step e = some p') : Assembles fromStr p' (t.tell e) (hub.event fromStr e) := by
  induction e, p', hstep using AnswerPhase.step_cases with
  | textDelta text hstep hphase =>
    exact h.textDelta hphase text
  | thinkingDelta text hstep hphase =>
    exact h.thinkingDelta hphase text
  | usageUpdate usage hstep hphase =>
    exact ⟨h.content, congrArg (Usage.merge · usage) h.usage, h.stop, h.called⟩
  | toolUseStart id name hstep hphase hnew =>
    refine h.reopen (t.tell (.toolUseStart id name)) (.tool id name "") rfl rfl rfl ?_
    intro id' hid'
    obtain rfl := Option.some.inj hid'
    exact ⟨name, "", rfl⟩
  | toolUseDelta id partialJson hstep hphase =>
    exact h.fill hfits partialJson hphase
  | toolUseEnd id hstep hphase =>
    obtain ⟨blocks, hcontent, hblocks⟩ := h.content
    refine ⟨⟨blocks ++ hub.block.toList, ?_, ?_⟩, h.usage, h.stop, ?_⟩
    · simp only [Hub.event, Hub.closeBlock, hcontent, List.map_append]
    · simpa only [Hub.event, Hub.closeBlock, Option.toList_none, List.append_nil, Told.tell]
        using hblocks
    · intro id' hid
      cases hid

theorem Assembles.run {body : List StreamEvent} (h : Assembles fromStr p t hub) (hfits : p.Fits t)
    (hrun : Transition.run AnswerPhase.step p body = some p') :
    Assembles fromStr p' (t.tellAll body) (body.foldl (Hub.event fromStr) hub) := by
  induction body generalizing p t hub with
  | nil =>
    obtain rfl : p = p' := Option.some.inj hrun
    exact h
  | cons e body ih =>
    obtain ⟨next, hnext, hrest⟩ := Option.bind_eq_some_iff.mp hrun
    exact ih (h.step hfits hnext) (hfits.step hnext) hrest

/-- The hub's message once the answer is over: blocks that tell the answer, in its order. -/
theorem assembled (a : WholeAnswer fromStr) (model : String) :
    ∃ hub : Hub, (a.events.foldl (Hub.event fromStr) { model := model }).closeBlock fromStr = hub ∧
      hub.usage = (Told.of a.events).usage ∧ hub.stopReason = some a.reason ∧
      ∃ blocks, hub.content = blocks.map (OpenBlock.intoJson fromStr) ∧
        tellBlocks blocks = a.told.content := by
  have hopening : Assembles fromStr {} a.begun
      (a.opening.foldl (Hub.event fromStr) { model := model }) := by
    unfold WholeAnswer.begun WholeAnswer.opening
    cases a.start with
    | none => exact assembles_new model
    | some s =>
      refine ⟨⟨[], rfl, rfl⟩, rfl, rfl, ?_⟩
      intro id hid
      cases hid
  have hbody := hopening.run (AnswerPhase.fits_opening a.begun_calls) a.sequential
  obtain ⟨blocks, hcontent, hblocks⟩ := hbody.content
  refine ⟨_, rfl, ?_, ?_, blocks ++ _, ?_, hblocks⟩
  · rw [a.told_events]
    unfold WholeAnswer.events
    rw [List.foldl_append, List.foldl_append]
    exact congrArg (Usage.merge · a.usage) hbody.usage
  · unfold WholeAnswer.events
    rw [List.foldl_append]
    rfl
  · unfold WholeAnswer.events
    rw [List.foldl_append, List.foldl_append, List.map_append, ← hcontent]
    rfl

end Blocks

section Message

variable (fromStr : String → Option Json) (requestId model : String) (blocks : List OpenBlock)
  (reason : StopReason) (usage : Usage)

/-- A message of these blocks, as the hub writes it. -/
def Anthropic.messageOf : Json :=
  .obj [("id", .str ("msg_" ++ requestId)), ("type", .str "message"), ("role", .str "assistant"),
    ("model", .str model), ("content", .arr (blocks.map (OpenBlock.intoJson fromStr))),
    ("stop_reason", .str (Anthropic.stopReasonStr
      (Anthropic.normalised reason (!(tellBlocks blocks).calls.isEmpty)))),
    ("stop_sequence", .null), ("usage", Anthropic.usageJson usage)]

theorem any_toolUse :
    (blocks.map (OpenBlock.intoJson fromStr)).any (fun b => b["type"].asStr = some "tool_use") =
      !(tellBlocks blocks).calls.isEmpty := by
  induction blocks using List.reverseRecOn with
  | nil => rfl
  | append_singleton blocks b ih =>
    rw [List.map_append, List.any_append, ih, tellBlocks_append_singleton]
    cases b with
    | text words => exact Bool.or_false _
    | thinking words => exact Bool.or_false _
    | tool id name input =>
      have hcalled : (OpenBlock.tell (tellBlocks blocks) (.tool id name input)).calls.isEmpty =
          false := by
        simp [OpenBlock.tell]
      rw [hcalled]
      exact Bool.or_true _

/-- The hub's message tells what the answer did. -/
theorem renderFromEvents_eq {fromStr : String → Option Json} (a : WholeAnswer fromStr)
    (requestId model : String) :
    ∃ adopted blocks, tellBlocks blocks = a.told.content ∧
      Anthropic.renderFromEvents fromStr a.events requestId model =
        Anthropic.messageOf fromStr requestId adopted blocks a.reason (Told.of a.events).usage := by
  obtain ⟨hub, hhub, husage, hstop, blocks, hcontent, hblocks⟩ := assembled a model
  refine ⟨hub.model, blocks, hblocks, ?_⟩
  unfold Anthropic.renderFromEvents Anthropic.messageOf
  simp only [hhub, husage, hstop, hcontent, any_toolUse]
  rfl

end Message

section Calls

variable (fromStr : String → Option Json) (toStr : Json → String)

/-- The value of a call's arguments, which are empty where there are none. -/
def ToldCall.value (call : ToldCall) : Json := (fromStr call.arguments).getD (.obj [])

/-- A call with its arguments printed from their value. -/
def ToldCall.printed (call : ToldCall) : ToldCall :=
  { call with arguments := toStr (call.value fromStr) }

/-- The events of a call that comes whole. -/
def ToldCall.events (call : ToldCall) : List StreamEvent :=
  [.toolUseStart call.id call.name, .toolUseDelta call.id call.arguments, .toolUseEnd call.id]

theorem tellAll_calls (t : Told) (calls : List ToldCall) :
    t.tellAll (calls.flatMap ToldCall.events) = { t with calls := calls.foldl hear t.calls } := by
  induction calls generalizing t with
  | nil => rfl
  | cons call calls ih =>
    rw [List.flatMap_cons, Told.tellAll_append, ih]
    rfl

theorem parseWholeCall_blocks (calls : List ToldCall) :
    (calls.map (fun call => Chat.wholeCall toStr
      (OpenBlock.intoJson fromStr (.tool call.id call.name call.arguments)))).flatMap
        Chat.parseWholeCall =
      (calls.map (ToldCall.printed fromStr toStr)).flatMap ToldCall.events := by
  rw [List.flatMap_map, List.flatMap_map]
  rfl

variable (blocks : List OpenBlock)

/-- A converter sees every call, in order. -/
theorem callsOf_blocks (convert : Json → Json) :
    callsOf convert (blocks.map (OpenBlock.intoJson fromStr)) =
      (tellBlocks blocks).calls.map (fun call =>
        convert (OpenBlock.intoJson fromStr (.tool call.id call.name call.arguments))) := by
  induction blocks using List.reverseRecOn with
  | nil => rfl
  | append_singleton blocks b ih =>
    unfold callsOf at ih ⊢
    rw [List.map_append, List.flatMap_append, ih, tellBlocks_append_singleton]
    cases b with
    | text words => exact List.append_nil _
    | thinking words => exact List.append_nil _
    | tool id name input =>
      simp only [OpenBlock.tell, List.map_append]
      rfl

theorem joined_text : joined "text" (blocks.map (OpenBlock.intoJson fromStr)) =
    (tellBlocks blocks).text := by
  induction blocks using List.reverseRecOn with
  | nil => rfl
  | append_singleton blocks b ih =>
    unfold joined at ih ⊢
    rw [List.map_append, List.foldl_append, ih, tellBlocks_append_singleton]
    cases b <;> rfl

theorem joined_thinking : joined "thinking" (blocks.map (OpenBlock.intoJson fromStr)) =
    (tellBlocks blocks).thinking := by
  induction blocks using List.reverseRecOn with
  | nil => rfl
  | append_singleton blocks b ih =>
    unfold joined at ih ⊢
    rw [List.map_append, List.foldl_append, ih, tellBlocks_append_singleton]
    cases b <;> rfl

end Calls

end OpenAIGateway
