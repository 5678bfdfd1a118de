import OpenAIGateway.ResponsesItems

/-!
Which event sequences the Responses renderer turns into a completed stream.
A stop or an error closes the reasoning and message items and leaves open
tool calls as they are; after it, events that carry content still render.
The stream is completed exactly when neither is reached: every call started
before the end has been ended, and no content follows it.
-/

set_option linter.all false

namespace OpenAIGateway.Responses

open Lifecycle

/-- Frames other than the terminal ones. -/
def Part.plain : Part → Bool
  | .item _ | .other => true
  | _ => false

def isTerminal : StreamEvent → Bool
  | .stop _ _ | .error _ => true
  | _ => false

/-- Events that put content into the output. -/
def addsContent : StreamEvent → Bool
  | .textDelta _ | .thinkingDelta _ | .toolUseStart _ _ => true
  | _ => false

/-- The calls started and not ended. -/
def callsStep (calls : List String) : StreamEvent → List String
  | .toolUseStart id _ => calls ++ [id]
  | .toolUseEnd id => calls.erase id
  | _ => calls

def EndsResponse (events : List StreamEvent) : Prop := events.getLast?.any isTerminal

/-- Every call started before the first stop or error is ended before it. -/
def CallsEnded (events : List StreamEvent) : Prop :=
  (events.takeWhile (fun e => !isTerminal e)).foldl callsStep [] = []

/-- No content comes after the first stop or error. -/
def NoContentAfterEnd (events : List StreamEvent) : Prop :=
  ∀ e ∈ (events.dropWhile (fun e => !isTerminal e)).tail, addsContent e = false

instance (events : List StreamEvent) : Decidable (EndsResponse events) := by
  unfold EndsResponse
  infer_instance

instance (events : List StreamEvent) : Decidable (CallsEnded events) := by
  unfold CallsEnded
  infer_instance

instance (events : List StreamEvent) : Decidable (NoContentAfterEnd events) := by
  unfold NoContentAfterEnd
  infer_instance

theorem ensureCreated_steps {st : RenderState} (h : Inv st) :
    Steps st st.ensureCreated.2 st.ensureCreated.1 := by
  unfold RenderState.ensureCreated
  split
  · exact Steps.refl h
  · exact Steps.silent h ⟨rfl, rfl, rfl, rfl⟩ rfl

theorem closeReasoning_steps {st : RenderState} (h : Inv st) :
    Steps st st.closeReasoning.2 st.closeReasoning.1 := by
  unfold RenderState.closeReasoning
  split
  · exact Steps.refl h
  · rename_i index itemId hreasoning
    refine Steps.done h (callItems st.tools) (slotItems .message st.message) index
      ⟨.reasoning, itemId⟩ ?_ (by simp [Part.act?]) ?_ rfl (Or.inl rfl)
    · simp [openItems, hreasoning]
    · simp [openItems]

theorem closeMessage_steps {st : RenderState} (h : Inv st) :
    Steps st st.closeMessage.2 st.closeMessage.1 := by
  unfold RenderState.closeMessage
  split
  · exact Steps.refl h
  · rename_i index itemId hmessage
    refine Steps.done h (callItems st.tools ++ slotItems .reasoning st.reasoning) [] index
      ⟨.message, itemId⟩ ?_ (by simp [Part.act?]) ?_ rfl (Or.inr rfl)
    · simp [openItems, hmessage]
    · simp [openItems]

section Fields

variable (st : RenderState)

@[simp] theorem ensureCreated_created : st.ensureCreated.1.created = true := by
  unfold RenderState.ensureCreated
  split
  · assumption
  · rfl

@[simp] theorem ensureCreated_tools : st.ensureCreated.1.tools = st.tools := by
  unfold RenderState.ensureCreated
  split <;> rfl

@[simp] theorem ensureCreated_finished : st.ensureCreated.1.finished = st.finished := by
  unfold RenderState.ensureCreated
  split <;> rfl

@[simp] theorem closeReasoning_reasoning : st.closeReasoning.1.reasoning = none := by
  unfold RenderState.closeReasoning
  split
  · assumption
  · rfl

@[simp] theorem closeReasoning_message : st.closeReasoning.1.message = st.message := by
  unfold RenderState.closeReasoning
  split <;> rfl

@[simp] theorem closeReasoning_tools : st.closeReasoning.1.tools = st.tools := by
  unfold RenderState.closeReasoning
  split <;> rfl

@[simp] theorem closeReasoning_created : st.closeReasoning.1.created = st.created := by
  unfold RenderState.closeReasoning
  split <;> rfl

@[simp] theorem closeReasoning_finished : st.closeReasoning.1.finished = st.finished := by
  unfold RenderState.closeReasoning
  split <;> rfl

@[simp] theorem closeMessage_message : st.closeMessage.1.message = none := by
  unfold RenderState.closeMessage
  split
  · assumption
  · rfl

@[simp] theorem closeMessage_reasoning : st.closeMessage.1.reasoning = st.reasoning := by
  unfold RenderState.closeMessage
  split <;> rfl

@[simp] theorem closeMessage_tools : st.closeMessage.1.tools = st.tools := by
  unfold RenderState.closeMessage
  split <;> rfl

@[simp] theorem closeMessage_created : st.closeMessage.1.created = st.created := by
  unfold RenderState.closeMessage
  split <;> rfl

@[simp] theorem closeMessage_finished : st.closeMessage.1.finished = st.finished := by
  unfold RenderState.closeMessage
  split <;> rfl

end Fields

theorem openMessage_steps {st : RenderState} (h : Inv st) :
    Steps st st.openMessage.2.1 st.openMessage.1 ∧
      st.openMessage.1.message = some st.openMessage.2.2 := by
  unfold RenderState.openMessage
  split
  · rename_i item hmessage
    exact ⟨Steps.refl h, hmessage⟩
  · rename_i hmessage
    have hclosing := closeReasoning_steps h
    refine ⟨hclosing.append (Steps.added hclosing.inv
      ⟨.message, st.closeReasoning.1.itemId "msg" st.closeReasoning.1.nextIndex⟩
      (by simp [Part.act?]) ?_ rfl (Or.inl (closeReasoning_reasoning st))), rfl⟩
    simp [openItems, hmessage]

theorem openReasoning_steps {st : RenderState} (h : Inv st) :
    Steps st st.openReasoning.2.1 st.openReasoning.1 ∧
      st.openReasoning.1.reasoning = some st.openReasoning.2.2 := by
  unfold RenderState.openReasoning
  split
  · rename_i item hreasoning
    exact ⟨Steps.refl h, hreasoning⟩
  · rename_i hreasoning
    have hclosing := closeMessage_steps h
    refine ⟨hclosing.append (Steps.added hclosing.inv
      ⟨.reasoning, st.closeMessage.1.itemId "rs" st.closeMessage.1.nextIndex⟩
      (by simp [Part.act?]) ?_ rfl (Or.inr (closeMessage_message st))), rfl⟩
    simp [openItems, hreasoning]

/-- What a tool start, a stop and an error do first. -/
def closeItems (st : RenderState) : RenderState × List Frame :=
  (st.ensureCreated.1.closeReasoning.1.closeMessage.1,
    st.ensureCreated.2 ++ st.ensureCreated.1.closeReasoning.2 ++
      st.ensureCreated.1.closeReasoning.1.closeMessage.2)

theorem closeItems_steps {st : RenderState} (h : Inv st) :
    Steps st (closeItems st).2 (closeItems st).1 := by
  have hcreated := ensureCreated_steps h
  have hreasoning := closeReasoning_steps hcreated.inv
  exact (hcreated.append hreasoning).append (closeMessage_steps hreasoning.inv)

section Closed

variable (st : RenderState)

@[simp] theorem closeItems_created : (closeItems st).1.created = true := by
  simp [closeItems]

@[simp] theorem closeItems_reasoning : (closeItems st).1.reasoning = none := by
  simp [closeItems]

@[simp] theorem closeItems_message : (closeItems st).1.message = none := by
  simp [closeItems]

@[simp] theorem closeItems_tools : (closeItems st).1.tools = st.tools := by
  simp [closeItems]

@[simp] theorem closeItems_finished : (closeItems st).1.finished = st.finished := by
  simp [closeItems]

end Closed

theorem renderToolStart_eq (st : RenderState) (id name : String) :
    renderToolStart st id name =
      ({ (closeItems st).1 with
          nextIndex := (closeItems st).1.nextIndex + 1
          tools := (closeItems st).1.tools ++ [⟨id, (closeItems st).1.nextIndex,
            (closeItems st).1.itemId "fc" (closeItems st).1.nextIndex, name, ""⟩] },
        (closeItems st).2 ++ [itemAdded (closeItems st).1.nextIndex
          (callItem ((closeItems st).1.itemId "fc" (closeItems st).1.nextIndex)
            "in_progress" id name "")]) := rfl

theorem renderToolStart_steps {st : RenderState} (h : Inv st) (id name : String) :
    Steps st (renderToolStart st id name).2 (renderToolStart st id name).1 := by
  have hclosing := closeItems_steps h
  have hreasoning := closeItems_reasoning st
  have hmessage := closeItems_message st
  rw [renderToolStart_eq]
  generalize closeItems st = out at hclosing hreasoning hmessage
  refine hclosing.append (Steps.added hclosing.inv
    ⟨.functionCall, out.1.itemId "fc" out.1.nextIndex⟩ (by simp [Part.act?]) ?_ rfl
    (Or.inr hmessage))
  simp [openItems, callItems, hreasoning, hmessage]

/-- Fragments change a call's arguments and nothing the item frames carry. -/
theorem callItems_pushArgs (id partialJson : String) (tools : List ToolCall) :
    callItems (pushArgs id partialJson tools) = callItems tools := by
  induction tools with
  | nil => rfl
  | cons call rest ih =>
    unfold pushArgs
    split
    · rfl
    · simpa [callItems] using ih

theorem renderToolDelta_steps {st : RenderState} (h : Inv st) (id partialJson : String) :
    Steps st (renderToolDelta st id partialJson).2 (renderToolDelta st id partialJson).1 := by
  unfold renderToolDelta
  split
  · exact Steps.refl h
  · rename_i call hfind
    refine Steps.used h ⟨?_, rfl, rfl, rfl⟩ call.index ⟨.functionCall, call.itemId⟩ ?_
      (by simp [Part.act?])
    · simp [openItems, callItems_pushArgs]
    · simp only [openItems, List.append_assoc, List.mem_append]
      exact Or.inl (List.mem_map.mpr ⟨call, List.mem_of_find?_eq_some hfind, rfl⟩)

theorem renderToolEnd_steps {st : RenderState} (h : Inv st) (id : String) :
    Steps st (renderToolEnd st id).2 (renderToolEnd st id).1 := by
  unfold renderToolEnd
  split
  · exact Steps.refl h
  · rename_i call hfind
    obtain ⟨hid, pre, post, hsplit, hpre⟩ := List.find?_eq_some_iff_append.mp hfind
    have herase : st.tools.eraseP (fun c => decide (c.callId = id)) = pre ++ post := by
      rw [hsplit, List.eraseP_append_right _ (by simpa using hpre)]
      simp [hid]
    refine Steps.done h (callItems pre) (callItems post ++ slotItems .reasoning st.reasoning ++
      slotItems .message st.message) call.index ⟨.functionCall, call.itemId⟩ ?_
      (by simp [Part.act?]) ?_ rfl h.one
    · simp [openItems, callItems, hsplit]
    · simp [openItems, callItems, herase]

theorem textDelta_steps {st : RenderState} (h : Inv st) (text : String) :
    Steps st (renderEvent (.textDelta text) st).2 (renderEvent (.textDelta text) st).1 := by
  have hcreated := ensureCreated_steps h
  obtain ⟨hopening, hmessage⟩ := openMessage_steps hcreated.inv
  simp only [renderEvent]
  generalize st.ensureCreated = out at hcreated hopening hmessage
  generalize out.1.openMessage = opened at hopening hmessage
  refine (hcreated.append hopening).append (Steps.used hopening.inv ⟨rfl, rfl, rfl, rfl⟩
    opened.2.2.1 ⟨.message, opened.2.2.2⟩ ?_ (by simp [Part.act?]))
  simp [openItems, hmessage]

theorem thinkingDelta_steps {st : RenderState} (h : Inv st) (text : String) :
    Steps st (renderEvent (.thinkingDelta text) st).2 (renderEvent (.thinkingDelta text) st).1 := by
  have hcreated := ensureCreated_steps h
  obtain ⟨hopening, hreasoning⟩ := openReasoning_steps hcreated.inv
  simp only [renderEvent]
  generalize st.ensureCreated = out at hcreated hopening hreasoning
  generalize out.1.openReasoning = opened at hopening hreasoning
  refine (hcreated.append hopening).append (Steps.used hopening.inv ⟨rfl, rfl, rfl, rfl⟩
    opened.2.2.1 ⟨.reasoning, opened.2.2.2⟩ ?_ (by simp [Part.act?]))
  simp [openItems, hreasoning]

/-- A stop or an error in a response that has not ended: bookkeeping that
moves no item, the closing frames, the terminal frame. -/
theorem renderTerminal_eq (st : RenderState) (hfinished : st.finished = false) (e : StreamEvent)
    (he : isTerminal e = true) :
    ∃ st₀ last, SameItems st st₀ ∧ st₀.finished = true ∧ st₀.tools = st.tools ∧
      readFrame last = .terminal ∧
      renderEvent e st = ((closeItems st₀).1, (closeItems st₀).2 ++ [last]) := by
  cases e with
  | stop reason usage =>
    refine ⟨{ st with finished := true, usage := st.usage.merge usage },
      stopFrame (closeItems { st with finished := true, usage := st.usage.merge usage }).1 reason,
      ⟨rfl, rfl, rfl, rfl⟩, rfl, rfl, readFrame_stopFrame _ reason, ?_⟩
    simp only [renderEvent, hfinished]
    rfl
  | error message =>
    refine ⟨{ st with finished := true },
      failedFrame (closeItems { st with finished := true }).1 message,
      ⟨rfl, rfl, rfl, rfl⟩, rfl, rfl, readFrame_failedFrame _ message, ?_⟩
    simp only [renderEvent, renderFailure, hfinished]
    rfl
  | _ => simp [isTerminal] at he

theorem renderTerminal_finished (st : RenderState) (hfinished : st.finished = true)
    (e : StreamEvent) (he : isTerminal e = true) : renderEvent e st = (st, []) := by
  cases e with
  | stop reason usage => simp [renderEvent, hfinished]
  | error message => simp [renderEvent, renderFailure, hfinished]
  | _ => simp [isTerminal] at he

theorem renderTerminal_steps {st : RenderState} (h : Inv st) (e : StreamEvent)
    (he : isTerminal e = true) : Steps st (renderEvent e st).2 (renderEvent e st).1 := by
  cases hfinished : st.finished with
  | true =>
    rw [renderTerminal_finished st hfinished e he]
    exact Steps.refl h
  | false =>
    obtain ⟨st₀, last, hsame, -, -, hlast, heq⟩ := renderTerminal_eq st hfinished e he
    have hclosing := closeItems_steps (hsame.inv h)
    have hfirst : Steps st [] st₀ := Steps.silent h hsame rfl
    rw [heq]
    exact hfirst.append (hclosing.append
      (Steps.silent hclosing.inv ⟨rfl, rfl, rfl, rfl⟩ (by simp [hlast, Part.act?])))

/-- Every event keeps the open items and the frames in step. -/
theorem renderEvent_steps {st : RenderState} (h : Inv st) (e : StreamEvent) :
    Steps st (renderEvent e st).2 (renderEvent e st).1 := by
  cases e with
  | start model usage =>
    have hsame : SameItems st { st with
        model := adoptModel st.model model, usage := st.usage.merge usage } := ⟨rfl, rfl, rfl, rfl⟩
    have hfirst : Steps st [] _ := Steps.silent h hsame rfl
    exact hfirst.append (ensureCreated_steps (hsame.inv h))
  | textDelta text => exact textDelta_steps h text
  | thinkingDelta text => exact thinkingDelta_steps h text
  | toolUseStart id name => exact renderToolStart_steps h id name
  | toolUseDelta id partialJson => exact renderToolDelta_steps h id partialJson
  | toolUseEnd id => exact renderToolEnd_steps h id
  | usageUpdate usage => exact Steps.silent h ⟨rfl, rfl, rfl, rfl⟩ rfl
  | stop reason usage => exact renderTerminal_steps h (.stop reason usage) rfl
  | error message => exact renderTerminal_steps h (.error message) rfl

theorem renderAll_steps {st : RenderState} (h : Inv st) (events : List StreamEvent) :
    Steps st (renderAll renderEvent events st).2 (renderAll renderEvent events st).1 := by
  induction events generalizing st with
  | nil => exact Steps.refl h
  | cons e rest ih =>
    have hfirst := renderEvent_steps h e
    rw [renderAll_cons]
    exact hfirst.append (ih hfirst.inv)

section Kept

variable (st : RenderState)

theorem plain_ensureCreated : ∀ p ∈ parts st.ensureCreated.2, p.plain := by
  unfold RenderState.ensureCreated
  split <;> simp [Part.plain]

theorem plain_closeReasoning : ∀ p ∈ parts st.closeReasoning.2, p.plain := by
  unfold RenderState.closeReasoning
  split <;> simp [Part.plain]

theorem plain_closeMessage : ∀ p ∈ parts st.closeMessage.2, p.plain := by
  unfold RenderState.closeMessage
  split <;> simp [Part.plain]

theorem plain_append {xs ys : List Frame} (hxs : ∀ p ∈ parts xs, p.plain)
    (hys : ∀ p ∈ parts ys, p.plain) : ∀ p ∈ parts (xs ++ ys), p.plain := by
  intro p hp
  rw [parts_append, List.mem_append] at hp
  rcases hp with hp | hp
  · exact hxs p hp
  · exact hys p hp

theorem plain_closeItems : ∀ p ∈ parts (closeItems st).2, p.plain :=
  plain_append (plain_append (plain_ensureCreated st) (plain_closeReasoning _))
    (plain_closeMessage _)

theorem openMessage_kept : (∀ p ∈ parts st.openMessage.2.1, p.plain) ∧
    st.openMessage.1.finished = st.finished ∧ st.openMessage.1.tools = st.tools := by
  unfold RenderState.openMessage
  split
  · simp
  · refine ⟨plain_append (plain_closeReasoning st) ?_, by simp, by simp⟩
    simp [Part.plain]

theorem openReasoning_kept : (∀ p ∈ parts st.openReasoning.2.1, p.plain) ∧
    st.openReasoning.1.finished = st.finished ∧ st.openReasoning.1.tools = st.tools := by
  unfold RenderState.openReasoning
  split
  · simp
  · refine ⟨plain_append (plain_closeMessage st) ?_, by simp, by simp⟩
    simp [Part.plain]

end Kept

/-- An event that does not end the response emits no terminal frame, and
neither does anything once it has ended. -/
theorem renderEvent_plain (st : RenderState) (e : StreamEvent)
    (h : isTerminal e = false ∨ st.finished = true) :
    (∀ p ∈ parts (renderEvent e st).2, p.plain) ∧
      (renderEvent e st).1.finished = st.finished := by
  cases e with
  | start model usage => exact ⟨plain_ensureCreated _, ensureCreated_finished _⟩
  | textDelta text =>
    obtain ⟨hplain, hfinished, -⟩ := openMessage_kept st.ensureCreated.1
    refine ⟨plain_append (plain_append (plain_ensureCreated st) hplain) ?_, ?_⟩
    · simp [Part.plain]
    · exact hfinished.trans (ensureCreated_finished st)
  | thinkingDelta text =>
    obtain ⟨hplain, hfinished, -⟩ := openReasoning_kept st.ensureCreated.1
    refine ⟨plain_append (plain_append (plain_ensureCreated st) hplain) ?_, ?_⟩
    · simp [Part.plain]
    · exact hfinished.trans (ensureCreated_finished st)
  | toolUseStart id name =>
    simp only [renderEvent, renderToolStart_eq]
    exact ⟨plain_append (plain_closeItems st) (by simp [Part.plain]), closeItems_finished st⟩
  | toolUseDelta id partialJson =>
    simp only [renderEvent, renderToolDelta]
    split <;> simp [Part.plain]
  | toolUseEnd id =>
    simp only [renderEvent, renderToolEnd]
    split <;> simp [Part.plain]
  | usageUpdate usage => exact ⟨by simp [renderEvent], rfl⟩
  | stop reason usage =>
    have hfinished : st.finished = true := by simpa [isTerminal] using h
    rw [renderTerminal_finished st hfinished _ rfl]
    simp
  | error message =>
    have hfinished : st.finished = true := by simpa [isTerminal] using h
    rw [renderTerminal_finished st hfinished _ rfl]
    simp

theorem renderAll_plain (events : List StreamEvent) (st : RenderState)
    (h : (∀ e ∈ events, isTerminal e = false) ∨ st.finished = true) :
    (∀ p ∈ parts (renderAll renderEvent events st).2, p.plain) ∧
      (renderAll renderEvent events st).1.finished = st.finished := by
  induction events generalizing st with
  | nil => simp
  | cons e rest ih =>
    obtain ⟨hplain, hfinished⟩ := renderEvent_plain st e (h.imp_left (fun h => h e (by simp)))
    have hrest : (∀ e ∈ rest, isTerminal e = false) ∨ (renderEvent e st).1.finished = true := by
      rw [hfinished]
      exact h.imp_left (fun h e' he' => h e' (by simp [he']))
    obtain ⟨hplain', hfinished'⟩ := ih _ hrest
    exact ⟨plain_append hplain hplain', hfinished'.trans hfinished⟩

theorem callIds_pushArgs (id partialJson : String) (tools : List ToolCall) :
    (pushArgs id partialJson tools).map ToolCall.callId = tools.map ToolCall.callId := by
  induction tools with
  | nil => rfl
  | cons call rest ih =>
    unfold pushArgs
    split
    · rfl
    · simpa using ih

/-- The calls the renderer holds open are those the events left open. -/
theorem renderEvent_callIds (st : RenderState) (e : StreamEvent) (he : isTerminal e = false) :
    (renderEvent e st).1.tools.map ToolCall.callId =
      callsStep (st.tools.map ToolCall.callId) e := by
  cases e with
  | start model usage => simp [renderEvent, callsStep]
  | textDelta text => simp [renderEvent, callsStep, openMessage_kept]
  | thinkingDelta text => simp [renderEvent, callsStep, openReasoning_kept]
  | toolUseStart id name => simp [renderEvent, renderToolStart_eq, callsStep]
  | toolUseDelta id partialJson =>
    simp only [renderEvent, renderToolDelta, callsStep]
    split
    · rfl
    · exact callIds_pushArgs id partialJson st.tools
  | toolUseEnd id =>
    simp only [renderEvent, renderToolEnd, callsStep, ← map_eraseP_key]
    split
    · rename_i hnone
      rw [List.eraseP_of_forall_not]
      simpa using hnone
    · rfl
  | usageUpdate usage => rfl
  | stop reason usage => simp [isTerminal] at he
  | error message => simp [isTerminal] at he

theorem renderAll_callIds (events : List StreamEvent) (h : ∀ e ∈ events, isTerminal e = false)
    (st : RenderState) :
    (renderAll renderEvent events st).1.tools.map ToolCall.callId =
      events.foldl callsStep (st.tools.map ToolCall.callId) := by
  induction events generalizing st with
  | nil => rfl
  | cons e rest ih =>
    have hrest : ∀ e' ∈ rest, isTerminal e' = false := fun e' he' => h e' (by simp [he'])
    rw [renderAll_cons, List.foldl_cons, ← renderEvent_callIds st e (h e (by simp))]
    exact ih hrest (renderEvent e st).1

/-- A response that has ended with no call open. -/
structure Ended (st : RenderState) : Prop where
  finished : st.finished = true
  created : st.created = true
  tools : st.tools = []

theorem ensureCreated_of_created {st : RenderState} (h : st.created = true) :
    st.ensureCreated = (st, []) := by
  simp [RenderState.ensureCreated, h]

/-- After such an end only content makes a frame. -/
theorem renderEvent_quiet {st : RenderState} (h : Ended st) (e : StreamEvent)
    (he : addsContent e = false) : (renderEvent e st).2 = [] ∧ Ended (renderEvent e st).1 := by
  cases e with
  | start model usage =>
    have hcreated : ({ st with
        model := adoptModel st.model model
        usage := st.usage.merge usage } : RenderState).created = true := h.created
    simp only [renderEvent, ensureCreated_of_created hcreated]
    exact ⟨trivial, h.finished, h.created, h.tools⟩
  | toolUseDelta id partialJson => simpa [renderEvent, renderToolDelta, h.tools] using h
  | toolUseEnd id => simpa [renderEvent, renderToolEnd, h.tools] using h
  | usageUpdate usage => exact ⟨rfl, h.finished, h.created, h.tools⟩
  | stop reason usage =>
    rw [renderTerminal_finished st h.finished _ rfl]
    exact ⟨rfl, h⟩
  | error message =>
    rw [renderTerminal_finished st h.finished _ rfl]
    exact ⟨rfl, h⟩
  | _ => simp [addsContent] at he

/-- Content always makes one. -/
theorem renderEvent_loud (st : RenderState) (e : StreamEvent) (he : addsContent e = true) :
    (renderEvent e st).2 ≠ [] := by
  cases e with
  | textDelta text => simp [renderEvent]
  | thinkingDelta text => simp [renderEvent]
  | toolUseStart id name => simp [renderEvent, renderToolStart_eq]
  | _ => simp [addsContent] at he

theorem renderAll_quiet_iff {st : RenderState} (h : Ended st) (events : List StreamEvent) :
    (renderAll renderEvent events st).2 = [] ↔ ∀ e ∈ events, addsContent e = false := by
  induction events generalizing st with
  | nil => simp
  | cons e rest ih =>
    cases he : addsContent e with
    | true =>
      have hloud := renderEvent_loud st e he
      simp [hloud, he]
    | false =>
      obtain ⟨hnil, hended⟩ := renderEvent_quiet h e he
      simp [hnil, he, ih hended]

section Runs

variable (requestId model : String)

def rendered (events : List StreamEvent) : List Part :=
  parts (renderAll renderEvent events (RenderState.new requestId model)).2

theorem inv_new : Inv (RenderState.new requestId model) where
  one := Or.inl rfl
  nodup := List.nodup_nil
  lt := by simp [openItems, callItems, RenderState.new]

/-- A stream around its terminal frame. -/
theorem completed_iff {before after : List Part} (hbefore : ∀ p ∈ before, p.plain)
    (hafter : ∀ p ∈ after, p.plain) (hwf : WellFormed (acts (before ++ .terminal :: after))) :
    Completed (before ++ .terminal :: after) ↔ AllClosed (acts before) ∧ after = [] := by
  have hnot : ∀ ps : List Part, (∀ p ∈ ps, p.plain) → .terminal ∉ ps ∧ .malformed ∉ ps := by
    intro ps hps
    refine ⟨fun hmem => ?_, fun hmem => ?_⟩
    · exact absurd (hps _ hmem) (by simp [Part.plain])
    · exact absurd (hps _ hmem) (by simp [Part.plain])
  constructor
  · intro h
    obtain ⟨body, heq, -, hclosed⟩ := h.ending
    rcases List.eq_nil_or_concat' after with rfl | ⟨init, last, rfl⟩
    · obtain ⟨rfl, -⟩ := List.append_inj' heq rfl
      exact ⟨hclosed, rfl⟩
    · rw [← List.cons_append, ← List.append_assoc] at heq
      obtain ⟨-, hlast⟩ := List.append_inj' heq rfl
      have hterminal : last = .terminal := by simpa using hlast
      exact absurd (hterminal ▸ hafter last (by simp)) (by simp [Part.plain])
  · rintro ⟨hclosed, rfl⟩
    refine ⟨?_, hwf, before, rfl, (hnot before hbefore).1, hclosed⟩
    simpa using (hnot before hbefore).2

/-- The items open after a run that ended are its open calls. -/
theorem openItems_closeItems (st : RenderState) : openItems (closeItems st).1 = callItems st.tools := by
  simp [openItems]

theorem completed_split_iff (pre : List StreamEvent) (e : StreamEvent) (post : List StreamEvent)
    (hpre : ∀ e ∈ pre, isTerminal e = false) (he : isTerminal e = true) :
    Completed (rendered requestId model (pre ++ e :: post)) ↔
      pre.foldl callsStep [] = [] ∧ ∀ e ∈ post, addsContent e = false := by
  obtain ⟨hplain, hfinished⟩ :=
    renderAll_plain pre (RenderState.new requestId model) (Or.inl hpre)
  have hsteps := renderAll_steps (inv_new requestId model) pre
  have hcalls := renderAll_callIds pre hpre (RenderState.new requestId model)
  have hall := renderAll_steps (inv_new requestId model) (pre ++ e :: post)
  rw [renderAll_append, renderAll_cons] at hall
  unfold rendered
  rw [renderAll_append, renderAll_cons]
  generalize renderAll renderEvent pre (RenderState.new requestId model) = out at *
  obtain ⟨st₀, last, hsame, hended, htools, hlast, heq⟩ := renderTerminal_eq out.1 hfinished e he
  rw [heq] at hall ⊢
  have hafter := (renderAll_plain post (closeItems st₀).1
    (Or.inr ((closeItems_finished st₀).trans hended))).1
  have hbefore := plain_append hplain (plain_closeItems st₀)
  have hshape : parts (out.2 ++ ((closeItems st₀).2 ++ [last] ++
      (renderAll renderEvent post (closeItems st₀).1).2)) =
      parts (out.2 ++ (closeItems st₀).2) ++ .terminal ::
        parts (renderAll renderEvent post (closeItems st₀).1).2 := by
    simp [hlast]
  have hwf := wellFormed_of_run hall.run_eq
  have hfirst : Steps out.1 [] st₀ := Steps.silent hsteps.inv hsame rfl
  have hclosing : Steps out.1 (closeItems st₀).2 (closeItems st₀).1 :=
    hfirst.append (closeItems_steps hfirst.inv)
  have hrun : run Live.empty (acts (parts (out.2 ++ (closeItems st₀).2))) =
      some (liveItems (closeItems st₀).1) := (hsteps.append hclosing).run_eq
  have hopen : (liveItems (closeItems st₀).1).items = [] ↔ pre.foldl callsStep [] = [] := by
    have hids : out.1.tools.map ToolCall.callId = pre.foldl callsStep [] := hcalls
    rw [← hids, liveItems, openItems_closeItems, htools]
    simp [callItems]
  simp only at hwf ⊢
  rw [hshape] at hwf ⊢
  rw [completed_iff hbefore hafter hwf, allClosed_iff_of_run hrun, hopen]
  apply and_congr_right
  intro hnone
  have hids : out.1.tools.map ToolCall.callId = [] := hcalls.trans hnone
  have hquiet : Ended (closeItems st₀).1 := by
    refine ⟨(closeItems_finished st₀).trans hended, closeItems_created st₀, ?_⟩
    rw [closeItems_tools, htools]
    simpa using hids
  rw [← renderAll_quiet_iff hquiet post]
  simp [parts]

end Runs

/-- A sequence that ends in a stop or an error, cut at the first of them. -/
theorem EndsResponse.split {events : List StreamEvent} (h : EndsResponse events) :
    ∃ pre e post, events = pre ++ e :: post ∧ (∀ e ∈ pre, isTerminal e = false) ∧
      isTerminal e = true ∧ events.takeWhile (fun e => !isTerminal e) = pre ∧
      (events.dropWhile (fun e => !isTerminal e)).tail = post := by
  cases hfind : events.find? isTerminal with
  | none =>
    cases hlast : events.getLast? with
    | none => simp [EndsResponse, hlast] at h
    | some last =>
      have hnot := List.find?_eq_none.mp hfind last (List.mem_of_getLast? hlast)
      simp [EndsResponse, hlast, hnot] at h
  | some e =>
    obtain ⟨he, pre, post, rfl, hpre⟩ := List.find?_eq_some_iff_append.mp hfind
    have hpre' : ∀ e ∈ pre, (!isTerminal e) = true := by simpa using hpre
    refine ⟨pre, e, post, rfl, by simpa using hpre, he, ?_, ?_⟩
    · rw [List.takeWhile_append_of_pos hpre', List.takeWhile_cons_of_neg (by simp [he]),
        List.append_nil]
    · rw [List.dropWhile_append_of_pos hpre', List.dropWhile_cons_of_neg (by simp [he])]
      rfl

/-- The stream is completed exactly when every call started before the first
stop or error was ended before it and no content follows it. -/
theorem renderAll_completed_iff (requestId model : String) (events : List StreamEvent)
    (h : EndsResponse events) :
    Completed (parts (renderAll renderEvent events (RenderState.new requestId model)).2) ↔
      CallsEnded events ∧ NoContentAfterEnd events := by
  obtain ⟨pre, e, post, heq, hpre, he, htake, hdrop⟩ := h.split
  unfold CallsEnded NoContentAfterEnd
  rw [htake, hdrop, heq]
  exact completed_split_iff requestId model pre e post hpre he

/-- Reasoning, text and a finished call, cut off by an upstream error. -/
theorem renderAll_completed_of_failure :
    EndsResponse [.thinkingDelta "a", .textDelta "b", .toolUseStart "c1" "f",
        .toolUseDelta "c1" "1", .toolUseEnd "c1", .textDelta "d", .error "upstream closed"] ∧
      Completed (parts (renderAll renderEvent [.thinkingDelta "a", .textDelta "b",
        .toolUseStart "c1" "f", .toolUseDelta "c1" "1", .toolUseEnd "c1", .textDelta "d",
        .error "upstream closed"] (RenderState.new "1" "m")).2) :=
  ⟨by decide, (renderAll_completed_iff "1" "m" _ (by decide)).mpr ⟨by decide, by decide⟩⟩

/-- A stop with a call still open completes the response without closing it. -/
theorem stop_leaves_call_open :
    EndsResponse [.toolUseStart "c1" "f", .stop .toolUse {}] ∧
      ¬ Completed (parts (renderAll renderEvent [.toolUseStart "c1" "f", .stop .toolUse {}]
        (RenderState.new "1" "m")).2) := by
  refine ⟨rfl, fun h => ?_⟩
  obtain ⟨body, heq, -, hclosed⟩ := h.ending
  have hbody : body = [.other, .item (.opened 0 ⟨.functionCall, "fc_1_0"⟩)] :=
    (List.append_inj' (heq.symm.trans
      (show _ = [Part.other, .item (.opened 0 ⟨.functionCall, "fc_1_0"⟩)] ++ [.terminal] by decide))
      rfl).1
  rw [hbody] at hclosed
  obtain ⟨said, hmem⟩ := hclosed 0 ⟨.functionCall, "fc_1_0"⟩ (by decide)
  simp [acts, Part.act?] at hmem

end OpenAIGateway.Responses
