import OpenAIGateway.Lifecycle
import OpenAIGateway.ResponsesRender

/-!
The output-item lifecycle of a Responses stream, read off the frames a client
receives. An item is identified by its output index, and carries its type and
id; a delta or a done frame must say the ones the item was added with. The
items a render state holds open are exactly those its frames leave open, and
every event keeps that.
-/

set_option linter.all false

namespace OpenAIGateway.Responses

open Lifecycle

inductive ItemKind
  | reasoning
  | message
  | functionCall
  deriving DecidableEq, Repr

structure Item where
  kind : ItemKind
  id : String
  deriving DecidableEq, Repr

def ItemKind.ofType : String → Option ItemKind
  | "reasoning" => some .reasoning
  | "message" => some .message
  | "function_call" => some .functionCall
  | _ => none

/-- What one frame says about the output items and the response. -/
inductive Part
  | item (act : Lifecycle.Act Item)
  | terminal
  | malformed
  | other
  deriving DecidableEq

def indexOf (body : Json) : Option ℕ :=
  match body["output_index"] with
  | .num (.posInt n) => some n
  | _ => none

/-- The item an added or done frame carries. -/
def itemOf (body : Json) : Option Item :=
  match (body["item"]["type"].asStr).bind ItemKind.ofType, body["item"]["id"].asStr with
  | some kind, some id => some ⟨kind, id⟩
  | _, _ => none

/-- A delta frame addresses an item of the type its name is for. -/
def readDelta (kind : ItemKind) (body : Json) : Part :=
  match indexOf body, body["item_id"].asStr with
  | some index, some id => .item (.used index ⟨kind, id⟩)
  | _, _ => .malformed

def readFrame (f : Frame) : Part :=
  match f.event with
  | some "response.output_item.added" =>
      match indexOf f.data, itemOf f.data with
      | some index, some item => .item (.opened index item)
      | _, _ => .malformed
  | some "response.output_item.done" =>
      match indexOf f.data, itemOf f.data with
      | some index, some item => .item (.closed index (some item))
      | _, _ => .malformed
  | some "response.output_text.delta" => readDelta .message f.data
  | some "response.reasoning_summary_text.delta" => readDelta .reasoning f.data
  | some "response.function_call_arguments.delta" => readDelta .functionCall f.data
  | some "response.completed" | some "response.incomplete" | some "response.failed" => .terminal
  | _ => .other

def parts (frames : List Frame) : List Part := frames.map readFrame

def Part.act? : Part → Option (Lifecycle.Act Item)
  | .item act => some act
  | _ => none

def acts (ps : List Part) : List (Lifecycle.Act Item) := ps.filterMap Part.act?

/-- A finished response: items numbered from zero, addressed while they are
open, each done before the one terminal frame, which is last. -/
structure Completed (ps : List Part) : Prop where
  known : .malformed ∉ ps
  items : WellFormed (acts ps)
  ending : ∃ body, ps = body ++ [.terminal] ∧ .terminal ∉ body ∧ AllClosed (acts body)

section Reading

variable (index : ℕ) (itemId text : String)

@[simp] theorem parts_nil : parts [] = [] := rfl

@[simp] theorem parts_cons (f : Frame) (fs : List Frame) :
    parts (f :: fs) = readFrame f :: parts fs := rfl

@[simp] theorem parts_append (xs ys : List Frame) : parts (xs ++ ys) = parts xs ++ parts ys :=
  List.map_append ..

@[simp] theorem acts_nil : acts [] = [] := rfl

@[simp] theorem acts_cons (p : Part) (ps : List Part) :
    acts (p :: ps) = p.act?.toList ++ acts ps := by
  cases h : p.act? <;> simp [acts, h]

@[simp] theorem acts_append (xs ys : List Part) : acts (xs ++ ys) = acts xs ++ acts ys :=
  List.filterMap_append ..

@[simp] theorem readFrame_createdFrame (st : RenderState) :
    readFrame st.createdFrame = .other := rfl

@[simp] theorem readFrame_reasoningAdded (summary : List Json) :
    readFrame (itemAdded index (reasoningItem itemId summary)) =
      .item (.opened index ⟨.reasoning, itemId⟩) := rfl

@[simp] theorem readFrame_reasoningDone (summary : List Json) :
    readFrame (itemDone index (reasoningItem itemId summary)) =
      .item (.closed index (some ⟨.reasoning, itemId⟩)) := rfl

@[simp] theorem readFrame_messageAdded (status : String) (content : List Json) :
    readFrame (itemAdded index (messageItem itemId status content)) =
      .item (.opened index ⟨.message, itemId⟩) := rfl

@[simp] theorem readFrame_messageDone (status : String) (content : List Json) :
    readFrame (itemDone index (messageItem itemId status content)) =
      .item (.closed index (some ⟨.message, itemId⟩)) := rfl

@[simp] theorem readFrame_callAdded (status callId name args : String) :
    readFrame (itemAdded index (callItem itemId status callId name args)) =
      .item (.opened index ⟨.functionCall, itemId⟩) := rfl

@[simp] theorem readFrame_callDone (status callId name args : String) :
    readFrame (itemDone index (callItem itemId status callId name args)) =
      .item (.closed index (some ⟨.functionCall, itemId⟩)) := rfl

@[simp] theorem readFrame_textDelta (field : String × Json) :
    readFrame (contentFrame index itemId "response.output_text.delta" field) =
      .item (.used index ⟨.message, itemId⟩) := rfl

@[simp] theorem readFrame_textDone (field : String × Json) :
    readFrame (contentFrame index itemId "response.output_text.done" field) = .other := rfl

@[simp] theorem readFrame_partAdded (field : String × Json) :
    readFrame (contentFrame index itemId "response.content_part.added" field) = .other := rfl

@[simp] theorem readFrame_partDone (field : String × Json) :
    readFrame (contentFrame index itemId "response.content_part.done" field) = .other := rfl

@[simp] theorem readFrame_summaryDelta (field : String × Json) :
    readFrame (summaryFrame index itemId "response.reasoning_summary_text.delta" field) =
      .item (.used index ⟨.reasoning, itemId⟩) := rfl

@[simp] theorem readFrame_summaryDone (field : String × Json) :
    readFrame (summaryFrame index itemId "response.reasoning_summary_text.done" field) =
      .other := rfl

@[simp] theorem readFrame_summaryPartAdded (field : String × Json) :
    readFrame (summaryFrame index itemId "response.reasoning_summary_part.added" field) =
      .other := rfl

@[simp] theorem readFrame_summaryPartDone (field : String × Json) :
    readFrame (summaryFrame index itemId "response.reasoning_summary_part.done" field) =
      .other := rfl

@[simp] theorem readFrame_argumentsDelta (field : String × Json) :
    readFrame (argumentsFrame index itemId "response.function_call_arguments.delta" field) =
      .item (.used index ⟨.functionCall, itemId⟩) := rfl

@[simp] theorem readFrame_argumentsDone (field : String × Json) :
    readFrame (argumentsFrame index itemId "response.function_call_arguments.done" field) =
      .other := rfl

@[simp] theorem readFrame_stopFrame (st : RenderState) (reason : StopReason) :
    readFrame (stopFrame st reason) = .terminal := by
  cases reason <;> rfl

@[simp] theorem readFrame_failedFrame (st : RenderState) (message : String) :
    readFrame (failedFrame st message) = .terminal := rfl

end Reading

def callItems (tools : List ToolCall) : List (ℕ × Item) :=
  tools.map (fun call => (call.index, ⟨.functionCall, call.itemId⟩))

def slotItems (kind : ItemKind) (slot : Option (ℕ × String)) : List (ℕ × Item) :=
  slot.toList.map (fun item => (item.1, ⟨kind, item.2⟩))

@[simp] theorem slotItems_none (kind : ItemKind) : slotItems kind none = [] := rfl

@[simp] theorem slotItems_some (kind : ItemKind) (item : ℕ × String) :
    slotItems kind (some item) = [(item.1, ⟨kind, item.2⟩)] := rfl

/-- The items a render state holds open, in the order they were added. -/
def openItems (st : RenderState) : List (ℕ × Item) :=
  callItems st.tools ++ slotItems .reasoning st.reasoning ++ slotItems .message st.message

def liveItems (st : RenderState) : Live Item := ⟨st.nextIndex, openItems st⟩

/-- At most one of the message and the reasoning item is open, and open items
have distinct indices already given out. -/
structure Inv (st : RenderState) : Prop where
  one : st.reasoning = none ∨ st.message = none
  nodup : ((openItems st).map Prod.fst).Nodup
  lt : ∀ item ∈ openItems st, item.1 < st.nextIndex

/-- What a rendering step keeps: its frames take the open items of the state
before to those of the state after. -/
structure Steps (st : RenderState) (frames : List Frame) (st' : RenderState) : Prop where
  run_eq : run (liveItems st) (acts (parts frames)) = some (liveItems st')
  inv : Inv st'

section Steps

variable {st st' st'' : RenderState} {frames frames' : List Frame}

theorem Steps.append (h : Steps st frames st') (h' : Steps st' frames' st'') :
    Steps st (frames ++ frames') st'' := by
  refine ⟨?_, h'.inv⟩
  rw [parts_append, acts_append, run_append, h.run_eq]
  exact h'.run_eq

/-- The four fields the open items are read from. -/
structure SameItems (st st' : RenderState) : Prop where
  items : openItems st' = openItems st
  next : st'.nextIndex = st.nextIndex
  reasoning : st'.reasoning = st.reasoning
  message : st'.message = st.message

theorem SameItems.inv (hsame : SameItems st st') (h : Inv st) : Inv st' := by
  refine ⟨?_, ?_, ?_⟩
  · rw [hsame.reasoning, hsame.message]
    exact h.one
  · rw [hsame.items]
    exact h.nodup
  · rw [hsame.items, hsame.next]
    exact h.lt

/-- A step that moves no item and emits no item frame. -/
theorem Steps.silent (h : Inv st) (hsame : SameItems st st')
    (hframes : acts (parts frames) = []) : Steps st frames st' := by
  refine ⟨?_, hsame.inv h⟩
  simp only [hframes, run_nil, liveItems, hsame.items, hsame.next]

theorem Steps.refl (h : Inv st) : Steps st [] st :=
  Steps.silent h ⟨rfl, rfl, rfl, rfl⟩ rfl

/-- A delta to an open item. -/
theorem Steps.used (h : Inv st) (hsame : SameItems st st') (index : ℕ) (item : Item)
    (hmem : (index, item) ∈ openItems st)
    (hframes : acts (parts frames) = [.used index item]) : Steps st frames st' := by
  refine ⟨?_, hsame.inv h⟩
  have hstep := step_used (s := liveItems st) hmem
  simp only [hframes, run_cons, hstep, Option.bind_some, run_nil]
  simp only [liveItems, hsame.items, hsame.next]

/-- Adding an item under the next index. -/
theorem Steps.added (h : Inv st) (item : Item)
    (hframes : acts (parts frames) = [.opened st.nextIndex item])
    (hitems : openItems st' = openItems st ++ [(st.nextIndex, item)])
    (hnext : st'.nextIndex = st.nextIndex + 1)
    (hone : st'.reasoning = none ∨ st'.message = none) : Steps st frames st' := by
  refine ⟨?_, hone, ?_, ?_⟩
  · have hstep := step_opened (liveItems st) item
    simp only [liveItems] at hstep ⊢
    simp only [hframes, run_cons, hstep, Option.bind_some, run_nil, hitems, hnext]
  · have hfresh : st.nextIndex ∉ (openItems st).map Prod.fst := by
      intro hmem
      obtain ⟨other, hother, heq⟩ := List.mem_map.mp hmem
      have := h.lt other hother
      omega
    rw [hitems, List.map_append]
    exact h.nodup.append (List.nodup_singleton _) (by simpa using hfresh)
  · intro other hother
    rw [hitems, List.mem_append, List.mem_singleton] at hother
    rw [hnext]
    rcases hother with hold | rfl
    · exact Nat.lt_succ_of_lt (h.lt other hold)
    · exact Nat.lt_succ_self _

/-- Taking one open item out, with the done frame that names it. -/
theorem Steps.done (h : Inv st) (pre post : List (ℕ × Item)) (index : ℕ) (item : Item)
    (hopen : openItems st = pre ++ (index, item) :: post)
    (hframes : acts (parts frames) = [.closed index (some item)])
    (hitems : openItems st' = pre ++ post) (hnext : st'.nextIndex = st.nextIndex)
    (hone : st'.reasoning = none ∨ st'.message = none) : Steps st frames st' := by
  have hsub : (pre ++ post).Sublist (openItems st) := by
    rw [hopen]
    exact List.Sublist.append_left (List.sublist_cons_self _ post) pre
  refine ⟨?_, hone, ?_, ?_⟩
  · have hstep := step_closed_of_nodup st.nextIndex pre post index item (hopen ▸ h.nodup)
      (Or.inr rfl)
    simp only [liveItems, hframes, run_cons, run_nil, hopen, hstep, Option.bind_some, hitems, hnext]
  · rw [hitems]
    exact h.nodup.sublist (hsub.map Prod.fst)
  · intro other hother
    rw [hitems] at hother
    rw [hnext]
    exact h.lt other (hsub.subset hother)

end Steps

end OpenAIGateway.Responses
