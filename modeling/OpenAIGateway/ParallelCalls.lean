import OpenAIGateway.CallEvents
import OpenAIGateway.Collected

/-!
The calls of a collected answer. The hub has one block open at a time and goes on
from it alone, so a fragment of any other call opens a block of its own, under the
call's id for a name, and that block stays.
-/

set_option linter.all false

namespace OpenAIGateway

open Transition

section Collecting

def ToldCall.block (fromStr : String → Option Json) (call : ToldCall) : Json :=
  OpenBlock.intoJson fromStr (.tool call.id call.name call.arguments)

def OpenBlock.call : OpenBlock → Option ToldCall
  | .tool id name input => some ⟨id, name, input⟩
  | _ => none

/-- The calls the hub has closed, and the one its open block is. -/
structure Collecting where
  closed : List ToldCall := []
  current : Option ToldCall := none

namespace Collecting

def calls (s : Collecting) : List ToldCall := s.closed ++ s.current.toList

def close (s : Collecting) : Collecting := { closed := s.calls }

def begin (s : Collecting) (call : ToldCall) : Collecting :=
  { closed := s.calls, current := some call }

def event (s : Collecting) : StreamEvent → Collecting
  | .textDelta _ | .thinkingDelta _ | .toolUseEnd _ => s.close
  | .toolUseStart id name => s.begin ⟨id, name, ""⟩
  | .toolUseDelta id partialJson =>
    match s.current with
    | some call =>
      if call.id = id then
        { s with current := some { call with arguments := call.arguments ++ partialJson } }
      else s.begin ⟨id, id, partialJson⟩
    | none => s.begin ⟨id, id, partialJson⟩
  | .start _ _ | .usageUpdate _ | .stop _ _ | .error _ => s

end Collecting

/-- The hub's blocks hold these calls, in this order. -/
structure Hub.Holds (fromStr : String → Option Json) (hub : Hub) (s : Collecting) : Prop where
  content : ∃ blocks : List OpenBlock, hub.content = blocks.map (OpenBlock.intoJson fromStr) ∧
    blocks.filterMap OpenBlock.call = s.closed
  current : hub.block.bind OpenBlock.call = s.current

variable {fromStr : String → Option Json} {hub : Hub} {s : Collecting}

theorem Hub.Holds.closed (h : Hub.Holds fromStr hub s) :
    ∃ blocks : List OpenBlock,
      (hub.closeBlock fromStr).content = blocks.map (OpenBlock.intoJson fromStr) ∧
        blocks.filterMap OpenBlock.call = s.calls := by
  obtain ⟨blocks, hcontent, hcalls⟩ := h.content
  refine ⟨blocks ++ hub.block.toList, ?_, ?_⟩
  · simp only [Hub.closeBlock, hcontent, List.map_append]
  · rw [List.filterMap_append, hcalls, Collecting.calls, ← h.current]
    cases hub.block with
    | none => rfl
    | some b => cases b <;> rfl

theorem Hub.Holds.close (h : Hub.Holds fromStr hub s) :
    Hub.Holds fromStr (hub.closeBlock fromStr) s.close where
  content := h.closed
  current := rfl

/-- A block opened over whatever was open. -/
theorem Hub.Holds.begin (h : Hub.Holds fromStr hub s) (b : OpenBlock) :
    Hub.Holds fromStr { hub.closeBlock fromStr with block := some b }
      { closed := s.calls, current := b.call } where
  content := h.closed
  current := rfl

theorem Collecting.close_of_none (h : s.current = none) : s.close = s := by
  obtain ⟨closed, current⟩ := s
  obtain rfl : current = none := h
  simp [Collecting.close, Collecting.calls]

/-- Text goes on in a block that is no call, or opens one. -/
theorem Hub.Holds.spoken (h : Hub.Holds fromStr hub s) {b : OpenBlock} (hcall : b.call = none)
    {hub' : Hub}
    (hhub : hub' = { hub.closeBlock fromStr with block := some b } ∨
      hub.block.bind OpenBlock.call = none ∧ hub' = { hub with block := some b }) :
    Hub.Holds fromStr hub' s.close := by
  rcases hhub with rfl | ⟨hnone, rfl⟩
  · have hbegun := h.begin b
    rwa [hcall] at hbegun
  · have hcurrent : s.current = none := h.current.symm.trans hnone
    rw [Collecting.close_of_none hcurrent]
    exact ⟨h.content, hcall.trans hcurrent.symm⟩

theorem Hub.Holds.textDelta (h : Hub.Holds fromStr hub s) (text : String) :
    Hub.Holds fromStr (hub.event fromStr (.textDelta text)) s.close := by
  cases hopen : hub.block with
  | none => exact h.spoken (b := .text text) rfl (Or.inl (by simp only [Hub.event, hopen]))
  | some b =>
    cases b with
    | text buf =>
      refine h.spoken (b := .text (buf ++ text)) rfl (Or.inr ⟨?_, by simp only [Hub.event, hopen]⟩)
      rw [hopen]
      rfl
    | thinking buf | tool id name input =>
      exact h.spoken (b := .text text) rfl (Or.inl (by simp only [Hub.event, hopen]))

theorem Hub.Holds.thinkingDelta (h : Hub.Holds fromStr hub s) (text : String) :
    Hub.Holds fromStr (hub.event fromStr (.thinkingDelta text)) s.close := by
  cases hopen : hub.block with
  | none => exact h.spoken (b := .thinking text) rfl (Or.inl (by simp only [Hub.event, hopen]))
  | some b =>
    cases b with
    | thinking buf =>
      refine h.spoken (b := .thinking (buf ++ text)) rfl
        (Or.inr ⟨?_, by simp only [Hub.event, hopen]⟩)
      rw [hopen]
      rfl
    | text buf | tool id name input =>
      exact h.spoken (b := .thinking text) rfl (Or.inl (by simp only [Hub.event, hopen]))

theorem Hub.Holds.toolUseDelta (h : Hub.Holds fromStr hub s) (id partialJson : String) :
    Hub.Holds fromStr (hub.event fromStr (.toolUseDelta id partialJson))
      (s.event (.toolUseDelta id partialJson)) := by
  have hcurrent := h.current
  have hstray : hub.event fromStr (.toolUseDelta id partialJson) =
        { hub.closeBlock fromStr with block := some (.tool id id partialJson) } →
      s.event (.toolUseDelta id partialJson) = s.begin ⟨id, id, partialJson⟩ →
      Hub.Holds fromStr (hub.event fromStr (.toolUseDelta id partialJson))
        (s.event (.toolUseDelta id partialJson)) := by
    intro hhub hs
    rw [hhub, hs]
    exact h.begin (.tool id id partialJson)
  cases hopen : hub.block with
  | none =>
    rw [hopen] at hcurrent
    apply hstray
    · simp only [Hub.event, hopen]
    · simp only [Collecting.event, ← hcurrent, Option.bind_none]
  | some b =>
    rw [hopen] at hcurrent
    cases b with
    | text buf | thinking buf =>
      apply hstray
      · simp only [Hub.event, hopen]
      · simp only [Collecting.event, ← hcurrent, Option.bind_some, OpenBlock.call]
    | tool openId name input =>
      have hcurrent' : s.current = some ⟨openId, name, input⟩ := hcurrent.symm
      by_cases hid : openId = id
      · have hhub : hub.event fromStr (.toolUseDelta id partialJson) =
            { hub with block := some (.tool openId name (input ++ partialJson)) } := by
          simp only [Hub.event, hopen, if_pos hid]
        have hs : s.event (.toolUseDelta id partialJson) =
            { s with current := some ⟨openId, name, input ++ partialJson⟩ } := by
          simp only [Collecting.event, hcurrent', if_pos hid]
        rw [hhub, hs]
        exact ⟨h.content, rfl⟩
      · apply hstray
        · simp only [Hub.event, hopen, if_neg hid]
        · simp only [Collecting.event, hcurrent', if_neg hid]

theorem Hub.Holds.event (h : Hub.Holds fromStr hub s) (e : StreamEvent) :
    Hub.Holds fromStr (hub.event fromStr e) (s.event e) := by
  cases e with
  | start model usage | usageUpdate usage | stop reason usage => exact ⟨h.content, h.current⟩
  | error message => exact h
  | toolUseStart id name => exact h.begin (.tool id name "")
  | toolUseDelta id partialJson => exact h.toolUseDelta id partialJson
  | toolUseEnd id => exact h.close
  | textDelta text => exact h.textDelta text
  | thinkingDelta text => exact h.thinkingDelta text

theorem Hub.Holds.foldl (h : Hub.Holds fromStr hub s) (events : List StreamEvent) :
    Hub.Holds fromStr (events.foldl (Hub.event fromStr) hub) (events.foldl Collecting.event s) := by
  induction events generalizing hub s with
  | nil => exact h
  | cons e events ih => exact ih (h.event e)

def isToolUse (block : Json) : Bool := block["type"].asStr = some "tool_use"

theorem filter_isToolUse (blocks : List OpenBlock) :
    (blocks.map (OpenBlock.intoJson fromStr)).filter isToolUse =
      (blocks.filterMap OpenBlock.call).map (ToldCall.block fromStr) := by
  induction blocks with
  | nil => rfl
  | cons b blocks ih =>
    cases b with
    | text words | thinking words => exact ih
    | tool id name input => exact congrArg (List.cons _) ih

/-- The tool_use blocks of a collected answer are the calls the hub collected. -/
theorem toolUse_blocks (events : List StreamEvent) (requestId model : String) :
    (blocksOf (Anthropic.renderFromEvents fromStr events requestId model)).filter isToolUse =
      (events.foldl Collecting.event {}).calls.map (ToldCall.block fromStr) := by
  have hstart : Hub.Holds fromStr { model := model } {} := ⟨⟨[], rfl, rfl⟩, rfl⟩
  obtain ⟨blocks, hcontent, hcalls⟩ := (hstart.foldl events).closed
  rw [← hcalls, ← filter_isToolUse, ← hcontent]
  rfl

end Collecting

section Fragments

/-- The call whose block is open after an event. -/
def nextOpen (opened : Option String) : StreamEvent → Option String
  | .toolUseStart id _ | .toolUseDelta id _ => some id
  | .textDelta _ | .thinkingDelta _ | .toolUseEnd _ => none
  | .start _ _ | .usageUpdate _ | .stop _ _ | .error _ => opened

/-- A fragment comes while its own call's block is open. -/
def InItsBlock (opened : Option String) : StreamEvent → Prop
  | .toolUseDelta id _ => opened = some id
  | _ => True

instance (opened : Option String) : DecidablePred (InItsBlock opened) := fun e =>
  match e with
  | .toolUseDelta id _ => inferInstanceAs (Decidable (opened = some id))
  | .toolUseStart _ _ | .toolUseEnd _ | .textDelta _ | .thinkingDelta _ | .start _ _
  | .usageUpdate _ | .stop _ _ | .error _ => isTrue trivial

/-- Every fragment comes while its own call's block is open. -/
def Unbroken (opened : Option String) : List StreamEvent → Prop
  | [] => True
  | e :: events => InItsBlock opened e ∧ Unbroken (nextOpen opened e) events

/-- The fragments that come while their call's block is not open. -/
def strays (opened : Option String) : List StreamEvent → ℕ
  | [] => 0
  | e :: events => (if InItsBlock opened e then 0 else 1) + strays (nextOpen opened e) events

theorem strays_eq_zero_iff (opened : Option String) (events : List StreamEvent) :
    strays opened events = 0 ↔ Unbroken opened events := by
  induction events generalizing opened with
  | nil => exact iff_of_true rfl trivial
  | cons e events ih =>
    unfold strays Unbroken
    rw [Nat.add_eq_zero_iff, ih]
    by_cases hblock : InItsBlock opened e
    · simp [hblock]
    · simp [hblock]

variable (s : Collecting)

theorem Collecting.current_event (e : StreamEvent) :
    (s.event e).current.map ToldCall.id = nextOpen (s.current.map ToldCall.id) e := by
  cases e with
  | toolUseDelta id partialJson =>
    cases hcurrent : s.current with
    | none => simp [Collecting.event, hcurrent, Collecting.begin, nextOpen]
    | some call =>
      by_cases hid : call.id = id
      · simp [Collecting.event, hcurrent, hid, nextOpen]
      · simp [Collecting.event, hcurrent, hid, Collecting.begin, nextOpen]
  | toolUseStart | toolUseEnd | textDelta | thinkingDelta | start | usageUpdate | stop | error => rfl

/-- A call is collected for each that is started, and for each stray fragment. -/
theorem Collecting.length_event (e : StreamEvent) :
    (s.event e).calls.length = s.calls.length + (startedCalls [e]).length +
      if InItsBlock (s.current.map ToldCall.id) e then 0 else 1 := by
  cases e with
  | toolUseDelta id partialJson =>
    cases hcurrent : s.current with
    | none =>
      simp [Collecting.event, hcurrent, Collecting.begin, Collecting.calls, startedCalls, InItsBlock]
    | some call =>
      by_cases hid : call.id = id
      · simp [Collecting.event, hcurrent, hid, Collecting.calls, startedCalls, InItsBlock]
      · simp [Collecting.event, hcurrent, hid, Collecting.begin, Collecting.calls, startedCalls,
          InItsBlock]
  | toolUseStart id name =>
    simp [Collecting.event, Collecting.begin, Collecting.calls, startedCalls, InItsBlock,
      Nat.add_assoc]
  | toolUseEnd | textDelta | thinkingDelta =>
    simp [Collecting.event, Collecting.close, Collecting.calls, startedCalls, InItsBlock]
  | start | usageUpdate | stop | error => simp [Collecting.event, startedCalls, InItsBlock]

theorem Collecting.length_foldl (events : List StreamEvent) :
    (events.foldl Collecting.event s).calls.length = s.calls.length +
      (startedCalls events).length + strays (s.current.map ToldCall.id) events := by
  induction events generalizing s with
  | nil => rfl
  | cons e events ih =>
    have hstep := s.length_event e
    rw [List.foldl_cons, ih, Collecting.current_event, startedCalls_cons e events,
      List.length_append, strays]
    omega

variable {s}

/-- A fragment in its own call's block is the last call's. -/
theorem Collecting.delta_of_inItsBlock {t : Told} {id : String} (partialJson : String)
    (htold : s.calls = t.calls) (hnodup : (t.calls.map ToldCall.id).Nodup)
    (hblock : s.current.map ToldCall.id = some id) :
    (s.event (.toolUseDelta id partialJson)).calls =
      (t.tell (.toolUseDelta id partialJson)).calls := by
  obtain ⟨call, hcurrent, rfl⟩ := Option.map_eq_some_iff.mp hblock
  have hcalls : t.calls = s.closed ++ [call] := by
    rw [← htold, Collecting.calls, hcurrent]
    rfl
  have hnew : call.id ∉ s.closed.map ToldCall.id := by
    rw [hcalls, List.map_append] at hnodup
    exact fun hmem => (List.disjoint_of_nodup_append hnodup) hmem (List.mem_singleton_self _)
  simp only [Told.tell, hcalls, Collecting.event, hcurrent, if_true, Collecting.calls,
    Option.toList_some, pushArguments_append_of_notMem partialJson hnew call rfl]

/-- While every fragment comes in its own block, the hub collects what is told. -/
theorem Collecting.calls_of_unbroken {c c' : Calls} {events : List StreamEvent} {t : Told}
    (htold : s.calls = t.calls) (hids : t.calls.map ToldCall.id = c.started)
    (hnodup : c.started.Nodup) (hunbroken : Unbroken (s.current.map ToldCall.id) events)
    (hrun : run Calls.step c events = some c') :
    (events.foldl Collecting.event s).calls = (t.tellAll events).calls := by
  induction events generalizing s c t with
  | nil => exact htold
  | cons e events ih =>
    obtain ⟨next, hnext, hrest⟩ := Option.bind_eq_some_iff.mp hrun
    obtain ⟨hblock, hafter⟩ := hunbroken
    rw [← Collecting.current_event] at hafter
    obtain ⟨hids', hnodup'⟩ := Calls.ids_tell hids hnodup hnext
    have htold' : (s.event e).calls = (t.tell e).calls := by
      cases e with
      | toolUseDelta id partialJson =>
        exact Collecting.delta_of_inItsBlock partialJson htold (hids ▸ hnodup) hblock
      | toolUseStart id name =>
        simp [Collecting.event, Collecting.begin, Collecting.calls, Told.tell, ← htold]
      | toolUseEnd | textDelta | thinkingDelta =>
        simp [Collecting.event, Collecting.close, Collecting.calls, Told.tell, ← htold]
      | start | usageUpdate | stop | error => exact htold
    exact ih htold' hids' hnodup' hafter hrest

/-- The answer's tool_use blocks are the calls that were started, each with its own id and name
and the value of its own arguments. -/
def CallsSurvive (fromStr : String → Option Json) (events : List StreamEvent)
    (requestId model : String) : Prop :=
  ((blocksOf (Anthropic.renderFromEvents fromStr events requestId model)).filter isToolUse).Perm
    ((ownCalls events).map (ToldCall.block fromStr))

/-- Calls survive collection exactly when no fragment comes while another block is open. -/
theorem parallel_calls_survive_iff (fromStr : String → Option Json) (events : List StreamEvent)
    (requestId model : String) (h : Interleaved events) :
    CallsSurvive fromStr events requestId model ↔ Unbroken none events := by
  unfold CallsSurvive
  rw [toolUse_blocks]
  constructor
  · intro hperm
    have hlength := hperm.length_eq
    rw [List.length_map, Collecting.length_foldl, List.length_map, ownCalls, List.length_map]
      at hlength
    have hnone : strays none events = 0 := by
      change 0 + (startedCalls events).length + strays none events = _ at hlength
      omega
    exact (strays_eq_zero_iff none events).mp hnone
  · intro hunbroken
    obtain ⟨c, hrun⟩ := Option.isSome_iff_exists.mp h
    have hcalls : (events.foldl Collecting.event {}).calls = (Told.of events).calls :=
      Collecting.calls_of_unbroken rfl rfl List.nodup_nil hunbroken hrun
    rw [hcalls, calls_told h]

/-! Two calls whose fragments alternate, as one chunk of a Chat Completions stream can carry. -/

def alternating : List StreamEvent :=
  [.toolUseStart "a" "read", .toolUseStart "b" "write", .toolUseDelta "a" "{}",
    .toolUseDelta "b" "{}", .stop .toolUse {}]

def serial : List StreamEvent :=
  [.toolUseStart "a" "read", .toolUseDelta "a" "{}", .toolUseStart "b" "write",
    .toolUseDelta "b" "{}", .stop .toolUse {}]

theorem serial_calls_survive : CallsSurvive readEmpty serial "r" "m" :=
  (parallel_calls_survive_iff readEmpty serial "r" "m" (by decide)).mpr
    ⟨trivial, rfl, trivial, rfl, trivial, trivial⟩

theorem alternating_calls_lost :
    ¬ ∀ (fromStr : String → Option Json) events requestId model, Interleaved events →
      CallsSurvive fromStr events requestId model := by
  intro hall
  have hlength := (hall readEmpty alternating "r" "m" (by decide)).length_eq
  exact absurd hlength (by decide)

end Fragments

end OpenAIGateway
