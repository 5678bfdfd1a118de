import OpenAIGateway.AnthropicBlocks

/-!
Which event sequences the Messages renderer turns into a well-formed stream.
The block clauses come from the simulation; what remains is where the
message opens, which frames a non-final event can emit at all, and what a
stop appends. A sequence with nothing after its first stop is either free of
stops or such a sequence followed by one.
-/

set_option linter.all false

namespace OpenAIGateway.Anthropic

open Lifecycle

/-- Nothing has been emitted but errors. -/
def Idle (st : RenderState) : Prop :=
  st.started = false ∧ st.openText = none ∧ st.openTools = []

/-- Frames that stand between the opening of the message and its end. -/
def Part.inside : Part → Bool
  | .block _ | .error => true
  | _ => false

theorem idle_new (requestId model : String) : Idle (RenderState.new requestId model) :=
  ⟨rfl, rfl, rfl⟩

section States

variable (st : RenderState)

@[simp] theorem ensureStarted_started : st.ensureStarted.1.started = true := by
  unfold RenderState.ensureStarted
  split
  · assumption
  · rfl

@[simp] theorem ensureStarted_finished : st.ensureStarted.1.finished = st.finished := by
  unfold RenderState.ensureStarted
  split <;> rfl

@[simp] theorem ensureStarted_openTools : st.ensureStarted.1.openTools = st.openTools := by
  unfold RenderState.ensureStarted
  split <;> rfl

@[simp] theorem closeText_started : st.closeText.1.started = st.started := by
  unfold RenderState.closeText
  split <;> rfl

@[simp] theorem closeText_finished : st.closeText.1.finished = st.finished := by
  unfold RenderState.closeText
  split <;> rfl

@[simp] theorem closeText_openTools : st.closeText.1.openTools = st.openTools := by
  unfold RenderState.closeText
  split <;> rfl

@[simp] theorem closeTool_started (id : String) : (st.closeTool id).1.started = st.started := by
  unfold RenderState.closeTool
  split <;> rfl

@[simp] theorem closeTool_finished (id : String) : (st.closeTool id).1.finished = st.finished := by
  unfold RenderState.closeTool
  split <;> rfl

/-- The first block held under the id is the one taken out. -/
theorem closeTool_callIds (id : String) :
    (st.closeTool id).1.openTools.map Prod.fst = (st.openTools.map Prod.fst).erase id := by
  rw [← map_eraseP_key]
  unfold RenderState.closeTool
  split
  · rfl
  · rename_i hnone
    rw [List.eraseP_of_forall_not]
    simpa using hnone

end States

/-- The calls the renderer holds open are those the events left open. -/
theorem renderEvent_callIds (st : RenderState) (e : StreamEvent) (hstop : e.isStop = false) :
    (renderEvent e st).1.openTools.map Prod.fst = callsStep (st.openTools.map Prod.fst) e := by
  cases e with
  | start model usage => simp [renderEvent, callsStep]
  | textDelta text =>
    simp only [renderEvent, renderText, callsStep]
    split <;> rfl
  | thinkingDelta text =>
    simp only [renderEvent, renderText, callsStep]
    split <;> rfl
  | toolUseStart id name => simp [renderEvent, callsStep]
  | toolUseDelta id partialJson =>
    simp only [renderEvent, callsStep]
    split <;> rfl
  | toolUseEnd id => exact closeTool_callIds st id
  | usageUpdate usage => rfl
  | stop reason usage => simp [StreamEvent.isStop] at hstop
  | error message => rfl

theorem renderAll_callIds (events : List StreamEvent) (hstop : ∀ e ∈ events, e.isStop = false)
    (st : RenderState) :
    (renderAll renderEvent events st).1.openTools.map Prod.fst =
      events.foldl callsStep (st.openTools.map Prod.fst) := by
  induction events generalizing st with
  | nil => rfl
  | cons e rest ih =>
    have hrest : ∀ e' ∈ rest, e'.isStop = false := fun e' he' => hstop e' (by simp [he'])
    rw [renderAll_cons, List.foldl_cons, ← renderEvent_callIds st e (hstop e (by simp))]
    exact ih hrest (renderEvent e st).1

theorem renderEvent_finished (st : RenderState) (e : StreamEvent) (hstop : e.isStop = false) :
    (renderEvent e st).1.finished = st.finished := by
  cases e with
  | start model usage => simp [renderEvent]
  | textDelta text =>
    simp only [renderEvent, renderText]
    split <;> simp [RenderState.closeTools]
  | thinkingDelta text =>
    simp only [renderEvent, renderText]
    split <;> simp [RenderState.closeTools]
  | toolUseStart id name => simp [renderEvent]
  | toolUseDelta id partialJson =>
    simp only [renderEvent]
    split <;> rfl
  | toolUseEnd id => simp [renderEvent]
  | usageUpdate usage => rfl
  | stop reason usage => simp [StreamEvent.isStop] at hstop
  | error message => rfl

theorem renderAll_finished (events : List StreamEvent) (hstop : ∀ e ∈ events, e.isStop = false)
    (st : RenderState) : (renderAll renderEvent events st).1.finished = st.finished := by
  induction events generalizing st with
  | nil => rfl
  | cons e rest ih =>
    have hrest : ∀ e' ∈ rest, e'.isStop = false := fun e' he' => hstop e' (by simp [he'])
    rw [renderAll_cons]
    exact (ih hrest _).trans (renderEvent_finished st e (hstop e (by simp)))

theorem parts_ensureStarted (st : RenderState) :
    parts st.ensureStarted.2 = if st.started then [] else [.messageStart] := by
  unfold RenderState.ensureStarted
  split <;> simp

theorem inside_closeText (st : RenderState) : ∀ p ∈ parts st.closeText.2, p.inside := by
  unfold RenderState.closeText
  split <;> simp [Part.inside]

theorem inside_closeTool (st : RenderState) (id : String) :
    ∀ p ∈ parts (st.closeTool id).2, p.inside := by
  unfold RenderState.closeTool
  split <;> simp [Part.inside]

theorem inside_closeTools (st : RenderState) : ∀ p ∈ parts st.closeTools.2, p.inside := by
  intro p hp
  obtain ⟨f, hf, rfl⟩ := List.mem_map.mp hp
  obtain ⟨tool, -, rfl⟩ := List.mem_map.mp hf
  rfl

/-- A delta opens the message if need be; what follows is inside it. -/
theorem renderText_parts (st : RenderState) (text : String) (thinking : Bool) :
    (renderText st text thinking).1.started = true ∧
      ∃ rest, parts (renderText st text thinking).2 = parts st.ensureStarted.2 ++ rest ∧
        ∀ p ∈ rest, p.inside := by
  have hstops := inside_closeTools st.ensureStarted.1
  unfold renderText
  simp only
  split
  · refine ⟨ensureStarted_started st, _, by rw [List.append_assoc, List.append_assoc, parts_append], ?_⟩
    intro p hp
    rw [parts_append, List.mem_append] at hp
    rcases hp with hstop | hnew
    · exact hstops p hstop
    · cases thinking <;> simp at hnew <;> rcases hnew with rfl | rfl <;> rfl
  · refine ⟨ensureStarted_started st, _, by rw [List.append_assoc, List.append_assoc, parts_append], ?_⟩
    intro p hp
    rw [parts_append, List.mem_append] at hp
    rcases hp with hstop | hnew
    · exact hstops p hstop
    · cases thinking <;> simp at hnew <;> rw [hnew] <;> rfl

/-- An event that opens the message does so before its other frames. -/
theorem renderEvent_opening (st : RenderState) (e : StreamEvent) (hstop : e.isStop = false)
    (hopens : opensMessage e = true) :
    (renderEvent e st).1.started = true ∧
      ∃ rest, parts (renderEvent e st).2 = (if st.started then [] else [.messageStart]) ++ rest ∧
        ∀ p ∈ rest, p.inside := by
  cases e with
  | start model usage =>
    refine ⟨ensureStarted_started _, [], ?_, by simp⟩
    rw [List.append_nil]
    exact parts_ensureStarted _
  | textDelta text =>
    rw [← parts_ensureStarted st]
    exact renderText_parts st text false
  | thinkingDelta text =>
    rw [← parts_ensureStarted st]
    exact renderText_parts st text true
  | toolUseStart id name =>
    rw [← parts_ensureStarted st]
    refine ⟨by simp [renderEvent], parts st.ensureStarted.1.closeText.2 ++
      [.block (.opened st.ensureStarted.1.closeText.1.nextIndex .toolUse)], ?_, ?_⟩
    · simp [renderEvent]
    · intro p hp
      rcases List.mem_append.mp hp with hstops | hnew
      · exact inside_closeText _ p hstops
      · rw [List.mem_singleton.mp hnew]
        rfl
  | stop reason usage => simp [StreamEvent.isStop] at hstop
  | _ => simp [opensMessage] at hopens

/-- Any other event leaves the message as it found it. -/
theorem renderEvent_not_opening (st : RenderState) (e : StreamEvent)
    (hopens : opensMessage e = false) :
    (renderEvent e st).1.started = st.started ∧ ∀ p ∈ parts (renderEvent e st).2, p.inside := by
  cases e with
  | toolUseDelta id partialJson =>
    simp only [renderEvent]
    split <;> simp [Part.inside]
  | toolUseEnd id => exact ⟨closeTool_started st id, inside_closeTool st id⟩
  | usageUpdate usage => exact ⟨rfl, by simp [renderEvent]⟩
  | error message => exact ⟨rfl, by simp [renderEvent, Part.inside]⟩
  | _ => simp [opensMessage] at hopens

/-- Before the message opens only an error is emitted. -/
theorem renderEvent_idle {st : RenderState} (h : Idle st) (e : StreamEvent)
    (hopens : opensMessage e = false) :
    Idle (renderEvent e st).1 ∧
      parts (renderEvent e st).2 = if isError e then [.error] else [] := by
  obtain ⟨hstarted, htext, htools⟩ := h
  cases e with
  | toolUseDelta id partialJson =>
    simp [renderEvent, RenderState.toolBlock, htools, isError, Idle, hstarted, htext]
  | toolUseEnd id =>
    simp [renderEvent, RenderState.closeTool, htools, isError, Idle, hstarted, htext]
  | usageUpdate usage => exact ⟨⟨hstarted, htext, htools⟩, rfl⟩
  | error message => exact ⟨⟨hstarted, htext, htools⟩, rfl⟩
  | _ => simp [opensMessage] at hopens

/-- Once the message is open, events before the stop stay inside it. -/
theorem renderAll_inside (events : List StreamEvent) (hstop : ∀ e ∈ events, e.isStop = false)
    (st : RenderState) (hstarted : st.started = true) :
    (renderAll renderEvent events st).1.started = true ∧
      ∀ p ∈ parts (renderAll renderEvent events st).2, p.inside := by
  induction events generalizing st with
  | nil => exact ⟨hstarted, by simp⟩
  | cons e rest ih =>
    have hrest : ∀ e' ∈ rest, e'.isStop = false := fun e' he' => hstop e' (by simp [he'])
    have hfirst : (renderEvent e st).1.started = true ∧
        ∀ p ∈ parts (renderEvent e st).2, p.inside := by
      cases hopens : opensMessage e with
      | true =>
        obtain ⟨hst, inner, heq, hinner⟩ := renderEvent_opening st e (hstop e (by simp)) hopens
        rw [if_pos hstarted, List.nil_append] at heq
        exact ⟨hst, heq ▸ hinner⟩
      | false =>
        obtain ⟨hst, hinner⟩ := renderEvent_not_opening st e hopens
        exact ⟨hst.trans hstarted, hinner⟩
    obtain ⟨hst, hinner⟩ := ih hrest _ hfirst.1
    refine ⟨hst, ?_⟩
    intro p hp
    rw [renderAll_cons, parts_append, List.mem_append] at hp
    rcases hp with hp | hp
    · exact hfirst.2 p hp
    · exact hinner p hp

/-- A rendering from an idle state: nothing, a message that opens first, or an
error before it, as the first event that emits a frame decides. -/
theorem renderAll_idle (events : List StreamEvent) (hstop : ∀ e ∈ events, e.isStop = false)
    {st : RenderState} (h : Idle st) :
    (events.find? (fun e => opensMessage e || isError e) = none ∧
        parts (renderAll renderEvent events st).2 = [] ∧
        (renderAll renderEvent events st).1.started = false) ∨
      (OpensFirst events ∧ (renderAll renderEvent events st).1.started = true ∧
        ∃ rest, parts (renderAll renderEvent events st).2 = .messageStart :: rest ∧
          ∀ p ∈ rest, p.inside) ∨
      ((∃ e, events.find? (fun e => opensMessage e || isError e) = some e ∧
          opensMessage e = false) ∧
        ∃ rest, parts (renderAll renderEvent events st).2 = .error :: rest) := by
  induction events generalizing st with
  | nil => exact Or.inl ⟨rfl, rfl, h.1⟩
  | cons e rest ih =>
    have hrest : ∀ e' ∈ rest, e'.isStop = false := fun e' he' => hstop e' (by simp [he'])
    rw [renderAll_cons, parts_append]
    cases hopens : opensMessage e with
    | true =>
      obtain ⟨hst, inner, heq, hinner⟩ := renderEvent_opening st e (hstop e (by simp)) hopens
      obtain ⟨hst', htail⟩ := renderAll_inside rest hrest _ hst
      refine Or.inr (Or.inl ⟨by simp [OpensFirst, hopens], hst',
        inner ++ parts (renderAll renderEvent rest (renderEvent e st).1).2, ?_, ?_⟩)
      · rw [heq, h.1]
        rfl
      · intro p hp
        rcases List.mem_append.mp hp with hp | hp
        · exact hinner p hp
        · exact htail p hp
    | false =>
      obtain ⟨hidle, heq⟩ := renderEvent_idle h e hopens
      rw [heq]
      cases herror : isError e with
      | true =>
        exact Or.inr (Or.inr ⟨⟨e, by simp [herror], hopens⟩, _, by rw [if_pos rfl]; rfl⟩)
      | false =>
        have hskip : (e :: rest).find? (fun e => opensMessage e || isError e) =
            rest.find? (fun e => opensMessage e || isError e) := by
          simp [hopens, herror]
        unfold OpensFirst
        rw [hskip]
        exact ih hrest hidle

/-- The state a stop closes from: usage merged, nothing else touched. -/
def stopping (st : RenderState) (usage : Usage) : RenderState :=
  { st with finished := true, usage := st.usage.merge usage }

theorem renderStop_frames (st : RenderState) (hfinished : st.finished = false)
    (reason : StopReason) (usage : Usage) :
    (renderEvent (.stop reason usage) st).2 =
      (stopping st usage).ensureStarted.2 ++ (stopping st usage).ensureStarted.1.closeText.2 ++
        (stopping st usage).ensureStarted.1.closeText.1.closeTools.2 ++
        [messageDelta reason
          (stopping st usage).ensureStarted.1.closeText.1.closeTools.1.usage, messageStop] := by
  simp [renderEvent, hfinished, stopping]

/-- A stop opens the message if nothing did, and ends it last. -/
theorem renderStop_parts (st : RenderState) (hfinished : st.finished = false)
    (reason : StopReason) (usage : Usage) :
    ∃ stops, parts (renderEvent (.stop reason usage) st).2 =
        (if st.started then [] else [.messageStart]) ++ stops ++ [.messageDelta, .messageStop] ∧
      ∀ p ∈ stops, p.inside := by
  refine ⟨parts (stopping st usage).ensureStarted.1.closeText.2 ++
    parts (stopping st usage).ensureStarted.1.closeText.1.closeTools.2, ?_, ?_⟩
  · rw [renderStop_frames st hfinished]
    simp [parts_ensureStarted, stopping]
  · intro p hp
    rcases List.mem_append.mp hp with hp | hp
    · exact inside_closeText _ p hp
    · exact inside_closeTools _ p hp

/-- A stop leaves no block open. -/
theorem renderStop_emits {slot : Option BlockKind} {st : RenderState} {live : Live BlockKind}
    (h : Sim slot st live) (hfinished : st.finished = false) (reason : StopReason)
    (usage : Usage) :
    ∃ live', Emits live (renderEvent (.stop reason usage) st).2 live' ∧ live'.items = [] := by
  have hsim : Sim slot (stopping st usage) live := h.congr rfl rfl rfl
  obtain ⟨live₁, htext, hsim₁⟩ := closeText_sim (ensureStarted_sim hsim)
  obtain ⟨live₂, htools, hsim₂⟩ := closeTools_sim hsim₁
  refine ⟨live₂, ?_, hsim₂.items_eq_nil_iff.mpr ⟨rfl, rfl⟩⟩
  rw [renderStop_frames st hfinished]
  refine (((ensureStarted_emits _ live).append htext).append htools).append ?_
  simp [Emits, Part.act?]

theorem noKindSwitch_iff (events : List StreamEvent) :
    NoKindSwitch events ↔ (slotRun none events).isSome := by
  rw [slotRun_isSome_iff]
  rfl

section Runs

variable (requestId model : String)

/-- Everything a fresh render state emits for `events`, as a client reads it. -/
def rendered (events : List StreamEvent) : List Part :=
  parts (renderAll renderEvent events (RenderState.new requestId model)).2

theorem body_blocks_iff (body : List StreamEvent) (hbody : ∀ e ∈ body, e.isStop = false) :
    (WellFormed (acts (rendered requestId model body)) ∧
        AllClosed (acts (rendered requestId model body))) ↔
      NoKindSwitch body ∧ NothingLeftOpen body := by
  have hfollows := renderAll_follows (sim_new requestId model) body hbody
  rw [noKindSwitch_iff]
  cases hslot : slotRun none body with
  | none =>
    rw [hslot] at hfollows
    have hbad := (run_empty_eq_none_iff _).mp hfollows
    simp [rendered, hbad]
  | some slot =>
    rw [hslot] at hfollows
    obtain ⟨live, hemits, hsim⟩ := hfollows
    have hrun : run Live.empty (acts (rendered requestId model body)) = some live := hemits
    have hwf := wellFormed_of_run hrun
    have hcalls := renderAll_callIds body hbody (RenderState.new requestId model)
    have hclosed : AllClosed (acts (rendered requestId model body)) ↔ NothingLeftOpen body := by
      rw [allClosed_iff_of_run hrun, hsim.items_eq_nil_iff, slotRun_eq_none_iff body hslot, hcalls]
      rfl
    simp [hwf, hclosed]

theorem rendered_stop (body : List StreamEvent) (reason : StopReason) (usage : Usage) :
    rendered requestId model (body ++ [.stop reason usage]) =
      rendered requestId model body ++ parts (renderEvent (.stop reason usage)
        (renderAll renderEvent body (RenderState.new requestId model)).1).2 := by
  simp [rendered, renderAll_append]

theorem stop_blocks_iff (body : List StreamEvent) (hbody : ∀ e ∈ body, e.isStop = false)
    (reason : StopReason) (usage : Usage) :
    (WellFormed (acts (rendered requestId model (body ++ [.stop reason usage]))) ∧
        AllClosed (acts (rendered requestId model (body ++ [.stop reason usage])))) ↔
      NoKindSwitch body := by
  have hfollows := renderAll_follows (sim_new requestId model) body hbody
  have hfinished := renderAll_finished body hbody (RenderState.new requestId model)
  have hsplit := rendered_stop requestId model body reason usage
  rw [noKindSwitch_iff]
  cases hslot : slotRun none body with
  | none =>
    rw [hslot] at hfollows
    have hbad : run Live.empty (acts (rendered requestId model (body ++ [.stop reason usage])))
        = none := by
      rw [hsplit, acts_append, run_append]
      exact congrArg (Option.bind · _) hfollows
    have hnot := (run_empty_eq_none_iff _).mp hbad
    simp [hnot]
  | some slot =>
    rw [hslot] at hfollows
    obtain ⟨live, hemits, hsim⟩ := hfollows
    obtain ⟨live', hstop, hnil⟩ := renderStop_emits hsim hfinished reason usage
    have hrun : run Live.empty (acts (rendered requestId model (body ++ [.stop reason usage])))
        = some live' := by
      rw [hsplit, acts_append, run_append]
      exact (congrArg (Option.bind · _) hemits).trans hstop
    have hwf := wellFormed_of_run hrun
    simp [hwf, allClosed_iff_of_run hrun, hnil]

/-- An opened message whose other frames are inside it, ended or not. -/
theorem grammar_of_shape {inner tail : List Part} (hinner : ∀ p ∈ inner, p.inside)
    (htail : tail = [] ∨ tail = [.messageDelta, .messageStop])
    (hwf : WellFormed (acts (.messageStart :: inner ++ tail)))
    (hclosed : AllClosed (acts (.messageStart :: inner ++ tail))) :
    Grammar (.messageStart :: inner ++ tail) := by
  have hnot : ∀ p : Part, p.inside = false → p ∉ inner := by
    intro p hp hmem
    rw [hinner p hmem] at hp
    cases hp
  have hother := hnot .other rfl
  have hstart := hnot .messageStart rfl
  have hdelta := hnot .messageDelta rfl
  have hstop := hnot .messageStop rfl
  refine ⟨?_, ⟨inner ++ tail, rfl, ?_⟩, hwf, hclosed, .messageStart :: inner, ?_, ?_, ?_⟩
  · rcases htail with rfl | rfl <;> simp [hother]
  · rcases htail with rfl | rfl <;> simp [hstart]
  · simp [hdelta]
  · simp [hstop]
  · rcases htail with rfl | rfl
    · exact Or.inl (List.append_nil _)
    · exact Or.inr rfl

theorem body_grammar_iff (body : List StreamEvent) (hbody : ∀ e ∈ body, e.isStop = false) :
    Grammar (rendered requestId model body) ↔
      OpensFirst body ∧ NoKindSwitch body ∧ NothingLeftOpen body := by
  rw [← body_blocks_iff requestId model body hbody]
  rcases renderAll_idle body hbody (idle_new requestId model) with
    ⟨hfind, hparts, -⟩ | ⟨hopens, -, inner, hparts, hinner⟩ | ⟨⟨e, hfind, hopens⟩, inner, hparts⟩
  · constructor
    · intro h
      obtain ⟨rest, hps, -⟩ := h.start
      exact absurd (hparts.symm.trans hps) (by simp)
    · rintro ⟨hopens, -⟩
      simp [OpensFirst, hfind] at hopens
  · constructor
    · intro h
      exact ⟨hopens, h.blocks, h.closed⟩
    · rintro ⟨-, hwf, hclosed⟩
      have hshape : rendered requestId model body = .messageStart :: inner ++ [] := by
        rw [List.append_nil]
        exact hparts
      rw [hshape] at hwf hclosed ⊢
      exact grammar_of_shape hinner (Or.inl rfl) hwf hclosed
  · constructor
    · intro h
      obtain ⟨rest, hps, -⟩ := h.start
      exact absurd (hparts.symm.trans hps) (by simp)
    · rintro ⟨hopens', -⟩
      simp [OpensFirst, hfind, hopens] at hopens'

/-- A stop opens the message for a body that emitted nothing. -/
theorem opensFirst_stop_iff (body : List StreamEvent) (reason : StopReason) (usage : Usage) :
    OpensFirst (body ++ [.stop reason usage]) ↔
      body.find? (fun e => opensMessage e || isError e) = none ∨ OpensFirst body := by
  unfold OpensFirst
  rw [List.find?_append]
  cases body.find? (fun e => opensMessage e || isError e) with
  | none => exact iff_of_true rfl (Or.inl rfl)
  | some e => simp

theorem stop_grammar_iff (body : List StreamEvent) (hbody : ∀ e ∈ body, e.isStop = false)
    (reason : StopReason) (usage : Usage) :
    Grammar (rendered requestId model (body ++ [.stop reason usage])) ↔
      OpensFirst (body ++ [.stop reason usage]) ∧ NoKindSwitch body := by
  rw [← stop_blocks_iff requestId model body hbody reason usage]
  have hfinished := renderAll_finished body hbody (RenderState.new requestId model)
  obtain ⟨stops, hstop, hstops⟩ := renderStop_parts
    (renderAll renderEvent body (RenderState.new requestId model)).1 hfinished reason usage
  have hsplit := rendered_stop requestId model body reason usage
  rw [hstop] at hsplit
  rcases renderAll_idle body hbody (idle_new requestId model) with
    ⟨hfind, hparts, hst⟩ | ⟨hopens, hst, inner, hparts, hinner⟩ | ⟨⟨e, hfind, hopens⟩, inner, hparts⟩
  · have hopens := (opensFirst_stop_iff body reason usage).mpr (Or.inl hfind)
    have hshape : rendered requestId model (body ++ [.stop reason usage]) =
        .messageStart :: stops ++ [.messageDelta, .messageStop] := by
      rw [hsplit, rendered, hparts, hst]
      rfl
    rw [hshape]
    constructor
    · intro h
      exact ⟨hopens, h.blocks, h.closed⟩
    · rintro ⟨-, hwf, hclosed⟩
      exact grammar_of_shape hstops (Or.inr rfl) hwf hclosed
  · have hopens' := (opensFirst_stop_iff body reason usage).mpr (Or.inr hopens)
    have hshape : rendered requestId model (body ++ [.stop reason usage]) =
        .messageStart :: (inner ++ stops) ++ [.messageDelta, .messageStop] := by
      rw [hsplit, rendered, hparts, hst]
      simp
    rw [hshape]
    constructor
    · intro h
      exact ⟨hopens', h.blocks, h.closed⟩
    · rintro ⟨-, hwf, hclosed⟩
      refine grammar_of_shape ?_ (Or.inr rfl) hwf hclosed
      intro p hp
      rcases List.mem_append.mp hp with hp | hp
      · exact hinner p hp
      · exact hstops p hp
  · constructor
    · intro h
      obtain ⟨rest, hps, -⟩ := h.start
      rw [hsplit, rendered, hparts] at hps
      simp at hps
    · rintro ⟨hopens', -⟩
      rw [opensFirst_stop_iff] at hopens'
      simp [OpensFirst, hfind, hopens] at hopens'

end Runs

/-- A sequence with nothing after its first stop has no stop or ends in its only one. -/
theorem NothingAfterStop.split {events : List StreamEvent} (h : NothingAfterStop events) :
    (∀ e ∈ events, e.isStop = false) ∨
      ∃ body reason usage, events = body ++ [.stop reason usage] ∧
        ∀ e ∈ body, e.isStop = false := by
  cases hfind : events.find? StreamEvent.isStop with
  | none =>
    left
    simpa using hfind
  | some e =>
    right
    obtain ⟨hstop, pre, post, heq, hpre⟩ := List.find?_eq_some_iff_append.mp hfind
    have hnil := h pre e post heq hstop
    cases e with
    | stop reason usage => exact ⟨pre, reason, usage, by rw [heq, hnil], by simpa using hpre⟩
    | _ => simp [StreamEvent.isStop] at hstop

/-- A stop-free body may be followed by one stop. -/
theorem nothingAfterStop_stop (body : List StreamEvent) (hbody : ∀ e ∈ body, e.isStop = false)
    (reason : StopReason) (usage : Usage) : NothingAfterStop (body ++ [.stop reason usage]) := by
  intro pre e post heq hstop
  rcases List.eq_nil_or_concat' post with rfl | ⟨rest, last, rfl⟩
  · rfl
  · rw [← List.cons_append, ← List.append_assoc] at heq
    have hmem : e ∈ body := by
      rw [(List.append_inj' heq rfl).1]
      simp
    rw [hbody e hmem] at hstop
    cases hstop

theorem noKindSwitch_stop (body : List StreamEvent) (reason : StopReason) (usage : Usage) :
    NoKindSwitch (body ++ [.stop reason usage]) ↔ NoKindSwitch body := by
  have hstop : [StreamEvent.stop reason usage].filterMap slotEvent? = [] := rfl
  rw [NoKindSwitch, List.filterMap_append, hstop, List.append_nil]
  rfl

/-- The frames obey the grammar exactly when the message opens before any
error, text and thinking never follow one another in one block, and what the
events opened is closed by them or by a stop. -/
theorem renderAll_grammar_iff (requestId model : String) (events : List StreamEvent)
    (h : NothingAfterStop events) :
    Grammar (parts (renderAll renderEvent events (RenderState.new requestId model)).2) ↔
      OpensFirst events ∧ NoKindSwitch events ∧
        (EndsInStop events ∨ NothingLeftOpen events) := by
  rcases h.split with hbody | ⟨body, reason, usage, rfl, hbody⟩
  · have hends : ¬ EndsInStop events := by
      intro hends
      cases hlast : events.getLast? with
      | none => simp [EndsInStop, hlast] at hends
      | some e =>
        have hnot := hbody e (List.mem_of_getLast? hlast)
        simp [EndsInStop, hlast, hnot] at hends
    simp only [hends, false_or]
    exact body_grammar_iff requestId model events hbody
  · have hends : EndsInStop (body ++ [.stop reason usage]) := by
      simp [EndsInStop, StreamEvent.isStop]
    simp only [hends, true_or, and_true, noKindSwitch_stop]
    exact stop_grammar_iff requestId model body hbody reason usage

/-- Text, a call left unended and more text, then a stop. -/
theorem renderAll_grammar_of_interleaved :
    Grammar (parts (renderAll renderEvent
      [.start "m" {}, .textDelta "a", .toolUseStart "c1" "f", .toolUseDelta "c1" "1",
        .thinkingDelta "b", .stop .toolUse {}] (RenderState.new "1" "m")).2) :=
  (renderAll_grammar_iff "1" "m" _
    (nothingAfterStop_stop [.start "m" {}, .textDelta "a", .toolUseStart "c1" "f",
      .toolUseDelta "c1" "1", .thinkingDelta "b"] (by decide) .toolUse {})).mpr
    ⟨by decide, by decide, Or.inl (by decide)⟩

/-- Reasoning followed by the answer puts a text delta in a thinking block. -/
theorem thinking_then_text_breaks_grammar :
    NothingAfterStop [.thinkingDelta "a", .textDelta "b", .stop .endTurn {}] ∧
      ¬ Grammar (parts (renderAll renderEvent
        [.thinkingDelta "a", .textDelta "b", .stop .endTurn {}] (RenderState.new "1" "m")).2) := by
  refine ⟨nothingAfterStop_stop [.thinkingDelta "a", .textDelta "b"] (by decide) _ _, ?_⟩
  intro h
  have hrefused : run Live.empty (acts (parts (renderAll renderEvent
      [.thinkingDelta "a", .textDelta "b", .stop .endTurn {}] (RenderState.new "1" "m")).2))
      = none := rfl
  exact (run_empty_eq_none_iff _).mp hrefused h.blocks

end OpenAIGateway.Anthropic
