import OpenAIGateway.AnthropicGrammar

/-!
The renderer's open slots against the blocks its frames leave open.
A simulation relates three things: the kind of the block the text slot
holds, which no field of the render state records, the render state, and the
lifecycle checker run over the frames so far. One event either keeps the
relation or emits a delta the checker refuses, and it does the latter
exactly when the kind of the delta is not the kind of the slot.
-/

set_option linter.all false

namespace OpenAIGateway.Anthropic

open Lifecycle

/-- The checker's items for a list of open tool blocks. -/
def toolItems (tools : List (String × ℕ)) : List (ℕ × BlockKind) :=
  tools.map (fun tool => (tool.2, .toolUse))

/-- Either a text or thinking block is open and no tool block is, or the text
slot is free and the open blocks are the tool blocks. -/
inductive Sim : Option BlockKind → RenderState → Live BlockKind → Prop
  | writing (st : RenderState) (i : ℕ) (k : BlockKind) (hk : k ≠ .toolUse)
      (hopen : st.openText = some i) (htools : st.openTools = []) :
      Sim (some k) st ⟨st.nextIndex, [(i, k)]⟩
  | calling (st : RenderState) (hopen : st.openText = none)
      (hnodup : (st.openTools.map Prod.snd).Nodup)
      (hlt : ∀ tool ∈ st.openTools, tool.2 < st.nextIndex) :
      Sim none st ⟨st.nextIndex, toolItems st.openTools⟩

/-- The frames take the checker from one state to another. -/
def Emits (live : Live BlockKind) (frames : List Frame) (live' : Live BlockKind) : Prop :=
  run live (acts (parts frames)) = some live'

theorem Emits.nil (live : Live BlockKind) : Emits live [] live := rfl

theorem Emits.append {live live' live'' : Live BlockKind} {xs ys : List Frame}
    (hx : Emits live xs live') (hy : Emits live' ys live'') : Emits live (xs ++ ys) live'' := by
  unfold Emits at *
  rw [parts_append, acts_append, run_append, hx]
  exact hy

theorem Emits.append_none {live live' : Live BlockKind} {xs ys : List Frame}
    (hx : Emits live xs live') (hy : run live' (acts (parts ys)) = none) :
    run live (acts (parts (xs ++ ys))) = none := by
  unfold Emits at hx
  rw [parts_append, acts_append, run_append, hx]
  exact hy

/-- The relation reads three fields of the render state. -/
theorem Sim.congr {slot : Option BlockKind} {st st' : RenderState} {live : Live BlockKind}
    (h : Sim slot st live) (hnext : st'.nextIndex = st.nextIndex)
    (htext : st'.openText = st.openText) (htools : st'.openTools = st.openTools) :
    Sim slot st' live := by
  cases h with
  | writing _ i k hk hopen hnil =>
    rw [← hnext]
    exact Sim.writing st' i k hk (htext.trans hopen) (htools.trans hnil)
  | calling _ hopen hnodup hlt =>
    rw [← hnext, ← htools]
    exact Sim.calling st' (htext.trans hopen) (by rwa [htools]) (by rwa [htools, hnext])

theorem sim_new (requestId model : String) :
    Sim none (RenderState.new requestId model) Live.empty :=
  Sim.calling (RenderState.new requestId model) rfl List.nodup_nil (by simp [RenderState.new])

theorem ensureStarted_emits (st : RenderState) (live : Live BlockKind) :
    Emits live st.ensureStarted.2 live := by
  unfold Emits RenderState.ensureStarted
  split <;> simp [Part.act?]

theorem ensureStarted_sim {slot : Option BlockKind} {st : RenderState} {live : Live BlockKind}
    (h : Sim slot st live) : Sim slot st.ensureStarted.1 live := by
  unfold RenderState.ensureStarted
  split
  · exact h
  · exact h.congr rfl rfl rfl

theorem closeText_sim {slot : Option BlockKind} {st : RenderState} {live : Live BlockKind}
    (h : Sim slot st live) :
    ∃ live', Emits live st.closeText.2 live' ∧ Sim none st.closeText.1 live' := by
  cases h with
  | writing _ i k hk hopen htools =>
    refine ⟨⟨st.nextIndex, []⟩, ?_, ?_⟩
    · simp [Emits, RenderState.closeText, hopen, Part.act?, step]
    · have hsim := Sim.calling { st with openText := none } rfl
        (by simp [htools]) (by simp [htools])
      simpa [RenderState.closeText, hopen, htools, toolItems] using hsim
  | calling _ hopen hnodup hlt =>
    refine ⟨⟨st.nextIndex, toolItems st.openTools⟩, ?_, ?_⟩
    · simp [Emits, RenderState.closeText, hopen]
    · simpa [RenderState.closeText, hopen] using Sim.calling st hopen hnodup hlt

/-- A stop takes one tool block out and leaves the others, whose indices differ. -/
theorem step_stop_tool (next : ℕ) (pre post : List (String × ℕ)) (tool : String × ℕ)
    (hnodup : ((pre ++ tool :: post).map Prod.snd).Nodup) :
    step ⟨next, toolItems (pre ++ tool :: post)⟩ (.closed tool.2 none) =
      some ⟨next, toolItems (pre ++ post)⟩ := by
  have hindices : ((toolItems pre ++ (tool.2, .toolUse) :: toolItems post).map Prod.fst).Nodup := by
    simpa [toolItems, Function.comp_def] using hnodup
  simpa [toolItems] using
    step_closed_of_nodup next (toolItems pre) (toolItems post) tool.2 _ hindices (Or.inl rfl)

/-- Stopping the tool blocks one by one empties the checker. -/
theorem run_stop_tools (next : ℕ) (tools : List (String × ℕ))
    (hnodup : (tools.map Prod.snd).Nodup) :
    run (⟨next, toolItems tools⟩ : Live BlockKind)
      (tools.map (fun tool => Lifecycle.Act.closed tool.2 none)) = some ⟨next, []⟩ := by
  induction tools with
  | nil => rfl
  | cons tool rest ih =>
    have hstep := step_stop_tool next [] rest tool hnodup
    rw [List.nil_append] at hstep
    rw [List.map_cons, run_cons, hstep]
    exact ih (List.nodup_cons.mp hnodup).2

theorem acts_stop_tools (tools : List (String × ℕ)) :
    acts (parts (tools.map (fun tool => blockStop tool.2))) =
      tools.map (fun tool => Lifecycle.Act.closed tool.2 none) := by
  induction tools with
  | nil => rfl
  | cons tool rest ih => simp [Part.act?, ih]

theorem closeTools_sim {slot : Option BlockKind} {st : RenderState} {live : Live BlockKind}
    (h : Sim slot st live) :
    ∃ live', Emits live st.closeTools.2 live' ∧ Sim slot st.closeTools.1 live' := by
  cases h with
  | writing _ i k hk hopen htools =>
    refine ⟨⟨st.nextIndex, [(i, k)]⟩, ?_, ?_⟩
    · simp [Emits, RenderState.closeTools, htools]
    · exact Sim.writing { st with openTools := [] } i k hk hopen rfl
  | calling _ hopen hnodup hlt =>
    refine ⟨⟨st.nextIndex, []⟩, ?_, ?_⟩
    · unfold Emits RenderState.closeTools
      rw [acts_stop_tools]
      exact run_stop_tools st.nextIndex st.openTools hnodup
    · exact Sim.calling { st with openTools := [] } hopen List.nodup_nil (by simp)

/-- Opening a tool block from a state whose text slot is free. -/
theorem openTool_sim {st : RenderState} {live : Live BlockKind} (h : Sim none st live)
    (id name : String) :
    ∃ live', Emits live [blockStart st.nextIndex (toolUseBlock id name)] live' ∧
      Sim none { st with
        nextIndex := st.nextIndex + 1
        openTools := st.openTools ++ [(id, st.nextIndex)] } live' := by
  cases h with
  | calling _ hopen hnodup hlt =>
    have hfresh : st.nextIndex ∉ st.openTools.map Prod.snd := by
      intro hmem
      obtain ⟨tool, htool, heq⟩ := List.mem_map.mp hmem
      have := hlt tool htool
      omega
    refine ⟨_, ?_, Sim.calling { st with
        nextIndex := st.nextIndex + 1
        openTools := st.openTools ++ [(id, st.nextIndex)] } hopen ?_ ?_⟩
    · simp [Emits, Part.act?, step, toolItems]
    · simp only [List.map_append, List.map_cons, List.map_nil]
      exact hnodup.append (List.nodup_singleton _) (by simpa using hfresh)
    · intro tool htool
      rcases List.mem_append.mp htool with hold | hnew
      · exact Nat.lt_succ_of_lt (hlt tool hold)
      · have heq : tool = (id, st.nextIndex) := by simpa using hnew
        rw [heq]
        exact Nat.lt_succ_self _

/-- Closing one call stops its own block and no other. -/
theorem closeTool_sim {slot : Option BlockKind} {st : RenderState} {live : Live BlockKind}
    (h : Sim slot st live) (id : String) :
    ∃ live', Emits live (st.closeTool id).2 live' ∧ Sim slot (st.closeTool id).1 live' := by
  cases hfind : st.openTools.find? (fun tool => tool.1 = id) with
  | none => exact ⟨live, by simp [Emits, RenderState.closeTool, hfind],
      by simpa [RenderState.closeTool, hfind] using h⟩
  | some tool =>
    have hmem : tool ∈ st.openTools := List.mem_of_find?_eq_some hfind
    cases h with
    | writing _ i k hk hopen htools =>
      rw [htools] at hmem
      simp at hmem
    | calling _ hopen hnodup hlt =>
      obtain ⟨hid, pre, post, hsplit, hpre⟩ := List.find?_eq_some_iff_append.mp hfind
      have herase : st.openTools.eraseP (fun t => decide (t.1 = id)) = pre ++ post := by
        rw [hsplit, List.eraseP_append_right _ (by simpa using hpre)]
        simp [hid]
      have hstep := step_stop_tool st.nextIndex pre post tool (hsplit ▸ hnodup)
      rw [← hsplit] at hstep
      refine ⟨⟨st.nextIndex, toolItems (pre ++ post)⟩, ?_, ?_⟩
      · simp [Emits, RenderState.closeTool, hfind, Part.act?, hstep]
      · have hsub : (pre ++ post).Sublist st.openTools := by
          rw [hsplit]
          exact List.Sublist.append_left (List.sublist_cons_self tool post) pre
        have hsim := Sim.calling { st with openTools := pre ++ post } hopen
          (hnodup.sublist (hsub.map Prod.snd)) (fun t ht => hlt t (hsub.subset ht))
        simpa [RenderState.closeTool, hfind, herase] using hsim

/-- The kind the text slot holds after an event, or nothing when the event
writes a delta of one kind into a block of the other. -/
def slotStep (slot : Option BlockKind) : StreamEvent → Option (Option BlockKind)
  | .textDelta _ => if slot = some .thinking then none else some (some .text)
  | .thinkingDelta _ => if slot = some .text then none else some (some .thinking)
  | .toolUseStart _ _ => some none
  | _ => some slot

def slotRun (slot : Option BlockKind) (events : List StreamEvent) : Option (Option BlockKind) :=
  events.foldlM slotStep slot

/-- What one event does to related states. -/
def Follows (slot' : Option (Option BlockKind)) (live : Live BlockKind)
    (out : RenderState × List Frame) : Prop :=
  match slot' with
  | some slot' => ∃ live', Emits live out.2 live' ∧ Sim slot' out.1 live'
  | none => run live (acts (parts out.2)) = none

theorem renderText_follows {slot : Option BlockKind} {st : RenderState} {live : Live BlockKind}
    (h : Sim slot st live) (text : String) (thinking : Bool) :
    Follows (if slot = some (if thinking then .text else .thinking) then none
      else some (some (if thinking then .thinking else .text))) live (renderText st text thinking) := by
  obtain ⟨live', hstops, hsim⟩ := closeTools_sim (ensureStarted_sim h)
  have hhead := (ensureStarted_emits st live).append hstops
  generalize hst' : st.ensureStarted.1.closeTools.1 = st' at hsim
  cases hsim with
  | writing _ i k hk hopen htools =>
    have hout : renderText st text thinking = (st', st.ensureStarted.2 ++
        st.ensureStarted.1.closeTools.2 ++ [blockDelta i (textDelta thinking text)]) := by
      simp only [renderText, hst', hopen, List.append_nil, Option.getD_some]
    rw [hout]
    by_cases hkind : k = if thinking then .thinking else .text
    · rw [if_neg (by cases thinking <;> simp [hkind])]
      refine ⟨_, hhead.append ?_, hkind ▸ Sim.writing st' i k hk hopen htools⟩
      simp [Emits, Part.act?, hkind, step]
    · have hother : k = if thinking then .text else .thinking := by
        cases k <;> cases thinking <;> simp_all
      rw [if_pos (by rw [hother])]
      apply hhead.append_none
      cases thinking <;> simp [Part.act?, step, hother]
  | calling _ hopen hnodup hlt =>
    have htools : st'.openTools = [] := by rw [← hst']; rfl
    have hout : renderText st text thinking =
        ({ st' with nextIndex := st'.nextIndex + 1, openText := some st'.nextIndex },
          st.ensureStarted.2 ++ st.ensureStarted.1.closeTools.2 ++
            ([blockStart st'.nextIndex (emptyBlock thinking)] ++
              [blockDelta st'.nextIndex (textDelta thinking text)])) := by
      simp only [renderText, hst', hopen, Option.getD_some, List.append_assoc]
    rw [hout, if_neg (by simp)]
    refine ⟨_, hhead.append ?_, Sim.writing _ st'.nextIndex (if thinking then .thinking else .text)
      (by cases thinking <;> simp) rfl htools⟩
    cases thinking <;> simp [Emits, Part.act?, step, toolItems, htools]

/-- One event keeps the relation, or its delta is refused: exactly when the
slot automaton says so. -/
theorem renderEvent_follows {slot : Option BlockKind} {st : RenderState} {live : Live BlockKind}
    (h : Sim slot st live) (e : StreamEvent) (hstop : e.isStop = false) :
    Follows (slotStep slot e) live (renderEvent e st) := by
  cases e with
  | start model usage =>
    exact ⟨live, ensureStarted_emits _ live, ensureStarted_sim (h.congr rfl rfl rfl)⟩
  | textDelta text => simpa [slotStep, renderEvent] using renderText_follows h text false
  | thinkingDelta text => simpa [slotStep, renderEvent] using renderText_follows h text true
  | toolUseStart id name =>
    obtain ⟨live', hstops, hsim⟩ := closeText_sim (ensureStarted_sim h)
    obtain ⟨live'', hopening, hsim'⟩ := openTool_sim hsim id name
    exact ⟨live'', ((ensureStarted_emits st live).append hstops).append hopening, hsim'⟩
  | toolUseDelta id partialJson =>
    refine ⟨live, ?_, ?_⟩
    · cases hblock : st.toolBlock id with
      | none => simp [renderEvent, hblock, Emits]
      | some index =>
        have hmem : ∃ tool ∈ st.openTools, tool.2 = index := by
          obtain ⟨tool, htool, hindex⟩ := Option.map_eq_some_iff.mp hblock
          rcases Option.or_eq_some_iff.mp htool with hfind | ⟨-, hlast⟩
          · exact ⟨tool, List.mem_of_find?_eq_some hfind, hindex⟩
          · exact ⟨tool, List.mem_of_getLast? hlast, hindex⟩
        obtain ⟨tool, htool, rfl⟩ := hmem
        cases h with
        | writing _ i k hk hopen htools =>
          rw [htools] at htool
          simp at htool
        | calling _ hopen hnodup hlt =>
          have hitem : (tool.2, BlockKind.toolUse) ∈ toolItems st.openTools :=
            List.mem_map.mpr ⟨tool, htool, rfl⟩
          simp [renderEvent, hblock, Emits, Part.act?, step, hitem]
    · have hst : (renderEvent (.toolUseDelta id partialJson) st).1 = st := by
        simp only [renderEvent]
        split <;> rfl
      rw [hst]
      exact h
  | toolUseEnd id => exact closeTool_sim h id
  | usageUpdate usage => exact ⟨live, Emits.nil live, h.congr rfl rfl rfl⟩
  | stop reason usage => simp [StreamEvent.isStop] at hstop
  | error message => exact ⟨live, by simp [Emits, renderEvent, Part.act?], h⟩

/-- A run of events without a stop keeps the relation to its end, or the
checker refuses the frames. -/
theorem renderAll_follows {slot : Option BlockKind} {st : RenderState} {live : Live BlockKind}
    (h : Sim slot st live) (events : List StreamEvent) (hstop : ∀ e ∈ events, e.isStop = false) :
    Follows (slotRun slot events) live (renderAll renderEvent events st) := by
  induction events generalizing slot st live with
  | nil => exact ⟨live, Emits.nil live, h⟩
  | cons e rest ih =>
    have hfirst := renderEvent_follows h e (hstop e (by simp))
    have hrest : ∀ e' ∈ rest, e'.isStop = false := fun e' he' => hstop e' (by simp [he'])
    simp only [slotRun, List.foldlM_cons, renderAll_cons]
    cases hslot : slotStep slot e with
    | none =>
      rw [hslot] at hfirst
      have hnone : run live (acts (parts (renderEvent e st).2)) = none := hfirst
      change run live (acts (parts (_ ++ _))) = none
      rw [parts_append, acts_append, run_append, hnone]
      rfl
    | some slot' =>
      rw [hslot] at hfirst
      obtain ⟨live', hemits, hsim⟩ := hfirst
      have htail := ih hsim hrest
      change Follows (slotRun slot' rest) live _
      cases hrun : slotRun slot' rest with
      | none =>
        rw [hrun] at htail
        exact hemits.append_none htail
      | some slot'' =>
        rw [hrun] at htail
        obtain ⟨live'', hemits', hsim'⟩ := htail
        exact ⟨live'', hemits.append hemits', hsim'⟩

theorem compatible_toolUse_right (k : BlockKind) : Compatible k .toolUse := by
  simp [Compatible]

theorem isChain_toolUse_cons (ks : List BlockKind) :
    (BlockKind.toolUse :: ks).IsChain Compatible ↔ ks.IsChain Compatible := by
  cases ks with
  | nil => simp
  | cons k rest => simp [Compatible]

/-- The slot automaton accepts exactly the sequences without a kind switch. -/
theorem slotRun_isSome_iff (slot : Option BlockKind) (events : List StreamEvent) :
    (slotRun slot events).isSome ↔
      (slot.toList ++ events.filterMap slotEvent?).IsChain Compatible := by
  induction events generalizing slot with
  | nil => cases slot <;> simp [slotRun]
  | cons e rest ih =>
    have hstep : slotRun slot (e :: rest) = (slotStep slot e).bind (fun s => slotRun s rest) := by
      simp [slotRun, List.foldlM_cons, bind]
    have htext := ih (some .text)
    have hthinking := ih (some .thinking)
    have hnone := ih none
    simp only [Option.toList_some, List.cons_append, List.nil_append, Option.toList_none]
      at htext hthinking hnone
    rw [hstep]
    cases e with
    | textDelta text =>
      rcases slot with _ | _ | _ | _ <;> simp [slotStep, slotEvent?, htext, Compatible]
    | thinkingDelta text =>
      rcases slot with _ | _ | _ | _ <;> simp [slotStep, slotEvent?, hthinking, Compatible]
    | toolUseStart id name =>
      rcases slot with _ | k <;>
        simp [slotStep, slotEvent?, hnone, isChain_toolUse_cons, compatible_toolUse_right]
    | _ => simpa [slotStep, slotEvent?, List.filterMap_cons] using ih slot

/-- The slot is free at the end exactly when the last event to touch it was the
start of a tool call, or there was none. -/
theorem slotRun_eq_none_iff (events : List StreamEvent) {slot : Option BlockKind}
    (h : slotRun none events = some slot) :
    slot = none ↔ (events.filterMap slotEvent?).getLast?.all (· = .toolUse) := by
  induction events using List.reverseRecOn generalizing slot with
  | nil =>
    have hslot : none = slot := Option.some.inj h
    simp [← hslot]
  | append_singleton events e ih =>
    rw [slotRun, List.foldlM_append] at h
    obtain ⟨slot₀, hevents, hlast⟩ := Option.bind_eq_some_iff.mp h
    have hlast' : slotStep slot₀ e = some slot := by simpa using hlast
    rw [List.filterMap_append]
    cases e with
    | textDelta text =>
      by_cases hslot : slot₀ = some .thinking
      · simp [slotStep, hslot] at hlast'
      · have heq : some .text = slot := by simpa [slotStep, hslot] using hlast'
        simp [slotEvent?, ← heq]
    | thinkingDelta text =>
      by_cases hslot : slot₀ = some .text
      · simp [slotStep, hslot] at hlast'
      · have heq : some .thinking = slot := by simpa [slotStep, hslot] using hlast'
        simp [slotEvent?, ← heq]
    | toolUseStart id name =>
      have heq : none = slot := by simpa [slotStep] using hlast'
      simp [slotEvent?, ← heq]
    | _ =>
      have heq : slot₀ = slot := by simpa [slotStep] using hlast'
      rw [← heq]
      simpa [slotEvent?, List.filterMap_cons] using ih hevents

theorem Sim.items_eq_nil_iff {slot : Option BlockKind} {st : RenderState} {live : Live BlockKind}
    (h : Sim slot st live) : live.items = [] ↔ slot = none ∧ st.openTools.map Prod.fst = [] := by
  cases h with
  | writing _ i k hk hopen htools => simp
  | calling _ hopen hnodup hlt => simp [toolItems]

end OpenAIGateway.Anthropic
