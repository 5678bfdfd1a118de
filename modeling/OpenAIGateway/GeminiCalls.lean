import OpenAIGateway.CallEvents
import OpenAIGateway.GeminiRender

/-!
The calls of a rendered Gemini stream. A call is held from its start, with the
fragments that come for it, and goes out whole: on its end, or on the stop with
every other call still held.
-/

set_option linter.all false

namespace OpenAIGateway.Gemini

open Transition

section Keys

variable {α : Type*} (key : α → String) {xs : List α}

theorem filter_key_eq (id : String) (h : (xs.map key).Nodup) :
    xs.filter (fun x => key x = id) = (xs.find? (fun x => key x = id)).toList := by
  induction xs with
  | nil => rfl
  | cons x xs ih =>
    obtain ⟨hnew, hrest⟩ := List.nodup_cons.mp h
    by_cases hx : key x = id
    · have hnone : xs.filter (fun y => key y = id) = [] := by
        rw [List.filter_eq_nil_iff]
        intro y hy hkey
        exact hnew (List.mem_map.mpr ⟨y, hy, (of_decide_eq_true hkey).trans hx.symm⟩)
      simp [hx, hnone]
    · simp [hx, ih hrest]

theorem eraseP_key_eq (id : String) (h : (xs.map key).Nodup) :
    xs.eraseP (fun x => key x = id) = xs.filter (fun x => key x ≠ id) := by
  induction xs with
  | nil => rfl
  | cons x xs ih =>
    obtain ⟨hnew, hrest⟩ := List.nodup_cons.mp h
    by_cases hx : key x = id
    · have hall : xs.filter (fun y => key y ≠ id) = xs := by
        rw [List.filter_eq_self]
        intro y hy
        exact decide_eq_true (fun hkey => hnew (List.mem_map.mpr ⟨y, hy, hkey.trans hx.symm⟩))
      have herase : (x :: xs).eraseP (fun y => key y = id) = xs := by simp [hx]
      have hfilter : (x :: xs).filter (fun y => key y ≠ id) = xs.filter (fun y => key y ≠ id) := by
        simp [hx]
      rw [herase, hfilter, hall]
    · simp [hx, ih hrest]

end Keys

variable {fromStr : String → Option Json}

/-- The parts a frame's candidate carries. -/
def partsOf (data : Json) : List Json :=
  match data["candidates"].asArray.bind List.head? with
  | none => []
  | some candidate => candidate["content"]["parts"].asArray.getD []

def isCall (part : Json) : Bool := (part.get "functionCall").isSome

/-- The calls that frames carry. -/
def callParts (frames : List Frame) : List Json :=
  frames.flatMap (fun f => (partsOf f.data).filter isCall)

def pendingOf (call : ToldCall) : PendingCall := ⟨call.id, call.name, call.arguments⟩

/-- The part a call goes out as. -/
def callPart (fromStr : String → Option Json) (call : ToldCall) : Json :=
  (pendingOf call).part fromStr

theorem callParts_append (xs ys : List Frame) :
    callParts (xs ++ ys) = callParts xs ++ callParts ys :=
  List.flatMap_append

theorem callParts_chunk (st : RenderState) (parts : List Json) (finish : Option String) :
    callParts [st.chunk parts finish] = parts.filter isCall :=
  List.append_nil _

theorem filter_isCall (calls : List ToldCall) :
    (calls.map (callPart fromStr)).filter isCall = calls.map (callPart fromStr) := by
  rw [List.filter_eq_self]
  intro part hpart
  obtain ⟨call, -, rfl⟩ := List.mem_map.mp hpart
  rfl

/-- The calls that an event ends. -/
def leaving (c : Calls) : StreamEvent → List String
  | .toolUseEnd id => c.going.filter (fun other => other = id)
  | .stop _ _ => c.going
  | _ => []

/-- A fragment comes while its call is going. -/
def WhileGoing (c : Calls) : StreamEvent → Prop
  | .toolUseDelta id _ => id ∈ c.going
  | _ => True

instance (c : Calls) : DecidablePred (WhileGoing c) := fun e =>
  match e with
  | .toolUseDelta id _ => inferInstanceAs (Decidable (id ∈ c.going))
  | .toolUseStart _ _ | .toolUseEnd _ | .textDelta _ | .thinkingDelta _ | .start _ _
  | .usageUpdate _ | .stop _ _ | .error _ => isTrue trivial

/-- The calls told so far whose ids are among some. -/
def among (ids : List String) (calls : List ToldCall) : List ToldCall :=
  calls.filter (fun call => call.id ∈ ids)

/-- A renderer that was told `t` holds the calls still going. -/
structure Buffers (c : Calls) (t : Told) (st : RenderState) : Prop where
  ids : t.calls.map ToldCall.id = c.started
  nodup : c.started.Nodup
  going : ∀ id ∈ c.going, id ∈ c.started
  pending : st.pending = (among c.going t.calls).map pendingOf
  finished : st.finished = c.stopped
  stopped : c.stopped = true → c.going = []

variable {c c' : Calls} {t : Told} {st : RenderState}

theorem buffers_new : Buffers {} {} RenderState.new where
  ids := rfl
  nodup := List.nodup_nil
  going := fun _ h => nomatch h
  pending := rfl
  finished := rfl
  stopped := fun h => nomatch h

theorem Buffers.nodup_ids (h : Buffers c t st) : (t.calls.map ToldCall.id).Nodup :=
  h.ids ▸ h.nodup

theorem Buffers.nodup_among (h : Buffers c t st) (ids : List String) :
    ((among ids t.calls).map ToldCall.id).Nodup :=
  h.nodup_ids.sublist (List.filter_sublist.map _)

/-- Fragments of a held call are held with it. -/
theorem pushArgs_pendingOf {id : String} (partialJson : String) {calls : List ToldCall}
    (h : id ∈ calls.map ToldCall.id) :
    pushArgs id partialJson (calls.map pendingOf) =
      (pushArguments id partialJson calls).map pendingOf := by
  induction calls with
  | nil => cases h
  | cons call calls ih =>
    by_cases hid : call.id = id
    · simp [pushArgs, pushArguments, pendingOf, hid]
    · have hrest : id ∈ calls.map ToldCall.id := by
        rcases List.mem_cons.mp h with heq | hrest
        · exact absurd heq.symm hid
        · exact hrest
      have hpending : (pendingOf call).id ≠ id := hid
      rw [List.map_cons, pushArgs, if_neg hpending, pushArguments, if_neg hid, List.map_cons,
        ih hrest]

/-- Fragments change no call's id, so they keep which calls are chosen by it. -/
theorem filter_pushArguments {id : String} (partialJson : String) {calls : List ToldCall}
    (hnodup : (calls.map ToldCall.id).Nodup) (p : String → Bool) :
    (pushArguments id partialJson calls).filter (fun call => p call.id) =
      pushArguments id partialJson (calls.filter (fun call => p call.id)) := by
  have hsub : ((calls.filter (fun call => p call.id)).map ToldCall.id).Nodup :=
    hnodup.sublist (List.filter_sublist.map _)
  rw [pushArguments_of_nodup hnodup, pushArguments_of_nodup hsub, List.filter_map]
  congr 1
  apply List.filter_congr
  intro call _
  by_cases hid : call.id = id
  · simp [hid]
  · simp [hid]

theorem pushArguments_of_notMem {id : String} (partialJson : String) {calls : List ToldCall}
    (h : id ∉ calls.map ToldCall.id) : pushArguments id partialJson calls = calls := by
  induction calls with
  | nil => rfl
  | cons call calls ih =>
    rw [List.map_cons, List.mem_cons, not_or] at h
    rw [pushArguments, if_neg (Ne.symm h.1), ih h.2]

theorem mem_among_ids {id : String} {ids : List String} {calls : List ToldCall} :
    id ∈ (among ids calls).map ToldCall.id ↔ id ∈ calls.map ToldCall.id ∧ id ∈ ids := by
  constructor
  · intro h
    obtain ⟨call, hcall, rfl⟩ := List.mem_map.mp h
    obtain ⟨hmem, hid⟩ := List.mem_filter.mp hcall
    exact ⟨List.mem_map_of_mem hmem, of_decide_eq_true hid⟩
  · rintro ⟨h, hid⟩
    obtain ⟨call, hcall, rfl⟩ := List.mem_map.mp h
    exact List.mem_map.mpr ⟨call, List.mem_filter.mpr ⟨hcall, decide_eq_true hid⟩, rfl⟩

theorem among_filter (ids : List String) (p : String → Bool) (calls : List ToldCall) :
    among (ids.filter p) calls = (among ids calls).filter (fun call => p call.id) := by
  unfold among
  rw [List.filter_filter]
  apply List.filter_congr
  intro call _
  simp [List.mem_filter, Bool.and_comm]

theorem among_nil (calls : List ToldCall) : among [] calls = [] :=
  List.filter_eq_nil_iff.mpr (fun _ _ => by simp)

theorem Buffers.nodup_pending (h : Buffers c t st) : (st.pending.map PendingCall.id).Nodup := by
  rw [h.pending, List.map_map]
  exact h.nodup_among c.going

/-- What an event sends of calls: those it ends, whole. -/
theorem Buffers.sent (h : Buffers c t st) (e : StreamEvent) :
    callParts (renderEvent fromStr e st).2 =
      (among (leaving c e) t.calls).map (callPart fromStr) := by
  cases e with
  | toolUseEnd id =>
    have hleaving : among (leaving c (.toolUseEnd id)) t.calls =
        (among c.going t.calls).filter (fun call => call.id = id) := among_filter ..
    have hfound : st.pending.find? (fun call => call.id = id) =
        ((among c.going t.calls).find? (fun call => call.id = id)).map pendingOf := by
      rw [h.pending, List.find?_map]
      rfl
    rw [hleaving, filter_key_eq ToldCall.id id (h.nodup_among c.going)]
    cases hcall : (among c.going t.calls).find? (fun call => call.id = id) with
    | none =>
      rw [hcall] at hfound
      simp [renderEvent, RenderState.takePending, hfound, callParts]
    | some call =>
      rw [hcall] at hfound
      simp only [renderEvent, RenderState.takePending, hfound, Option.map_some, Option.toList_some,
        callParts_chunk]
      exact filter_isCall [call]
  | stop reason usage =>
    cases hfinished : st.finished with
    | true =>
      have hgone : c.going = [] := h.stopped (h.finished ▸ hfinished)
      simp [renderEvent, hfinished, leaving, hgone, among_nil, callParts]
    | false =>
      simp only [renderEvent, hfinished, Bool.false_eq_true, if_false, callParts_chunk, leaving,
        h.pending, List.map_map]
      exact filter_isCall _
  | start | usageUpdate | toolUseStart | toolUseDelta =>
    simp [renderEvent, leaving, among_nil, callParts]
  | textDelta text | thinkingDelta text =>
    simp only [renderEvent, leaving, among_nil, callParts_chunk]
    rfl
  | error message =>
    simp only [leaving, among_nil]
    rfl

/-- A call that is new is none of those told. -/
theorem Buffers.id_ne (h : Buffers c t st) {id : String} (hnew : id ∉ c.started) :
    ∀ call ∈ t.calls, call.id ≠ id := by
  rintro call hcall rfl
  exact hnew (h.ids ▸ List.mem_map_of_mem hcall)

/-- A new call is held after the others. -/
theorem Buffers.among_started (h : Buffers c t st) {id : String} (name : String)
    (hnew : id ∉ c.started) :
    among (c.going ++ [id]) (t.calls ++ [⟨id, name, ""⟩]) =
      among c.going t.calls ++ [⟨id, name, ""⟩] := by
  have hheld : among (c.going ++ [id]) t.calls = among c.going t.calls := by
    apply List.filter_congr
    intro call hcall
    simp [h.id_ne hnew call hcall]
  unfold among at hheld ⊢
  rw [List.filter_append, hheld]
  simp

/-- Taking a call out leaves the others held. -/
theorem renderEvent_end (id : String) (st : RenderState) :
    (renderEvent fromStr (.toolUseEnd id) st).1 =
      { st with pending := st.pending.eraseP (fun call => call.id = id) } := by
  cases hfound : st.pending.find? (fun call => call.id = id) with
  | none =>
    have hkept : st.pending.eraseP (fun call => call.id = id) = st.pending :=
      List.eraseP_of_forall_not (List.find?_eq_none.mp hfound)
    simp only [renderEvent, RenderState.takePending, hfound, hkept]
  | some call => simp only [renderEvent, RenderState.takePending, hfound]

/-- The renderer follows every event. -/
theorem Buffers.step (h : Buffers c t st) {e : StreamEvent} (hgoing : WhileGoing c e)
    (hstep : c.step e = some c') :
    Buffers c' (t.tell e) (renderEvent fromStr e st).1 := by
  obtain ⟨hids, hnodup⟩ := Calls.ids_tell h.ids h.nodup hstep
  cases e with
  | start | usageUpdate | textDelta | thinkingDelta | error =>
    obtain rfl := Option.some.inj hstep
    exact ⟨hids, hnodup, h.going, h.pending, h.finished, h.stopped⟩
  | toolUseStart id name =>
    obtain ⟨⟨hnew, hgoes⟩, hc⟩ := Option.ite_none_right_eq_some.mp hstep
    obtain rfl := Option.some.inj hc
    refine ⟨hids, hnodup, ?_, ?_, h.finished, ?_⟩
    · intro other hother
      rcases List.mem_append.mp hother with hother | hother
      · exact List.mem_append_left _ (h.going other hother)
      · exact List.mem_append_right _ hother
    · simp only [Told.tell, renderEvent]
      rw [h.among_started name hnew, h.pending, List.map_append]
      rfl
    · intro hstopped
      exact absurd (hgoes.symm.trans hstopped) Bool.false_ne_true
  | toolUseDelta id partialJson =>
    obtain ⟨-, hc⟩ := Option.ite_none_right_eq_some.mp hstep
    obtain rfl := Option.some.inj hc
    refine ⟨hids, hnodup, h.going, ?_, h.finished, h.stopped⟩
    have hheld : id ∈ (among c.going t.calls).map ToldCall.id :=
      mem_among_ids.mpr ⟨h.ids ▸ h.going id hgoing, hgoing⟩
    simp only [Told.tell, renderEvent]
    rw [h.pending, pushArgs_pendingOf partialJson hheld]
    exact congrArg _ (filter_pushArguments partialJson h.nodup_ids (fun id => id ∈ c.going)).symm
  | toolUseEnd id =>
    obtain rfl := Option.some.inj hstep
    rw [renderEvent_end]
    refine ⟨hids, hnodup, ?_, ?_, h.finished, ?_⟩
    · exact fun other hother => h.going other (List.mem_of_mem_filter hother)
    · simp only [Told.tell]
      rw [eraseP_key_eq PendingCall.id id h.nodup_pending, among_filter, h.pending, List.filter_map]
      rfl
    · intro hstopped
      simp only [h.stopped hstopped, List.filter_nil]
  | stop reason usage =>
    obtain rfl := Option.some.inj hstep
    refine ⟨hids, hnodup, (fun _ hid => absurd hid List.not_mem_nil), ?_, ?_, fun _ => rfl⟩
    · rw [among_nil]
      cases hfinished : st.finished with
      | true =>
        have hgone : c.going = [] := h.stopped (h.finished ▸ hfinished)
        simp [renderEvent, hfinished, h.pending, hgone, among_nil]
      | false => simp [renderEvent, hfinished]
    · cases hfinished : st.finished <;> simp [renderEvent, hfinished]

theorem Buffers.run (h : Buffers c t st) {events : List StreamEvent}
    (hgoing : AllSteps Calls.step WhileGoing c events)
    (hrun : Transition.run Calls.step c events = some c') :
    Buffers c' (t.tellAll events) (renderAll (renderEvent fromStr) events st).1 := by
  induction events generalizing c t st with
  | nil =>
    obtain rfl : c = c' := Option.some.inj hrun
    exact h
  | cons e events ih =>
    obtain ⟨next, hnext, hrest⟩ := Option.bind_eq_some_iff.mp hrun
    exact ih (h.step hgoing.1 hnext) (hgoing.2 next hnext) hrest

/-- The calls told so far whose ids are not among some. -/
def apart (ids : List String) (calls : List ToldCall) : List ToldCall :=
  calls.filter (fun call => call.id ∉ ids)

theorem apart_nil (calls : List ToldCall) : apart [] calls = calls :=
  List.filter_eq_self.mpr (fun _ _ => by simp)

/-- The calls that leave join those that were not going. -/
theorem apart_leaving {ids left kept : List String} (calls : List ToldCall)
    (hids : ∀ id, id ∈ ids ↔ id ∈ left ∨ id ∈ kept) (hleft : ∀ id ∈ left, id ∉ kept) :
    (apart ids calls ++ among left calls).Perm (apart kept calls) := by
  have hout : apart ids calls = (apart kept calls).filter (fun call => call.id ∉ left) := by
    unfold apart
    rw [List.filter_filter]
    apply List.filter_congr
    intro call _
    simp [hids]
  have hin : among left calls = (apart kept calls).filter (fun call => !decide (call.id ∉ left)) := by
    unfold among apart
    rw [List.filter_filter]
    apply List.filter_congr
    intro call _
    by_cases hid : call.id ∈ left
    · simp [hid, hleft]
    · simp [hid]
  rw [hout, hin]
  exact List.filter_append_perm ..

/-- A new call is not among those that are no longer going. -/
theorem Buffers.apart_started (h : Buffers c t st) {id : String} (name : String)
    (hnew : id ∉ c.started) :
    apart (c.going ++ [id]) (t.calls ++ [⟨id, name, ""⟩]) = apart c.going t.calls := by
  unfold apart
  rw [List.filter_append]
  have hlast : [(⟨id, name, ""⟩ : ToldCall)].filter
      (fun call => call.id ∉ c.going ++ [id]) = [] := by simp
  rw [hlast, List.append_nil]
  apply List.filter_congr
  intro call hcall
  simp [h.id_ne hnew call hcall]

/-- What has been sent is what is no longer going, after each event as before it. -/
theorem Buffers.apart_step (h : Buffers c t st) {e : StreamEvent} (hgoing : WhileGoing c e)
    (hstep : c.step e = some c') :
    (apart c.going t.calls ++ among (leaving c e) t.calls).Perm
      (apart c'.going (t.tell e).calls) := by
  cases e with
  | start | usageUpdate | textDelta | thinkingDelta | error =>
    obtain rfl := Option.some.inj hstep
    simp only [leaving, among_nil, List.append_nil]
    exact List.Perm.refl _
  | toolUseStart id name =>
    obtain ⟨⟨hnew, -⟩, hc⟩ := Option.ite_none_right_eq_some.mp hstep
    obtain rfl := Option.some.inj hc
    simp only [leaving, among_nil, List.append_nil, Told.tell, h.apart_started name hnew]
    exact List.Perm.refl _
  | toolUseDelta id partialJson =>
    obtain ⟨-, hc⟩ := Option.ite_none_right_eq_some.mp hstep
    obtain rfl := Option.some.inj hc
    have hsame : apart c.going (pushArguments id partialJson t.calls) = apart c.going t.calls := by
      refine (filter_pushArguments partialJson h.nodup_ids (fun id => id ∉ c.going)).trans ?_
      apply pushArguments_of_notMem
      intro hmem
      obtain ⟨call, hcall, rfl⟩ := List.mem_map.mp hmem
      exact of_decide_eq_true (List.mem_filter.mp hcall).2 hgoing
    simp only [leaving, among_nil, List.append_nil, Told.tell, hsame]
    exact List.Perm.refl _
  | toolUseEnd id =>
    obtain rfl := Option.some.inj hstep
    apply apart_leaving
    · intro other
      by_cases hother : other = id
      · simp [leaving, hother]
      · simp [leaving, hother]
    · intro other hother
      simp [leaving] at hother
      simp [hother.2]
  | stop reason usage =>
    obtain rfl := Option.some.inj hstep
    exact apart_leaving t.calls (fun id => by simp [leaving]) (fun id _ => by simp)

/-- Over a run, what is sent are the calls that are no longer going at its end. -/
theorem Buffers.sent_run (h : Buffers c t st) {events : List StreamEvent} {parts : List Json}
    (hparts : parts.Perm ((apart c.going t.calls).map (callPart fromStr)))
    (hgoing : AllSteps Calls.step WhileGoing c events)
    (hrun : Transition.run Calls.step c events = some c') :
    (parts ++ callParts (renderAll (renderEvent fromStr) events st).2).Perm
      ((apart c'.going (t.tellAll events).calls).map (callPart fromStr)) := by
  induction events generalizing c t st parts with
  | nil =>
    obtain rfl : c = c' := Option.some.inj hrun
    simpa [callParts, Told.tellAll] using hparts
  | cons e events ih =>
    obtain ⟨next, hnext, hrest⟩ := Option.bind_eq_some_iff.mp hrun
    have hstep : (parts ++ callParts (renderEvent fromStr e st).2).Perm
        ((apart next.going (t.tell e).calls).map (callPart fromStr)) := by
      rw [h.sent e]
      calc (parts ++ (among (leaving c e) t.calls).map (callPart fromStr)).Perm
            ((apart c.going t.calls).map (callPart fromStr) ++
              (among (leaving c e) t.calls).map (callPart fromStr)) := hparts.append_right _
        _ = (apart c.going t.calls ++ among (leaving c e) t.calls).map (callPart fromStr) :=
          (List.map_append ..).symm
        List.Perm _ _ := (h.apart_step hgoing.1 hnext).map _
    rw [renderAll_cons, callParts_append, ← List.append_assoc]
    exact ih (h.step hgoing.1 hnext) hstep (hgoing.2 next hnext) hrest

/-- A call that is no longer going has no more fragments. -/
theorem ownFragments_of_gone {id : String} {events : List StreamEvent} (hstarted : id ∈ c.started)
    (hgone : id ∉ c.going) (hgoing : AllSteps Calls.step WhileGoing c events)
    (hrun : Transition.run Calls.step c events = some c') : ownFragments id events = "" := by
  induction events generalizing c with
  | nil => rfl
  | cons e events ih =>
    obtain ⟨next, hnext, hrest⟩ := Option.bind_eq_some_iff.mp hrun
    have hafter := hgoing.2 next hnext
    rw [ownFragments_cons]
    cases e with
    | toolUseDelta key partialJson =>
      obtain ⟨-, hc⟩ := Option.ite_none_right_eq_some.mp hnext
      obtain rfl := Option.some.inj hc
      have hother : key ≠ id := by
        rintro rfl
        exact hgone hgoing.1
      rw [ih hstarted hgone hafter hrest]
      simp [ownFragments, hother]
    | toolUseStart key name =>
      obtain ⟨⟨hnew, -⟩, hc⟩ := Option.ite_none_right_eq_some.mp hnext
      obtain rfl := Option.some.inj hc
      have hother : id ≠ key := by
        rintro rfl
        exact hnew hstarted
      refine ih ?_ ?_ hafter hrest
      · exact List.mem_append_left _ hstarted
      · simp [hgone, hother]
    | toolUseEnd key =>
      obtain rfl := Option.some.inj hnext
      refine ih ?_ ?_ hafter hrest
      · exact hstarted
      · exact fun hmem => hgone (List.mem_of_mem_filter hmem)
    | stop reason usage =>
      obtain rfl := Option.some.inj hnext
      refine ih ?_ ?_ hafter hrest
      · exact hstarted
      · exact List.not_mem_nil
    | start | usageUpdate | textDelta | thinkingDelta | error =>
      obtain rfl := Option.some.inj hnext
      exact ih hstarted hgone hafter hrest

/-- A call that leaves has all of its fragments. -/
theorem Buffers.among_leaving (h : Buffers c t st) {e : StreamEvent} {rest : List StreamEvent}
    (hgoing : AllSteps Calls.step WhileGoing c (e :: rest))
    (hrun : Transition.run Calls.step c (e :: rest) = some c') :
    among (leaving c e) (t.tellAll (e :: rest)).calls = among (leaving c e) t.calls := by
  have hstarted : ∀ id ∈ leaving c e, id ∈ c.started := by
    intro id hid
    cases e with
    | toolUseEnd key => exact h.going id (List.mem_of_mem_filter hid)
    | stop reason usage => exact h.going id hid
    | start | usageUpdate | textDelta | thinkingDelta | error | toolUseStart | toolUseDelta =>
      cases hid
  have hown : ∀ id ∈ leaving c e, ownFragments id (e :: rest) = "" := by
    obtain ⟨next, hnext, hrest⟩ := Option.bind_eq_some_iff.mp hrun
    intro id hid
    rw [ownFragments_cons]
    cases e with
    | toolUseEnd key =>
      obtain rfl := Option.some.inj hnext
      have hkey : id = key := of_decide_eq_true (List.mem_filter.mp hid).2
      refine ownFragments_of_gone ?_ ?_ (hgoing.2 _ hnext) hrest
      · exact hstarted id hid
      · simp [hkey]
    | stop reason usage =>
      obtain rfl := Option.some.inj hnext
      refine ownFragments_of_gone ?_ ?_ (hgoing.2 _ hnext) hrest
      · exact hstarted id hid
      · exact List.not_mem_nil
    | start | usageUpdate | textDelta | thinkingDelta | error | toolUseStart | toolUseDelta =>
      cases hid
  have hlater : among (leaving c e) (ownCalls (e :: rest)) = [] := by
    rw [among, List.filter_eq_nil_iff]
    intro call hcall hid
    obtain ⟨started, hmem, rfl⟩ := List.mem_map.mp hcall
    exact notMem_of_started hrun started hmem (hstarted _ (of_decide_eq_true hid))
  rw [calls_told_from t h.ids h.nodup hrun, among, List.filter_append]
  rw [among] at hlater
  rw [hlater, List.append_nil, List.filter_map]
  calc _ = (t.calls.filter (fun call => call.id ∈ leaving c e)).map id := by
        apply List.map_congr_left
        intro call hcall
        have hid : call.id ∈ leaving c e := of_decide_eq_true (List.mem_filter.mp hcall).2
        rw [hown call.id hid, String.append_empty]
        rfl
    _ = among (leaving c e) t.calls := List.map_id _

/-- A Gemini stream carries each started call once, with its own name and arguments. It goes out
when its end comes, or with the stop, and nothing is left held. -/
theorem calls_emitted_once (fromStr : String → Option Json) (body : List StreamEvent)
    (reason : StopReason) (usage : Usage) (h : Interleaved (body ++ [.stop reason usage]))
    (hgoing : AllSteps Calls.step WhileGoing {} (body ++ [.stop reason usage])) :
    (callParts (renderAll (renderEvent fromStr) (body ++ [.stop reason usage])
        RenderState.new).2).Perm
      ((ownCalls (body ++ [.stop reason usage])).map (callPart fromStr)) ∧
    (renderAll (renderEvent fromStr) (body ++ [.stop reason usage]) RenderState.new).1.pending = [] ∧
    ∀ past e rest c, body ++ [.stop reason usage] = past ++ e :: rest →
      Transition.run Calls.step {} past = some c →
      callParts (renderEvent fromStr e
          (renderAll (renderEvent fromStr) past RenderState.new).1).2 =
        (among (leaving c e) (ownCalls (body ++ [.stop reason usage]))).map (callPart fromStr) := by
  obtain ⟨c', hrun⟩ := Option.isSome_iff_exists.mp h
  have hnone : c'.going = [] := by
    rw [run_append] at hrun
    obtain ⟨before, -, hlast⟩ := Option.bind_eq_some_iff.mp hrun
    obtain rfl := Option.some.inj hlast
    rfl
  have hend : Buffers c' (Told.of (body ++ [.stop reason usage]))
      (renderAll (renderEvent fromStr) (body ++ [.stop reason usage]) RenderState.new).1 :=
    buffers_new.run hgoing hrun
  refine ⟨?_, ?_, ?_⟩
  · have hsent := buffers_new.sent_run (List.Perm.refl ([].map (callPart fromStr))) hgoing hrun
    rw [hnone, apart_nil] at hsent
    rw [← calls_told h]
    exact hsent
  · rw [hend.pending, hnone, among_nil]
    rfl
  · intro past e rest c hsplit hpast
    rw [← calls_told h, hsplit, Told.of_append]
    rw [hsplit] at hgoing hrun
    obtain ⟨hgoing_past, hgoing_rest⟩ := allSteps_append hgoing
    have hrest : Transition.run Calls.step c (e :: rest) = some c' := by
      rw [run_append, hpast] at hrun
      exact hrun
    have hbuffers : Buffers c (Told.of past)
        (renderAll (renderEvent fromStr) past RenderState.new).1 :=
      buffers_new.run hgoing_past hpast
    rw [hbuffers.sent e]
    exact congrArg _ (hbuffers.among_leaving (hgoing_rest c hpast) hrest).symm

/-! Two calls that alternate, one of them never ended. -/

def interleavedCalls : List StreamEvent :=
  [.toolUseStart "a" "read", .toolUseStart "b" "write", .toolUseDelta "a" "", .toolUseDelta "b" "1",
    .toolUseDelta "a" "{}", .toolUseEnd "a", .toolUseEnd "a"]

theorem interleaved_emitted_once :
    (callParts (renderAll (renderEvent readEmpty) (interleavedCalls ++ [.stop .toolUse {}])
        RenderState.new).2).Perm
      ((ownCalls (interleavedCalls ++ [.stop .toolUse {}])).map (callPart readEmpty)) :=
  (calls_emitted_once readEmpty interleavedCalls .toolUse {} (by decide) (by decide)).1

end OpenAIGateway.Gemini
