import OpenAIGateway.ReadBack
import OpenAIGateway.Transition

/-!
The calls of a sequence of events. Fragments are addressed by id and those of
several calls may alternate; a call's arguments are its own fragments, in the
order they came.
-/

set_option linter.all false

namespace OpenAIGateway

open Transition

/-- The ids and names of the calls that are started, in order. -/
def startedCalls : List StreamEvent → List (String × String)
  | [] => []
  | .toolUseStart id name :: rest => (id, name) :: startedCalls rest
  | _ :: rest => startedCalls rest

/-- The fragments with an id, run together. -/
def ownFragments (id : String) : List StreamEvent → String
  | [] => ""
  | .toolUseDelta key partialJson :: rest =>
    if key = id then partialJson ++ ownFragments id rest else ownFragments id rest
  | _ :: rest => ownFragments id rest

/-- The calls that are started, each with all of its own fragments. -/
def ownCalls (events : List StreamEvent) : List ToldCall :=
  (startedCalls events).map (fun call => ⟨call.1, call.2, ownFragments call.1 events⟩)

/-- serde_json on texts of which only the empty object is JSON. -/
def readEmpty (s : String) : Option Json := if s = "{}" then some (.obj []) else none

/-- Which calls were started, which of them are still going, and whether the answer has
stopped. -/
structure Calls where
  started : List String := []
  going : List String := []
  stopped : Bool := false

/-- A call is started once, and its fragments follow; both come before a stop, which ends every
call. Anything else may come anywhere. -/
def Calls.step (c : Calls) : StreamEvent → Option Calls
  | .toolUseStart id _ =>
    if id ∉ c.started ∧ c.stopped = false then
      some { c with started := c.started ++ [id], going := c.going ++ [id] }
    else none
  | .toolUseDelta id _ => if id ∈ c.started ∧ c.stopped = false then some c else none
  | .toolUseEnd id => some { c with going := c.going.filter (fun other => other ≠ id) }
  | .stop _ _ => some { c with going := [], stopped := true }
  | .start _ _ | .textDelta _ | .thinkingDelta _ | .usageUpdate _ | .error _ => some c

def Interleaved (events : List StreamEvent) : Prop :=
  (run Calls.step {} events).isSome = true

instance (events : List StreamEvent) : Decidable (Interleaved events) :=
  inferInstanceAs (Decidable (_ = true))

/-- What an event does to the calls started so far. -/
theorem Calls.started_step {c c' : Calls} {e : StreamEvent} (h : c.step e = some c') :
    (∃ id name, e = .toolUseStart id name ∧ id ∉ c.started ∧ c'.started = c.started ++ [id]) ∨
      (∃ id partialJson, e = .toolUseDelta id partialJson ∧ id ∈ c.started ∧ c' = c) ∨
      (startedCalls [e] = [] ∧ (∀ id, ownFragments id [e] = "") ∧
        (∀ t : Told, (t.tell e).calls = t.calls) ∧ c'.started = c.started) := by
  cases e with
  | toolUseStart id name =>
    obtain ⟨⟨hnew, -⟩, hc⟩ := Option.ite_none_right_eq_some.mp h
    obtain rfl := Option.some.inj hc
    exact Or.inl ⟨id, name, rfl, hnew, rfl⟩
  | toolUseDelta id partialJson =>
    obtain ⟨⟨hstarted, -⟩, hc⟩ := Option.ite_none_right_eq_some.mp h
    exact Or.inr (Or.inl ⟨id, partialJson, rfl, hstarted, (Option.some.inj hc).symm⟩)
  | toolUseEnd id | stop reason usage | start model usage | textDelta text | thinkingDelta text
  | usageUpdate usage | error message =>
    obtain rfl := Option.some.inj h
    exact Or.inr (Or.inr ⟨rfl, fun _ => rfl, fun _ => rfl, rfl⟩)

theorem startedCalls_cons (e : StreamEvent) (events : List StreamEvent) :
    startedCalls (e :: events) = startedCalls [e] ++ startedCalls events := by
  cases e <;> rfl

theorem ownFragments_cons (id : String) (e : StreamEvent) (events : List StreamEvent) :
    ownFragments id (e :: events) = ownFragments id [e] ++ ownFragments id events := by
  cases e with
  | toolUseDelta key partialJson =>
    by_cases hkey : key = id
    · simp only [ownFragments, if_pos hkey, String.append_empty]
    · simp only [ownFragments, if_neg hkey, String.empty_append]
  | toolUseStart id name | toolUseEnd id | stop reason usage | start model usage | textDelta text
  | thinkingDelta text | usageUpdate usage | error message => exact (String.empty_append ..).symm

/-- No call is started twice. -/
theorem notMem_of_started {c c' : Calls} {events : List StreamEvent}
    (hrun : run Calls.step c events = some c') :
    ∀ call ∈ startedCalls events, call.1 ∉ c.started := by
  induction events generalizing c with
  | nil => exact fun _ h => nomatch h
  | cons e events ih =>
    obtain ⟨next, hnext, hrest⟩ := Option.bind_eq_some_iff.mp hrun
    intro call hcall
    rw [startedCalls_cons] at hcall
    rcases Calls.started_step hnext with ⟨id, name, rfl, hnew, hstarted⟩ |
      ⟨id, partialJson, rfl, -, rfl⟩ | ⟨hnone, -, -, hstarted⟩
    · rcases List.mem_cons.mp hcall with rfl | hcall
      · exact hnew
      · have hlater := ih hrest call hcall
        rw [hstarted, List.mem_append, not_or] at hlater
        exact hlater.1
    · exact ih hrest call hcall
    · rw [hnone] at hcall
      rw [← hstarted]
      exact ih hrest call hcall

/-- The calls that are told are the ones started, each once. -/
theorem Calls.ids_tell {c c' : Calls} {e : StreamEvent} {t : Told}
    (hids : t.calls.map ToldCall.id = c.started) (hnodup : c.started.Nodup)
    (h : c.step e = some c') :
    (t.tell e).calls.map ToldCall.id = c'.started ∧ c'.started.Nodup := by
  rcases Calls.started_step h with ⟨id, name, rfl, hnew, hstarted⟩ |
    ⟨id, partialJson, rfl, -, rfl⟩ | ⟨-, -, hkept, hstarted⟩
  · refine ⟨?_, ?_⟩
    · simp [Told.tell, hids, hstarted]
    · rw [hstarted, ← List.concat_eq_append]
      exact hnodup.concat hnew
  · exact ⟨(Told.map_id_pushArguments ..).trans hids, hnodup⟩
  · rw [hkept, hstarted]
    exact ⟨hids, hnodup⟩

theorem pushArguments_of_nodup {id fragment : String} {calls : List ToldCall}
    (h : (calls.map ToldCall.id).Nodup) :
    pushArguments id fragment calls = calls.map (fun call =>
      if call.id = id then { call with arguments := call.arguments ++ fragment } else call) := by
  induction calls with
  | nil => rfl
  | cons call calls ih =>
    obtain ⟨hnew, hrest⟩ := List.nodup_cons.mp h
    unfold pushArguments
    by_cases hid : call.id = id
    · have hothers : calls.map (fun other =>
          if other.id = id then { other with arguments := other.arguments ++ fragment }
          else other) = calls := by
        rw [List.map_congr_left, List.map_id']
        intro other hother
        rw [if_neg]
        rintro hsame
        exact hnew (List.mem_map.mpr ⟨other, hother, hsame.trans hid.symm⟩)
      rw [List.map_cons, if_pos hid, if_pos hid, hothers]
    · rw [List.map_cons, if_neg hid, if_neg hid, ih hrest]

/-- An event that starts no call and is no fragment of one yet to start leaves those calls. -/
theorem ownCalls_cons_of_silent {e : StreamEvent} {events : List StreamEvent}
    (hnone : startedCalls [e] = [])
    (hsilent : ∀ call ∈ startedCalls events, ownFragments call.1 [e] = "") :
    ownCalls (e :: events) = ownCalls events := by
  unfold ownCalls
  rw [startedCalls_cons, hnone, List.nil_append]
  apply List.map_congr_left
  intro call hcall
  rw [ownFragments_cons, hsilent call hcall, String.empty_append]

/-- What is told of the calls: those there were take their fragments, and those started follow
with theirs. -/
theorem calls_told_from {c c' : Calls} {events : List StreamEvent} (t : Told)
    (hids : t.calls.map ToldCall.id = c.started) (hnodup : c.started.Nodup)
    (hrun : run Calls.step c events = some c') :
    (t.tellAll events).calls = t.calls.map (fun call =>
      { call with arguments := call.arguments ++ ownFragments call.id events }) ++
        ownCalls events := by
  induction events generalizing t c with
  | nil => simp [Told.tellAll, ownCalls, startedCalls, ownFragments]
  | cons e events ih =>
    obtain ⟨next, hnext, hrest⟩ := Option.bind_eq_some_iff.mp hrun
    obtain ⟨hids', hnodup'⟩ := Calls.ids_tell hids hnodup hnext
    change ((t.tell e).tellAll events).calls = _
    have hafter : ∀ (htold : (t.tell e).calls = t.calls.map (fun call =>
          { call with arguments := call.arguments ++ ownFragments call.id [e] }))
        (hnone : startedCalls [e] = [])
        (hsilent : ∀ call ∈ startedCalls events, ownFragments call.1 [e] = ""),
        ((t.tell e).tellAll events).calls = t.calls.map (fun call =>
          { call with arguments := call.arguments ++ ownFragments call.id (e :: events) }) ++
            ownCalls (e :: events) := by
      intro htold hnone hsilent
      rw [ih (t.tell e) hids' hnodup' hrest, htold, List.map_map,
        ownCalls_cons_of_silent hnone hsilent]
      congr 1
      apply List.map_congr_left
      intro call _
      simp only [Function.comp_apply, ownFragments_cons call.id e events, String.append_assoc]
    rcases Calls.started_step hnext with ⟨id, name, rfl, hnew, hstarted⟩ |
      ⟨id, partialJson, rfl, hmem, rfl⟩ | ⟨hnone, hsilent, hkept, hstarted⟩
    · rw [ih _ hids' hnodup' hrest]
      simp [Told.tell, ownCalls, startedCalls, ownFragments]
    · apply hafter
      · simp only [Told.tell]
        rw [pushArguments_of_nodup (hids ▸ hnodup)]
        apply List.map_congr_left
        intro call _
        by_cases hid : call.id = id
        · rw [if_pos hid]
          simp only [ownFragments, if_pos hid.symm, String.append_empty]
        · rw [if_neg hid]
          simp only [ownFragments, if_neg (Ne.symm hid), String.append_empty]
      · rfl
      · intro call hcall
        have hother : id ≠ call.1 := by
          rintro rfl
          exact notMem_of_started hrest call hcall hmem
        simp only [ownFragments, if_neg hother]
    · apply hafter
      · rw [hkept]
        simp [hsilent]
      · exact hnone
      · exact fun call _ => hsilent call.1

/-- Every call that is told has its own fragments, whichever way they interleave. -/
theorem calls_told {events : List StreamEvent} (h : Interleaved events) :
    (Told.of events).calls = ownCalls events := by
  obtain ⟨c, hrun⟩ := Option.isSome_iff_exists.mp h
  exact calls_told_from {} rfl List.nodup_nil hrun

end OpenAIGateway
