import OpenAIGateway.SlotSet
import OpenAIGateway.Transition

/-!
The guard of a slot, its heartbeat task and its release, against the slot store.
A call is sent, the store executes it, and its answer is read, in three steps
with anything in between; a call that is given up may still be executed. A beat
looks at the release once, before it refreshes, and takes the member back when
the refresh did not find it. So a release that the store executes while such a
beat is on its way is undone, and only then.
-/

set_option linter.all false

namespace OpenAIGateway

/-- How long a slot survives without being refreshed or released. -/
def slotTtl : ℕ := 120

/-- The heartbeat task, with the answer of the call it awaits once that is executed. -/
inductive Heartbeat
  | waiting
  | refreshing (answer : Option Bool)
  | acquiring (answer : Option Bool)
  | stopped
  deriving DecidableEq

/-- A call of the heartbeat. -/
inductive SlotCall
  | refresh
  | acquire
  deriving DecidableEq

/-- The store call of the release task. -/
inductive ReleaseCall
  | unsent
  | sent
  | executed
  deriving DecidableEq

/-- The slot key of a credential, the guard of one of its members, and the guard's tasks. -/
structure Seat (Member : Type*) where
  set : SlotSet Member
  now : ℤ
  heartbeat : Heartbeat
  /-- A clone of the lease is there. -/
  leased : Bool
  released : Bool
  release : ReleaseCall
  /-- Calls the heartbeat gave up that the store may still execute. -/
  strays : List SlotCall

/-- A script that another request, an operator or the sweep runs on the key. -/
inductive OtherCall (Member : Type*)
  | acquire (member : Member) (limit : ℕ)
  | refresh (member : Member)
  | release (member : Member)
  | clear
  | count

/-- The member a script is run for. -/
def OtherCall.member? {Member : Type*} : OtherCall Member → Option Member
  | .acquire member _ | .refresh member | .release member => some member
  | .clear | .count => none

inductive SeatEvent (Member : Type*)
  | tick (now : ℤ)
  | other (call : OtherCall Member)
  /-- The ticker fires, past the heartbeat's lifetime or not. -/
  | beat (outlived : Bool)
  | execute
  | answer
  | giveUp
  | executeStray (call : ℕ)
  | release
  | dropLease
  | executeRelease

namespace Seat

variable {Member : Type*}

/-- The guard goes: its slot is given back unless that was claimed already. -/
def dropGuard (s : Seat Member) : Seat Member :=
  if s.released then s else { s with released := true, release := .sent }

/-- A beat ends, and with it the beat's own reference to the guard. -/
def endBeat (s : Seat Member) : Seat Member :=
  let s := { s with heartbeat := .waiting }
  if s.leased then s else s.dropGuard

/-- A beat that looked before the release was claimed may still take the member
back: its refresh is unexecuted or did not find the member, or its acquire is unexecuted. -/
def Reclaiming (s : Seat Member) : Prop :=
  s.heartbeat = .refreshing none ∨ s.heartbeat = .refreshing (some false) ∨
    s.heartbeat = .acquiring none ∨ .acquire ∈ s.strays

variable [DecidableEq Member] (member : Member) (limit : ℕ)

/-- Run a call of the heartbeat on the key: the answer and the key after it. -/
def runCall (s : Seat Member) : SlotCall → Bool × SlotSet Member
  | .refresh => s.set.refreshSlot s.now member
  | .acquire =>
    let (claim, set) := s.set.acquireSlot s.now member limit slotTtl
    (decide (claim = .taken), set)

def runOther (s : Seat Member) : OtherCall Member → SlotSet Member
  | .acquire other limit => (s.set.acquireSlot s.now other limit slotTtl).2
  | .refresh other => (s.set.refreshSlot s.now other).2
  | .release other => s.set.releaseSlot other
  | .clear => s.set.clearSlots.2
  | .count => (s.set.slotsInUse s.now slotTtl).2

def step (s : Seat Member) : SeatEvent Member → Option (Seat Member)
  | .tick now => some { s with now := now }
  | .other call =>
    -- Request ids are unique, so no other request names the guard's member.
    if call.member? = some member then none else some { s with set := s.runOther call }
  | .beat outlived =>
    if s.heartbeat = .waiting then
      if !s.leased || s.released || outlived then some { s with heartbeat := .stopped }
      else some { s with heartbeat := .refreshing none }
    else none
  | .execute =>
    match s.heartbeat with
    | .refreshing none =>
      let (answer, set) := s.runCall member limit .refresh
      some { s with heartbeat := .refreshing (some answer), set := set }
    | .acquiring none =>
      let (answer, set) := s.runCall member limit .acquire
      some { s with heartbeat := .acquiring (some answer), set := set }
    | _ => none
  | .answer =>
    match s.heartbeat with
    | .refreshing (some true) => some s.endBeat
    | .refreshing (some false) => some { s with heartbeat := .acquiring none }
    | .acquiring (some _) => some s.endBeat
    | _ => none
  | .giveUp =>
    match s.heartbeat with
    | .refreshing none => some (endBeat { s with strays := s.strays ++ [.refresh] })
    | .refreshing (some _) => some s.endBeat
    | .acquiring none => some (endBeat { s with strays := s.strays ++ [.acquire] })
    | .acquiring (some _) => some s.endBeat
    | _ => none
  | .executeStray i =>
    s.strays[i]?.map (fun call =>
      { s with set := (s.runCall member limit call).2, strays := s.strays.eraseIdx i })
  | .release => if s.leased then some s.dropGuard else none
  | .dropLease =>
    if s.leased then
      let s := { s with leased := false }
      -- A beat that is under way keeps the guard until it ends.
      if s.heartbeat = .waiting ∨ s.heartbeat = .stopped then some s.dropGuard else some s
    else none
  | .executeRelease =>
    if s.release = .sent then
      some { s with set := s.set.releaseSlot member, release := .executed }
    else none

/-- A seat just leased: nothing released, nothing sent. The member is in the key,
or is not when the claim failed open. -/
def leasedSeat (set : SlotSet Member) (now : ℤ) : Seat Member :=
  ⟨set, now, .waiting, true, false, .unsent, []⟩

/-- Whatever happens, the member is not in the key. -/
def StaysOut (s : Seat Member) : Prop :=
  ∀ events s', Transition.run (step member limit) s events = some s' → member ∉ s'.set

end Seat

namespace Seat

variable {Member : Type*} {member : Member} {limit : ℕ} {s s' : Seat Member}

/-- The release is claimed, the member is out, and no beat may take it back. -/
structure Out (member : Member) (limit : ℕ) (s : Seat Member) : Prop where
  released : s.released = true
  absent : member ∉ s.set
  quiet : limit = 0 ∨ ¬ s.Reclaiming

/-- A step that leaves the key as it is and starts no beat. -/
theorem Out.of_same (h : Out member limit s) (hreleased : s'.released = s.released)
    (hset : s'.set = s.set) (hquiet : s'.Reclaiming → s.Reclaiming) : Out member limit s' :=
  ⟨hreleased.trans h.released, hset ▸ h.absent, h.quiet.imp_right (mt hquiet)⟩

/-- Between beats only a stray acquire may take the member back. -/
theorem Reclaiming.of_idle (h : s'.Reclaiming)
    (hidle : s'.heartbeat = .waiting ∨ s'.heartbeat = .stopped) (hstrays : s'.strays = s.strays) :
    s.Reclaiming := by
  rcases h with hbeat | hbeat | hbeat | hstray
  · simp [hbeat] at hidle
  · simp [hbeat] at hidle
  · simp [hbeat] at hidle
  · exact Or.inr (Or.inr (Or.inr (hstrays ▸ hstray)))

theorem endBeat_of_released (h : s.released = true) :
    s.endBeat = { s with heartbeat := .waiting } := by
  unfold endBeat dropGuard
  simp [h]

theorem dropGuard_of_released (h : s.released = true) : s.dropGuard = s := if_pos h

theorem Out.endBeat (h : Out member limit s) : Out member limit s.endBeat := by
  rw [endBeat_of_released h.released]
  exact h.of_same rfl rfl (fun hreclaim => hreclaim.of_idle (Or.inl rfl) rfl)

/-- A release is on its way only once it is claimed. -/
def Claimed (s : Seat Member) : Prop := s.release ≠ .unsent → s.released = true

theorem claimed_dropGuard (h : s.Claimed) : s.dropGuard.Claimed := by
  unfold dropGuard
  by_cases hreleased : s.released = true
  · rw [if_pos hreleased]
    exact h
  · rw [if_neg hreleased]
    exact fun _ => rfl

theorem claimed_endBeat (h : s.Claimed) : s.endBeat.Claimed := by
  have hwaiting : Claimed { s with heartbeat := .waiting } := h
  unfold endBeat
  by_cases hleased : s.leased = true
  · simp only [if_pos hleased]
    exact hwaiting
  · simp only [if_neg hleased]
    exact claimed_dropGuard hwaiting

variable [DecidableEq Member]

theorem notMem_runOther {call : OtherCall Member} (hforeign : call.member? ≠ some member)
    (h : member ∉ s.set) : member ∉ s.runOther call := by
  intro hmem
  cases call with
  | acquire other otherLimit =>
    rcases SlotSet.mem_acquireSlot hmem with hmem | ⟨rfl, -⟩
    · exact h hmem
    · exact hforeign rfl
  | refresh other => exact h (SlotSet.mem_refreshSlot.mp hmem)
  | release other => exact h (SlotSet.mem_keep hmem)
  | clear => cases hmem
  | count => exact h (SlotSet.mem_keep hmem)

theorem notMem_runCall {call : SlotCall} (h : member ∉ s.set)
    (hquiet : limit = 0 ∨ call ≠ .acquire) : member ∉ (s.runCall member limit call).2 := by
  intro hmem
  cases call with
  | refresh => exact h (SlotSet.mem_refreshSlot.mp hmem)
  | acquire =>
    rcases SlotSet.mem_acquireSlot hmem with hmem | ⟨-, hlimit⟩
    · exact h hmem
    · exact hquiet.elim hlimit (fun hne => hne rfl)

namespace Out

theorem execute (h : Out member limit s) (hstep : s.step member limit .execute = some s') :
    Out member limit s' := by
  simp only [step] at hstep
  split at hstep
  next hbeat =>
    obtain rfl := Option.some.inj hstep
    refine ⟨h.released, notMem_runCall h.absent (Or.inr (by simp)), ?_⟩
    rcases h.quiet with hlimit | hquiet
    · exact Or.inl hlimit
    · exact absurd (Or.inl hbeat) hquiet
  next hbeat =>
    obtain rfl := Option.some.inj hstep
    have hlimit : limit = 0 :=
      h.quiet.resolve_right (fun hquiet => hquiet (Or.inr (Or.inr (Or.inl hbeat))))
    exact ⟨h.released, notMem_runCall h.absent (Or.inl hlimit), Or.inl hlimit⟩
  next => cases hstep

theorem answer (h : Out member limit s) (hstep : s.step member limit .answer = some s') :
    Out member limit s' := by
  simp only [step] at hstep
  split at hstep
  next =>
    obtain rfl := Option.some.inj hstep
    exact h.endBeat
  next hbeat =>
    obtain rfl := Option.some.inj hstep
    exact h.of_same rfl rfl (fun _ => Or.inr (Or.inl hbeat))
  next =>
    obtain rfl := Option.some.inj hstep
    exact h.endBeat
  next => cases hstep

theorem giveUp (h : Out member limit s) (hstep : s.step member limit .giveUp = some s') :
    Out member limit s' := by
  simp only [step] at hstep
  split at hstep
  next hbeat =>
    obtain rfl := Option.some.inj hstep
    exact Out.endBeat (h.of_same rfl rfl (fun _ => Or.inl hbeat))
  next =>
    obtain rfl := Option.some.inj hstep
    exact h.endBeat
  next hbeat =>
    obtain rfl := Option.some.inj hstep
    exact Out.endBeat (h.of_same rfl rfl (fun _ => Or.inr (Or.inr (Or.inl hbeat))))
  next =>
    obtain rfl := Option.some.inj hstep
    exact h.endBeat
  next => cases hstep

theorem executeStray {i : ℕ} (h : Out member limit s)
    (hstep : s.step member limit (.executeStray i) = some s') : Out member limit s' := by
  obtain ⟨call, hcall, rfl⟩ := Option.map_eq_some_iff.mp hstep
  have hmem : call ∈ s.strays := List.mem_of_getElem? hcall
  refine ⟨h.released, notMem_runCall h.absent (h.quiet.imp_right ?_), h.quiet.imp_right (mt ?_)⟩
  · rintro hquiet rfl
    exact hquiet (Or.inr (Or.inr (Or.inr hmem)))
  · rintro (hbeat | hbeat | hbeat | hstray)
    · exact Or.inl hbeat
    · exact Or.inr (Or.inl hbeat)
    · exact Or.inr (Or.inr (Or.inl hbeat))
    · exact Or.inr (Or.inr (Or.inr (List.mem_of_mem_eraseIdx hstray)))

/-- No step brings the member back. -/
theorem step (s : Seat Member) (event : SeatEvent Member) (s' : Seat Member)
    (h : Out member limit s) (hstep : s.step member limit event = some s') :
    Out member limit s' := by
  cases event with
  | tick now =>
    obtain rfl := Option.some.inj hstep
    exact h.of_same rfl rfl id
  | other call =>
    obtain ⟨hforeign, hs⟩ := Option.ite_none_left_eq_some.mp hstep
    obtain rfl := Option.some.inj hs
    exact ⟨h.released, notMem_runOther hforeign h.absent, h.quiet⟩
  | beat outlived =>
    -- The release is claimed, so the beat stops where it looks.
    simp only [Seat.step, h.released, Bool.or_true, Bool.true_or, if_true] at hstep
    obtain ⟨-, hs⟩ := Option.ite_none_right_eq_some.mp hstep
    obtain rfl := Option.some.inj hs
    exact h.of_same h.released.symm rfl (fun hreclaim => hreclaim.of_idle (Or.inr rfl) rfl)
  | execute => exact h.execute hstep
  | answer => exact h.answer hstep
  | giveUp => exact h.giveUp hstep
  | executeStray i => exact h.executeStray hstep
  | release =>
    obtain ⟨-, hs⟩ := Option.ite_none_right_eq_some.mp hstep
    obtain rfl := Option.some.inj hs
    rw [dropGuard_of_released h.released]
    exact h
  | dropLease =>
    obtain ⟨-, hs⟩ := Option.ite_none_right_eq_some.mp hstep
    have hdropped : Out member limit { s with leased := false } := h.of_same rfl rfl id
    rw [dropGuard_of_released hdropped.released, ite_self] at hs
    obtain rfl := Option.some.inj hs
    exact hdropped
  | executeRelease =>
    obtain ⟨-, hs⟩ := Option.ite_none_right_eq_some.mp hstep
    obtain rfl := Option.some.inj hs
    exact ⟨h.released, SlotSet.notMem_zrem _ _, h.quiet⟩

theorem staysOut (h : Out member limit s) : StaysOut member limit s := by
  intro events s' hrun
  exact (Transition.preserved_run Out.step h hrun).absent

end Out

theorem claimed_step (s : Seat Member) (event : SeatEvent Member) (s' : Seat Member)
    (h : s.Claimed) (hstep : s.step member limit event = some s') : s'.Claimed := by
  cases event with
  | tick now =>
    obtain rfl := Option.some.inj hstep
    exact h
  | other call =>
    obtain ⟨-, hs⟩ := Option.ite_none_left_eq_some.mp hstep
    obtain rfl := Option.some.inj hs
    exact h
  | beat outlived =>
    obtain ⟨-, hs⟩ := Option.ite_none_right_eq_some.mp hstep
    split at hs
    · obtain rfl := Option.some.inj hs
      exact h
    · obtain rfl := Option.some.inj hs
      exact h
  | execute =>
    simp only [step] at hstep
    split at hstep
    · obtain rfl := Option.some.inj hstep
      exact h
    · obtain rfl := Option.some.inj hstep
      exact h
    · cases hstep
  | answer =>
    simp only [step] at hstep
    split at hstep
    · obtain rfl := Option.some.inj hstep
      exact claimed_endBeat h
    · obtain rfl := Option.some.inj hstep
      exact h
    · obtain rfl := Option.some.inj hstep
      exact claimed_endBeat h
    · cases hstep
  | giveUp =>
    simp only [step] at hstep
    split at hstep
    · obtain rfl := Option.some.inj hstep
      exact claimed_endBeat h
    · obtain rfl := Option.some.inj hstep
      exact claimed_endBeat h
    · obtain rfl := Option.some.inj hstep
      exact claimed_endBeat h
    · obtain rfl := Option.some.inj hstep
      exact claimed_endBeat h
    · cases hstep
  | executeStray i =>
    obtain ⟨call, -, rfl⟩ := Option.map_eq_some_iff.mp hstep
    exact h
  | release =>
    obtain ⟨-, hs⟩ := Option.ite_none_right_eq_some.mp hstep
    obtain rfl := Option.some.inj hs
    exact claimed_dropGuard h
  | dropLease =>
    obtain ⟨-, hs⟩ := Option.ite_none_right_eq_some.mp hstep
    have hdropped : Claimed { s with leased := false } := h
    split at hs
    · obtain rfl := Option.some.inj hs
      exact claimed_dropGuard hdropped
    · obtain rfl := Option.some.inj hs
      exact hdropped
  | executeRelease =>
    obtain ⟨hsent, hs⟩ := Option.ite_none_right_eq_some.mp hstep
    obtain rfl := Option.some.inj hs
    have hreleased : s.released = true := h (by simp [hsent])
    exact fun _ => hreleased

theorem StaysOut.step {event : SeatEvent Member} (h : StaysOut member limit s)
    (hstep : s.step member limit event = some s') : StaysOut member limit s' := by
  intro events t hrun
  apply h (event :: events) t
  unfold Transition.run
  rw [hstep]
  exact hrun

theorem StaysOut.absent (h : StaysOut member limit s) : member ∉ s.set := h [] s rfl

theorem StaysOut.clear (h : StaysOut member limit s) :
    StaysOut member limit { s with set := SlotSet.empty } := by
  have hclear : s.step member limit (.other .clear) = some { s with set := SlotSet.empty } := rfl
  exact h.step hclear

/-- An acquire that is unexecuted takes the member back as soon as the key is empty. -/
theorem not_staysOut_of_acquiring (hlimit : limit ≠ 0) (hbeat : s.heartbeat = .acquiring none) :
    ¬ StaysOut member limit s := by
  intro hout
  have hexecute : ({ s with set := SlotSet.empty } : Seat Member).step member limit .execute =
      some { s with
        heartbeat := .acquiring (some (runCall member limit { s with set := SlotSet.empty } .acquire).1)
        set := (runCall member limit { s with set := SlotSet.empty } .acquire).2 } := by
    simp only [step, hbeat]
  exact (hout.clear.step hexecute).absent (SlotSet.acquireSlot_empty hlimit)

theorem not_staysOut_of_missing (hlimit : limit ≠ 0)
    (hbeat : s.heartbeat = .refreshing (some false)) : ¬ StaysOut member limit s := by
  intro hout
  have hanswer : s.step member limit .answer = some { s with heartbeat := .acquiring none } := by
    simp only [step, hbeat]
  exact not_staysOut_of_acquiring hlimit rfl (hout.step hanswer)

theorem not_staysOut_of_refreshing (hlimit : limit ≠ 0) (hbeat : s.heartbeat = .refreshing none) :
    ¬ StaysOut member limit s := by
  intro hout
  have hexecute : s.step member limit .execute =
      some { s with heartbeat := .refreshing (some false) } := by
    simp only [step, hbeat, runCall, SlotSet.refreshSlot_of_notMem hout.absent]
  exact not_staysOut_of_missing hlimit rfl (hout.step hexecute)

theorem not_staysOut_of_stray (hlimit : limit ≠ 0) (hstray : .acquire ∈ s.strays) :
    ¬ StaysOut member limit s := by
  intro hout
  obtain ⟨i, hi⟩ := List.getElem?_of_mem hstray
  have hexecute : ({ s with set := SlotSet.empty } : Seat Member).step member limit
      (.executeStray i) = some { s with
        set := (runCall member limit { s with set := SlotSet.empty } .acquire).2
        strays := s.strays.eraseIdx i } := by
    simp only [step, hi, Option.map_some]
  exact (hout.clear.step hexecute).absent (SlotSet.acquireSlot_empty hlimit)

/-- A beat on its way takes the member back as soon as the key has room. -/
theorem Reclaiming.not_staysOut (h : s.Reclaiming) (hlimit : limit ≠ 0) :
    ¬ StaysOut member limit s := by
  rcases h with hbeat | hbeat | hbeat | hstray
  · exact not_staysOut_of_refreshing hlimit hbeat
  · exact not_staysOut_of_missing hlimit hbeat
  · exact not_staysOut_of_acquiring hlimit hbeat
  · exact not_staysOut_of_stray hlimit hstray

/-- In every run, once the store executes the release the member stays out for
good exactly when no beat that looked before it may still take the member back
(or the limit lets nobody in). -/
theorem staysOut_iff (member : Member) (limit : ℕ) (set : SlotSet Member) (now : ℤ)
    (events : List (SeatEvent Member)) (s s' : Seat Member)
    (hrun : Transition.run (step member limit) (leasedSeat set now) events = some s)
    (hrelease : s.step member limit .executeRelease = some s') :
    StaysOut member limit s' ↔ limit = 0 ∨ ¬ s.Reclaiming := by
  have hclaimed : s.Claimed :=
    Transition.preserved_run claimed_step (fun hsent => absurd rfl hsent) hrun
  obtain ⟨hsent, hs⟩ := Option.ite_none_right_eq_some.mp hrelease
  obtain rfl := Option.some.inj hs
  constructor
  · intro hout
    by_cases hlimit : limit = 0
    · exact Or.inl hlimit
    · exact Or.inr (fun hreclaim => absurd hout (Reclaiming.not_staysOut hreclaim hlimit))
  · intro hquiet
    have hreleased : s.released = true := hclaimed (by simp [hsent])
    exact Out.staysOut ⟨hreleased, SlotSet.notMem_zrem _ _, hquiet⟩

/-- The one member of a key with one seat. -/
def oneSeat : Seat ℕ := leasedSeat (SlotSet.empty.zadd 0 7) 0

/-- A release the store executes after the beat's refresh stays. -/
theorem staysOut_after_refresh :
    ∃ s s', Transition.run (step 7 1) oneSeat [.beat false, .execute, .release] = some s ∧
      s.step 7 1 .executeRelease = some s' ∧ 7 ∈ s.set ∧ StaysOut 7 1 s' := by
  refine ⟨_, _, rfl, rfl, by decide, ?_⟩
  refine (staysOut_iff 7 1 _ 0 [.beat false, .execute, .release] _ _ rfl rfl).mpr (Or.inr ?_)
  rintro (hbeat | hbeat | hbeat | hstray)
  · cases hbeat
  · cases hbeat
  · cases hbeat
  · cases hstray

/-- The beat looks, the release is claimed and executed, the refresh finds nothing,
and the acquire puts the released member back. -/
theorem released_member_returns :
    ∃ s s' t, Transition.run (step 7 1) oneSeat [.beat false, .release] = some s ∧ 7 ∈ s.set ∧
      s.step 7 1 .executeRelease = some s' ∧ 7 ∉ s'.set ∧
      Transition.run (step 7 1) s' [.execute, .answer, .execute] = some t ∧ 7 ∈ t.set := by
  refine ⟨_, _, _, rfl, by decide, rfl, by decide, rfl, by decide⟩

end Seat

end OpenAIGateway
