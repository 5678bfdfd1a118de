import OpenAIGateway.Refresh

/-!
Whether the refresh lock excludes. The lock expires by itself and is released
by name, so a release that comes after the expiry takes the next holder's lock
with it. Where every release comes in time, or finds no lock, at most one run
holds an unexpired lock.
-/

set_option linter.all false

namespace OpenAIGateway.Refresh

variable {RunId Replica : Type*} {w w' : World RunId Replica} {replica : RunId → Replica}

namespace World

/-- The run acquired the lock, has not released it, and it has not expired. -/
def Holds (w : World RunId Replica) (id : RunId) : Prop :=
  ∃ t, (w.phases id).acquiredAt = some t ∧ w.clock < t + lockTtl

/-- A release takes no lock that another replica acquired. -/
def RemovesOwn (replica : RunId → Replica) (w : World RunId Replica) : Event RunId → Prop
  | .act id .release =>
    (w.phases id).acquiredAt ≠ none → ∀ lock ∈ w.liveLock, replica lock.owner = replica id
  | _ => True

/-- A release is executed before the lock its run acquired expires, or finds none. -/
def Timely (w : World RunId Replica) : Event RunId → Prop
  | .act id .release =>
    ∀ t ∈ (w.phases id).acquiredAt, w.clock < t + lockTtl ∨ w.liveLock = none
  | _ => True

instance (w : World RunId Replica) : (e : Event RunId) → Decidable (w.Timely e)
  | .act id .release =>
    inferInstanceAs
      (Decidable (∀ t ∈ (w.phases id).acquiredAt, w.clock < t + lockTtl ∨ w.liveLock = none))
  | .tick _ | .vanish | .act _ (.start _) | .act _ .enter | .act _ (.look _) | .act _ (.ask _)
  | .act _ .askFailed | .act _ (.takeTheirs _) | .act _ (.read _) | .act _ (.refreshed _)
  | .act _ (.store _) | .act _ (.reread _) | .act _ (.check _) | .act _ .releaseFailed
  | .act _ .drop => isTrue trivial

/-- The store's lock is that of the run that holds it. -/
def Leased (w : World RunId Replica) : Prop :=
  ∀ id t, (w.phases id).acquiredAt = some t → w.clock < t + lockTtl →
    w.lock = some ⟨id, t + lockTtl⟩

theorem leased_new (clock : ℤ) (row : CredentialRow) :
    (new clock row : World RunId Replica).Leased := by
  intro id t hacquired
  cases hacquired

theorem mem_liveLock_iff {lock : Lock RunId} :
    lock ∈ w.liveLock ↔ w.lock = some lock ∧ w.clock < lock.expiresAt := by
  unfold liveLock
  simp

/-- While a run holds the lock, the live lock is its own. -/
theorem Leased.liveLock (h : w.Leased) {id : RunId} {t : ℤ}
    (hacquired : (w.phases id).acquiredAt = some t) (hlive : w.clock < t + lockTtl) :
    w.liveLock = some ⟨id, t + lockTtl⟩ :=
  mem_liveLock_iff.mpr ⟨h id t hacquired hlive, hlive⟩

theorem Leased.eq_of_holds (h : w.Leased) {i j : RunId} (hi : w.Holds i) (hj : w.Holds j) :
    i = j := by
  obtain ⟨s, hs, hslive⟩ := hi
  obtain ⟨t, ht, htlive⟩ := hj
  have hlock := Option.some.inj ((h i s hs hslive).symm.trans (h j t ht htlive))
  exact congrArg Lock.owner hlock

/-- A timely release takes the run's own lock or none. -/
theorem Leased.removesOwn (h : w.Leased) {e : Event RunId} (htimely : w.Timely e) :
    RemovesOwn replica w e := by
  unfold RemovesOwn
  split
  next id =>
    intro hheld lock hlock
    obtain ⟨t, ht⟩ := Option.ne_none_iff_exists'.mp hheld
    rcases htimely t ht with hlive | hnone
    · rw [h.liveLock ht hlive] at hlock
      cases hlock
      rfl
    · rw [hnone] at hlock
      cases hlock
  next => trivial

variable [DecidableEq RunId] [DecidableEq Replica]

theorem setPhase_phases (w : World RunId Replica) (id other : RunId) (phase : Phase) :
    (w.setPhase replica id phase).phases other = if other = id then phase else w.phases other := by
  simp [setPhase, Function.update_apply]

omit [DecidableEq RunId] [DecidableEq Replica] in
/-- A write touches the row and the history alone. -/
theorem storeCredentials_frame (w : World RunId Replica) (fresh : SecretMaterial) (expected : ℤ) :
    (w.storeCredentials fresh expected).2.lock = w.lock ∧
      (w.storeCredentials fresh expected).2.phases = w.phases ∧
      (w.storeCredentials fresh expected).2.clock = w.clock := by
  unfold storeCredentials
  split
  · split_ifs <;> exact ⟨rfl, rfl, rfl⟩
  · exact ⟨rfl, rfl, rfl⟩

/-- Where the lock stays and the run that moved is as it was or without it, the rest stays. -/
theorem Leased.setPhase (h : w.Leased) {id : RunId} {phase : Phase} (hlock : w'.lock = w.lock)
    (hphases : w'.phases = w.phases) (hclock : w'.clock = w.clock)
    (hphase : phase.acquiredAt = none ∨ phase.acquiredAt = (w.phases id).acquiredAt) :
    (w'.setPhase replica id phase).Leased := by
  intro other t hacquired hlive
  change w'.lock = some ⟨other, t + lockTtl⟩
  change w'.clock < t + lockTtl at hlive
  rw [hclock] at hlive
  rw [setPhase_phases, hphases] at hacquired
  rw [hlock]
  by_cases hid : other = id
  · rw [if_pos hid] at hacquired
    rcases hphase with hnone | hsame
    · rw [hnone] at hacquired
      cases hacquired
    · rw [hsame, ← hid] at hacquired
      exact h other t hacquired hlive
  · rw [if_neg hid] at hacquired
    exact h other t hacquired hlive

/-- A lock that was free goes to the run that asked for it. -/
theorem Leased.asks (h : w.Leased) (hfree : w.liveLock = none) (id : RunId) {phase : Phase}
    (hphase : phase.acquiredAt = none ∨ phase.acquiredAt = some w.clock) :
    (World.setPhase replica { w with lock := some ⟨id, w.clock + lockTtl⟩ } id phase).Leased := by
  intro other t hacquired hlive
  rw [setPhase_phases] at hacquired
  by_cases hid : other = id
  · rw [if_pos hid] at hacquired
    rcases hphase with hnone | hnow
    · rw [hnone] at hacquired
      cases hacquired
    · rw [hnow] at hacquired
      cases hacquired
      rw [hid]
      rfl
  · rw [if_neg hid] at hacquired
    rw [h.liveLock hacquired hlive] at hfree
    cases hfree

/-- A timely release leaves no holder without its lock. -/
theorem Leased.frees (h : w.Leased) {id : RunId} {acquired : ℤ} {phase : Phase}
    (hbefore : (w.phases id).acquiredAt = some acquired) (hphase : phase.acquiredAt = none)
    (htimely : w.clock < acquired + lockTtl ∨ w.liveLock = none) :
    (w.releaseRefreshLock.setPhase replica id phase).Leased := by
  intro other t hacquired hlive
  rw [setPhase_phases] at hacquired
  by_cases hid : other = id
  · rw [if_pos hid, hphase] at hacquired
    cases hacquired
  · rw [if_neg hid] at hacquired
    exfalso
    rcases htimely with hown | hnone
    · exact hid (h.eq_of_holds ⟨t, hacquired, hlive⟩ ⟨acquired, hbefore, hown⟩)
    · rw [h.liveLock hacquired hlive] at hnone
      cases hnone

theorem Leased.step {e : Event RunId} (h : w.Leased) (htimely : w.Timely e)
    (hstep : w.step replica e = some w') : w'.Leased := by
  cases e with
  | tick clock =>
    obtain ⟨hle, hw⟩ := Option.ite_none_right_eq_some.mp hstep
    cases hw
    intro id t hacquired hlive
    exact h id t hacquired (Int.lt_of_le_of_lt hle hlive)
  | vanish =>
    cases hstep
    exact h
  | act id act =>
    simp only [World.step] at hstep
    split at hstep
    next moved phase hmove =>
      obtain ⟨-, hw⟩ := Option.ite_none_right_eq_some.mp hstep
      cases hw
      cases moves_of_move hmove with
      | quiet hwithin => exact h.setPhase rfl rfl rfl hwithin.acquiredAt
      | asks hfree hacquired => exact h.asks hfree id hacquired
      | reads acquired now row hbefore =>
        exact h.setPhase rfl rfl rfl (Or.inr (by rw [hbefore]; rfl))
      | learns acquired row material hbefore =>
        exact h.setPhase rfl rfl rfl (Or.inr (by rw [hbefore]; rfl))
      | stores replied row fresh hbefore hacquired =>
        obtain ⟨hlock, hphases, hclock⟩ := storeCredentials_frame w fresh row.tokenVersion
        exact h.setPhase hlock hphases hclock hacquired
      | frees acquired hbefore hacquired =>
        exact h.frees hbefore hacquired (htimely acquired hbefore)
    next => cases hstep

variable {clock : ℤ} {row : CredentialRow} {events : List (Event RunId)}

theorem leased_run (htimely : Transition.AllSteps (step replica) Timely (new clock row) events)
    (hrun : Transition.run (step replica) (new clock row) events = some w) : w.Leased :=
  Transition.invariant_run (fun _ _ _ hs hok hstep => hs.step hok hstep) (leased_new clock row)
    htimely hrun

theorem removesOwn_run
    (htimely : Transition.AllSteps (step replica) Timely (new clock row) events) :
    Transition.AllSteps (step replica) (RemovesOwn replica) (new clock row) events :=
  Transition.allSteps_of_invariant (fun _ _ _ hs hok hstep => hs.step hok hstep)
    (fun _ _ hs hok => hs.removesOwn hok) (leased_new clock row) htimely

/-- Where every release is timely, none takes another replica's lock, and two runs
that hold an unexpired lock are on one replica. -/
theorem lock_excludes
    (htimely : Transition.AllSteps (step replica) Timely (new clock row) events)
    (hrun : Transition.run (step replica) (new clock row) events = some w) :
    Transition.AllSteps (step replica) (RemovesOwn replica) (new clock row) events ∧
      ∀ i j, w.Holds i → w.Holds j → replica i = replica j := by
  refine ⟨removesOwn_run htimely, ?_⟩
  intro i j hi hj
  have hleased := leased_run htimely hrun
  exact congrArg replica (hleased.eq_of_holds hi hj)

/-- A run whose provider refuses comes to release the lock. -/
def refusedRun (id : ℕ) : List (Event ℕ) :=
  [.act id (.read true), .act id (.refreshed .refused), .act id (.check true)]

/-- The second replica takes over while the first one's refresh overruns the lock. -/
def overrun : List (Event ℕ) := asking 0 ++ [.tick 30000] ++ asking 1 ++ refusedRun 0

theorem lock_excludes_refused :
    ∃ w, Transition.run (step id) (new 0 due)
        (asking 0 ++ [.tick 10000] ++ refusedRun 0 ++ [.act 0 .release] ++ asking 1) = some w ∧
      Transition.AllSteps (step id) (RemovesOwn id) (new 0 due)
        (asking 0 ++ [.tick 10000] ++ refusedRun 0 ++ [.act 0 .release] ++ asking 1) ∧
      ∀ i j, w.Holds i → w.Holds j → id i = id j :=
  ⟨_, rfl, lock_excludes (by decide) rfl⟩

/-- The late release takes the second replica's lock, and the third one gets it too. -/
theorem overrun_two_hold :
    (∃ w, Transition.run (step id) (new 0 due) overrun = some w ∧
      ¬ RemovesOwn id w (.act 0 .release)) ∧
    ∃ w, Transition.run (step id) (new 0 due) (overrun ++ [.act 0 .release] ++ asking 2) = some w ∧
      w.Holds 1 ∧ w.Holds 2 ∧ id 1 ≠ id 2 := by
  refine ⟨⟨_, rfl, ?_⟩, ⟨_, rfl, ⟨30000, rfl, by decide⟩, ⟨30000, rfl, by decide⟩, by decide⟩⟩
  intro hown
  have howner := hown (by decide) ⟨1, 60000⟩ rfl
  exact absurd howner (by decide)

end World

end OpenAIGateway.Refresh
