import OpenAIGateway.GcpToken

/-!
What the slot keeps over every run: the lock belongs to the one call that
mints, a held token never outlives its grant, and a token that was forgotten
comes back only from Google.
-/

set_option linter.all false

namespace OpenAIGateway.GcpToken

variable {CallId : Type*}

namespace Slot

variable [DecidableEq CallId] {s s' : Slot CallId} {e : Event CallId}

/-- Where no one else is concerned. -/
theorem setPhase_calls (s : Slot CallId) (id other : CallId) (phase : Phase) :
    (s.setPhase id phase).calls other = if other = id then phase else s.calls other := by
  simp [setPhase, Function.update_apply]

theorem finish_calls (s : Slot CallId) (id other : CallId) (held : Held) (phase : Phase) :
    (s.finish id held phase).calls other = if other = id then phase else s.calls other :=
  setPhase_calls s id other phase

def Minting (s : Slot CallId) (id : CallId) : Prop := ∃ now grant, s.calls id = .minting now grant

/-- What holds of a slot in every state of a run. -/
structure Ok (s : Slot CallId) : Prop where
  clock_le : s.clock ≤ clockMax
  holder : ∀ id now grant, s.calls id = .minting now grant → s.holder = some id
  reading : ∀ id now grant, s.calls id = .minting now grant → now ≤ s.clock
  granted : ∀ id now grant, s.calls id = .minting now (some grant) →
    now + grant.expiresIn ≤ grant.expiresAt
  issued : ∀ m ∈ s.held.minted, ∃ grant ∈ s.issue,
    grant.accessToken = m.accessToken ∧ m.expiresAt ≤ grant.expiresAt

omit [DecidableEq CallId] in
theorem ok_new {clock : ℤ} (h : clock ≤ clockMax) : Ok (new clock : Slot CallId) where
  clock_le := h
  holder := by
    intro id now grant hcall
    cases hcall
  reading := by
    intro id now grant hcall
    cases hcall
  granted := by
    intro id now grant hcall
    cases hcall
  issued := by
    intro m hm
    cases hm

/-- A call that mints in a state in which a phase of no mint was set was minting before. -/
theorem minting_of_setPhase {id other : CallId} {phase : Phase} {now : ℤ} {grant : Option Grant}
    (hphase : phase.mints = false)
    (h : (s.setPhase id phase).calls other = .minting now grant) :
    other ≠ id ∧ s.calls other = .minting now grant := by
  rw [setPhase_calls] at h
  by_cases hid : other = id
  · rw [if_pos hid] at h
    rw [h] at hphase
    cases hphase
  · rw [if_neg hid] at h
    exact ⟨hid, h⟩

theorem Ok.setPhase (h : s.Ok) (id : CallId) {phase : Phase}
    (hphase : phase.mints = false) : (s.setPhase id phase).Ok where
  clock_le := h.clock_le
  holder := fun other now grant hcall =>
    h.holder other now grant (minting_of_setPhase hphase hcall).2
  reading := fun other now grant hcall =>
    h.reading other now grant (minting_of_setPhase hphase hcall).2
  granted := fun other now grant hcall =>
    h.granted other now grant (minting_of_setPhase hphase hcall).2
  issued := h.issued

/-- The end of a call that had the lock, or took it while it was free. -/
theorem Ok.finish (h : s.Ok) {id : CallId} (hfree : ∀ other, s.holder = some other → other = id)
    {held : Held} {phase : Phase} (hphase : phase.mints = false) (issue : Option Grant)
    (hissued : ∀ m ∈ held.minted, ∃ grant ∈ issue,
      grant.accessToken = m.accessToken ∧ m.expiresAt ≤ grant.expiresAt) :
    ({ s.finish id held phase with issue := issue } : Slot CallId).Ok where
  clock_le := h.clock_le
  holder := by
    intro other now grant hcall
    obtain ⟨hne, hminting⟩ := minting_of_setPhase hphase hcall
    exact absurd (hfree other (h.holder other now grant hminting)) hne
  reading := fun other now grant hcall =>
    h.reading other now grant (minting_of_setPhase hphase hcall).2
  granted := fun other now grant hcall =>
    h.granted other now grant (minting_of_setPhase hphase hcall).2
  issued := hissued

omit [DecidableEq CallId] in
/-- Only the call that mints has the lock. -/
theorem Ok.eq_of_holder (h : s.Ok) {id : CallId} {now : ℤ} {grant : Option Grant}
    (hcall : s.calls id = .minting now grant) (other : CallId) (hholder : s.holder = some other) :
    other = id :=
  (Option.some.inj ((h.holder id now grant hcall).symm.trans hholder)).symm

omit [DecidableEq CallId] in
theorem eq_of_free (hfree : s.holder = none) (id other : CallId) (hholder : s.holder = some other) :
    other = id := by
  rw [hfree] at hholder
  cases hholder

omit [DecidableEq CallId] in
/-- No one mints while the lock is free. -/
theorem Ok.not_minting (h : s.Ok) (hfree : s.holder = none) (id : CallId) (now : ℤ)
    (grant : Option Grant) : s.calls id ≠ .minting now grant := by
  intro hcall
  rw [h.holder id now grant hcall] at hfree
  cases hfree

theorem Ok.moves (h : s.Ok) (hmoves : s.Moves e s') : s'.Ok := by
  cases hmoves with
  | tick now hle hmax =>
    exact
      { clock_le := hmax
        holder := h.holder
        reading := fun id t grant hcall => Int.le_trans (h.reading id t grant hcall) hle
        granted := h.granted
        issued := h.issued }
  | callToken id => exact h.setPhase id rfl
  | callForget id => exact h.setPhase id rfl
  | leave id => exact h.setPhase id rfl
  | answer id answer hfree => exact h.finish (eq_of_free hfree id) rfl s.issue h.issued
  | forget id refused hfree =>
    exact h.finish (eq_of_free hfree id) rfl s.issue
      (fun m hm => h.issued m (Held.mem_minted_forget_iff.mp hm).1)
  | mintErr id e now grant hcall => exact h.finish (h.eq_of_holder hcall) rfl s.issue h.issued
  | abandon id now grant hcall => exact h.finish (h.eq_of_holder hcall) rfl s.issue h.issued
  | mint id hfree hcall hnone =>
    have hcalls : ∀ other now grant, (s.setPhase id (.minting s.clock none)).calls other =
        .minting now grant → other = id ∧ now = s.clock ∧ grant = none := by
      intro other now grant hphase
      rw [setPhase_calls] at hphase
      by_cases hid : other = id
      · rw [if_pos hid] at hphase
        cases hphase
        exact ⟨hid, rfl, rfl⟩
      · rw [if_neg hid] at hphase
        exact absurd hphase (h.not_minting hfree other now grant)
    exact
      { clock_le := h.clock_le
        holder := fun other now grant hphase => congrArg some (hcalls other now grant hphase).1.symm
        reading := fun other now grant hphase => Int.le_of_eq (hcalls other now grant hphase).2.1
        granted := by
          intro other now grant hphase
          cases (hcalls other now _ hphase).2.2
        issued := h.issued }
  | grant id accessToken expiresIn now hcall =>
    have hcalls : ∀ other t grant, (s.setPhase id (.minting now
        (some ⟨accessToken, expiresIn, s.clock + expiresIn⟩))).calls other = .minting t grant →
        s.calls other = .minting t grant ∨ (other = id ∧ t = now ∧
          grant = some ⟨accessToken, expiresIn, s.clock + expiresIn⟩) := by
      intro other t grant hphase
      rw [setPhase_calls] at hphase
      by_cases hid : other = id
      · rw [if_pos hid] at hphase
        cases hphase
        exact Or.inr ⟨hid, rfl, rfl⟩
      · rw [if_neg hid] at hphase
        exact Or.inl hphase
    have hreading := h.reading id now none hcall
    constructor
    · exact h.clock_le
    · intro other t grant hphase
      rcases hcalls other t grant hphase with hbefore | ⟨rfl, -, -⟩
      · exact h.holder other t grant hbefore
      · exact h.holder other now none hcall
    · intro other t grant hphase
      rcases hcalls other t grant hphase with hbefore | ⟨-, rfl, -⟩
      · exact h.reading other t grant hbefore
      · exact hreading
    · intro other t grant hphase
      rcases hcalls other t _ hphase with hbefore | ⟨-, rfl, hgrant⟩
      · exact h.granted other t grant hbefore
      · cases hgrant
        change t + (expiresIn : ℤ) ≤ s.clock + expiresIn
        omega
    · exact h.issued
  | mintOk id now grant hcall =>
    apply h.finish (h.eq_of_holder hcall) rfl
    intro m hm
    cases hm
    have hexpiry := h.granted id now grant hcall
    exact ⟨grant, rfl, rfl, Int.le_trans (Int.min_le_left _ _) hexpiry⟩

theorem ok_run {start : ℤ} (hstart : start ≤ clockMax) {events : List (Event CallId)}
    (hrun : Transition.run step (new start) events = some s) : s.Ok :=
  Transition.invariant_run (fun _ _ _ hok _ hstep => hok.moves (moves_of_step hstep))
    (ok_new hstart) (Transition.allSteps_true _ _) hrun

/-- What one event does to one call. -/
inductive Turns (s : Slot CallId) (id : CallId) : Slot CallId → Prop
  | stays {s' : Slot CallId} (h : s'.calls id = s.calls id) : Turns s id s'
  | waits {s' : Slot CallId}
    (hends : ∀ now minted answer, s'.calls id ≠ .answered now minted answer)
    (hforgot : ∀ refused, s'.calls id ≠ .forgot refused) (hmints : (s'.calls id).mints = false) :
    Turns s id s'
  | answered {s' : Slot CallId} (answer : Answer) (hanswer : s.held.token s.clock = some answer)
    (h : s'.calls id = .answered s.clock false answer) : Turns s id s'
  | mints {s' : Slot CallId} (hnone : s.held.token s.clock = none)
    (h : s'.calls id = .minting s.clock none) : Turns s id s'
  | forgot {s' : Slot CallId} (refused : String) (hheld : s'.held = s.held.forget refused)
    (hfree : s'.holder = none) (h : s'.calls id = .forgot refused) : Turns s id s'
  | granted {s' : Slot CallId} (now : ℤ) (grant : Grant) (hbefore : s.calls id = .minting now none)
    (h : s'.calls id = .minting now (some grant)) : Turns s id s'
  | minted {s' : Slot CallId} (now : ℤ) (grant : Grant)
    (hbefore : s.calls id = .minting now (some grant))
    (h : s'.calls id = .answered now true (.token grant.accessToken)) : Turns s id s'
  | failed {s' : Slot CallId} (now : ℤ) (grant : Option Grant) (e : MintError)
    (hbefore : s.calls id = .minting now grant)
    (h : s'.calls id = .answered now false (s.held.fail e now).2) : Turns s id s'

/-- What a call does in its own step is all that the step does to the calls. -/
theorem turns_of_self {other : CallId} (hself : s.Turns other s')
    (hothers : ∀ id, id ≠ other → s'.calls id = s.calls id) (id : CallId) : s.Turns id s' := by
  by_cases hid : id = other
  · rw [hid]
    exact hself
  · exact .stays (hothers id hid)

theorem setPhase_self (id : CallId) (phase : Phase) : (s.setPhase id phase).calls id = phase := by
  rw [setPhase_calls, if_pos rfl]

theorem setPhase_others (other : CallId) (phase : Phase) (id : CallId) (hid : id ≠ other) :
    (s.setPhase other phase).calls id = s.calls id := by
  rw [setPhase_calls, if_neg hid]

theorem waits_setPhase {id : CallId} {phase : Phase} (hmints : phase.mints = false)
    (hends : ∀ now minted answer, phase ≠ .answered now minted answer)
    (hforgot : ∀ refused, phase ≠ .forgot refused) : s.Turns id (s.setPhase id phase) := by
  apply Turns.waits
  · rw [setPhase_self]
    exact hends
  · rw [setPhase_self]
    exact hforgot
  · rw [setPhase_self]
    exact hmints

theorem turns_of_moves (h : s.Moves e s') : ∀ id, s.Turns id s' := by
  cases h with
  | tick => exact fun id => .stays rfl
  | callToken id =>
    exact turns_of_self (waits_setPhase rfl nofun nofun) (setPhase_others id _)
  | callForget id refused =>
    exact turns_of_self (waits_setPhase rfl nofun nofun) (setPhase_others id _)
  | leave id =>
    exact turns_of_self (waits_setPhase rfl nofun nofun) (setPhase_others id _)
  | answer id answer _ _ hanswer =>
    exact turns_of_self (.answered answer hanswer (setPhase_self id _)) (setPhase_others id _)
  | mint id _ _ hnone =>
    exact turns_of_self (.mints hnone (setPhase_self id _)) (setPhase_others id _)
  | forget id refused =>
    exact turns_of_self (.forgot refused rfl rfl (setPhase_self id _)) (setPhase_others id _)
  | grant id accessToken expiresIn now hcall =>
    exact turns_of_self (.granted now _ hcall (setPhase_self id _)) (setPhase_others id _)
  | mintOk id now grant hcall =>
    exact turns_of_self (.minted now grant hcall (setPhase_self id _)) (setPhase_others id _)
  | mintErr id e now grant hcall =>
    exact turns_of_self (.failed now grant e hcall (setPhase_self id _)) (setPhase_others id _)
  | abandon id now grant hcall =>
    refine turns_of_self (.waits ?_ ?_ ?_) (setPhase_others id _)
    · intro now minted answer
      rw [finish_calls, if_pos rfl]
      exact Phase.noConfusion
    · intro refused
      rw [finish_calls, if_pos rfl]
      exact Phase.noConfusion
    · rw [finish_calls, if_pos rfl]
      rfl

/-- The call is answered in this step. -/
def Answers (s s' : Slot CallId) (id : CallId) (now : ℤ) (minted : Bool) (answer : Answer) : Prop :=
  s'.calls id = .answered now minted answer ∧ s.calls id ≠ s'.calls id

/-- The call starts to mint in this step. -/
def StartsMint (s s' : Slot CallId) (id : CallId) : Prop := s'.Minting id ∧ ¬ s.Minting id

/-- A mint starts on a reading that finds the token due and no failure remembered. -/
theorem Ok.of_startsMint (h : s.Ok) (hmoves : s.Moves e s') {id : CallId}
    (hstarts : s.StartsMint s' id) :
    (∀ m ∈ s.held.minted, m.expiresAt - s.clock ≤ refreshSkewSecs) ∧
      ∀ f ∈ s.held.failed, failureTtlSecs ≤ s.clock - f.atTime := by
  have hnow : s.clock < i64Max := Int.lt_of_le_of_lt h.clock_le (by decide)
  obtain ⟨⟨now, grant, hcall⟩, hbefore⟩ := hstarts
  cases turns_of_moves hmoves id with
  | stays hsame => exact absurd ⟨now, grant, hsame ▸ hcall⟩ hbefore
  | waits _ _ hmints =>
    rw [hcall] at hmints
    cases hmints
  | mints hnone =>
    obtain ⟨hfresh, hremembered⟩ := Held.token_eq_none_iff.mp hnone
    exact ⟨Held.fresh_eq_none_iff.mp hfresh, (Held.remembered_eq_none_iff hnow).mp hremembered⟩
  | granted now grant hminting => exact absurd ⟨now, none, hminting⟩ hbefore
  | answered _ _ heq | forgot _ _ _ heq | minted _ _ _ heq | failed _ _ _ _ heq =>
    rw [hcall] at heq
    cases heq

/-- An answer without a mint of its own is what the last resort allows on the call's reading. -/
theorem allows_of_answers (hmoves : s.Moves e s') {id : CallId} {now : ℤ} {answer : Answer}
    (hanswers : s.Answers s' id now false answer) :
    s.held.Allows now answer := by
  obtain ⟨hcall, hbefore⟩ := hanswers
  cases turns_of_moves hmoves id with
  | stays hsame => exact absurd hsame.symm hbefore
  | waits hends => exact absurd hcall (hends now false answer)
  | answered answer' htoken heq =>
    rw [hcall] at heq
    cases heq
    exact Held.allows_of_token htoken
  | failed now' grant e hminting heq =>
    rw [hcall] at heq
    cases heq
    exact Held.allows_afterFailure (Failed.new e now)
  | mints _ heq | forgot _ _ _ heq | granted _ _ _ heq | minted _ _ _ heq =>
    rw [hcall] at heq
    cases heq

/-- The clock reading of a call that answers without a mint of its own. -/
theorem reading_of_answers (hmoves : s.Moves e s') {id : CallId} {now : ℤ} {answer : Answer}
    (hanswers : s.Answers s' id now false answer) :
    now = s.clock ∨ ∃ grant, s.calls id = .minting now grant := by
  obtain ⟨hcall, hbefore⟩ := hanswers
  cases turns_of_moves hmoves id with
  | stays hsame => exact absurd hsame.symm hbefore
  | waits hends => exact absurd hcall (hends now false answer)
  | answered answer' htoken heq =>
    rw [hcall] at heq
    cases heq
    exact Or.inl rfl
  | failed now' grant e hminting heq =>
    rw [hcall] at heq
    cases heq
    exact Or.inr ⟨grant, hminting⟩
  | mints _ heq | forgot _ _ _ heq | granted _ _ _ heq | minted _ _ _ heq =>
    rw [hcall] at heq
    cases heq

/-- A call that minted is answered with the token it was granted. -/
theorem of_answers_minted (hmoves : s.Moves e s') {id : CallId} {now : ℤ} {answer : Answer}
    (hanswers : s.Answers s' id now true answer) :
    ∃ grant, s.calls id = .minting now (some grant) ∧ answer = .token grant.accessToken := by
  obtain ⟨hcall, hbefore⟩ := hanswers
  cases turns_of_moves hmoves id with
  | stays hsame => exact absurd hsame.symm hbefore
  | waits hends => exact absurd hcall (hends now true answer)
  | minted now' grant hminting heq =>
    rw [hcall] at heq
    cases heq
    exact ⟨grant, hminting, rfl⟩
  | answered _ _ heq | mints _ heq | forgot _ _ _ heq | granted _ _ _ heq | failed _ _ _ _ heq =>
    rw [hcall] at heq
    cases heq

/-- The token is neither held nor on its way from Google. -/
structure Gone (t : String) (s : Slot CallId) : Prop where
  held : ∀ m ∈ s.held.minted, m.accessToken ≠ t
  coming : ∀ id now grant, s.calls id = .minting now (some grant) → grant.accessToken ≠ t

/-- What is held after a step was held before or was granted to the call that ends. -/
theorem minted_of_moves (h : s.Moves e s') {m : Minted} (hm : m ∈ s'.held.minted) :
    m ∈ s.held.minted ∨
      ∃ id now grant, s.calls id = .minting now (some grant) ∧
        m.accessToken = grant.accessToken := by
  cases h with
  | mintOk id now grant hcall =>
    cases hm
    exact Or.inr ⟨id, now, grant, hcall, rfl⟩
  | forget id refused => exact Or.inl (Held.mem_minted_forget_iff.mp hm).1
  | tick | callToken | callForget | answer | mint | grant | mintErr | leave | abandon =>
    exact Or.inl hm

theorem Gone.moves {t : String} (h : Gone t s) (hmoves : s.Moves e s') (he : ¬ e.Grants t) :
    Gone t s' where
  held := by
    intro m hm
    rcases minted_of_moves hmoves hm with hbefore | ⟨id, now, grant, hcall, htoken⟩
    · exact h.held m hbefore
    · rw [htoken]
      exact h.coming id now grant hcall
  coming := by
    intro id now grant hcall
    have hsame : ∀ other phase, other ≠ id → (s.setPhase other phase).calls id = s.calls id := by
      intro other phase hne
      rw [setPhase_calls, if_neg (Ne.symm hne)]
    cases hmoves with
    | grant other accessToken expiresIn now' hbefore =>
      by_cases hid : other = id
      · subst hid
        rw [setPhase_calls, if_pos rfl] at hcall
        cases hcall
        exact he
      · exact h.coming id now grant ((hsame other _ hid).symm.trans hcall)
    | tick => exact h.coming id now grant hcall
    | mint other =>
      have hphase : (s.setPhase other (.minting s.clock none)).calls id =
          .minting now (some grant) := hcall
      by_cases hid : other = id
      · subst hid
        rw [setPhase_calls, if_pos rfl] at hphase
        cases hphase
      · exact h.coming id now grant ((hsame other _ hid).symm.trans hphase)
    | callToken | callForget | leave | answer | forget | mintOk | mintErr | abandon =>
      exact h.coming id now grant (minting_of_setPhase rfl hcall).2

/-- While the token is gone no call comes to it. -/
theorem Gone.not_answers {t : String} (h : Gone t s) (hmoves : s.Moves e s') (id : CallId) (now : ℤ)
    (minted : Bool) : ¬ s.Answers s' id now minted (.token t) := by
  intro hanswers
  cases minted with
  | false =>
    obtain ⟨m, hm, htoken, -⟩ := (allows_of_answers hmoves hanswers).token t rfl
    exact h.held m hm htoken
  | true =>
    obtain ⟨grant, hcall, htoken⟩ := of_answers_minted hmoves hanswers
    cases htoken
    exact h.coming id now grant hcall rfl

/-- A call forgets a token in this step. -/
def Forgets (s s' : Slot CallId) (id : CallId) (refused : String) : Prop :=
  s'.calls id = .forgot refused ∧ s.calls id ≠ s'.calls id

theorem held_of_forgets (hmoves : s.Moves e s') {id : CallId} {refused : String}
    (hforgets : s.Forgets s' id refused) :
    s'.held = s.held.forget refused ∧ s'.holder = none := by
  obtain ⟨hcall, hbefore⟩ := hforgets
  cases turns_of_moves hmoves id with
  | stays hsame => exact absurd hsame.symm hbefore
  | waits _ hforgot => exact absurd hcall (hforgot refused)
  | forgot refused' hheld hfree heq =>
    rw [hcall] at heq
    cases heq
    exact ⟨hheld, hfree⟩
  | answered _ _ heq | mints _ heq | granted _ _ _ heq | minted _ _ _ heq | failed _ _ _ _ heq =>
    rw [hcall] at heq
    cases heq

theorem Ok.gone_of_forgets (h : s'.Ok) (hmoves : s.Moves e s') {id : CallId} {refused : String}
    (hforgets : s.Forgets s' id refused) : Gone refused s' := by
  obtain ⟨hheld, hfree⟩ := held_of_forgets hmoves hforgets
  constructor
  · intro m hm
    rw [hheld] at hm
    exact (Held.mem_minted_forget_iff.mp hm).2
  · intro other now grant hcall
    exact absurd hcall (h.not_minting hfree other now (some grant))

theorem Gone.run {t : String} (h : Gone t s) {events : List (Event CallId)}
    (hevents : ∀ e ∈ events, ¬ e.Grants t) (hrun : Transition.run step s events = some s') :
    Gone t s' :=
  Transition.invariant_run (fun _ _ _ hgone he hstep => hgone.moves (moves_of_step hstep) he) h
    (Transition.allSteps_of_forall_mem s hevents) hrun

/-- What one more step may do after a run of the slot. -/
structure Keeps (s s' : Slot CallId) (id : CallId) : Prop where
  mint : s.StartsMint s' id → (∀ m ∈ s.held.minted, m.expiresAt - s.clock ≤ refreshSkewSecs) ∧
    ∀ f ∈ s.held.failed, failureTtlSecs ≤ s.clock - f.atTime
  token : ∀ now t, s.Answers s' id now false (.token t) →
    (now = s.clock ∨ ∃ grant, s.calls id = .minting now grant) ∧
    ∃ m ∈ s.held.minted, m.accessToken = t ∧ lastResortSecs < m.expiresAt - now ∧
      ∃ grant ∈ s.issue, grant.accessToken = t ∧ m.expiresAt ≤ grant.expiresAt
  error : ∀ now minted reason lasting, s.Answers s' id now minted (.error reason lasting) →
    (now = s.clock ∨ ∃ grant, s.calls id = .minting now grant) ∧
    ∀ m ∈ s.held.minted, m.expiresAt - now ≤ lastResortSecs
  kept : ∀ refused, s.Forgets s' id refused →
    ∀ m ∈ s.held.minted, m.accessToken ≠ refused → m ∈ s'.held.minted
  gone : ∀ refused, s.Forgets s' id refused → ∀ later u, Transition.run step s' later = some u →
    (∀ e ∈ later, ¬ e.Grants refused) → ∀ e u', u.step e = some u' → ∀ other now minted,
      ¬ u.Answers u' other now minted (.token refused)

/-- The slot over every run of its calls: one mint at a time, begun only when it is due; a
token that was not minted for the call has time left and no more than Google gave it; an error
only where no such token is held; a token forgotten stays gone until Google issues it anew, and
another held in its place is kept. -/
theorem run_keeps {start : ℤ} (hstart : start ≤ clockMax) {events : List (Event CallId)}
    (hrun : Transition.run step (new start) events = some s) :
    (∀ i j, s.Minting i → s.Minting j → i = j) ∧
      ∀ e s', s.step e = some s' → ∀ id, s.Keeps s' id := by
  have hok := ok_run hstart hrun
  constructor
  · intro i j hi hj
    obtain ⟨ti, gi, hi⟩ := hi
    obtain ⟨tj, gj, hj⟩ := hj
    exact hok.eq_of_holder hj i (hok.holder i ti gi hi)
  intro e s' hstep id
  have hmoves := moves_of_step hstep
  constructor
  · exact hok.of_startsMint hmoves
  · intro now t hanswers
    obtain ⟨m, hm, htoken, hleft⟩ := (allows_of_answers hmoves hanswers).token t rfl
    obtain ⟨grant, hgrant, hsame, hexpiry⟩ := hok.issued m hm
    exact ⟨reading_of_answers hmoves hanswers, m, hm, htoken, hleft, grant, hgrant,
      hsame.trans htoken, hexpiry⟩
  · intro now minted reason lasting hanswers
    cases minted with
    | false =>
      exact ⟨reading_of_answers hmoves hanswers,
        (allows_of_answers hmoves hanswers).error reason lasting rfl⟩
    | true =>
      obtain ⟨grant, -, htoken⟩ := of_answers_minted hmoves hanswers
      cases htoken
  · intro refused hforgets m hm hne
    rw [(held_of_forgets hmoves hforgets).1]
    exact Held.mem_minted_forget_iff.mpr ⟨hm, hne⟩
  · intro refused hforgets later u hlater hgrants e' u' hstep' other now minted
    have hgone := (hok.moves hmoves).gone_of_forgets hmoves hforgets
    exact (hgone.run hgrants hlater).not_answers (moves_of_step hstep') other now minted

/-- A token is minted, refused upstream and forgotten. -/
def mintAndForget : List (Event ℕ) :=
  [.callToken 1, .lock 1, .grant 1 "ya29" 3600, .tick 4, .mintOk 1, .callForget 2 "ya29"]

theorem mintAndForget_keeps :
    ∃ s s', Transition.run step (new 0) mintAndForget = some s ∧ s.step (.lock 2) = some s' ∧
      s.held.minted = some ⟨"ya29", 3600⟩ ∧ s.Forgets s' 2 "ya29" ∧ s.Keeps s' 2 := by
  have hstart : (0 : ℤ) ≤ clockMax := by decide
  have hrun : Transition.run step (new 0) mintAndForget = some _ := rfl
  refine ⟨_, _, hrun, rfl, rfl, ⟨rfl, ?_⟩, (run_keeps hstart hrun).2 (.lock 2) _ rfl 2⟩
  exact Phase.noConfusion

end Slot

end OpenAIGateway.GcpToken
