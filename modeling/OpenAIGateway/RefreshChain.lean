import OpenAIGateway.Refresh

/-!
Whether credential writes go backwards. Whatever becomes of the lock, a write
is taken only against the row it was derived from, so the rows an account had
form a chain of refreshes and both version numbers count them.
-/

set_option linter.all false

namespace OpenAIGateway.Refresh

/-- The material came from refreshing what the row held. -/
def Derived (refreshes : List (SecretMaterial × SecretMaterial)) (row : CredentialRow)
    (material : SecretMaterial) : Prop :=
  ∃ fresh, (row.material.trimmed, fresh) ∈ refreshes ∧
    material = fresh.succeeding row.material.trimmed

/-- The newer row is the older one, refreshed once. -/
structure Follows (refreshes : List (SecretMaterial × SecretMaterial))
    (newer older : CredentialRow) : Prop where
  tokenVersion : newer.tokenVersion = older.tokenVersion + 1
  version : newer.material.version = older.material.version + 1
  derived : Derived refreshes older newer.material

/-- An account's first row: no version has been counted yet. -/
structure CredentialRow.Created (row : CredentialRow) : Prop where
  tokenVersion : row.tokenVersion = 0
  version : row.material.version = 0

variable {refreshes refreshes' : List (SecretMaterial × SecretMaterial)}
  {stored stored' : List CredentialRow} {row newer older : CredentialRow}
  {material : SecretMaterial}

theorem Derived.mono (h : Derived refreshes row material) (hsub : refreshes ⊆ refreshes') :
    Derived refreshes' row material := by
  obtain ⟨fresh, hfresh, hmaterial⟩ := h
  exact ⟨fresh, hsub hfresh, hmaterial⟩

theorem Follows.mono (h : Follows refreshes newer older) (hsub : refreshes ⊆ refreshes') :
    Follows refreshes' newer older :=
  ⟨h.tokenVersion, h.version, h.derived.mono hsub⟩

/-- The version grows by one while it is within the token version's range. -/
theorem Derived.version (h : Derived refreshes row material)
    (hversion : (row.material.version : ℤ) < i64Max) :
    material.version = row.material.version + 1 := by
  obtain ⟨fresh, -, rfl⟩ := h
  change min (row.material.version + 1) u64Max = row.material.version + 1
  unfold i64Max at hversion
  unfold u64Max
  omega

/-- What a run has read was stored, and what it writes was derived from that. -/
structure Phase.Sound (stored : List CredentialRow)
    (refreshes : List (SecretMaterial × SecretMaterial)) (phase : Phase) : Prop where
  read : ∀ row, phase.snapshot = some row → row ∈ stored
  derived : ∀ row fresh, phase.pending = some (row, fresh) → Derived refreshes row fresh

namespace Phase

variable {before after phase : Phase}

theorem sound_of_none (hsnapshot : phase.snapshot = none) (hpending : phase.pending = none) :
    phase.Sound stored refreshes := by
  constructor
  · intro row hrow
    rw [hsnapshot] at hrow
    cases hrow
  · intro row fresh hfresh
    rw [hpending] at hfresh
    cases hfresh

theorem Sound.mono (h : phase.Sound stored refreshes) (hstored : stored ⊆ stored')
    (hrefreshes : refreshes ⊆ refreshes') : phase.Sound stored' refreshes' :=
  ⟨fun row hrow => hstored (h.read row hrow),
    fun row fresh hfresh => (h.derived row fresh hfresh).mono hrefreshes⟩

theorem Sound.within (h : before.Sound stored refreshes) (hwithin : before.Within after) :
    after.Sound stored refreshes := by
  constructor
  · intro row hrow
    rcases hwithin.snapshot with hnone | hsame
    · rw [hnone] at hrow
      cases hrow
    · exact h.read row (hsame ▸ hrow)
  · intro row fresh hfresh
    rcases hwithin.pending with hnone | hsame
    · rw [hnone] at hfresh
      cases hfresh
    · exact h.derived row fresh (hsame ▸ hfresh)

theorem snapshot_of_pending {row : CredentialRow} {fresh : SecretMaterial}
    (h : phase.pending = some (row, fresh)) : phase.snapshot = some row := by
  cases phase <;> cases h <;> rfl

end Phase

/-- The row is the newest of a chain whose versions count the refreshes. -/
structure Ledger (row : Option CredentialRow) (stored : List CredentialRow)
    (refreshes : List (SecretMaterial × SecretMaterial)) : Prop where
  head : ∀ current, row = some current → stored.head? = some current
  newest : ∀ current, row = some current →
    ∀ past ∈ stored, past = current ∨ past.tokenVersion < current.tokenVersion
  chain : stored.IsChain (Follows refreshes)
  counted : ∀ past ∈ stored, (past.material.version : ℤ) = past.tokenVersion ∧
    past.tokenVersion ≤ i64Max

namespace Ledger

variable {current : CredentialRow}

theorem mem (h : Ledger (some current) stored refreshes) : current ∈ stored :=
  List.mem_of_head? (h.head current rfl)

theorem vanish {current : Option CredentialRow} (h : Ledger current stored refreshes) :
    Ledger none stored refreshes :=
  ⟨nofun, nofun, h.chain, h.counted⟩

theorem learns {current : Option CredentialRow} (h : Ledger current stored refreshes)
    (refresh : SecretMaterial × SecretMaterial) :
    Ledger current stored (refresh :: refreshes) :=
  ⟨h.head, h.newest, h.chain.imp (fun _ _ hfollows => hfollows.mono (List.subset_cons_self ..)),
    h.counted⟩

/-- A row that was read and has the current token version is the current row. -/
theorem eq_of_tokenVersion (h : Ledger (some current) stored refreshes) (hrow : row ∈ stored)
    (hversion : current.tokenVersion = row.tokenVersion) : row = current := by
  rcases h.newest current rfl row hrow with heq | hlt
  · exact heq
  · omega

theorem follows (h : Ledger (some current) stored refreshes)
    (hderived : Derived refreshes current material) (hrange : current.tokenVersion ≠ i64Max)
    (expires : Option ℤ) :
    Follows refreshes ⟨material, current.tokenVersion + 1, expires⟩ current := by
  obtain ⟨hcounted, hle⟩ := h.counted current h.mem
  exact ⟨rfl, hderived.version (by omega), hderived⟩

theorem store (h : Ledger (some current) stored refreshes)
    (hderived : Derived refreshes current material) (hrange : current.tokenVersion ≠ i64Max)
    (expires : Option ℤ) :
    Ledger (some ⟨material, current.tokenVersion + 1, expires⟩)
      (⟨material, current.tokenVersion + 1, expires⟩ :: stored) refreshes := by
  have hfollows := h.follows hderived hrange expires
  refine ⟨?_, ?_, ?_, ?_⟩
  · intro newest hnewest
    exact hnewest
  · rintro newest hnewest past hpast
    cases hnewest
    rcases List.mem_cons.mp hpast with heq | hpast
    · exact Or.inl heq
    · right
      rcases h.newest current rfl past hpast with heq | hlt
      · rw [heq]
        exact Int.lt_succ _
      · exact Int.lt_trans hlt (Int.lt_succ _)
  · refine List.isChain_cons.mpr ⟨?_, h.chain⟩
    intro older holder
    rw [h.head current rfl] at holder
    cases holder
    exact hfollows
  · intro past hpast
    obtain ⟨hcounted, hle⟩ := h.counted current h.mem
    rcases List.mem_cons.mp hpast with heq | hpast
    · have hversion := hfollows.version
      subst heq
      constructor
      · dsimp only at hversion ⊢
        omega
      · dsimp only
        omega
    · exact h.counted past hpast

end Ledger

variable {RunId Replica : Type*}

/-- The events of the runs, and anything that happens to the lock besides. -/
inductive AnyEvent (RunId : Type*)
  | usual (event : Event RunId)
  | lockBecomes (lock : Option (Lock RunId))

namespace World

variable {w w' : World RunId Replica} {id other : RunId} {phase phase' : Phase} {act : Act}

/-- The rows are sound, and so is what every run carries. -/
structure Sound (w : World RunId Replica) : Prop where
  ledger : Ledger w.row w.stored w.refreshes
  phases : ∀ id, (w.phases id).Sound w.stored w.refreshes

theorem sound_new (clock : ℤ) (hcreated : row.Created) :
    (new clock row : World RunId Replica).Sound := by
  refine ⟨⟨?_, ?_, List.isChain_singleton _, ?_⟩, fun id => Phase.sound_of_none rfl rfl⟩
  · intro current hcurrent
    exact hcurrent
  · intro current hcurrent past hpast
    cases hcurrent
    exact Or.inl (List.mem_singleton.mp hpast)
  · intro past hpast
    obtain rfl : past = row := List.mem_singleton.mp hpast
    rw [hcreated.tokenVersion, hcreated.version]
    decide

theorem storeCredentials_cases (w : World RunId Replica) (fresh : SecretMaterial) (expected : ℤ) :
    ((w.storeCredentials fresh expected).1 ≠ .won ∧ (w.storeCredentials fresh expected).2 = w) ∨
    ∃ current, w.row = some current ∧ current.tokenVersion = expected ∧
      current.tokenVersion ≠ i64Max ∧
      ∃ stored, stored = ⟨fresh, current.tokenVersion + 1, fresh.expiresAt.bind toTimestamp⟩ ∧
        w.storeCredentials fresh expected =
          (.won, { w with row := some stored, stored := stored :: w.stored }) := by
  unfold storeCredentials
  cases hrow : w.row with
  | none => exact Or.inl ⟨nofun, rfl⟩
  | some current =>
    dsimp only
    split_ifs with hexpected hrange
    · exact Or.inl ⟨nofun, rfl⟩
    · exact Or.inr ⟨current, rfl, hexpected, hrange, _, rfl, rfl⟩
    · exact Or.inl ⟨nofun, rfl⟩

theorem Moves.phases (h : w.Moves id phase act w' phase') : w'.phases = w.phases := by
  cases h with
  | stores replied row fresh =>
    rcases w.storeCredentials_cases fresh row.tokenVersion with ⟨-, heq⟩ | ⟨_, _, _, _, _, _, heq⟩
    · rw [heq]
    · rw [heq]
  | quiet | asks | reads | learns | frees => rfl

variable [DecidableEq RunId] [DecidableEq Replica] {replica : RunId → Replica}

/-- A step of the runs, or a change of the lock. -/
def stepAny (replica : RunId → Replica) (w : World RunId Replica) :
    AnyEvent RunId → Option (World RunId Replica)
  | .usual event => w.step replica event
  | .lockBecomes lock => some { w with lock := lock }

theorem step_act (h : w.step replica (.act id act) = some w') :
    ∃ moved phase, w.move id (w.phases id) act = some (moved, phase) ∧
      w.Moves id (w.phases id) act moved phase ∧ w' = moved.setPhase replica id phase := by
  simp only [step] at h
  split at h
  next moved phase hmove =>
    obtain ⟨-, hw⟩ := Option.ite_none_right_eq_some.mp h
    cases hw
    exact ⟨moved, phase, hmove, moves_of_move hmove, rfl⟩
  next => cases h

/-- What a step did to the rows: nothing, the account's deletion, or one write of a
run that had read the very row it replaced. -/
inductive Writes (w w' : World RunId Replica) : AnyEvent RunId → Prop
  | keeps {event : AnyEvent RunId} (hrow : w'.row = w.row) (hstored : w'.stored = w.stored) :
    Writes w w' event
  | vanishes (hrow : w'.row = none) (hstored : w'.stored = w.stored) :
    Writes w w' (.usual .vanish)
  | stores (id : RunId) (replied : Bool) (row stored : CredentialRow)
    (hread : (w.phases id).snapshot = some row) (hcurrent : w.row = some row)
    (hrow : w'.row = some stored) (hstored : w'.stored = stored :: w.stored)
    (hfollows : Follows w'.refreshes stored row) :
    Writes w w' (.usual (.act id (.store replied)))

theorem Sound.setPhase (h : w.Sound) (hledger : Ledger w'.row w'.stored w'.refreshes)
    (hphases : w'.phases = w.phases) (hstored : w.stored ⊆ w'.stored)
    (hrefreshes : w.refreshes ⊆ w'.refreshes) (hphase : phase.Sound w'.stored w'.refreshes) :
    (w'.setPhase replica id phase).Sound := by
  refine ⟨hledger, ?_⟩
  intro other
  change (Function.update w'.phases id phase other).Sound w'.stored w'.refreshes
  rw [Function.update_apply, hphases]
  split_ifs
  · exact hphase
  · exact (h.phases other).mono hstored hrefreshes

/-- A move that leaves the rows alone is sound where its run's new phase is. -/
theorem Sound.rest {event : AnyEvent RunId} (h : w.Sound) (hrow : w'.row = w.row)
    (hstored : w'.stored = w.stored) (hrefreshes : w'.refreshes = w.refreshes)
    (hphases : w'.phases = w.phases) (hphase : phase.Sound w.stored w.refreshes) :
    (w'.setPhase replica id phase).Sound ∧ w.Writes (w'.setPhase replica id phase) event := by
  refine ⟨h.setPhase ?_ hphases ?_ ?_ ?_, .keeps hrow hstored⟩
  · rw [hrow, hstored, hrefreshes]
    exact h.ledger
  · rw [hstored]
    exact List.Subset.refl _
  · rw [hrefreshes]
    exact List.Subset.refl _
  · rw [hstored, hrefreshes]
    exact hphase

/-- A write sent by a run that had read the row is taken against that row or not at all. -/
theorem Sound.stores (h : w.Sound) {row : CredentialRow} {fresh : SecretMaterial}
    {replied : Bool} (hbefore : (w.phases id).pending = some (row, fresh))
    (hsnapshot : phase.snapshot = none) (hpending : phase.pending = none) :
    ((w.storeCredentials fresh row.tokenVersion).2.setPhase replica id phase).Sound ∧
      w.Writes ((w.storeCredentials fresh row.tokenVersion).2.setPhase replica id phase)
        (.usual (.act id (.store replied))) := by
  have hread := Phase.snapshot_of_pending hbefore
  rcases w.storeCredentials_cases fresh row.tokenVersion with
    ⟨-, heq⟩ | ⟨current, hrow, hversion, hrange, stored, hdef, heq⟩
  · rw [heq]
    exact h.rest rfl rfl rfl rfl (Phase.sound_of_none hsnapshot hpending)
  · rw [heq]
    have hledger := h.ledger
    rw [hrow] at hledger
    -- The token version still is the one that was read, so the whole row is.
    obtain rfl := hledger.eq_of_tokenVersion ((h.phases id).read row hread) hversion
    have hderived := (h.phases id).derived row fresh hbefore
    subst hdef
    constructor
    · exact h.setPhase (hledger.store hderived hrange _) rfl (List.subset_cons_self ..)
        (List.Subset.refl _) (Phase.sound_of_none hsnapshot hpending)
    · exact .stores id replied row _ hread hrow rfl rfl (hledger.follows hderived hrange _)

theorem Sound.moves (h : w.Sound) (hmoves : w.Moves id (w.phases id) act w' phase) :
    (w'.setPhase replica id phase).Sound ∧
      w.Writes (w'.setPhase replica id phase) (.usual (.act id act)) := by
  cases hmoves with
  | quiet hwithin => exact h.rest rfl rfl rfl rfl ((h.phases id).within hwithin)
  | asks _ _ hsnapshot hpending =>
    exact h.rest rfl rfl rfl rfl (Phase.sound_of_none hsnapshot hpending)
  | reads acquired now row hbefore hrow =>
    refine h.rest rfl rfl rfl rfl ⟨?_, ?_⟩
    · intro read hread
      cases hread
      exact List.mem_of_head? (h.ledger.head row hrow)
    · intro read fresh hfresh
      cases hfresh
  | learns acquired row material hbefore =>
    refine ⟨h.setPhase (h.ledger.learns _) rfl (List.Subset.refl _) (List.subset_cons_self ..) ?_,
      .keeps rfl rfl⟩
    constructor
    · intro read hread
      cases hread
      exact (h.phases id).read row (by rw [hbefore]; rfl)
    · intro read fresh hfresh
      cases hfresh
      exact ⟨material, List.mem_cons_self .., rfl⟩
  | stores replied row fresh hbefore _ hsnapshot hpending =>
    exact h.stores hbefore hsnapshot hpending
  | frees acquired _ _ hsnapshot hpending =>
    exact h.rest rfl rfl rfl rfl (Phase.sound_of_none hsnapshot hpending)

theorem Sound.stepAny (h : w.Sound) {e : AnyEvent RunId} (hstep : w.stepAny replica e = some w') :
    w'.Sound ∧ w.Writes w' e := by
  cases e with
  | lockBecomes lock =>
    cases hstep
    exact ⟨⟨h.ledger, h.phases⟩, .keeps rfl rfl⟩
  | usual event =>
    cases event with
    | tick clock =>
      obtain ⟨-, hw⟩ := Option.ite_none_right_eq_some.mp hstep
      cases hw
      exact ⟨⟨h.ledger, h.phases⟩, .keeps rfl rfl⟩
    | vanish =>
      cases hstep
      exact ⟨⟨h.ledger.vanish, h.phases⟩, .vanishes rfl rfl⟩
    | act id act =>
      obtain ⟨moved, phase, -, hmoves, rfl⟩ := step_act hstep
      exact h.moves hmoves

theorem sound_run {clock : ℤ} {events : List (AnyEvent RunId)} (hcreated : row.Created)
    (hrun : Transition.run (World.stepAny replica) (new clock row) events = some w) : w.Sound :=
  Transition.preserved_run (fun _ _ _ hs hstep => (hs.stepAny hstep).1) (sound_new clock hcreated)
    hrun

/-- A step leaves a run's phase alone, or is a move of that run. -/
theorem phases_stepAny {e : AnyEvent RunId} (id : RunId) (h : w.stepAny replica e = some w') :
    w'.phases id = w.phases id ∨ ∃ act moved, e = .usual (.act id act) ∧
      w.move id (w.phases id) act = some (moved, w'.phases id) := by
  cases e with
  | lockBecomes lock =>
    cases h
    exact Or.inl rfl
  | usual event =>
    cases event with
    | tick clock =>
      obtain ⟨-, hw⟩ := Option.ite_none_right_eq_some.mp h
      cases hw
      exact Or.inl rfl
    | vanish =>
      cases h
      exact Or.inl rfl
    | act other act =>
      obtain ⟨moved, phase, hmove, hmoves, rfl⟩ := step_act h
      have hphase : (moved.setPhase replica other phase).phases id =
          if id = other then phase else w.phases id := by
        rw [← hmoves.phases]
        exact Function.update_apply ..
      by_cases hid : id = other
      · subst hid
        rw [hphase, if_pos rfl]
        exact Or.inr ⟨act, moved, rfl, hmove⟩
      · rw [hphase, if_neg hid]
        exact Or.inl rfl

/-- The swap of a run's write loses if it comes now. -/
def Loses (w : World RunId Replica) (id : RunId) : Prop :=
  ∃ acquired row fresh, w.phases id = .storing acquired row fresh ∧
    (w.storeCredentials fresh row.tokenVersion).1 = .lost

/-- The run is yet to read the database again, or has a result that is good only if
the database held it on the way here. -/
def ReadsBack (replica : RunId → Replica) (w lost : World RunId Replica) (id : RunId)
    (past : List (AnyEvent RunId)) : Prop :=
  (∃ acquired, w.phases id = .rereading acquired) ∨
  ∃ result, ((∃ acquired, w.phases id = .releasing acquired result) ∨
      w.phases id = .done result) ∧
    ∀ material, result = .ok material → ∃ before after between, past = before ++ after ∧
      Transition.run (World.stepAny replica) lost before = some between ∧
      between.current = some material

omit [DecidableEq RunId] [DecidableEq Replica] in
theorem move_rereading {acquired : ℤ}
    (h : w.move id (.rereading acquired) act = some (w', phase)) :
    act = .drop ∨
      ∃ ok, phase = .releasing acquired (w.rereadResult ok "credential vanished") := by
  cases act with
  | reread ok =>
    cases h
    exact Or.inr ⟨ok, rfl⟩
  | drop => exact Or.inl rfl
  | _ => cases h

omit [DecidableEq RunId] [DecidableEq Replica] in
theorem move_releasing {acquired : ℤ} {result : Result}
    (h : w.move id (.releasing acquired result) act = some (w', phase)) :
    act = .drop ∨ phase = .done result := by
  cases act with
  | release | releaseFailed =>
    cases h
    exact Or.inr rfl
  | drop => exact Or.inl rfl
  | _ => cases h

omit [DecidableEq RunId] [DecidableEq Replica] in
theorem move_done {result : Result} (h : w.move id (.done result) act = some (w', phase)) :
    act = .drop := by
  cases act with
  | drop => rfl
  | _ => cases h

omit [DecidableEq RunId] [DecidableEq Replica] in
theorem current_of_rereadResult {ok : Bool} {vanished : String} {material : SecretMaterial}
    (h : w.rereadResult ok vanished = .ok material) : w.current = some material := by
  unfold rereadResult at h
  split at h
  · split at h
    next current hcurrent =>
      cases h
      exact hcurrent
    next => cases h
  · cases h

theorem ReadsBack.snoc {lost : World RunId Replica} {past : List (AnyEvent RunId)}
    {e : AnyEvent RunId} (h : w.ReadsBack replica lost id past)
    (hrun : Transition.run (World.stepAny replica) lost past = some w)
    (hdrop : e ≠ .usual (.act id .drop)) (hstep : w.stepAny replica e = some w') :
    w'.ReadsBack replica lost id (past ++ [e]) := by
  have hlater : ∀ result : Result,
      (∀ material, result = .ok material → ∃ before after between, past = before ++ after ∧
        Transition.run (World.stepAny replica) lost before = some between ∧
        between.current = some material) →
      ∀ material, result = .ok material → ∃ before after between, past ++ [e] = before ++ after ∧
        Transition.run (World.stepAny replica) lost before = some between ∧
        between.current = some material := by
    intro result hresult material hok
    obtain ⟨before, after, between, rfl, hbefore, hbetween⟩ := hresult material hok
    exact ⟨before, after ++ [e], between, List.append_assoc .., hbefore, hbetween⟩
  rcases phases_stepAny id hstep with hsame | ⟨act, moved, rfl, hmove⟩
  · rcases h with ⟨acquired, hphase⟩ | ⟨result, hphase, hresult⟩
    · exact Or.inl ⟨acquired, hsame.trans hphase⟩
    · rw [← hsame] at hphase
      exact Or.inr ⟨result, hphase, hlater result hresult⟩
  · have hact : act ≠ .drop := fun heq => hdrop (by rw [heq])
    right
    rcases h with ⟨acquired, hphase⟩ | ⟨result, ⟨acquired, hphase⟩ | hphase, hresult⟩
    · rw [hphase] at hmove
      obtain ⟨ok, hafter⟩ := (move_rereading hmove).resolve_left hact
      refine ⟨_, Or.inl ⟨acquired, hafter⟩, ?_⟩
      intro material hok
      exact ⟨past, [.usual (.act id act)], w, rfl, hrun, current_of_rereadResult hok⟩
    · rw [hphase] at hmove
      have hafter := (move_releasing hmove).resolve_left hact
      exact ⟨result, Or.inr hafter, hlater result hresult⟩
    · rw [hphase] at hmove
      exact absurd (move_done hmove) hact

/-- A run that lost its swap reads the database again, or fails. -/
theorem Loses.readsBack {replied : Bool} (h : w.Loses id)
    (hstep : w.stepAny replica (.usual (.act id (.store replied))) = some w') :
    w'.row = w.row ∧ w'.ReadsBack replica w' id [] := by
  obtain ⟨acquired, row, fresh, hphase, hlost⟩ := h
  rcases w.storeCredentials_cases fresh row.tokenVersion with ⟨-, heq⟩ | ⟨_, _, _, _, _, _, heq⟩
  · obtain ⟨moved, phase, hmove, -, rfl⟩ := step_act hstep
    have hself : ∀ moved : World RunId Replica,
        (moved.setPhase replica id phase).phases id = phase :=
      fun moved => Function.update_self ..
    rw [hphase] at hmove
    simp only [move, hlost, heq] at hmove
    cases replied with
    | true =>
      cases hmove
      exact ⟨rfl, Or.inl ⟨acquired, hself w⟩⟩
    | false =>
      cases hmove
      exact ⟨rfl, Or.inr ⟨databaseError, Or.inl ⟨acquired, hself w⟩, nofun⟩⟩
  · rw [heq] at hlost
    cases hlost

theorem readsBack_run {lost final : World RunId Replica} {later : List (AnyEvent RunId)}
    (h : lost.ReadsBack replica lost id [])
    (hrun : Transition.run (World.stepAny replica) lost later = some final)
    (hdrop : AnyEvent.usual (.act id .drop) ∉ later) :
    final.ReadsBack replica lost id later := by
  have hhistory : AnyEvent.usual (.act id .drop) ∉ later →
      final.ReadsBack replica lost id later := by
    refine Transition.history_run
      (J := fun past w => AnyEvent.usual (.act id .drop) ∉ past →
        w.ReadsBack replica lost id past) (fun _ => h) ?_ hrun
    intro past w e w' hpast ih hstep hnot
    rw [List.mem_append, not_or] at hnot
    refine (ih hnot.1).snoc hpast ?_ hstep
    intro heq
    exact hnot.2 (List.mem_singleton.mpr heq.symm)
  exact hhistory hdrop

/-- What holds of credential writes: the rows form a chain of refreshes, whose newest is
the account's; a step writes at most one more; and a run that loses its swap changes
nothing and returns what the database then held. -/
structure NeverGoesBack (replica : RunId → Replica) (w : World RunId Replica) : Prop where
  newest : ∀ current, w.row = some current → w.stored.head? = some current
  chain : w.stored.IsChain (Follows w.refreshes)
  writes : ∀ e w', w.stepAny replica e = some w' → w.Writes w' e
  loser : ∀ id replied lost, w.Loses id →
    w.stepAny replica (.usual (.act id (.store replied))) = some lost → lost.row = w.row ∧
    ∀ later final, Transition.run (World.stepAny replica) lost later = some final →
      AnyEvent.usual (.act id .drop) ∉ later →
      ∀ material, final.phases id = .done (.ok material) →
        ∃ before after between, later = before ++ after ∧
          Transition.run (World.stepAny replica) lost before = some between ∧
          between.current = some material

/-- Whatever happens to the lock, credential writes never go backwards. -/
theorem writes_never_go_back {clock : ℤ} {events : List (AnyEvent RunId)}
    (hcreated : row.Created)
    (hrun : Transition.run (World.stepAny replica) (new clock row) events = some w) :
    w.NeverGoesBack replica := by
  have hsound := sound_run hcreated hrun
  refine ⟨hsound.ledger.head, hsound.ledger.chain, fun e w' hstep => (hsound.stepAny hstep).2, ?_⟩
  intro id replied lost hloses hstep
  obtain ⟨hrow, hreads⟩ := hloses.readsBack hstep
  refine ⟨hrow, ?_⟩
  intro later final hlater hdrop material hdone
  rcases readsBack_run hreads hlater hdrop with ⟨acquired, hphase⟩ | ⟨result, hphase, hresult⟩
  · rw [hdone] at hphase
    cases hphase
  · rcases hphase with ⟨acquired, hphase⟩ | hphase
    · rw [hdone] at hphase
      cases hphase
    · rw [hdone] at hphase
      cases hphase
      exact hresult material rfl

def rotated (accessToken : String) : SecretMaterial :=
  ⟨accessToken, some "next", some 3600, 0, none, none⟩

/-- The lock is lost under one run, and a second one refreshes beside it. -/
def raced : List (AnyEvent ℕ) :=
  (asking 0).map .usual ++ [.usual (.act 0 (.read true)), .lockBecomes none] ++
    (asking 1).map .usual ++
      [.usual (.act 1 (.read true)), .usual (.act 0 (.refreshed (.fresh (rotated "first")))),
        .usual (.act 1 (.refreshed (.fresh (rotated "second")))), .usual (.act 0 (.store true))]

theorem writes_never_go_back_raced :
    ∃ w, Transition.run (World.stepAny (fun run => run)) (new 0 due) raced = some w ∧
      w.Loses 1 ∧ w.NeverGoesBack (fun run => run) := by
  have hall : ∀ w, Transition.run (World.stepAny (fun run => run)) (new 0 due) raced = some w →
      w.NeverGoesBack (fun run => run) :=
    fun w hrun => writes_never_go_back ⟨rfl, rfl⟩ hrun
  exact ⟨_, rfl, ⟨0, due, (rotated "second").succeeding due.material.trimmed, rfl, by rfl⟩,
    hall _ rfl⟩

end World

end OpenAIGateway.Refresh
