import OpenAIGateway.AuthTiers

/-!
Revoking a key while replicas load it. A load looks in its replica's own tier,
reads the store, reads the database, writes the store and inserts in its
replica's own tier, with anything in between. A revocation switches the row off,
drops one replica's entry and then the shared one. What was cached before runs
out; a load that read the key before may still cache it afterwards.
-/

set_option linter.all false

namespace OpenAIGateway.Auth

/-- A load under way, by its next step; concurrent callers of a replica share it. -/
inductive Load
  | readingRedis
  | readingPostgres
  | writingRedis (ctx : AuthContext) (ttl : ℤ)
  | inserting (found : Option AuthContext)
  deriving DecidableEq

/-- How far the revocation is. -/
inductive Revocation
  | unrevoked
  | deactivated
  | evicted
  | completed (time : ℤ)
  deriving DecidableEq

/-- When the revocation completed, if it did. -/
def Revocation.completedAt : Revocation → Option ℤ
  | .completed time => some time
  | _ => none

/-- The tiers of a key, the loads of its replicas, and its revocation. -/
structure Fleet (Replica : Type*) where
  l1 : Replica → Option L1Entry
  l2 : Option L2Entry
  row : Option AuthContext
  loads : Replica → Option Load
  revocation : Revocation
  now : ℤ

inductive FleetEvent (Replica : Type*)
  | tick (now : ℤ)
  | lookup (replica : Replica)
  | redisRead (replica : Replica) (up : Bool)
  | postgresRead (replica : Replica) (permit up : Bool)
  | redisWrite (replica : Replica) (up : Bool)
  | insert (replica : Replica)
  /-- The callers of a load hang up. -/
  | abandon (replica : Replica)
  | dropL1 (replica : Replica)
  | dropL2
  | deactivate
  | invalidateL1 (replica : Replica)
  | del

/-- What a load does with the database's answer. -/
def afterPostgres (found : Option AuthContext) (now : ℤ) : Load :=
  match found with
  | none => .inserting none
  | some ctx =>
    match cacheableFor ctx l2Ttl now with
    | none => .inserting (some ctx)
    | some ttl => .writingRedis ctx ttl

/-- What a load does with the store's answer. -/
def afterRedis (found : Option AuthContext) : Load :=
  match found with
  | some ctx => .inserting (some ctx)
  | none => .readingPostgres

namespace Fleet

variable {Replica : Type*} [DecidableEq Replica]

def setLoad (s : Fleet Replica) (replica : Replica) (load : Option Load) : Fleet Replica :=
  { s with loads := Function.update s.loads replica load }

def setL1 (s : Fleet Replica) (replica : Replica) (entry : Option L1Entry) : Fleet Replica :=
  { s with l1 := Function.update s.l1 replica entry }

def step (s : Fleet Replica) : FleetEvent Replica → Option (Fleet Replica)
  | .tick now => if s.now ≤ now then some { s with now := now } else none
  | .lookup replica =>
    if (l1Get (s.l1 replica) s.now).isSome || (s.loads replica).isSome then some s
    else some (s.setLoad replica (some .readingRedis))
  | .redisRead replica up =>
    match s.loads replica with
    | some .readingRedis =>
      some (s.setLoad replica (some (afterRedis (if up then authGet s.l2 s.now else none))))
    | _ => none
  | .postgresRead replica permit up =>
    match s.loads replica with
    | some .readingPostgres =>
      -- A load that is shed or fails ends with an error, and nothing is cached.
      if permit && up then
        some (s.setLoad replica (some (afterPostgres (repoAuthenticate s.row s.now) s.now)))
      else some (s.setLoad replica none)
    | _ => none
  | .redisWrite replica up =>
    match s.loads replica with
    | some (.writingRedis ctx ttl) =>
      some ({ s with l2 := if up then authSet s.l2 ctx ttl s.now else s.l2 }.setLoad replica
        (some (.inserting (some ctx))))
    | _ => none
  | .insert replica =>
    match s.loads replica with
    | some (.inserting found) =>
      some ((s.setL1 replica (some ⟨found, s.now⟩)).setLoad replica none)
    | _ => none
  | .abandon replica => some (s.setLoad replica none)
  | .dropL1 replica => some (s.setL1 replica none)
  | .dropL2 => some { s with l2 := none }
  | .deactivate =>
    if s.revocation = .unrevoked then some { s with row := none, revocation := .deactivated }
    else none
  | .invalidateL1 replica =>
    if s.revocation = .deactivated then some { s.setL1 replica none with revocation := .evicted }
    else none
  | .del =>
    if s.revocation = .evicted then some { s with l2 := none, revocation := .completed s.now }
    else none

/-- What the callers of a replica get from a step: its own entry, or the end of their load. -/
def returns (s : Fleet Replica) : FleetEvent Replica → Option (Option AuthContext)
  | .lookup replica => l1Get (s.l1 replica) s.now
  | .insert replica =>
    match s.loads replica with
    | some (.inserting found) => some found
    | _ => none
  | _ => none

/-- A key that is in nobody's cache. -/
def uncached (row : Option AuthContext) (now : ℤ) : Fleet Replica :=
  ⟨fun _ => none, none, row, fun _ => none, .unrevoked, now⟩

/-- A load caches an identity when the revocation has completed before. -/
def late (s : Fleet Replica) : FleetEvent Replica → Bool
  | .redisWrite _ up => up && s.revocation.completedAt.isSome
  | .insert replica =>
    match s.loads replica with
    | some (.inserting (some _)) => s.revocation.completedAt.any (· < s.now)
    | _ => false
  | _ => false

/-- The row is off once the revocation began. Once it completed, the shared entry is gone and no
replica's entry with an identity is newer. -/
structure RunsOut (s : Fleet Replica) : Prop where
  inserted : ∀ replica entry, s.l1 replica = some entry → entry.insertedAt ≤ s.now
  row : s.revocation ≠ .unrevoked → s.row = none
  l2 : s.revocation.completedAt ≠ none → s.l2 = none
  l1 : ∀ time, s.revocation.completedAt = some time → ∀ replica entry,
    s.l1 replica = some entry → entry.identity ≠ none → entry.insertedAt ≤ time

namespace RunsOut

variable {s s' : Fleet Replica} {replica : Replica}

omit [DecidableEq Replica] in
theorem start (row : Option AuthContext) (now : ℤ) : RunsOut (uncached row now : Fleet Replica) := by
  refine ⟨?_, fun h => absurd rfl h, fun h => absurd rfl h, ?_⟩
  · intro replica entry h
    cases h
  · intro time h
    cases h

omit [DecidableEq Replica] in
/-- A revocation under way has completed nothing yet. -/
theorem pending (hinserted : ∀ replica entry, s.l1 replica = some entry → entry.insertedAt ≤ s.now)
    (hrow : s.row = none) (hpending : s.revocation.completedAt = none) : RunsOut s := by
  refine ⟨hinserted, fun _ => hrow, fun h => absurd hpending h, ?_⟩
  intro time htime
  rw [hpending] at htime
  cases htime

theorem setLoad (h : RunsOut s) (replica : Replica) (load : Option Load) :
    RunsOut (s.setLoad replica load) := ⟨h.inserted, h.row, h.l2, h.l1⟩

/-- A replica's entry after its own tier was written. -/
theorem entry_setL1 {entry : Option L1Entry} {other : Replica} {found : L1Entry}
    (h : (s.setL1 replica entry).l1 other = some found) :
    entry = some found ∨ s.l1 other = some found := by
  unfold setL1 at h
  by_cases hsame : other = replica
  · subst hsame
    simp only [Function.update_self] at h
    exact Or.inl h
  · simp only [Function.update_of_ne hsame] at h
    exact Or.inr h

theorem dropL1 (h : RunsOut s) (replica : Replica) : RunsOut (s.setL1 replica none) := by
  refine ⟨?_, h.row, h.l2, ?_⟩
  · intro other entry hentry
    rcases entry_setL1 hentry with hnew | hold
    · cases hnew
    · exact h.inserted other entry hold
  · intro time htime other entry hentry
    rcases entry_setL1 hentry with hnew | hold
    · cases hnew
    · exact h.l1 time htime other entry hold

theorem insert {found : Option AuthContext} (h : RunsOut s)
    (hlate : ∀ time, found ≠ none → s.revocation.completedAt = some time → s.now ≤ time) :
    RunsOut (s.setL1 replica (some ⟨found, s.now⟩)) := by
  refine ⟨?_, h.row, h.l2, ?_⟩
  · intro other entry hentry
    rcases entry_setL1 hentry with hnew | hold
    · obtain rfl := Option.some.inj hnew
      exact le_refl _
    · exact h.inserted other entry hold
  · intro time htime other entry hentry hsome
    rcases entry_setL1 hentry with hnew | hold
    · obtain rfl := Option.some.inj hnew
      exact hlate time hsome htime
    · exact h.l1 time htime other entry hold hsome

omit [DecidableEq Replica] in
theorem redisWrite {l2 : Option L2Entry} (h : RunsOut s)
    (hlate : s.revocation.completedAt ≠ none → l2 = s.l2) : RunsOut { s with l2 := l2 } :=
  ⟨h.inserted, h.row, fun hcompleted => (hlate hcompleted).trans (h.l2 hcompleted), h.l1⟩

omit [DecidableEq Replica] in
theorem now_le_of_not_late {ctx : AuthContext} {time : ℤ} (h : s.late (.insert replica) = false)
    (hload : s.loads replica = some (.inserting (some ctx)))
    (htime : s.revocation.completedAt = some time) : s.now ≤ time := by
  simp only [late, hload, htime, Option.any_some, decide_eq_false_iff_not] at h
  omega

/-- What each step of a run preserves, if no load caches an identity late. -/
theorem step (s : Fleet Replica) (event : FleetEvent Replica) (s' : Fleet Replica)
    (h : RunsOut s) (hlate : s.late event = false) (hstep : s.step event = some s') : RunsOut s' := by
  cases event with
  | tick now =>
    obtain ⟨hnow, hs⟩ := Option.ite_none_right_eq_some.mp hstep
    obtain rfl := Option.some.inj hs
    exact ⟨fun other entry hentry => le_trans (h.inserted other entry hentry) hnow, h.row, h.l2,
      h.l1⟩
  | lookup replica =>
    simp only [Fleet.step] at hstep
    split at hstep
    · obtain rfl := Option.some.inj hstep
      exact h
    · obtain rfl := Option.some.inj hstep
      exact h.setLoad _ _
  | redisRead replica up =>
    simp only [Fleet.step] at hstep
    split at hstep
    · obtain rfl := Option.some.inj hstep
      exact h.setLoad _ _
    · cases hstep
  | postgresRead replica permit up =>
    simp only [Fleet.step] at hstep
    split at hstep
    · split at hstep
      · obtain rfl := Option.some.inj hstep
        exact h.setLoad _ _
      · obtain rfl := Option.some.inj hstep
        exact h.setLoad _ _
    · cases hstep
  | redisWrite replica up =>
    simp only [Fleet.step] at hstep
    split at hstep
    next ctx ttl hload =>
      obtain rfl := Option.some.inj hstep
      refine RunsOut.setLoad (h.redisWrite fun hcompleted => ?_) _ _
      cases up with
      | false => rfl
      | true =>
        have hsome : s.revocation.completedAt.isSome = false := hlate
        exact absurd (Option.isNone_iff_eq_none.mp (by simpa using hsome)) hcompleted
    next => cases hstep
  | insert replica =>
    simp only [Fleet.step] at hstep
    split at hstep
    next found hload =>
      obtain rfl := Option.some.inj hstep
      refine RunsOut.setLoad (h.insert fun time hsome htime => ?_) _ _
      obtain ⟨ctx, rfl⟩ := Option.ne_none_iff_exists'.mp hsome
      exact now_le_of_not_late hlate hload htime
    next => cases hstep
  | abandon replica =>
    obtain rfl := Option.some.inj hstep
    exact h.setLoad _ _
  | dropL1 replica =>
    obtain rfl := Option.some.inj hstep
    exact h.dropL1 _
  | dropL2 =>
    obtain rfl := Option.some.inj hstep
    exact ⟨h.inserted, h.row, fun _ => rfl, h.l1⟩
  | deactivate =>
    obtain ⟨-, hs⟩ := Option.ite_none_right_eq_some.mp hstep
    obtain rfl := Option.some.inj hs
    exact pending h.inserted rfl rfl
  | invalidateL1 replica =>
    obtain ⟨hdeactivated, hs⟩ := Option.ite_none_right_eq_some.mp hstep
    obtain rfl := Option.some.inj hs
    exact pending (h.dropL1 replica).inserted (h.row (by simp [hdeactivated])) rfl
  | del =>
    obtain ⟨hevicted, hs⟩ := Option.ite_none_right_eq_some.mp hstep
    obtain rfl := Option.some.inj hs
    have hoff : s.row = none := h.row (by simp [hevicted])
    refine ⟨h.inserted, fun _ => hoff, fun _ => rfl, ?_⟩
    intro time htime other entry hentry _
    -- Everything that is cached was cached by now.
    exact Option.some.inj htime ▸ h.inserted other entry hentry

omit [DecidableEq Replica] in
/-- What callers get after the revocation completed they get before what was cached runs out. -/
theorem returns_le (h : RunsOut s) {event : FleetEvent Replica} (hlate : s.late event = false)
    {ctx : AuthContext} (hreturns : s.returns event = some (some ctx)) {time : ℤ}
    (htime : s.revocation.completedAt = some time) : s.now ≤ time + l1Ttl := by
  have hpositive : (0 : ℤ) ≤ l1Ttl := by decide
  cases event with
  | lookup replica =>
    obtain ⟨entry, hentry, hlive, hidentity⟩ := l1Get_eq_some_iff.mp hreturns
    have hsome : entry.identity ≠ none := by
      rw [hidentity]
      exact Option.some_ne_none ctx
    have hbefore := h.l1 time htime replica entry hentry hsome
    omega
  | insert replica =>
    simp only [returns] at hreturns
    split at hreturns
    next found hload =>
      obtain rfl := Option.some.inj hreturns
      have hbefore := now_le_of_not_late hlate hload htime
      omega
    next => cases hreturns
  | tick now => cases hreturns
  | redisRead replica up => cases hreturns
  | postgresRead replica permit up => cases hreturns
  | redisWrite replica up => cases hreturns
  | abandon replica => cases hreturns
  | dropL1 replica => cases hreturns
  | dropL2 => cases hreturns
  | deactivate => cases hreturns
  | invalidateL1 replica => cases hreturns
  | del => cases hreturns

end RunsOut

/-- In every run in which no load that read the key earlier writes it to the store, or inserts it
in its replica's own tier, after the revocation completed, no caller gets an identity later than
`l1Ttl` after that. -/
theorem revocation_takes_effect (row : Option AuthContext) (start : ℤ)
    (events : List (FleetEvent Replica)) (s : Fleet Replica)
    (hrun : Transition.run step (uncached row start) events = some s)
    (hlate : Transition.AllSteps step (fun s event => s.late event = false) (uncached row start)
      events)
    (event : FleetEvent Replica) (hlast : s.late event = false) (ctx : AuthContext)
    (hreturns : s.returns event = some (some ctx)) (time : ℤ)
    (htime : s.revocation.completedAt = some time) : s.now ≤ time + l1Ttl := by
  have hout : RunsOut s := Transition.invariant_run RunsOut.step (RunsOut.start row start) hlate hrun
  exact hout.returns_le hlast hreturns htime

/-- The first replica loads the key; then the second revokes it, in one second. -/
def orderly : List (FleetEvent Bool) :=
  [.lookup false, .redisRead false true, .postgresRead false true true, .redisWrite false true,
    .insert false, .deactivate, .invalidateL1 true, .tick 1000000000, .del, .tick 14000000000]

/-- A load has the key in hand while the second replica revokes it. -/
def overtaken : List (FleetEvent Bool) :=
  [.lookup false, .redisRead false true, .postgresRead false true true, .deactivate,
    .invalidateL1 true, .del, .redisWrite false true, .insert false, .tick 60000000000,
    .lookup false, .redisRead false true]

theorem revocation_takes_effect_orderly :
    ∃ s : Fleet Bool, Transition.run step (uncached (some ⟨none⟩) 0) orderly = some s ∧
      s.revocation = .completed 1000000000 ∧ s.returns (.lookup false) = some (some ⟨none⟩) ∧
      s.now ≤ 1000000000 + l1Ttl := by
  refine ⟨_, rfl, rfl, rfl, ?_⟩
  exact revocation_takes_effect (some ⟨none⟩) 0 orderly _ rfl (by decide) (.lookup false) rfl ⟨none⟩
    rfl 1000000000 rfl

/-- The load caches the key after it was revoked, and a minute later it still authenticates. -/
theorem revoked_key_returns :
    ∃ s : Fleet Bool, Transition.run step (uncached (some ⟨none⟩) 0) overtaken = some s ∧
      s.revocation = .completed 0 ∧ s.returns (.insert false) = some (some ⟨none⟩) ∧
      0 + l1Ttl < s.now := by
  refine ⟨_, rfl, rfl, rfl, ?_⟩
  decide

end Fleet

end OpenAIGateway.Auth
