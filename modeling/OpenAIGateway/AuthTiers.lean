import OpenAIGateway.Transition
import Mathlib.Data.Int.Order.Basic
import Mathlib.Logic.Function.Basic

/-!
Authenticating an inbound key: each replica's own entry, the shared entry in the
store, and the row in the database. The shared entry is written with what is
left of the key's life; a replica's own entry lives its full time however it was
come by. Times are in nanoseconds, and everything is about one key.
-/

set_option linter.all false

namespace OpenAIGateway

/-- Whom a key authenticates, and when the key stops working. -/
structure AuthContext where
  expiresAt : Option ℤ
  deriving DecidableEq

namespace Auth

/-- How long a replica's own entry lives. -/
def l1Ttl : ℤ := 15000000000

/-- How long the shared entry lives, if the key does. -/
def l2Ttl : ℤ := 300000000000

/-- How long an identity may be cached, or `none` if it must not be. -/
def cacheableFor (ctx : AuthContext) (ttl now : ℤ) : Option ℤ :=
  match ctx.expiresAt with
  | none => some ttl
  | some expiresAt => if expiresAt ≤ now then none else some (min ttl (expiresAt - now))

/-- A replica's own entry; a key that is not valid is an entry too. -/
structure L1Entry where
  identity : Option AuthContext
  insertedAt : ℤ
  deriving DecidableEq

/-- The shared entry, and when the store drops it. -/
structure L2Entry where
  identity : AuthContext
  goneAt : ℤ
  deriving DecidableEq

def l1Get (l1 : Option L1Entry) (now : ℤ) : Option (Option AuthContext) :=
  (l1.filter (fun entry => now < entry.insertedAt + l1Ttl)).map L1Entry.identity

def authGet (l2 : Option L2Entry) (now : ℤ) : Option AuthContext :=
  (l2.filter (fun entry => now < entry.goneAt)).map L2Entry.identity

/-- Written for whole seconds; the store refuses an entry for none. -/
def authSet (l2 : Option L2Entry) (ctx : AuthContext) (ttl now : ℤ) : Option L2Entry :=
  let seconds := ttl / 1000000000
  if seconds = 0 then l2 else some ⟨ctx, now + seconds * 1000000000⟩

/-- What the database says: its row, when that is active, before the key expires. -/
def repoAuthenticate (row : Option AuthContext) (now : ℤ) : Option AuthContext :=
  row.filter (fun ctx => ctx.expiresAt.all (now < ·))

inductive AuthError
  | overloaded
  | internal
  deriving DecidableEq

/-- Which of the calls behind a load go through. -/
structure Backends where
  redisReads : Bool
  permit : Bool
  postgres : Bool
  redisWrites : Bool

/-- The tiers of one key, and the time of the last call. -/
structure Tiers (Replica : Type*) where
  l1 : Replica → Option L1Entry
  l2 : Option L2Entry
  row : Option AuthContext
  now : ℤ

/-- The shared entry after the database found an identity. -/
def cacheFound (l2 : Option L2Entry) (found : Option AuthContext) (now : ℤ) : Option L2Entry :=
  match found with
  | none => l2
  | some ctx =>
    match cacheableFor ctx l2Ttl now with
    | none => l2
    | some ttl => authSet l2 ctx ttl now

/-- A load: the shared entry, then the database; and the shared entry after it. -/
def load (backends : Backends) (l2 : Option L2Entry) (row : Option AuthContext) (now : ℤ) :
    Except AuthError (Option AuthContext) × Option L2Entry :=
  match if backends.redisReads then authGet l2 now else none with
  | some ctx => (.ok (some ctx), l2)
  | none =>
    if !backends.permit then (.error .overloaded, l2)
    else if !backends.postgres then (.error .internal, l2)
    else
      let found := repoAuthenticate row now
      (.ok found, if backends.redisWrites then cacheFound l2 found now else l2)

section Calls

variable {Replica : Type*} [DecidableEq Replica]

/-- Resolve the key on a replica. What a load finds is inserted in the replica's own tier. -/
def authenticate (replica : Replica) (backends : Backends) (now : ℤ) (s : Tiers Replica) :
    Except AuthError (Option AuthContext) × Tiers Replica :=
  match l1Get (s.l1 replica) now with
  | some identity => (.ok identity, { s with now := now })
  | none =>
    match load backends s.l2 s.row now with
    | (.error e, l2) => (.error e, { s with l2 := l2, now := now })
    | (.ok found, l2) =>
      (.ok found,
        { l1 := Function.update s.l1 replica (some ⟨found, now⟩), l2 := l2, row := s.row, now := now })

/-- What happens to the tiers of a key that expires at a fixed time. -/
inductive TierEvent (Replica : Type*)
  | call (replica : Replica) (backends : Backends) (now : ℤ)
  /-- The key, its principal or its route is switched on or off. -/
  | setActive (active : Bool)
  | dropL1 (replica : Replica)
  | dropL2

def step (expiry : ℤ) (s : Tiers Replica) : TierEvent Replica → Option (Tiers Replica)
  | .call replica backends now =>
    if s.now ≤ now then some (authenticate replica backends now s).2 else none
  | .setActive active => some { s with row := if active then some ⟨some expiry⟩ else none }
  | .dropL1 replica => some { s with l1 := Function.update s.l1 replica none }
  | .dropL2 => some { s with l2 := none }

/-- Nothing is cached, and the row is not there yet. -/
def Tiers.empty (now : ℤ) : Tiers Replica := ⟨fun _ => none, none, none, now⟩

/-- A call that has to load comes before the last `l1Ttl` of the key's life, or after it. -/
def Early (expiry : ℤ) (s : Tiers Replica) : TierEvent Replica → Prop
  | .call replica _ now => l1Get (s.l1 replica) now = none → now + l1Ttl ≤ expiry + 1 ∨ expiry ≤ now
  | _ => True

end Calls

theorem l1Get_eq_some_iff {l1 : Option L1Entry} {now : ℤ} {identity : Option AuthContext} :
    l1Get l1 now = some identity ↔
      ∃ entry, l1 = some entry ∧ now < entry.insertedAt + l1Ttl ∧ entry.identity = identity := by
  unfold l1Get
  rw [Option.map_eq_some_iff]
  constructor
  · rintro ⟨entry, hentry, hidentity⟩
    obtain ⟨hsome, hlive⟩ := Option.filter_eq_some_iff.mp hentry
    exact ⟨entry, hsome, of_decide_eq_true hlive, hidentity⟩
  · rintro ⟨entry, hsome, hlive, hidentity⟩
    exact ⟨entry, Option.filter_eq_some_iff.mpr ⟨hsome, decide_eq_true hlive⟩, hidentity⟩

theorem authGet_eq_some {l2 : Option L2Entry} {now : ℤ} {ctx : AuthContext}
    (h : authGet l2 now = some ctx) : ∃ entry, l2 = some entry ∧ now < entry.goneAt := by
  obtain ⟨entry, hentry, -⟩ := Option.map_eq_some_iff.mp h
  obtain ⟨hsome, hlive⟩ := Option.filter_eq_some_iff.mp hentry
  exact ⟨entry, hsome, of_decide_eq_true hlive⟩

theorem repoAuthenticate_eq_some {row : Option AuthContext} {now : ℤ} {ctx : AuthContext}
    (h : repoAuthenticate row now = some ctx) :
    row = some ctx ∧ ∀ expiry, ctx.expiresAt = some expiry → now < expiry := by
  obtain ⟨hrow, hvalid⟩ := Option.filter_eq_some_iff.mp h
  refine ⟨hrow, fun expiry hexpiry => ?_⟩
  rw [hexpiry] at hvalid
  exact of_decide_eq_true hvalid

/-- Everything a load can do: find the shared entry, fail, or answer from the database. -/
theorem load_cases (backends : Backends) (l2 : Option L2Entry) (row : Option AuthContext)
    (now : ℤ) :
    (∃ ctx, authGet l2 now = some ctx ∧ load backends l2 row now = (.ok (some ctx), l2)) ∨
    (∃ e, load backends l2 row now = (.error e, l2)) ∨
    ∃ l2', load backends l2 row now = (.ok (repoAuthenticate row now), l2') ∧
      (l2' = l2 ∨ l2' = cacheFound l2 (repoAuthenticate row now) now) := by
  unfold load
  cases hget : (if backends.redisReads then authGet l2 now else none) with
  | some ctx =>
    obtain ⟨-, hctx⟩ := Option.ite_none_right_eq_some.mp hget
    exact Or.inl ⟨ctx, hctx, rfl⟩
  | none =>
    right
    cases backends.permit with
    | false => exact Or.inl ⟨_, rfl⟩
    | true =>
      cases backends.postgres with
      | false => exact Or.inl ⟨_, rfl⟩
      | true =>
        refine Or.inr ⟨_, rfl, ?_⟩
        cases backends.redisWrites with
        | false => exact Or.inl rfl
        | true => exact Or.inr rfl

/-- The shared entry goes no later than its key. -/
theorem goneAt_le {l2 : Option L2Entry} {ctx : AuthContext} {expiry now : ℤ}
    (hctx : ctx.expiresAt = some expiry) (hl2 : ∀ entry, l2 = some entry → entry.goneAt ≤ expiry)
    (entry : L2Entry) (h : cacheFound l2 (some ctx) now = some entry) : entry.goneAt ≤ expiry := by
  unfold cacheFound cacheableFor at h
  simp only [hctx] at h
  by_cases hgone : expiry ≤ now
  · rw [if_pos hgone] at h
    exact hl2 entry h
  · simp only [if_neg hgone] at h
    unfold authSet at h
    by_cases hzero : min l2Ttl (expiry - now) / 1000000000 = 0
    · simp only [hzero, if_true] at h
      exact hl2 entry h
    · simp only [hzero, if_false] at h
      obtain rfl := Option.some.inj h
      show now + min l2Ttl (expiry - now) / 1000000000 * 1000000000 ≤ expiry
      have hmin : min l2Ttl (expiry - now) ≤ expiry - now := min_le_right _ _
      omega

section Runs

variable {Replica : Type*} {expiry : ℤ} {s : Tiers Replica}

/-- Nothing that is cached outlives the key, to the nanosecond. -/
structure Capped (expiry : ℤ) (s : Tiers Replica) : Prop where
  row : ∀ ctx, s.row = some ctx → ctx.expiresAt = some expiry
  l2 : ∀ entry, s.l2 = some entry → entry.goneAt ≤ expiry
  l1 : ∀ replica entry, s.l1 replica = some entry → entry.identity ≠ none →
    entry.insertedAt + l1Ttl ≤ expiry + 1

theorem capped_empty (start : ℤ) : Capped expiry (Tiers.empty start : Tiers Replica) := by
  refine ⟨?_, ?_, ?_⟩
  · intro ctx h
    cases h
  · intro entry h
    cases h
  · intro replica entry h
    cases h

/-- A load finds an identity before the key expires only. -/
theorem Capped.load_some (h : Capped expiry s) {backends : Backends} {now : ℤ} {ctx : AuthContext}
    {l2' : Option L2Entry} (hload : load backends s.l2 s.row now = (.ok (some ctx), l2')) :
    now < expiry := by
  rcases load_cases backends s.l2 s.row now with ⟨found, hget, -⟩ | ⟨e, heq⟩ | ⟨after, heq, -⟩
  · obtain ⟨entry, hentry, hlive⟩ := authGet_eq_some hget
    exact lt_of_lt_of_le hlive (h.l2 entry hentry)
  · rw [heq] at hload
    cases hload
  · rw [heq] at hload
    have hfound := Except.ok.inj (Prod.mk.inj hload).1
    obtain ⟨hrow, hvalid⟩ := repoAuthenticate_eq_some hfound
    exact hvalid expiry (h.row ctx hrow)

theorem Capped.load_l2 (h : Capped expiry s) {backends : Backends} {now : ℤ}
    {result : Except AuthError (Option AuthContext)} {l2' : Option L2Entry}
    (hload : load backends s.l2 s.row now = (result, l2')) :
    ∀ entry, l2' = some entry → entry.goneAt ≤ expiry := by
  rcases load_cases backends s.l2 s.row now with ⟨ctx, -, heq⟩ | ⟨e, heq⟩ | ⟨after, heq, hafter⟩
  · rw [heq] at hload
    exact (Prod.mk.inj hload).2 ▸ h.l2
  · rw [heq] at hload
    exact (Prod.mk.inj hload).2 ▸ h.l2
  · rw [heq] at hload
    rw [← (Prod.mk.inj hload).2]
    rcases hafter with rfl | rfl
    · exact h.l2
    · cases hfound : repoAuthenticate s.row now with
      | none => exact h.l2
      | some ctx => exact goneAt_le (h.row ctx (repoAuthenticate_eq_some hfound).1) h.l2

variable [DecidableEq Replica]

/-- Everything a call can do: answer from its replica's own entry, or load. -/
theorem authenticate_cases (replica : Replica) (backends : Backends) (now : ℤ)
    (s : Tiers Replica) :
    (∃ identity, l1Get (s.l1 replica) now = some identity ∧
      authenticate replica backends now s = (.ok identity, { s with now := now })) ∨
    (l1Get (s.l1 replica) now = none ∧
      ((∃ e, load backends s.l2 s.row now = (.error e, s.l2) ∧
          authenticate replica backends now s = (.error e, { s with now := now })) ∨
        ∃ found l2', load backends s.l2 s.row now = (.ok found, l2') ∧
          authenticate replica backends now s = (.ok found,
            ⟨Function.update s.l1 replica (some ⟨found, now⟩), l2', s.row, now⟩))) := by
  unfold authenticate
  cases hhit : l1Get (s.l1 replica) now with
  | some identity => exact Or.inl ⟨identity, rfl, rfl⟩
  | none =>
    refine Or.inr ⟨rfl, ?_⟩
    rcases load_cases backends s.l2 s.row now with ⟨ctx, -, heq⟩ | ⟨e, heq⟩ | ⟨l2', heq, -⟩
    · exact Or.inr ⟨some ctx, s.l2, heq, by simp only [heq]⟩
    · exact Or.inl ⟨e, heq, by simp only [heq]⟩
    · exact Or.inr ⟨_, l2', heq, by simp only [heq]⟩

/-- A call gets an identity before the key expires only. -/
theorem Capped.authenticate_some (h : Capped expiry s) {replica : Replica} {backends : Backends}
    {now : ℤ} {ctx : AuthContext}
    (hcall : (authenticate replica backends now s).1 = .ok (some ctx)) : now ≤ expiry := by
  rcases authenticate_cases replica backends now s with ⟨identity, hhit, heq⟩ |
    ⟨-, ⟨e, -, heq⟩ | ⟨found, l2', hload, heq⟩⟩
  · rw [heq] at hcall
    obtain ⟨entry, hentry, hlive, hidentity⟩ := l1Get_eq_some_iff.mp hhit
    have hsome : entry.identity ≠ none := by
      rw [hidentity, Except.ok.inj hcall]
      exact Option.some_ne_none ctx
    have hbound := h.l1 replica entry hentry hsome
    omega
  · rw [heq] at hcall
    cases hcall
  · rw [heq] at hcall
    rw [Except.ok.inj hcall] at hload
    exact le_of_lt (h.load_some hload)

theorem Capped.call (h : Capped expiry s) {replica : Replica} {backends : Backends} {now : ℤ}
    (hearly : Early expiry s (.call replica backends now)) :
    Capped expiry (authenticate replica backends now s).2 := by
  rcases authenticate_cases replica backends now s with ⟨identity, -, heq⟩ |
    ⟨hmiss, ⟨e, -, heq⟩ | ⟨found, l2', hload, heq⟩⟩
  · rw [heq]
    exact ⟨h.row, h.l2, h.l1⟩
  · rw [heq]
    exact ⟨h.row, h.l2, h.l1⟩
  · rw [heq]
    refine ⟨h.row, h.load_l2 hload, ?_⟩
    intro other entry hentry hsome
    by_cases hsame : other = replica
    · subst hsame
      have hnew : entry = ⟨found, now⟩ := by
        simpa only [Function.update_self, Option.some.injEq, eq_comm] using hentry
      rw [hnew] at hsome ⊢
      obtain ⟨ctx, rfl⟩ := Option.ne_none_iff_exists'.mp hsome
      have hbefore := h.load_some hload
      exact (hearly hmiss).resolve_right (by omega)
    · have hold : s.l1 other = some entry := by
        simpa only [Function.update_of_ne hsame] using hentry
      exact h.l1 other entry hold hsome

theorem Capped.step (s : Tiers Replica) (event : TierEvent Replica) (s' : Tiers Replica)
    (h : Capped expiry s) (hearly : Early expiry s event) (hstep : step expiry s event = some s') :
    Capped expiry s' := by
  cases event with
  | call replica backends now =>
    obtain ⟨-, hs⟩ := Option.ite_none_right_eq_some.mp hstep
    obtain rfl := Option.some.inj hs
    exact h.call hearly
  | setActive active =>
    obtain rfl := Option.some.inj hstep
    refine ⟨?_, h.l2, h.l1⟩
    intro ctx hctx
    cases active with
    | false => cases hctx
    | true =>
      obtain rfl := Option.some.inj hctx
      rfl
  | dropL1 replica =>
    obtain rfl := Option.some.inj hstep
    refine ⟨h.row, h.l2, ?_⟩
    intro other entry hentry hsome
    by_cases hsame : other = replica
    · subst hsame
      simp only [Function.update_self] at hentry
      cases hentry
    · have hold : s.l1 other = some entry := by
        simpa only [Function.update_of_ne hsame] using hentry
      exact h.l1 other entry hold hsome
  | dropL2 =>
    obtain rfl := Option.some.inj hstep
    refine ⟨h.row, ?_, h.l1⟩
    intro entry hentry
    cases hentry

/-- A load in the last `l1Ttl` of a key's life leaves an entry that outlives the key. -/
theorem late_load_outlives {replica : Replica} {backends : Backends} {now : ℤ} {ctx : AuthContext}
    (hlate : ¬ Early expiry s (.call replica backends now))
    (hcall : (authenticate replica backends now s).1 = .ok (some ctx)) :
    (authenticate replica backends (expiry + 1) (authenticate replica backends now s).2).1 =
      .ok (some ctx) := by
  simp only [Early] at hlate
  push Not at hlate
  obtain ⟨hmiss, hwindow, -⟩ := hlate
  rcases authenticate_cases replica backends now s with ⟨identity, hhit, -⟩ |
    ⟨-, ⟨e, -, heq⟩ | ⟨found, l2', -, heq⟩⟩
  · rw [hmiss] at hhit
    cases hhit
  · rw [heq] at hcall
    cases hcall
  · rw [heq] at hcall ⊢
    have hhit : l1Get (Function.update s.l1 replica (some ⟨found, now⟩) replica) (expiry + 1) =
        some (some ctx) := by
      rw [Function.update_self]
      exact l1Get_eq_some_iff.mpr ⟨_, rfl, hwindow, Except.ok.inj hcall⟩
    unfold authenticate
    simp only [hhit]

/-- In every run in which no call loads the identity in the last `l1Ttl` before the key expires,
no call gets an identity after that. And after every call that does, one can. -/
theorem identity_expires (expiry start : ℤ) (events : List (TierEvent Replica))
    (s : Tiers Replica) (hrun : Transition.run (step expiry) (Tiers.empty start) events = some s) :
    (Transition.AllSteps (step expiry) (Early expiry) (Tiers.empty start) events →
      ∀ replica backends now ctx,
        (authenticate replica backends now s).1 = .ok (some ctx) → now ≤ expiry) ∧
    ∀ replica backends now ctx, ¬ Early expiry s (.call replica backends now) →
      (authenticate replica backends now s).1 = .ok (some ctx) →
      (authenticate replica backends (expiry + 1) (authenticate replica backends now s).2).1 =
        .ok (some ctx) := by
  constructor
  · intro hearly replica backends now ctx hcall
    have hcapped : Capped expiry s :=
      Transition.invariant_run Capped.step (capped_empty start) hearly hrun
    exact hcapped.authenticate_some hcall
  · intro replica backends now ctx hlate hcall
    exact late_load_outlives hlate hcall

def healthy : Backends := ⟨true, true, true, true⟩

/-- A key that works for 100 seconds, asked for at the start. -/
def firstCall : List (TierEvent Unit) := [.setActive true, .call () healthy 0]

theorem identity_expires_first :
    ∃ s : Tiers Unit, Transition.run (step 100000000000) (Tiers.empty 0) firstCall = some s ∧
      Transition.AllSteps (step 100000000000) (Early 100000000000) (Tiers.empty 0) firstCall ∧
      ∀ replica backends now ctx,
        (authenticate replica backends now s).1 = .ok (some ctx) → now ≤ 100000000000 := by
  have hearly : Transition.AllSteps (step 100000000000) (Early 100000000000)
      (Tiers.empty 0 : Tiers Unit) firstCall := by
    refine ⟨trivial, fun s hs => ⟨?_, fun _ _ => trivial⟩⟩
    intro _
    exact Or.inl (by decide)
  exact ⟨_, rfl, hearly, (identity_expires 100000000000 0 firstCall _ rfl).1 hearly⟩

/-- A second before the key expires the identity is loaded, and a second after it is still there. -/
theorem identity_outlives_key :
    ∃ s : Tiers Unit, Transition.run (step 100000000000) (Tiers.empty 0)
        [.setActive true, .call () healthy 99000000000] = some s ∧
      (authenticate () healthy 101000000000 s).1 = .ok (some ⟨some 100000000000⟩) :=
  ⟨_, rfl, rfl⟩

end Runs

end Auth

end OpenAIGateway
