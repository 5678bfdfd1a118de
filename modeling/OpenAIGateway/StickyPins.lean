import OpenAIGateway.AuthMac
import OpenAIGateway.Breakers
import OpenAIGateway.FailoverBounds
import OpenAIGateway.Presence
import OpenAIGateway.SystemOne
import OpenAIGateway.Transition

/-!
A pool of credentials shared by every caller and every replica, and the pins
that hold a conversation to one of them. A lease reads its candidates from the
database and its pin from Redis, and writes the pin after a choice; operators
edit the credentials meanwhile. In any order of these steps a caller is only
ever given a credential it may use, and one given for a pin was chosen before
for the same conversation. A conversation whose pin stays usable keeps it.
-/

set_option linter.all false

namespace OpenAIGateway

variable {AccountId PrincipalId : Type*}

namespace Search

variable {q : Search AccountId} {w : World AccountId} [DecidableEq AccountId]

/-- What the cascade may end with: a row that was left, not for its pin, or an error. -/
def Draws (q : Search AccountId) (r : Leasing AccountId) : Prop :=
  ∀ row pinned, r.result = .ok (row, pinned) → row ∈ q.unexcluded ∧ pinned = false

theorem draws_error (e : GatewayError) (claims : Claims AccountId) : q.Draws ⟨.error e, claims⟩ := by
  intro row pinned h
  cases h

theorem draws_ok {row : AccountRow AccountId} (h : row ∈ q.unexcluded) (claims : Claims AccountId) :
    q.Draws ⟨.ok (row, false), claims⟩ := by
  rintro row' pinned' heq
  cases heq
  exact ⟨h, rfl⟩

theorem outOfRows_draws (s : Cascade AccountId) : q.Draws (q.outOfRows w s) := by
  unfold outOfRows
  split
  · split
    next row hpick =>
      split
      · exact draws_ok (pickWithRedisRoom_mem hpick) _
      · exact draws_error _ _
    next => exact draws_error _ _
  · exact draws_error _ _

theorem cascade_draws {s : Cascade AccountId} {r : Leasing AccountId} (hs : q.Within s)
    (hdone : q.cascade w s = .done r) : q.Draws r := by
  rcases cascade_cases q w s with ⟨-, heq⟩ | ⟨-, heq⟩ | ⟨-, -, ⟨full, heq⟩ | ⟨-, heq⟩ |
    ⟨row, hrow, heq⟩⟩
  · rw [heq] at hdone
    cases hdone
    exact outOfRows_draws s
  · rw [heq] at hdone
    cases hdone
    exact draws_error _ _
  · rw [heq] at hdone
    cases hdone
    exact draws_error _ _
  · rw [heq] at hdone
    cases hdone
  · rw [heq] at hdone
    unfold claimRow at hdone
    by_cases hclaim : claimSlot ((w.passes s.pass).claim row.id) = true
    · rw [if_pos hclaim] at hdone
      cases hdone
      exact draws_ok (hs row hrow) _
    · rw [if_neg hclaim] at hdone
      cases hdone

theorem tryPinned_some {pin : PinRead AccountId} {row : AccountRow AccountId}
    {claims : Claims AccountId} (h : q.tryPinned pin = (some row, claims)) :
    row ∈ q.rows ∧ pin.pinned = some row.id := by
  unfold tryPinned at h
  split at h
  · simp at h
  next found hfound =>
    obtain ⟨id, hid, hfind⟩ := Option.bind_eq_some_iff.mp hfound
    have hsame : found.id = id := of_decide_eq_true (List.find?_some hfind :)
    have hrow : found = row := by
      split at h
      · simp at h
      · split at h
        · simp at h
        · obtain ⟨hclaimed, -⟩ := Prod.mk.inj h
          exact (Option.ite_none_right_eq_some.mp hclaimed).2 |> Option.some.inj
    rw [← hrow]
    exact ⟨List.mem_of_find?_eq_some hfind, hid.trans (congrArg some hsame.symm)⟩

/-- What a lease gives: a row of its candidates that did not fail the request, and for a pin the
one it names. -/
theorem lease_ok {fuel : ℕ} {r : Leasing AccountId} (h : q.lease w fuel = some r)
    {row : AccountRow AccountId} {pinned : Bool} (hok : r.result = .ok (row, pinned)) :
    row ∈ q.unexcluded ∧ (pinned = true → q.excluded = [] ∧ w.pin.pinned = some row.id) := by
  unfold lease at h
  split at h
  · obtain rfl := Option.some.inj h
    cases hok
  · split at h
    next found claims hpin =>
      obtain rfl := Option.some.inj h
      obtain ⟨rfl, rfl⟩ := Prod.mk.inj (Except.ok.inj hok)
      unfold pinClaims at hpin
      split at hpin
      next hexcluded =>
        obtain ⟨hrow, hnamed⟩ := tryPinned_some hpin
        refine ⟨List.mem_filter.mpr ⟨hrow, ?_⟩, fun _ => ⟨hexcluded, hnamed⟩⟩
        rw [hexcluded]
        exact decide_eq_true List.not_mem_nil
      next => cases (Prod.mk.inj hpin).1
    next claims hpin =>
      have hdraws : q.Draws r := by
        refine Loop.result_of_run q.Within q.Draws ?_ ?_ (s := q.start claims) (fun _ h => h) h
        · intro s s' hs hnext
          exact cascade_within hs (Option.some.inj hnext)
        · intro s r hs hdone
          exact cascade_draws hs (Option.some.inj hdone)
      obtain ⟨hrow, rfl⟩ := hdraws row pinned hok
      exact ⟨hrow, nofun⟩

end Search

/-- `CANDIDATES_SQL`: what a route may draw on for one provider and one principal. -/
def candidates [DecidableEq PrincipalId] (accounts : List (StoredAccount AccountId PrincipalId))
    (inRoute : AccountId → Bool) (provider : String) (principal : PrincipalId) :
    List (AccountRow AccountId) :=
  (accounts.filter (fun a => inRoute a.id && decide (a.provider = provider) &&
    decide (ThreeValued.Holds (a.drawable principal)))).map StoredAccount.toAccountRow

/-- The Redis key a session's pin lives under. -/
def SessionKey.redisKey (key : SessionKey) (route provider : String) : String :=
  "oag:sticky:" ++ route ++ ":" ++ provider ++ ":" ++ key.text

namespace StickyPins

/-- How long a conversation stays pinned without being used: thirty minutes, in milliseconds. -/
def stickyTtl : ℕ := 30 * 60 * 1000

/-- What a credential is asked for: by whom, where, and in which conversation. -/
structure Asking (AccountId : Type*) where
  route : UuidText
  provider : Provider
  request : PinRequest
  channel : Option CredentialKind
  excluded : List AccountId

/-- A pin, and when it lapses. -/
structure Pin (AccountId : Type*) where
  account : AccountId
  expiresAt : ℕ

/-- A lease under way: its candidates are read, then its pin, which may be missed. -/
inductive Call (AccountId : Type*)
  | asked (asking : Asking AccountId) (q : Search AccountId)
  | looked (asking : Asking AccountId) (q : Search AccountId) (pinned : Option AccountId)

/-- A credential that was chosen and claimed, whether or not its caller is still there. -/
structure Choice (AccountId : Type*) where
  asking : Asking AccountId
  account : AccountRow AccountId
  viaSticky : Bool

/-- The credentials and their routes, the clock and pins of Redis, the writes of pins that are
sent and not yet carried out, the leases under way, and what was chosen so far. -/
structure Pool (AccountId : Type*) where
  accounts : List (StoredAccount AccountId String)
  inRoute : String → AccountId → Bool
  now : ℕ
  pins : String → Option (Pin AccountId)
  sets : List (String × AccountId)
  calls : ℕ → Option (Call AccountId)
  chosen : List (Choice AccountId)

inductive Event (AccountId : Type*)
  /-- An operator edits credentials or routes. -/
  | edit (accounts : List (StoredAccount AccountId String)) (inRoute : String → AccountId → Bool)
  | elapse (ms : ℕ)
  /-- A caller reads its candidates, and its own clock. -/
  | ask (i : ℕ) (asking : Asking AccountId) (now : ℤ)
  /-- Redis reads a pin and renews it; the answer may be lost. -/
  | look (i : ℕ) (answered : Bool)
  /-- Redis reads a pin for a caller that gave up on the answer. -/
  | late (key : String)
  /-- A caller chooses, and sends its pin. -/
  | choose (i : ℕ) (w : World AccountId) (fuel : ℕ)
  /-- A caller is gone before it chose. -/
  | leave (i : ℕ)
  /-- Redis carries out a write, or it never arrives. -/
  | set (n : ℕ)
  | lose (n : ℕ)

section Step

variable [DecidableEq AccountId] (sha256 : List UInt8 → List UInt8)

def Asking.key (asking : Asking AccountId) : String :=
  (SessionKey.resolve sha256 asking.request).redisKey asking.route.text asking.provider.asStr

/-- The search a lease makes of what it read. -/
def Pool.search (s : Pool AccountId) (asking : Asking AccountId) (now : ℤ) : Search AccountId where
  provider := asking.provider
  channel := asking.channel
  excluded := asking.excluded
  candidates := candidates s.accounts (s.inRoute asking.route.text) asking.provider.asStr
    asking.request.principalId.text
  now := now

/-- A pin that has not lapsed. -/
def Pool.pinned (s : Pool AccountId) (key : String) : Option (Pin AccountId) :=
  (s.pins key).filter (fun pin => s.now < pin.expiresAt)

def Pool.setCall (s : Pool AccountId) (i : ℕ) (call : Option (Call AccountId)) : Pool AccountId :=
  { s with calls := Function.update s.calls i call }

/-- `GETEX`. -/
def Pool.renew (s : Pool AccountId) (key : String) : Pool AccountId :=
  { s with
    pins := Function.update s.pins key
      ((s.pinned key).map (fun pin => ⟨pin.account, s.now + stickyTtl⟩)) }

/-- `SET` with an expiry. -/
def Pool.write (s : Pool AccountId) (key : String) (account : AccountId) : Pool AccountId :=
  { s with pins := Function.update s.pins key (some ⟨account, s.now + stickyTtl⟩) }

/-- A choice; unless a pin gave it, it is to be the pin. -/
def Pool.choose (s : Pool AccountId) (i : ℕ) (asking : Asking AccountId)
    (row : AccountRow AccountId) (viaSticky : Bool) : Pool AccountId :=
  { s with
    calls := Function.update s.calls i none
    chosen := s.chosen ++ [⟨asking, row, viaSticky⟩]
    sets := s.sets ++ if viaSticky then [] else [(asking.key sha256, row.id)] }

def Pool.finish (s : Pool AccountId) (i : ℕ) (asking : Asking AccountId) (r : Leasing AccountId) :
    Pool AccountId :=
  match r.result with
  | .error _ => s.setCall i none
  | .ok (row, viaSticky) => s.choose sha256 i asking row viaSticky

/-- What a lease read of its pin; one that was not read counts as none. -/
def Call.parts : Call AccountId → Asking AccountId × Search AccountId × Option AccountId
  | .asked asking q => (asking, q, none)
  | .looked asking q pinned => (asking, q, pinned)

/-- The world of a lease, with the pin it read. -/
def withPin (w : World AccountId) (pinned : Option AccountId) : World AccountId :=
  { w with pin := { w.pin with pinned := pinned } }

def step (s : Pool AccountId) : Event AccountId → Option (Pool AccountId)
  | .edit accounts inRoute => some { s with accounts := accounts, inRoute := inRoute }
  | .elapse ms => some { s with now := s.now + ms }
  | .ask i asking now =>
    if (s.calls i).isSome then none
    else some (s.setCall i (some (.asked asking (s.search asking now))))
  | .look i answered =>
    match s.calls i with
    | some (.asked asking q) =>
      -- The pin is skipped in failover, and when there is nothing to choose from.
      if asking.excluded = [] ∧ q.rows ≠ [] then
        let pinned := if answered then (s.pinned (asking.key sha256)).map Pin.account else none
        some ((s.renew (asking.key sha256)).setCall i (some (.looked asking q pinned)))
      else none
    | _ => none
  | .late key => some (s.renew key)
  | .choose i w fuel =>
    (s.calls i).bind (fun call =>
      (call.parts.2.1.lease (withPin w call.parts.2.2) fuel).map
        (s.finish sha256 i call.parts.1))
  | .leave i => (s.calls i).map (fun _ => s.setCall i none)
  | .set n => s.sets[n]?.map (fun write =>
      { s.write write.1 write.2 with sets := s.sets.eraseIdx n })
  | .lose n => s.sets[n]?.map (fun _ => { s with sets := s.sets.eraseIdx n })

end Step

/-- A pool at its start: no pin, no lease, nothing chosen. -/
structure Pool.Fresh (s : Pool AccountId) : Prop where
  pins : ∀ key, s.pins key = none
  sets : s.sets = []
  calls : ∀ i, s.calls i = none
  chosen : s.chosen = []

section Effects

variable [DecidableEq AccountId] {sha256 : List UInt8 → List UInt8}

/-- Everything a step can do. -/
inductive Effect (sha256 : List UInt8 → List UInt8) (s : Pool AccountId) :
    Event AccountId → Pool AccountId → Prop
  | edit (accounts : List (StoredAccount AccountId String)) (inRoute : String → AccountId → Bool) :
    Effect sha256 s (.edit accounts inRoute) { s with accounts := accounts, inRoute := inRoute }
  | elapse (ms : ℕ) : Effect sha256 s (.elapse ms) { s with now := s.now + ms }
  | ask (i : ℕ) (asking : Asking AccountId) (now : ℤ) (free : s.calls i = none) :
    Effect sha256 s (.ask i asking now) (s.setCall i (some (.asked asking (s.search asking now))))
  | look (i : ℕ) (answered : Bool) (asking : Asking AccountId) (q : Search AccountId)
    (asked : s.calls i = some (.asked asking q)) (first : asking.excluded = []) :
    Effect sha256 s (.look i answered) ((s.renew (asking.key sha256)).setCall i
      (some (.looked asking q
        (if answered then (s.pinned (asking.key sha256)).map Pin.account else none))))
  | late (key : String) : Effect sha256 s (.late key) (s.renew key)
  | fail (i : ℕ) (w : World AccountId) (fuel : ℕ) : Effect sha256 s (.choose i w fuel)
      (s.setCall i none)
  | choose (i : ℕ) (w : World AccountId) (fuel : ℕ) (call : Call AccountId) (r : Leasing AccountId)
    (row : AccountRow AccountId) (viaSticky : Bool) (calling : s.calls i = some call)
    (leased : call.parts.2.1.lease (withPin w call.parts.2.2) fuel = some r)
    (ok : r.result = .ok (row, viaSticky)) :
    Effect sha256 s (.choose i w fuel) (s.choose sha256 i call.parts.1 row viaSticky)
  | leave (i : ℕ) : Effect sha256 s (.leave i) (s.setCall i none)
  | set (n : ℕ) (key : String) (account : AccountId) (sent : s.sets[n]? = some (key, account)) :
    Effect sha256 s (.set n) { s.write key account with sets := s.sets.eraseIdx n }
  | lose (n : ℕ) : Effect sha256 s (.lose n) { s with sets := s.sets.eraseIdx n }

theorem step_effect {s s' : Pool AccountId} {e : Event AccountId}
    (h : step sha256 s e = some s') : Effect sha256 s e s' := by
  cases e with
  | edit accounts inRoute =>
    obtain rfl := Option.some.inj h
    exact .edit accounts inRoute
  | elapse ms =>
    obtain rfl := Option.some.inj h
    exact .elapse ms
  | ask i asking now =>
    obtain ⟨hfree, hs⟩ := Option.ite_none_left_eq_some.mp h
    obtain rfl := Option.some.inj hs
    exact .ask i asking now (Option.not_isSome_iff_eq_none.mp hfree)
  | look i answered =>
    simp only [step] at h
    split at h
    next asking q hasked =>
      obtain ⟨⟨hfirst, -⟩, hs⟩ := Option.ite_none_right_eq_some.mp h
      obtain rfl := Option.some.inj hs
      exact .look i answered asking q hasked hfirst
    next => cases h
  | late key =>
    obtain rfl := Option.some.inj h
    exact .late key
  | choose i w fuel =>
    obtain ⟨call, hcall, hrest⟩ := Option.bind_eq_some_iff.mp h
    obtain ⟨r, hleased, rfl⟩ := Option.map_eq_some_iff.mp hrest
    unfold Pool.finish
    split
    next => exact .fail i w fuel
    next row viaSticky hok => exact .choose i w fuel call r row viaSticky hcall hleased hok
  | leave i =>
    obtain ⟨call, -, rfl⟩ := Option.map_eq_some_iff.mp h
    exact .leave i
  | set n =>
    obtain ⟨⟨key, account⟩, hsent, rfl⟩ := Option.map_eq_some_iff.mp h
    exact .set n key account hsent
  | lose n =>
    obtain ⟨_, -, rfl⟩ := Option.map_eq_some_iff.mp h
    exact .lose n

/-- The leases under way after a step: those before it, and the one that asks. -/
theorem Effect.calls {s s' : Pool AccountId} {e : Event AccountId} (h : Effect sha256 s e s')
    {i : ℕ} {call' : Call AccountId} (hcall : s'.calls i = some call') :
    (∃ call, s.calls i = some call ∧ call'.parts.1 = call.parts.1 ∧
        call'.parts.2.1 = call.parts.2.1) ∨
      ∃ asking now, e = .ask i asking now ∧ call' = .asked asking (s.search asking now) := by
  have hset : ∀ (j : ℕ) (call : Option (Call AccountId)),
      Function.update s.calls j call i = some call' →
        (i = j ∧ call = some call') ∨ s.calls i = some call' := by
    intro j call hupdate
    by_cases hij : i = j
    · rw [hij, Function.update_self] at hupdate
      exact .inl ⟨hij, hupdate⟩
    · rw [Function.update_of_ne hij] at hupdate
      exact .inr hupdate
  have hcleared : ∀ j, Function.update s.calls j none i = some call' → ∃ call,
      s.calls i = some call ∧ call'.parts.1 = call.parts.1 ∧ call'.parts.2.1 = call.parts.2.1 := by
    intro j hupdate
    rcases hset j none hupdate with ⟨-, hnone⟩ | hsame
    · cases hnone
    · exact ⟨call', hsame, rfl, rfl⟩
  cases h with
  | edit | elapse | late | set | lose => exact .inl ⟨call', hcall, rfl, rfl⟩
  | fail | choose | leave => exact .inl (hcleared _ hcall)
  | ask j asking now free =>
    rcases hset j _ hcall with ⟨rfl, hsome⟩ | hsame
    · exact .inr ⟨asking, now, rfl, (Option.some.inj hsome).symm⟩
    · exact .inl ⟨call', hsame, rfl, rfl⟩
  | look j answered asking q asked first =>
    rcases hset j _ hcall with ⟨rfl, hsome⟩ | hsame
    · obtain rfl := Option.some.inj hsome
      exact .inl ⟨_, asked, rfl, rfl⟩
    · exact .inl ⟨call', hsame, rfl, rfl⟩

end Effects

section Isolation

variable [DecidableEq AccountId] {sha256 : List UInt8 → List UInt8} {start : Pool AccountId}

/-- The caller may use the credential: it is on the route and of the provider and the channel it
asked for, it did not fail the request, and it is the caller's own or a key without an owner. -/
structure MayUse (s : Pool AccountId) (asking : Asking AccountId) (row : AccountRow AccountId) :
    Prop where
  owned : ∃ a ∈ s.accounts, a.toAccountRow = row ∧
    (a.ownerPrincipalId = some asking.request.principalId.text ∨
      (a.ownerPrincipalId = none ∧ a.kind ≠ "oauth"))
  inRoute : s.inRoute asking.route.text row.id = true
  provider : row.provider = asking.provider.asStr
  channel : ∀ kind ∈ asking.channel, CredentialKind.fromColumn row.kind = some kind
  spared : row.id ∉ asking.excluded

theorem mayUse_of_unexcluded {s : Pool AccountId} {asking : Asking AccountId} {now : ℤ}
    {row : AccountRow AccountId} (h : row ∈ (s.search asking now).unexcluded) :
    MayUse s asking row := by
  have hspared := Search.notMem_excluded h
  have hrow : row ∈ (s.search asking now).rows := List.mem_of_mem_filter h
  have hkind : row ∈ (s.search asking now).candidates ∧
      ∀ kind ∈ asking.channel, CredentialKind.fromColumn row.kind = some kind := by
    unfold Search.rows ofKind at hrow
    cases hchannel : asking.channel with
    | none =>
      rw [show (s.search asking now).channel = none from hchannel] at hrow
      exact ⟨hrow, nofun⟩
    | some kind =>
      rw [show (s.search asking now).channel = some kind from hchannel] at hrow
      obtain ⟨hmem, hkind⟩ := List.mem_filter.mp hrow
      refine ⟨hmem, ?_⟩
      rintro other ⟨⟩
      exact of_decide_eq_true hkind
  obtain ⟨a, ha, rfl⟩ := List.mem_map.mp hkind.1
  obtain ⟨hstored, hkept⟩ := List.mem_filter.mp ha
  simp only [Bool.and_eq_true, decide_eq_true_eq, StoredAccount.drawable,
    ThreeValued.holds_disj_iff, ThreeValued.holds_conj_iff, ThreeValued.holds_compare_iff,
    ThreeValued.holds_isNull_iff, ThreeValued.holds_some_iff, bne_iff_ne, ne_eq] at hkept
  obtain ⟨⟨hroute, hprovider⟩, howner⟩ := hkept
  refine ⟨⟨a, hstored, rfl, ?_⟩, hroute, hprovider, hkind.2, hspared⟩
  rcases howner with ⟨owner, hown, principal, hprincipal, rfl⟩ | hshared
  · obtain rfl := Option.some.inj hprincipal
    exact .inl hown
  · exact .inr hshared

/-- A search whose candidates were read in the course of a run. -/
def Asked (sha256 : List UInt8 → List UInt8) (start : Pool AccountId) (past : List (Event AccountId))
    (asking : Asking AccountId) (q : Search AccountId) : Prop :=
  ∃ before after i now s, past = before ++ .ask i asking now :: after ∧
    Transition.run (step sha256) start before = some s ∧ q = s.search asking now

theorem Asked.later {past : List (Event AccountId)} {asking : Asking AccountId}
    {q : Search AccountId} (h : Asked sha256 start past asking q) (e : Event AccountId) :
    Asked sha256 start (past ++ [e]) asking q := by
  obtain ⟨before, after, i, now, s, rfl, hrun, hq⟩ := h
  exact ⟨before, after ++ [e], i, now, s, by simp, hrun, hq⟩

/-- Whatever the order of callers, replicas and operators, every credential that is chosen is one
its caller could use when its candidates were read. -/
theorem seats_isolated (sha256 : List UInt8 → List UInt8) {start s : Pool AccountId}
    (hfresh : start.Fresh) {events : List (Event AccountId)}
    (hrun : Transition.run (step sha256) start events = some s) :
    ∀ c ∈ s.chosen, ∃ before after i now s₀, events = before ++ .ask i c.asking now :: after ∧
      Transition.run (step sha256) start before = some s₀ ∧ MayUse s₀ c.asking c.account := by
  have hhistory : (∀ i call, s.calls i = some call →
      Asked sha256 start events call.parts.1 call.parts.2.1) ∧
      ∀ c ∈ s.chosen, ∃ q, Asked sha256 start events c.asking q ∧ c.account ∈ q.unexcluded := by
    refine Transition.history_run (J := fun past s => (∀ i call, s.calls i = some call →
      Asked sha256 start past call.parts.1 call.parts.2.1) ∧
        ∀ c ∈ s.chosen, ∃ q, Asked sha256 start past c.asking q ∧ c.account ∈ q.unexcluded)
      ?_ ?_ hrun
    · rw [hfresh.chosen]
      refine ⟨fun i call hcall => ?_, fun c hc => absurd hc List.not_mem_nil⟩
      rw [hfresh.calls i] at hcall
      cases hcall
    · intro past s e s' hpast hkept hstep
      have heffect := step_effect hstep
      have hold : ∀ c ∈ s.chosen, ∃ q, Asked sha256 start (past ++ [e]) c.asking q ∧
          c.account ∈ q.unexcluded := fun c hc =>
        (hkept.2 c hc).imp (fun q hq => ⟨hq.1.later e, hq.2⟩)
      refine ⟨?_, ?_⟩
      · intro i call' hcall'
        rcases heffect.calls hcall' with ⟨call, hcall, hasking, hq⟩ | ⟨asking, now, rfl, rfl⟩
        · rw [hasking, hq]
          exact (hkept.1 i call hcall).later e
        · exact ⟨past, [], i, now, s, rfl, hpast, rfl⟩
      · cases heffect with
        | choose i w fuel call r row viaSticky calling leased ok =>
          intro c hc
          rcases List.mem_append.mp hc with hc | hc
          · exact hold c hc
          · rw [List.mem_singleton.mp hc]
            exact ⟨_, (hkept.1 i call calling).later _, (Search.lease_ok leased ok).1⟩
        | _ => exact hold
  intro c hc
  obtain ⟨q, ⟨before, after, i, now, s₀, hevents, hbefore, rfl⟩, hrow⟩ := hhistory.2 c hc
  exact ⟨before, after, i, now, s₀, hevents, hbefore, mayUse_of_unexcluded hrow⟩

end Isolation

section Turns

/-- Two keys of the organisation on every route. -/
def turnsStart : Pool ℕ where
  accounts := [{ toAccountRow := Search.keyRow 1 none, ownerPrincipalId := none, servedModels := none },
    { toAccountRow := Search.keyRow 2 none, ownerPrincipalId := none, servedModels := none }]
  inRoute _ _ := true
  now := 0
  pins _ := none
  sets := []
  calls _ := none
  chosen := []

theorem turns_fresh : turnsStart.Fresh := ⟨fun _ => rfl, rfl, fun _ => rfl, rfl⟩

def turnAsking : Asking ℕ where
  route := ⟨"6f61672d-7072-496e-8370-616c2d6f6e65", SessionKey.length_tenant⟩
  provider := .anthropic
  request := SessionKey.sessionRequest []
  channel := none
  excluded := []

/-- Both keys are idle, and every slot that is claimed is taken. -/
def idle : World ℕ where
  pin := ⟨none, fun _ => false, some 0, true, some .taken⟩
  passes _ := ⟨⟨fun _ => true, fun _ => false, fun _ => false, some [0, 0]⟩, 1,
    ⟨fun _ => true, fun _ => false, some [0, 0], 0⟩, fun _ => some .taken⟩
  room := ⟨fun _ => true, fun _ => false, some [0, 0], 0⟩
  claim _ := some .taken

/-- A conversation's first turn, which pins it. -/
def firstTurn : List (Event ℕ) :=
  [.ask 0 turnAsking 0, .look 0 true, .choose 0 idle 4, .set 0]

/-- Its second, a minute later. -/
def secondTurn : List (Event ℕ) :=
  [.elapse 60000, .ask 1 turnAsking 60, .look 1 true, .choose 1 idle 4]

def afterTurns (events : List (Event ℕ)) : Pool ℕ :=
  (Transition.run (step SessionKey.digestOrLonger) turnsStart events).getD turnsStart

theorem turns_run {events : List (Event ℕ)}
    (h : (Transition.run (step SessionKey.digestOrLonger) turnsStart events).isSome = true) :
    Transition.run (step SessionKey.digestOrLonger) turnsStart events =
      some (afterTurns events) := by
  obtain ⟨s, hs⟩ := Option.isSome_iff_exists.mp h
  unfold afterTurns
  rw [hs]
  rfl

/-- Both turns are possible; each chooses a key, and the second by its pin. -/
theorem bothTurns_spec : (Transition.run (step SessionKey.digestOrLonger) turnsStart
      (firstTurn ++ secondTurn)).isSome = true ∧
    (afterTurns (firstTurn ++ secondTurn)).chosen.length = 2 ∧
    ((afterTurns (firstTurn ++ secondTurn)).chosen[1]?).any Choice.viaSticky = true ∧
    (∀ c ∈ (afterTurns (firstTurn ++ secondTurn)).chosen,
      (SessionKey.message c.asking.request).length < SessionKey.sha256Limit) ∧
    ∀ c ∈ (afterTurns (firstTurn ++ secondTurn)).chosen,
      ∀ c' ∈ (afterTurns (firstTurn ++ secondTurn)).chosen,
        c.asking.request.apiKeyId.text = c'.asking.request.apiKeyId.text →
          c.asking.request.principalId.text = c'.asking.request.principalId.text := by
  decide +kernel

theorem bothTurns_run : Transition.run (step SessionKey.digestOrLonger) turnsStart
    (firstTurn ++ secondTurn) = some (afterTurns (firstTurn ++ secondTurn)) :=
  turns_run bothTurns_spec.1

theorem seats_isolated_turns : (afterTurns (firstTurn ++ secondTurn)).chosen.length = 2 ∧
    ∀ c ∈ (afterTurns (firstTurn ++ secondTurn)).chosen, ∃ before after i now s₀,
      firstTurn ++ secondTurn = before ++ .ask i c.asking now :: after ∧
      Transition.run (step SessionKey.digestOrLonger) turnsStart before = some s₀ ∧
      MayUse s₀ c.asking c.account :=
  ⟨bothTurns_spec.2.1, seats_isolated SessionKey.digestOrLonger turns_fresh bothTurns_run⟩

end Turns

section Provenance

variable {sha256 : List UInt8 → List UInt8}

/-- An earlier choice made the cascade's way that pins a key to an account. -/
def Choice.Pins (sha256 : List UInt8 → List UInt8) (c : Choice AccountId) (key : String)
    (account : AccountId) : Prop :=
  c.viaSticky = false ∧ c.asking.key sha256 = key ∧ c.account.id = account

/-- Every pin, every write of one and every pin that was read comes from a choice, and every
choice made for a pin from an earlier one. -/
structure Sourced (sha256 : List UInt8 → List UInt8) (s : Pool AccountId) : Prop where
  pins : ∀ key pin, s.pins key = some pin → ∃ c ∈ s.chosen, c.Pins sha256 key pin.account
  sets : ∀ write ∈ s.sets, ∃ c ∈ s.chosen, c.Pins sha256 write.1 write.2
  looked : ∀ i asking q account, s.calls i = some (.looked asking q (some account)) →
    ∃ c ∈ s.chosen, c.Pins sha256 (asking.key sha256) account
  sticky : ∀ (n : ℕ) (c : Choice AccountId), s.chosen[n]? = some c → c.viaSticky = true →
    ∃ m < n, ∃ c' : Choice AccountId, s.chosen[m]? = some c' ∧ c'.Pins sha256 (c.asking.key sha256) c.account.id

theorem Pool.Fresh.sourced {s : Pool AccountId} (h : s.Fresh) : Sourced sha256 s where
  pins := by
    intro key pin hpin
    rw [h.pins key] at hpin
    cases hpin
  sets := by rw [h.sets]; nofun
  looked := by
    intro i asking q account hcall
    rw [h.calls i] at hcall
    cases hcall
  sticky := by
    intro n c hc
    rw [h.chosen] at hc
    cases hc

/-- A step that chooses nothing keeps the sources, if what it adds has one. -/
theorem Sourced.same {s s' : Pool AccountId} (h : Sourced sha256 s) (hchosen : s'.chosen = s.chosen)
    (hpins : ∀ key pin, s'.pins key = some pin → ∃ c ∈ s.chosen, c.Pins sha256 key pin.account)
    (hsets : ∀ write ∈ s'.sets, write ∈ s.sets)
    (hlooked : ∀ i asking q account, s'.calls i = some (.looked asking q (some account)) →
      ∃ c ∈ s.chosen, c.Pins sha256 (asking.key sha256) account) : Sourced sha256 s' where
  pins := by rw [hchosen]; exact hpins
  sets := by
    rw [hchosen]
    exact fun write hwrite => h.sets write (hsets write hwrite)
  looked := by rw [hchosen]; exact hlooked
  sticky := by rw [hchosen]; exact h.sticky

theorem Sourced.pinned {s : Pool AccountId} (h : Sourced sha256 s) {key : String}
    {pin : Pin AccountId} (hpin : s.pinned key = some pin) :
    ∃ c ∈ s.chosen, c.Pins sha256 key pin.account :=
  h.pins key pin (Option.filter_eq_some_iff.mp hpin).1

theorem Sourced.renewed {s : Pool AccountId} (h : Sourced sha256 s) (key : String) :
    ∀ other pin, (s.renew key).pins other = some pin →
      ∃ c ∈ s.chosen, c.Pins sha256 other pin.account := by
  intro other pin hpin
  by_cases hkey : other = key
  · simp only [hkey, Pool.renew, Function.update_self] at hpin
    obtain ⟨old, hold, rfl⟩ := Option.map_eq_some_iff.mp hpin
    obtain ⟨c, hc, hpins⟩ := h.pinned hold
    rw [hkey]
    exact ⟨c, hc, hpins⟩
  · simp only [Pool.renew, Function.update_of_ne hkey] at hpin
    exact h.pins other pin hpin

/-- A call that changes leaves the others. -/
theorem Sourced.setCall {s : Pool AccountId} (h : Sourced sha256 s) (i : ℕ)
    {call : Option (Call AccountId)} (hcall : ∀ asking q account,
      call = some (.looked asking q (some account)) →
        ∃ c ∈ s.chosen, c.Pins sha256 (asking.key sha256) account) :
    ∀ j asking q account, (s.setCall i call).calls j = some (.looked asking q (some account)) →
      ∃ c ∈ s.chosen, c.Pins sha256 (asking.key sha256) account := by
  intro j asking q account hj
  by_cases hij : j = i
  · simp only [hij, Pool.setCall, Function.update_self] at hj
    exact hcall asking q account hj
  · simp only [Pool.setCall, Function.update_of_ne hij] at hj
    exact h.looked j asking q account hj

theorem none_notLooked {P : Asking AccountId → Search AccountId → AccountId → Prop} :
    ∀ asking q account, (none : Option (Call AccountId)) = some (.looked asking q (some account)) →
      P asking q account := by
  intro asking q account h
  cases h

variable [DecidableEq AccountId]

theorem Sourced.choose {s : Pool AccountId} (h : Sourced sha256 s) {i : ℕ} {call : Call AccountId}
    {w : World AccountId} {fuel : ℕ} {r : Leasing AccountId} {row : AccountRow AccountId}
    {viaSticky : Bool} (calling : s.calls i = some call)
    (leased : call.parts.2.1.lease (withPin w call.parts.2.2) fuel = some r)
    (ok : r.result = .ok (row, viaSticky)) :
    Sourced sha256 (s.choose sha256 i call.parts.1 row viaSticky) where
  pins := fun key pin hpin => (h.pins key pin hpin).imp
    (fun c hc => ⟨List.mem_append_left _ hc.1, hc.2⟩)
  sets := by
    intro write hwrite
    rcases List.mem_append.mp hwrite with hwrite | hwrite
    · exact (h.sets write hwrite).imp (fun c hc => ⟨List.mem_append_left _ hc.1, hc.2⟩)
    · cases viaSticky with
      | true => cases hwrite
      | false =>
        rw [List.mem_singleton.mp hwrite]
        exact ⟨_, List.mem_append_right _ (List.mem_singleton_self _), rfl, rfl, rfl⟩
  looked := by
    intro j asking q account hj
    exact (h.setCall i none_notLooked j asking q account hj).imp
      (fun c hc => ⟨List.mem_append_left _ hc.1, hc.2⟩)
  sticky := by
    intro n c hc hsticky
    have hearlier : ∀ (m : ℕ) (c' : Choice AccountId), s.chosen[m]? = some c' →
        (s.chosen ++ [⟨call.parts.1, row, viaSticky⟩])[m]? = some c' := by
      intro m c' hm
      rw [List.getElem?_append_left (List.getElem?_eq_some_iff.mp hm).1]
      exact hm
    rcases getElem?_concat_cases hc with hold | ⟨rfl, rfl⟩
    · obtain ⟨m, hm, c', hc', hpins⟩ := h.sticky n c hold hsticky
      exact ⟨m, hm, c', hearlier m c' hc', hpins⟩
    · -- The lease was given for the pin it read, so it read one.
      have hread := (Search.lease_ok leased (ok.trans (by rw [show viaSticky = true from hsticky]))).2
        rfl
      cases call with
      | asked asking q => cases hread.2
      | looked asking q pinned =>
        have hpinned : pinned = some row.id := hread.2
        rw [hpinned] at calling
        obtain ⟨c', hc', hpins⟩ := h.looked i asking q row.id calling
        obtain ⟨m, hm⟩ := List.mem_iff_getElem?.mp hc'
        exact ⟨m, (List.getElem?_eq_some_iff.mp hm).1, c', hearlier m c' hm, hpins⟩

theorem Sourced.step {s s' : Pool AccountId} {e : Event AccountId} (h : Sourced sha256 s)
    (hstep : step sha256 s e = some s') : Sourced sha256 s' := by
  cases step_effect hstep with
  | edit accounts inRoute => exact h.same rfl h.pins (fun _ hw => hw) h.looked
  | elapse ms => exact h.same rfl h.pins (fun _ hw => hw) h.looked
  | ask i asking now free =>
    refine h.same rfl h.pins (fun _ hw => hw) (h.setCall i ?_)
    intro asking' q account hcall
    cases hcall
  | look i answered asking q asked first =>
    refine h.same rfl (h.renewed _) (fun _ hw => hw) (h.setCall i ?_)
    intro asking' q' account hlooked
    obtain ⟨rfl, rfl, hread⟩ := Call.looked.inj (Option.some.inj hlooked)
    cases answered with
    | false => cases hread
    | true =>
      obtain ⟨pin, hpin, rfl⟩ := Option.map_eq_some_iff.mp hread
      exact h.pinned hpin
  | late key => exact h.same rfl (h.renewed key) (fun _ hw => hw) h.looked
  | fail i w fuel => exact h.same rfl h.pins (fun _ hw => hw) (h.setCall i none_notLooked)
  | choose i w fuel call r row viaSticky calling leased ok => exact h.choose calling leased ok
  | leave i => exact h.same rfl h.pins (fun _ hw => hw) (h.setCall i none_notLooked)
  | set n key account sent =>
    refine h.same rfl ?_ (fun _ hw => List.mem_of_mem_eraseIdx hw) h.looked
    intro other pin hpin
    by_cases hkey : other = key
    · rw [hkey]
      obtain rfl : (⟨account, s.now + stickyTtl⟩ : Pin AccountId) = pin := by
        simpa [Pool.write, hkey] using hpin
      exact h.sets _ (List.mem_of_getElem? sent)
    · exact h.pins other pin (by simpa [Pool.write, Function.update_of_ne hkey] using hpin)
  | lose n => exact h.same rfl h.pins (fun _ hw => List.mem_of_mem_eraseIdx hw) h.looked

theorem notMem_hex {c : Char} (hc : ∀ d < 16, Nat.digitChar d ≠ c) (bytes : List UInt8) :
    c ∉ (SessionKey.hex bytes).toList := by
  unfold SessionKey.hex
  rw [String.toList_ofList, List.mem_flatMap]
  rintro ⟨b, -, hmem⟩
  rw [AuthMac.hexDigits_two] at hmem
  simp only [List.mem_cons, List.not_mem_nil, or_false] at hmem
  rcases hmem with h | h <;> exact hc _ (by omega) h.symm

/-- The parts of a pin's key can be cut out of it again. -/
theorem redisKey_inj {route route' : UuidText} {provider provider' : String}
    {bytes bytes' : List UInt8}
    (h : (⟨SessionKey.hex bytes⟩ : SessionKey).redisKey route.text provider =
      (⟨SessionKey.hex bytes'⟩ : SessionKey).redisKey route'.text provider') :
    route.text = route'.text ∧ provider = provider' ∧ bytes = bytes' := by
  have hcolon : ∀ bytes, ':' ∉ (SessionKey.hex bytes).toList := notMem_hex (by decide)
  have hcut : ∀ (route : UuidText) (provider : String) (bytes : List UInt8),
      Split.rsplitOnce ':' ((⟨SessionKey.hex bytes⟩ : SessionKey).redisKey route.text provider) =
        some ("oag:sticky:" ++ route.text ++ ":" ++ provider, SessionKey.hex bytes) := by
    intro route provider bytes
    rw [Split.rsplitOnce_eq_some_iff]
    refine ⟨?_, hcolon bytes⟩
    simp [SessionKey.redisKey]
  have hparts := (hcut route provider bytes).symm.trans
    ((congrArg (Split.rsplitOnce ':') h).trans (hcut route' provider' bytes'))
  obtain ⟨hfront, hhex⟩ := Prod.mk.inj (Option.some.inj hparts)
  have hbytes := congrArg Ascii.bytes hfront
  simp only [Ascii.bytes, String.toList_append, Utf8.encode_append, List.append_assoc] at hbytes
  obtain ⟨hroute, hrest⟩ := List.append_inj (List.append_cancel_left hbytes)
    (route.length_bytes.trans route'.length_bytes.symm)
  exact ⟨Ascii.bytes_injective hroute, Ascii.bytes_injective (List.append_cancel_left hrest),
    SessionKey.hex_injective hhex⟩

/-- A credential that is chosen for a pin was chosen before, the cascade's way, for the same
conversation of the same principal on the same route and provider. SHA-256 is taken to tell
messages apart that it takes, and an API key belongs to one principal. -/
theorem pins_stay_with_conversation (sha256 : List UInt8 → List UInt8)
    (hsha : ∀ m m', m.length < SessionKey.sha256Limit → m'.length < SessionKey.sha256Limit →
      sha256 m = sha256 m' → m = m')
    {start s : Pool AccountId} (hfresh : start.Fresh) {events : List (Event AccountId)}
    (hrun : Transition.run (step sha256) start events = some s)
    (hshort : ∀ c ∈ s.chosen, (SessionKey.message c.asking.request).length < SessionKey.sha256Limit)
    (howner : ∀ c ∈ s.chosen, ∀ c' ∈ s.chosen,
      c.asking.request.apiKeyId.text = c'.asking.request.apiKeyId.text →
        c.asking.request.principalId.text = c'.asking.request.principalId.text)
    {n : ℕ} {c : Choice AccountId} (hc : s.chosen[n]? = some c) (hsticky : c.viaSticky = true) :
    ∃ m < n, ∃ c' : Choice AccountId, s.chosen[m]? = some c' ∧ c'.viaSticky = false ∧
      c'.account.id = c.account.id ∧ c'.asking.route.text = c.asking.route.text ∧
      c'.asking.provider.asStr = c.asking.provider.asStr ∧
      SessionKey.origin c'.asking.request = SessionKey.origin c.asking.request ∧
      c'.asking.request.principalId.text = c.asking.request.principalId.text := by
  have hsourced : Sourced sha256 s :=
    Transition.preserved_run (fun s e s' h hstep => h.step hstep) hfresh.sourced hrun
  obtain ⟨m, hm, c', hc', hcascade, hkey, haccount⟩ := hsourced.sticky n c hc hsticky
  unfold Asking.key at hkey
  rw [SessionKey.resolve_eq, SessionKey.resolve_eq] at hkey
  obtain ⟨hroute, hprovider, hhash⟩ := redisKey_inj hkey
  have hmem := List.mem_of_getElem? hc
  have hmem' := List.mem_of_getElem? hc'
  obtain ⟨horigin, hscope⟩ := SessionKey.message_injective (hshort c' hmem') (hshort c hmem)
    (hsha _ _ (hshort c' hmem') (hshort c hmem) hhash)
  exact ⟨m, hm, c', hc', hcascade, haccount, hroute, hprovider, horigin,
    hscope.elim id (howner c' hmem' c hmem)⟩

/-- The second turn of a conversation is chosen for the pin of the first. -/
theorem pins_stay_second_turn :
    let s := afterTurns (firstTurn ++ secondTurn)
    ∃ c : Choice ℕ, s.chosen[1]? = some c ∧
      ∃ m < 1, ∃ c' : Choice ℕ, s.chosen[m]? = some c' ∧ c'.viaSticky = false ∧
        c'.account.id = c.account.id ∧ c'.asking.route.text = c.asking.route.text ∧
        c'.asking.provider.asStr = c.asking.provider.asStr ∧
        SessionKey.origin c'.asking.request = SessionKey.origin c.asking.request ∧
        c'.asking.request.principalId.text = c.asking.request.principalId.text := by
  obtain ⟨-, -, hsecond, hshort, howner⟩ := bothTurns_spec
  obtain ⟨c, hc, hsticky⟩ := (Option.any_eq_true _ _).mp hsecond
  exact ⟨c, hc, pins_stay_with_conversation SessionKey.digestOrLonger
    (fun _ _ _ _ h => SessionKey.digestOrLonger_injective h) turns_fresh bothTurns_run hshort howner
    hc hsticky⟩

end Provenance

section Staying

variable {sha256 : List UInt8 → List UInt8} {key : String} {account : AccountId}

/-- A conversation that is settled on a credential: its pin names it, no write on its way names
another, and no lease of it has read anything else. -/
structure Settled (sha256 : List UInt8 → List UInt8) (key : String) (account : AccountId)
    (s : Pool AccountId) : Prop where
  pin : ∃ pin, s.pins key = some pin ∧ pin.account = account ∧ s.now < pin.expiresAt
  sets : ∀ write ∈ s.sets, write.1 = key → write.2 = account
  looked : ∀ i asking q pinned, s.calls i = some (.looked asking q pinned) →
    asking.key sha256 = key → pinned = some account

theorem Settled.pinned {s : Pool AccountId} (h : Settled sha256 key account s) :
    ∃ pin, s.pinned key = some pin ∧ pin.account = account := by
  obtain ⟨pin, hpin, haccount, hlive⟩ := h.pin
  refine ⟨pin, ?_, haccount⟩
  unfold Pool.pinned
  rw [hpin]
  exact if_pos (decide_eq_true hlive)

theorem Settled.renewed {s : Pool AccountId} (h : Settled sha256 key account s) (other : String) :
    ∃ pin, (s.renew other).pins key = some pin ∧ pin.account = account ∧ s.now < pin.expiresAt := by
  by_cases hkey : key = other
  · obtain ⟨pin, hpin, haccount⟩ := h.pinned
    refine ⟨⟨pin.account, s.now + stickyTtl⟩, ?_, haccount, Nat.lt_add_of_pos_right (by decide)⟩
    simp only [Pool.renew, hkey, Function.update_self]
    rw [← hkey, hpin]
    rfl
  · simp only [Pool.renew, Function.update_of_ne hkey]
    exact h.pin

/-- A call that changes leaves the others. -/
theorem Settled.setCall {s : Pool AccountId} (h : Settled sha256 key account s) {i : ℕ}
    {call : Option (Call AccountId)} (hcall : ∀ asking q pinned,
      call = some (.looked asking q pinned) → asking.key sha256 = key → pinned = some account) :
    ∀ j asking q pinned, Function.update s.calls i call j = some (.looked asking q pinned) →
      asking.key sha256 = key → pinned = some account := by
  intro j asking q pinned hj
  by_cases hij : j = i
  · rw [hij, Function.update_self] at hj
    exact hcall asking q pinned hj
  · rw [Function.update_of_ne hij] at hj
    exact h.looked j asking q pinned hj

variable [DecidableEq AccountId]

/-- A pinned credential that a lease finds usable: it is still among the caller's candidates, it
could take the request, its breaker permits it, and its slot is not refused. -/
structure Usable (q : Search AccountId) (pin : PinRead AccountId) (account : AccountId) : Prop where
  first : q.excluded = []
  eligible : ((q.rows.find? (fun r => r.id = account)).bind (fun row =>
    row.toCandidate pin.registry (pin.inFlight.getD 0) 0)).any (isEligible · q.now) = true
  permits : pin.permits = true
  claimed : claimSlot pin.claim = true

instance (q : Search AccountId) (pin : PinRead AccountId) (account : AccountId) :
    Decidable (Usable q pin account) :=
  decidable_of_iff (q.excluded = [] ∧ ((q.rows.find? (fun r => r.id = account)).bind (fun row =>
      row.toCandidate pin.registry (pin.inFlight.getD 0) 0)).any (isEligible · q.now) = true ∧
        pin.permits = true ∧ claimSlot pin.claim = true)
    ⟨fun h => ⟨h.1, h.2.1, h.2.2.1, h.2.2.2⟩, fun h => ⟨h.1, h.2, h.3, h.4⟩⟩

theorem lease_usable {q : Search AccountId} {w : World AccountId} {fuel : ℕ}
    {r : Leasing AccountId} (husable : Usable q w.pin account)
    (h : q.lease (withPin w (some account)) fuel = some r) :
    ∃ row, r.result = .ok (row, true) ∧ row.id = account := by
  obtain ⟨candidate, hfound, heligible⟩ := (Option.any_eq_true _ _).mp husable.eligible
  obtain ⟨row, hfind, hcandidate⟩ := Option.bind_eq_some_iff.mp hfound
  have hrows : q.rows ≠ [] := by
    intro hnil
    rw [hnil] at hfind
    cases hfind
  have hpinned : q.pinClaims (withPin w (some account)) =
      (some row, [(row.id, w.pin.claim)]) := by
    unfold Search.pinClaims Search.tryPinned withPin
    rw [if_pos husable.first]
    simp only [Option.bind_some, hfind, hcandidate, heligible, husable.permits, husable.claimed]
    rfl
  unfold Search.lease at h
  rw [if_neg hrows, hpinned] at h
  obtain rfl := Option.some.inj h
  exact ⟨row, rfl, of_decide_eq_true (List.find?_some hfind :)⟩

/-- The lease got an answer about its pin. -/
def Call.Looked : Call AccountId → Prop
  | .asked _ _ => False
  | .looked _ _ _ => True

instance : ∀ call : Call AccountId, Decidable call.Looked
  | .asked _ _ => isFalse id
  | .looked _ _ _ => isTrue trivial

/-- The conversation's next turn comes before its pin lapses, and a lease of it reads the pin and
finds it usable. Anything may happen to the others. -/
def Smooth (sha256 : List UInt8 → List UInt8) (key : String) (account : AccountId)
    (s : Pool AccountId) : Event AccountId → Prop
  | .elapse ms => ∀ pin ∈ s.pins key, s.now + ms < pin.expiresAt
  | .look i answered => ∀ call ∈ s.calls i, call.parts.1.key sha256 = key → answered = true
  | .choose i w _ => ∀ call ∈ s.calls i, call.parts.1.key sha256 = key →
      call.Looked ∧ Usable call.parts.2.1 w.pin account
  | _ => True

instance (s : Pool AccountId) :
    ∀ e : Event AccountId, Decidable (Smooth sha256 key account s e)
  | .elapse ms => inferInstanceAs (Decidable (∀ pin ∈ s.pins key, s.now + ms < pin.expiresAt))
  | .look i answered => inferInstanceAs (Decidable (∀ call ∈ s.calls i,
      call.parts.1.key sha256 = key → answered = true))
  | .choose i w _ => inferInstanceAs (Decidable (∀ call ∈ s.calls i,
      call.parts.1.key sha256 = key → call.Looked ∧ Usable call.parts.2.1 w.pin account))
  | .edit _ _ | .ask _ _ _ | .late _ | .leave _ | .set _ | .lose _ => isTrue trivial

theorem Settled.step {s s' : Pool AccountId} {e : Event AccountId}
    (h : Settled sha256 key account s) (hsmooth : Smooth sha256 key account s e)
    (hstep : step sha256 s e = some s') :
    Settled sha256 key account s' ∧ ∃ new, s'.chosen = s.chosen ++ new ∧
      ∀ c ∈ new, c.asking.key sha256 = key → c.viaSticky = true ∧ c.account.id = account := by
  have hnone : ∀ chosen : List (Choice AccountId), chosen = chosen ++ [] ∧
      ∀ c ∈ ([] : List (Choice AccountId)), c.asking.key sha256 = key →
        c.viaSticky = true ∧ c.account.id = account :=
    fun chosen => ⟨(List.append_nil chosen).symm, fun c hc => absurd hc List.not_mem_nil⟩
  have hidle : ∀ asking q pinned, (none : Option (Call AccountId)) = some (.looked asking q pinned) →
      asking.key sha256 = key → pinned = some account := by
    intro asking q pinned hcall
    cases hcall
  cases step_effect hstep with
  | edit accounts inRoute => exact ⟨⟨h.pin, h.sets, h.looked⟩, [], hnone _⟩
  | elapse ms =>
    obtain ⟨pin, hpin, haccount, -⟩ := h.pin
    exact ⟨⟨⟨pin, hpin, haccount, hsmooth pin hpin⟩, h.sets, h.looked⟩, [], hnone _⟩
  | ask i asking now free =>
    refine ⟨⟨h.pin, h.sets, h.setCall ?_⟩, [], hnone _⟩
    intro asking' q pinned hcall
    cases hcall
  | look i answered asking q asked first =>
    refine ⟨⟨h.renewed _, h.sets, h.setCall ?_⟩, [], hnone _⟩
    intro asking' q' pinned hcall hkey
    obtain ⟨rfl, rfl, rfl⟩ := Call.looked.inj (Option.some.inj hcall)
    obtain ⟨pin, hpin, haccount⟩ := h.pinned
    rw [if_pos (hsmooth _ asked hkey), hkey, hpin, Option.map_some, haccount]
  | late other => exact ⟨⟨h.renewed other, h.sets, h.looked⟩, [], hnone _⟩
  | fail i w fuel => exact ⟨⟨h.pin, h.sets, h.setCall hidle⟩, [], hnone _⟩
  | choose i w fuel call r row viaSticky calling leased ok =>
    by_cases hkey : call.parts.1.key sha256 = key
    · obtain ⟨hlooked, husable⟩ := hsmooth call calling hkey
      have hpinned : call.parts.2.2 = some account := by
        cases call with
        | asked asking q => exact absurd hlooked id
        | looked asking q pinned => exact h.looked i asking q pinned calling hkey
      rw [hpinned] at leased
      obtain ⟨row', hok, hrow⟩ := lease_usable husable leased
      obtain ⟨rfl, rfl⟩ := Prod.mk.inj (Except.ok.inj (ok.symm.trans hok))
      refine ⟨⟨h.pin, ?_, h.setCall hidle⟩, [_], rfl, ?_⟩
      · intro write hwrite
        exact h.sets write ((List.append_nil s.sets) ▸ hwrite)
      · intro c hc _
        rw [List.mem_singleton.mp hc]
        exact ⟨rfl, hrow⟩
    · refine ⟨⟨h.pin, ?_, h.setCall hidle⟩, [_], rfl, ?_⟩
      · intro write hwrite hwriteKey
        rcases List.mem_append.mp hwrite with hwrite | hwrite
        · exact h.sets write hwrite hwriteKey
        · cases viaSticky with
          | true => cases hwrite
          | false =>
            rw [List.mem_singleton.mp hwrite] at hwriteKey
            exact absurd hwriteKey hkey
      · intro c hc hchosen
        rw [List.mem_singleton.mp hc] at hchosen
        exact absurd hchosen hkey
  | leave i => exact ⟨⟨h.pin, h.sets, h.setCall hidle⟩, [], hnone _⟩
  | set n other named sent =>
    refine ⟨⟨?_, fun write hw => h.sets write (List.mem_of_mem_eraseIdx hw), h.looked⟩, [], hnone _⟩
    by_cases hkey : key = other
    · refine ⟨⟨named, s.now + stickyTtl⟩, ?_, h.sets _ (List.mem_of_getElem? sent) hkey.symm,
        Nat.lt_add_of_pos_right (by decide)⟩
      simp only [Pool.write, hkey, Function.update_self]
    · obtain ⟨pin, hpin, hrest⟩ := h.pin
      refine ⟨pin, ?_, hrest⟩
      simpa only [Pool.write, Function.update_of_ne hkey] using hpin
  | lose n =>
    exact ⟨⟨h.pin, fun write hw => h.sets write (List.mem_of_mem_eraseIdx hw), h.looked⟩, [],
      hnone _⟩

/-- A settled conversation stays on its credential through every run in which its turns come in
time and find the credential usable, whatever other callers and operators do. -/
theorem conversation_stays (sha256 : List UInt8 → List UInt8) {key : String} {account : AccountId}
    {start s : Pool AccountId} (hsettled : Settled sha256 key account start)
    {events : List (Event AccountId)}
    (hsmooth : Transition.AllSteps (step sha256) (Smooth sha256 key account) start events)
    (hrun : Transition.run (step sha256) start events = some s) :
    Settled sha256 key account s ∧ ∃ new, s.chosen = start.chosen ++ new ∧
      ∀ c ∈ new, c.asking.key sha256 = key → c.viaSticky = true ∧ c.account.id = account := by
  refine Transition.invariant_run (I := fun t => Settled sha256 key account t ∧
    ∃ new, t.chosen = start.chosen ++ new ∧ ∀ c ∈ new, c.asking.key sha256 = key →
      c.viaSticky = true ∧ c.account.id = account) ?_ ?_ hsmooth hrun
  · rintro t e t' ⟨hsettled, new, hchosen, hnew⟩ hsmooth hstep
    obtain ⟨hsettled', more, hmore, hmoreNew⟩ := hsettled.step hsmooth hstep
    refine ⟨hsettled', new ++ more, ?_, ?_⟩
    · rw [hmore, hchosen, List.append_assoc]
    · intro c hc
      rcases List.mem_append.mp hc with hc | hc
      · exact hnew c hc
      · exact hmoreNew c hc
  · exact ⟨hsettled, [], (List.append_nil _).symm, fun c hc => absurd hc List.not_mem_nil⟩

/-- The conversation is pinned to the second key. -/
def pinnedStart : Pool ℕ :=
  { turnsStart with
    pins := Function.update (fun _ => none) (turnAsking.key SessionKey.digestOrLonger)
      (some ⟨2, stickyTtl⟩) }

theorem pinnedStart_settled : Settled SessionKey.digestOrLonger
    (turnAsking.key SessionKey.digestOrLonger) 2 pinnedStart where
  pin := by
    refine ⟨⟨2, stickyTtl⟩, ?_, rfl, by decide⟩
    unfold pinnedStart
    simp only [Function.update_self]
  sets := fun write hwrite => absurd hwrite List.not_mem_nil
  looked := by
    intro i asking q pinned hcall
    cases hcall

/-- A turn a minute later stays. -/
theorem conversation_stays_second_turn : ∃ s,
    Transition.run (step SessionKey.digestOrLonger) pinnedStart secondTurn = some s ∧
      ∃ new, s.chosen = [] ++ new ∧ ∀ c ∈ new,
        c.asking.key SessionKey.digestOrLonger = turnAsking.key SessionKey.digestOrLonger →
          c.viaSticky = true ∧ c.account.id = 2 := by
  have hpossible : Transition.AllSteps (step SessionKey.digestOrLonger)
      (Smooth SessionKey.digestOrLonger (turnAsking.key SessionKey.digestOrLonger) 2) pinnedStart
      secondTurn ∧ (Transition.run (step SessionKey.digestOrLonger) pinnedStart
        secondTurn).isSome = true := by decide +kernel
  obtain ⟨hsmooth, hrun⟩ := hpossible
  obtain ⟨s, hs⟩ := Option.isSome_iff_exists.mp hrun
  exact ⟨s, hs, (conversation_stays SessionKey.digestOrLonger pinnedStart_settled hsmooth hs).2⟩

end Staying

end StickyPins

end OpenAIGateway
