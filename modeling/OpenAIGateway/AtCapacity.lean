import OpenAIGateway.Lease
import Mathlib.Logic.Relation

/-!
What a lease reports when every claim it made was refused. A pass whose
snapshot is not empty either finds a row to claim or finds every candidate
full. So a pool is reported full exactly when no pass is left with rows of
which none may go into a snapshot; such a pass forgets what was refused before
it, and reports that there is no credential.
-/

set_option linter.all false

namespace OpenAIGateway

variable {AccountId : Type*}

theorem exists_mem_zip {α β : Type*} {xs : List α} {ys : List β} {x : α} (h : x ∈ xs)
    (hlen : ys.length = xs.length) : ∃ y, (x, y) ∈ xs.zip ys := by
  rw [← List.map_fst_zip (le_of_eq hlen.symm)] at h
  obtain ⟨⟨x', y⟩, hmem, rfl⟩ := List.mem_map.mp h
  exact ⟨y, hmem⟩

section Snapshot

variable {read : SnapshotRead AccountId} {remaining : List (AccountRow AccountId)} {now : ℤ}

/-- The row is in the snapshot: it is probed, and its provider is still there afterwards. -/
def SnapshotRead.shows (read : SnapshotRead AccountId) (now : ℤ) (row : AccountRow AccountId) :
    Bool :=
  read.probes now row && (row.toCandidate read.registryAfter 0 0).isSome

theorem toCandidate_isSome (row : AccountRow AccountId) (registry : String → Bool)
    (inFlight waiting : ℕ) :
    (row.toCandidate registry inFlight waiting).isSome = (row.toCandidate registry 0 0).isSome := by
  unfold AccountRow.toCandidate
  rw [Option.isSome_map, Option.isSome_map]

/-- Liveness is the row's: neither the provider nor the count matters to it. -/
theorem isLive_toCandidate {row : AccountRow AccountId} {registry registry' : String → Bool}
    {inFlight inFlight' : ℕ} {c c' : Candidate AccountId}
    (h : row.toCandidate registry inFlight 0 = some c)
    (h' : row.toCandidate registry' inFlight' 0 = some c') : isLive c now = isLive c' now := by
  obtain ⟨provider, -, rfl⟩ := Option.map_eq_some_iff.mp h
  obtain ⟨provider', -, rfl⟩ := Option.map_eq_some_iff.mp h'
  rfl

theorem account_toCandidate {row : AccountRow AccountId} {registry : String → Bool}
    {inFlight : ℕ} {c : Candidate AccountId} (h : row.toCandidate registry inFlight 0 = some c) :
    c.account = row.id := by
  obtain ⟨provider, -, rfl⟩ := Option.map_eq_some_iff.mp h
  rfl

theorem length_counts (read : Option (List ℕ)) (asked : ℕ) :
    ((usableCounts read asked).getD (List.replicate asked 0)).length = asked := by
  unfold usableCounts
  cases read with
  | none => exact List.length_replicate
  | some counts =>
    by_cases hlen : counts.length = asked
    · simp [Option.filter, hlen]
    · simp [Option.filter, hlen]

/-- A candidate of a snapshot is live, and comes from a row that is left. -/
theorem mem_candidatesFor {c : Candidate AccountId} (h : c ∈ candidatesFor read remaining now) :
    isLive c now = true ∧ ∃ row ∈ remaining, row.id = c.account := by
  obtain ⟨⟨row, inFlight⟩, hentry, hc⟩ := List.mem_filterMap.mp h
  obtain ⟨hrow, hprobes⟩ := List.mem_filter.mp (List.of_mem_zip hentry).1
  obtain ⟨-, hidle⟩ := Bool.and_eq_true_iff.mp hprobes
  obtain ⟨idle, hidle, heligible⟩ := (Option.any_eq_true _ _).mp hidle
  obtain ⟨hlive, -⟩ := Bool.and_eq_true_iff.mp heligible
  exact ⟨(isLive_toCandidate hc hidle).trans hlive, row, hrow, (account_toCandidate hc).symm⟩

theorem candidatesFor_eq_nil_iff :
    candidatesFor read remaining now = [] ↔ ∀ row ∈ remaining, read.shows now row = false := by
  unfold candidatesFor
  rw [List.filterMap_eq_nil_iff]
  constructor
  · intro h row hrow
    rw [Bool.eq_false_iff]
    intro hshows
    obtain ⟨hprobes, hafter⟩ := Bool.and_eq_true_iff.mp hshows
    have hprobed : row ∈ remaining.filter (read.probes now) :=
      List.mem_filter.mpr ⟨hrow, hprobes⟩
    -- The counts cover every probed row, so the row has an entry.
    obtain ⟨inFlight, hentry⟩ := exists_mem_zip hprobed (length_counts read.counts _)
    have hnone := h _ hentry
    have hsome := toCandidate_isSome row read.registryAfter inFlight 0
    rw [hnone, hafter] at hsome
    cases hsome
  · intro h entry hentry
    obtain ⟨hrow, hprobes⟩ := List.mem_filter.mp (List.of_mem_zip hentry).1
    have hshows := h entry.1 hrow
    unfold SnapshotRead.shows at hshows
    rw [hprobes, Bool.true_and, ← toCandidate_isSome _ _ entry.2 0] at hshows
    exact Option.isSome_eq_false_iff.mp hshows |> Option.isNone_iff_eq_none.mp

/-- A snapshot of which nothing is eligible, and that is not empty, is full. -/
theorem everyCandidateIsFull_of {candidates : List (Candidate AccountId)}
    (hlive : ∀ c ∈ candidates, isLive c now = true)
    (hnone : ∀ c ∈ candidates, c.eligible now = false) (hne : candidates ≠ []) :
    everyCandidateIsFull candidates now = some candidates.length := by
  have hfull : candidates.filter (fun c =>
      isLive c now && decide (c.maxConcurrency ≤ c.inFlight)) = candidates := by
    rw [List.filter_eq_self]
    intro c hc
    have heligible : (isLive c now && decide (c.inFlight < c.maxConcurrency)) = false := hnone c hc
    rw [hlive c hc, Bool.true_and, decide_eq_false_iff_not, not_lt] at heligible
    rw [hlive c hc, Bool.true_and, decide_eq_true_iff]
    exact heligible
  unfold everyCandidateIsFull
  simp only [hfull, and_true, if_pos (List.length_pos_of_ne_nil hne)]

end Snapshot

/-- The claim was refused because the credential was at its limit. -/
def RefusedFull (claim : AccountId × Option SlotClaim) : Prop :=
  ∃ live, claim.2 = some (.full live)

theorem claimSlot_of_refused {claim : AccountId × Option SlotClaim} (h : RefusedFull claim) :
    claimSlot claim.2 = false := by
  obtain ⟨live, hlive⟩ := h
  rw [hlive]
  rfl

namespace Search

theorem noneLeft_ne (q : Search AccountId) (full : ℕ) :
    q.noneLeft ≠ .atCapacity q.provider full := by
  unfold noneLeft nothingUsable
  split <;> simp

theorem length_rows_le (q : Search AccountId) : q.rows.length ≤ q.candidates.length := by
  unfold rows ofKind
  cases q.channel with
  | none => exact le_refl _
  | some kind => exact List.length_filter_le _ _

variable [DecidableEq AccountId] (q : Search AccountId) (w : World AccountId)

/-- Rows are left, and none of them may go into the pass's snapshot: each is cooling,
rate limited, reserved, off, without a slot, or behind a breaker, or its provider is gone. -/
def Starved (s : Cascade AccountId) : Prop :=
  s.remaining ≠ [] ∧ ∀ row ∈ s.remaining, (w.passes s.pass).read.shows q.now row = false

/-- The cascade comes to a state from another. -/
def Reaches : Cascade AccountId → Cascade AccountId → Prop :=
  Relation.ReflTransGen (fun s s' => q.cascade w s = .next s')

variable {q w} {s : Cascade AccountId}

/-- Everything a pass can do. -/
theorem cascade_cases (q : Search AccountId) (w : World AccountId) (s : Cascade AccountId) :
    (s.remaining = [] ∧ q.cascade w s = .done (q.outOfRows w s)) ∨
    (q.Starved w s ∧ q.cascade w s = .done ⟨.error q.noneLeft, s.claims⟩) ∨
    (s.remaining ≠ [] ∧ ¬ q.Starved w s ∧
      ((∃ full, q.cascade w s = .done ⟨.error (.atCapacity q.provider full), s.claims⟩) ∨
        (s.ghostRetry = false ∧
          q.cascade w s = .next { s with ghostRetry := true, pass := s.pass + 1 }) ∨
        ∃ row ∈ s.remaining, q.cascade w s = claimRow (w.passes s.pass) row s)) := by
  by_cases hempty : s.remaining = []
  · left
    unfold cascade
    exact ⟨hempty, if_pos hempty⟩
  right
  set candidates := candidatesFor (w.passes s.pass).read s.remaining q.now with hcandidates
  have hmem : ∀ c ∈ candidates, isLive c q.now = true ∧ ∃ row ∈ s.remaining, row.id = c.account :=
    fun c hc => mem_candidatesFor hc
  by_cases hstarved : q.Starved w s
  · left
    refine ⟨hstarved, ?_⟩
    have hnil : candidatesFor (w.passes s.pass).read s.remaining q.now = [] :=
      candidatesFor_eq_nil_iff.mpr hstarved.2
    unfold cascade
    rw [if_neg hempty]
    simp only [hnil]
    rfl
  right
  refine ⟨hempty, hstarved, ?_⟩
  have hne : candidates ≠ [] := fun hnil =>
    hstarved ⟨hempty, candidatesFor_eq_nil_iff.mp hnil⟩
  rcases select_cases candidates q.now (w.passes s.pass).tieBreaker with
    ⟨hselect, hnone⟩ | ⟨c, hc, -, stage, hselect⟩
  · have hfull := everyCandidateIsFull_of (fun c hc => (hmem c hc).1) hnone hne
    have hcascade : q.cascade w s = q.unselectable (w.passes s.pass) candidates s := by
      unfold cascade
      rw [if_neg hempty]
      simp only [← hcandidates, hselect]
    rw [hcascade]
    unfold unselectable
    rw [hfull]
    dsimp only
    split
    next hworth =>
      obtain ⟨hfirst, -⟩ := Bool.and_eq_true_iff.mp hworth
      exact Or.inr (Or.inl ⟨by simpa using hfirst, rfl⟩)
    next => exact Or.inl ⟨_, rfl⟩
  · obtain ⟨row, hrow, hid⟩ := (hmem c hc).2
    cases hfind : s.remaining.find? (fun r => r.id = c.account) with
    | none =>
      have := List.find?_eq_none.mp hfind row hrow
      simp [hid] at this
    | some found =>
      refine Or.inr (Or.inr ⟨found, List.mem_of_find?_eq_some hfind, ?_⟩)
      unfold cascade
      rw [if_neg hempty]
      simp only [← hcandidates, hselect, hfind]

/-- Rows left, and the recount that is left. -/
def size (s : Cascade AccountId) : ℕ := s.remaining.length + (if s.ghostRetry then 0 else 1)

theorem length_filter_lt {row : AccountRow AccountId} {rows : List (AccountRow AccountId)}
    (h : row ∈ rows) : (rows.filter (fun r => r.id ≠ row.id)).length < rows.length := by
  apply List.length_filter_lt_length_iff_exists.mpr
  exact ⟨row, h, by simp⟩

/-- What the end of a cascade says about the states it came through. -/
def Reports (q : Search AccountId) (w : World AccountId) (s : Cascade AccountId)
    (r : Leasing AccountId) : Prop :=
  (s.remaining = [] → 0 < s.exhausted) → (∀ claim ∈ r.claims, RefusedFull claim) →
    ((∃ full, r.result = .error (.atCapacity q.provider full)) ↔
      ∀ t, q.Reaches w s t → ¬ q.Starved w t)

theorem reaches_of_done {r : Leasing AccountId} {t : Cascade AccountId}
    (hdone : q.cascade w s = .done r) (ht : q.Reaches w s t) : t = s := by
  rcases Relation.ReflTransGen.cases_head ht with heq | ⟨s', hnext, -⟩
  · exact heq.symm
  · rw [hdone] at hnext
    cases hnext

/-- A pass that ends the cascade was starved, or it reports a full pool. -/
theorem reports_of_done {r : Leasing AccountId} (hdone : q.cascade w s = .done r)
    (hends : (s.remaining = [] → 0 < s.exhausted) → (∀ claim ∈ r.claims, RefusedFull claim) →
      ((∃ full, r.result = .error (.atCapacity q.provider full)) ↔ ¬ q.Starved w s)) :
    q.Reports w s r := by
  intro hexhausted hrefused
  rw [hends hexhausted hrefused]
  constructor
  · intro h t ht
    rw [reaches_of_done hdone ht]
    exact h
  · intro h
    exact h s Relation.ReflTransGen.refl

/-- A pass that goes on was not starved, and carries back what the rest reports. -/
theorem reports_of_next {s' : Cascade AccountId} {r : Leasing AccountId}
    (hnext : q.cascade w s = .next s') (hstarved : ¬ q.Starved w s)
    (hexhausted : (s.remaining = [] → 0 < s.exhausted) → s'.remaining = [] → 0 < s'.exhausted)
    (h : q.Reports w s' r) : q.Reports w s r := by
  intro hs hrefused
  rw [h (hexhausted hs) hrefused]
  constructor
  · intro hafter t ht
    rcases Relation.ReflTransGen.cases_head ht with rfl | ⟨s'', hstep, ht⟩
    · exact hstarved
    · rw [hnext] at hstep
      cases hstep
      exact hafter t ht
  · intro hall t ht
    exact hall t (Relation.ReflTransGen.head hnext ht)

theorem outOfRows_atCapacity (h : 0 < s.exhausted)
    (hrefused : ∀ claim ∈ (q.outOfRows w s).claims, RefusedFull claim) :
    ∃ full, (q.outOfRows w s).result = .error (.atCapacity q.provider full) := by
  unfold outOfRows at hrefused ⊢
  rw [if_pos h] at hrefused ⊢
  cases hpick : pickWithRedisRoom q.unexcluded q.now w.room with
  | none => exact ⟨s.exhausted, rfl⟩
  | some row =>
    rw [hpick] at hrefused
    dsimp only at hrefused ⊢
    by_cases hclaim : claimSlot (w.claim row.id) = true
    · rw [if_pos hclaim] at hrefused
      have hlast := claimSlot_of_refused (hrefused (row.id, w.claim row.id) (by simp))
      rw [hclaim] at hlast
      cases hlast
    · rw [if_neg hclaim]
      exact ⟨s.exhausted, rfl⟩

/-- A claim that is granted is not refused, and a refused one goes on without its row. -/
theorem claimRow_reports {row : AccountRow AccountId} (hrow : row ∈ s.remaining)
    (hstarved : ¬ q.Starved w s) (hcascade : q.cascade w s = claimRow (w.passes s.pass) row s) :
    (∃ r, q.cascade w s = .done r ∧ q.Reports w s r) ∨
      ∃ s', q.cascade w s = .next s' ∧ size s' < size s ∧ ∀ r, q.Reports w s' r → q.Reports w s r := by
  unfold claimRow at hcascade
  by_cases hclaim : claimSlot ((w.passes s.pass).claim row.id) = true
  · left
    rw [if_pos hclaim] at hcascade
    refine ⟨_, hcascade, reports_of_done hcascade ?_⟩
    intro _ hrefused
    have hlast := claimSlot_of_refused
      (hrefused (row.id, (w.passes s.pass).claim row.id) (by simp))
    rw [hclaim] at hlast
    cases hlast
  · right
    rw [if_neg hclaim] at hcascade
    refine ⟨_, hcascade, ?_, ?_⟩
    · have hlt := length_filter_lt hrow
      unfold size
      dsimp only
      omega
    · intro r hr
      exact reports_of_next hcascade hstarved (fun _ _ => Nat.succ_pos _) hr

/-- Every pass ends with a report or goes on with less. -/
theorem cascade_reports (q : Search AccountId) (w : World AccountId) (s : Cascade AccountId) :
    (∃ r, q.cascade w s = .done r ∧ q.Reports w s r) ∨
      ∃ s', q.cascade w s = .next s' ∧ size s' < size s ∧
        ∀ r, q.Reports w s' r → q.Reports w s r := by
  rcases cascade_cases q w s with ⟨hempty, hdone⟩ | ⟨hstarved, hdone⟩ | ⟨hne, hstarved, hpass⟩
  · refine Or.inl ⟨_, hdone, reports_of_done hdone ?_⟩
    intro hexhausted hrefused
    exact ⟨fun _ h => h.1 hempty, fun _ => outOfRows_atCapacity (hexhausted hempty) hrefused⟩
  · refine Or.inl ⟨_, hdone, reports_of_done hdone ?_⟩
    intro _ _
    constructor
    · rintro ⟨full, hresult⟩
      exact absurd (Except.error.inj hresult) (noneLeft_ne q full)
    · exact fun h => absurd hstarved h
  · rcases hpass with ⟨full, hdone⟩ | ⟨hghost, hnext⟩ | ⟨row, hrow, hcascade⟩
    · refine Or.inl ⟨_, hdone, reports_of_done hdone ?_⟩
      intro _ _
      exact ⟨fun _ => hstarved, fun _ => ⟨full, rfl⟩⟩
    · refine Or.inr ⟨_, hnext, ?_, ?_⟩
      · unfold size
        simp [hghost]
      · intro r hr
        exact reports_of_next hnext hstarved (fun _ hempty => absurd hempty hne) hr
    · exact claimRow_reports hrow hstarved hcascade

/-- A pin that is used was granted its claim. -/
theorem pinned_claimed {row : AccountRow AccountId} {claims : Claims AccountId}
    (h : q.pinClaims w = (some row, claims)) : ∃ claim ∈ claims, claimSlot claim.2 = true := by
  unfold pinClaims tryPinned at h
  split at h
  · split at h
    · simp at h
    · split at h
      · simp at h
      · split at h
        · simp at h
        · by_cases hclaim : claimSlot w.pin.claim = true
          · rw [if_pos hclaim] at h
            obtain ⟨-, rfl⟩ := Prod.mk.inj h
            exact ⟨_, List.mem_singleton_self _, hclaim⟩
          · rw [if_neg hclaim] at h
            cases (Prod.mk.inj h).1
  · simp at h

/-- The first snapshot of a lease. -/
def firstSnapshot (q : Search AccountId) (w : World AccountId) : List (Candidate AccountId) :=
  candidatesFor (w.passes 0).read q.unexcluded q.now

/-- A lease ends for every answer of the world. Where its first snapshot had an
eligible candidate and every claim it made was refused for want of a slot, it
reports a full pool exactly when no pass was starved. -/
theorem lease_reports (q : Search AccountId) (w : World AccountId) (fuel : ℕ)
    (hfuel : q.candidates.length + 1 < fuel) :
    ∃ r, q.lease w fuel = some r ∧
      ((∃ c ∈ q.firstSnapshot w, isEligible c q.now = true) →
        (∀ claim ∈ r.claims, RefusedFull claim) →
        ((∃ full, r.result = .error (.atCapacity q.provider full)) ↔
          ∀ s, q.Reaches w (q.start (q.pinClaims w).2) s → ¬ q.Starved w s)) := by
  have hrows : (∃ c ∈ q.firstSnapshot w, isEligible c q.now = true) → q.unexcluded ≠ [] := by
    rintro ⟨c, hc, -⟩
    obtain ⟨-, row, hrow, -⟩ := mem_candidatesFor hc
    exact List.ne_nil_of_mem hrow
  unfold lease
  by_cases hempty : q.rows = []
  · rw [if_pos hempty]
    refine ⟨_, rfl, fun heligible => absurd ?_ (hrows heligible)⟩
    unfold unexcluded
    rw [hempty, List.filter_nil]
  rw [if_neg hempty]
  rcases hpin : q.pinClaims w with ⟨pinned, claims⟩
  cases pinned with
  | some row =>
    obtain ⟨claim, hclaim, hgranted⟩ := pinned_claimed hpin
    refine ⟨_, rfl, fun _ hrefused => ?_⟩
    have hfull := claimSlot_of_refused (hrefused claim hclaim)
    rw [hgranted] at hfull
    cases hfull
  | none =>
    have hsize : size (q.start claims) < fuel := by
      have hunexcluded : q.unexcluded.length ≤ q.candidates.length :=
        le_trans (List.length_filter_le _ _) (length_rows_le q)
      unfold size start
      simp only [Bool.false_eq_true, if_false]
      omega
    obtain ⟨r, hrun, hreports⟩ : ∃ r, Loop.run (fun s => some (q.cascade w s)) fuel
        (q.start claims) = some r ∧ q.Reports w (q.start claims) r :=
      Loop.exists_run_rel (fun _ => True) (q.Reports w) size
        (by simpa using cascade_reports q w) trivial hsize
    exact ⟨r, hrun, fun heligible => hreports (fun h => absurd h (hrows heligible))⟩

/-- A key with one slot, cooling until a time or not. -/
def keyRow (id : ℕ) (cooldownUntil : Option ℤ) : AccountRow ℕ where
  id := id
  provider := "anthropic"
  kind := "api_key"
  priority := 0
  maxConcurrency := 1
  schedulable := true
  cooldownUntil := cooldownUntil
  rateLimitedUntil := none
  windowResetsAt := none
  usageRemainingPct := none
  usageReservePct := none
  lastUsedAt := 0

/-- Two keys, the second cooling until a time or not. -/
def twoKeys (cooldownUntil : Option ℤ) : Search ℕ where
  provider := .anthropic
  channel := none
  excluded := []
  candidates := [keyRow 1 none, keyRow 2 cooldownUntil]
  now := 0

/-- Every snapshot shows the live keys idle, and every claim finds the last slot gone. -/
def lostRaces (live : ℕ) : World ℕ where
  pin := ⟨none, fun _ => false, some 0, true, none⟩
  passes n := ⟨⟨fun _ => true, fun _ => false, fun _ => false,
      some (List.replicate (live - n) 0)⟩, 0,
    ⟨fun _ => true, fun _ => false, some [1, 1], 0⟩, fun _ => some (.full 1)⟩
  room := ⟨fun _ => true, fun _ => false, some [1, 1], 0⟩
  claim _ := some (.full 1)

theorem lease_reports_lostRaces :
    ∃ r, (twoKeys none).lease (lostRaces 2) 4 = some r ∧
      (∃ c ∈ (twoKeys none).firstSnapshot (lostRaces 2), isEligible c 0 = true) ∧
      (∀ claim ∈ r.claims, RefusedFull claim) ∧
      ((∃ full, r.result = .error (.atCapacity .anthropic full)) ↔
        ∀ s, (twoKeys none).Reaches (lostRaces 2) ((twoKeys none).start []) s →
          ¬ (twoKeys none).Starved (lostRaces 2) s) := by
  obtain ⟨r, hlease, hreports⟩ := lease_reports (twoKeys none) (lostRaces 2) 4 (by decide)
  have heligible : ∃ c ∈ (twoKeys none).firstSnapshot (lostRaces 2), isEligible c 0 = true :=
    ⟨_, List.mem_cons_self, rfl⟩
  have hrefused : ∀ claim ∈ r.claims, RefusedFull claim := by
    have hclaims : ((twoKeys none).lease (lostRaces 2) 4).map Leasing.claims =
        some [(1, some (.full 1)), (2, some (.full 1))] := rfl
    rw [hlease] at hclaims
    rw [Option.some.inj hclaims]
    intro claim hclaim
    refine ⟨1, ?_⟩
    rcases List.mem_pair.mp hclaim with rfl | rfl
    · rfl
    · rfl
  exact ⟨r, hlease, heligible, hrefused, hreports heligible hrefused⟩

/-- One key is full and the other is cooling: the refused claim is forgotten. -/
theorem full_reported_as_none :
    ∃ r, (twoKeys (some 1000000000)).lease (lostRaces 1) 4 = some r ∧
      (∃ c ∈ (twoKeys (some 1000000000)).firstSnapshot (lostRaces 1), isEligible c 0 = true) ∧
      r.claims = [(1, some (.full 1))] ∧ r.result = .error (.noCredential .anthropic) := by
  exact ⟨_, rfl, ⟨_, List.mem_cons_self, rfl⟩, rfl, rfl⟩

end Search

end OpenAIGateway
