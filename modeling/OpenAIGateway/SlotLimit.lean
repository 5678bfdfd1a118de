import OpenAIGateway.SlotSet
import OpenAIGateway.Transition

/-!
The slot key of one credential under every script the replicas run on it, with
the store's clock and the expiry the scripts give the key. The key never holds
more members than the limit, and an acquire is answered by the members inside
the window alone.
-/

set_option linter.all false

namespace OpenAIGateway

/-- A slot key, when it goes by itself, and the store's clock in seconds. -/
structure SlotKey (Member : Type*) where
  set : SlotSet Member
  expiresAt : Option ℤ
  now : ℤ

/-- A script on the key. -/
inductive SlotScript (Member : Type*)
  | acquire (member : Member)
  | refresh (member : Member)
  | release (member : Member)
  | clear
  | count

inductive SlotEvent (Member : Type*)
  | script (script : SlotScript Member)
  | tick (now : ℤ)
  /-- The store drops the key, its expiry having come. -/
  | lapse

namespace SlotKey

variable {Member : Type*}

def fresh (now : ℤ) : SlotKey Member := ⟨SlotSet.empty, none, now⟩

/-- An expiry that is not ahead deletes the key. -/
def expire (key : SlotKey Member) (seconds : ℕ) : SlotKey Member :=
  if seconds = 0 then { key with set := SlotSet.empty, expiresAt := none }
  else { key with expiresAt := some (key.now + seconds) }

def count (ttl : ℕ) (key : SlotKey Member) : ℕ × SlotKey Member :=
  let (inUse, set) := key.set.slotsInUse key.now ttl
  (inUse, { key with set := set })

def clear (key : SlotKey Member) : ℕ × SlotKey Member :=
  let (held, set) := key.set.clearSlots
  (held, { key with set := set, expiresAt := none })

/-- The members whose score is inside the window. -/
def unexpired (ttl : ℕ) (key : SlotKey Member) : List Member :=
  (key.set.entries.filter (fun e => key.now - ttl < e.2)).map Prod.fst

variable [DecidableEq Member]

def acquire (limit ttl : ℕ) (member : Member) (key : SlotKey Member) :
    SlotClaim × SlotKey Member :=
  let (claim, set) := key.set.acquireSlot key.now member limit ttl
  match claim with
  | .taken => (.taken, expire { key with set := set } (ttl * 2))
  | .full live => (.full live, { key with set := set })

def refresh (ttl : ℕ) (member : Member) (key : SlotKey Member) : Bool × SlotKey Member :=
  let (kept, set) := key.set.refreshSlot key.now member
  if kept then (true, expire { key with set := set } (ttl * 2)) else (false, key)

def release (member : Member) (key : SlotKey Member) : SlotKey Member :=
  { key with set := key.set.releaseSlot member }

def runScript (limit ttl : ℕ) (key : SlotKey Member) : SlotScript Member → SlotKey Member
  | .acquire member => (key.acquire limit ttl member).2
  | .refresh member => (key.refresh ttl member).2
  | .release member => key.release member
  | .clear => key.clear.2
  | .count => (key.count ttl).2

def step (limit ttl : ℕ) (key : SlotKey Member) : SlotEvent Member → Option (SlotKey Member)
  | .script script => some (key.runScript limit ttl script)
  | .tick now => if key.now ≤ now then some { key with now := now } else none
  | .lapse =>
    match key.expiresAt with
    | some expiry =>
      if expiry ≤ key.now then some { key with set := SlotSet.empty, expiresAt := none } else none
    | none => none

/-- The script gave the member a score: it took a slot, or moved the one it had. -/
def Scores (limit ttl : ℕ) (key : SlotKey Member) (member : Member) :
    SlotScript Member → Prop
  | .acquire other => other = member ∧ (key.acquire limit ttl other).1 = .taken
  | .refresh other => other = member ∧ (key.refresh ttl other).1 = true
  | .release _ | .clear | .count => False

/-- At some point of a run the member took its slot or kept it, with the clock at `time`. -/
def ScoredAt (limit ttl : ℕ) (start : SlotKey Member) (events : List (SlotEvent Member))
    (member : Member) (time : ℤ) : Prop :=
  ∃ past script later key, events = past ++ .script script :: later ∧
    Transition.run (step limit ttl) start past = some key ∧ key.now = time ∧
    key.Scores limit ttl member script

end SlotKey

namespace SlotSet

variable {Member : Type*} {set : SlotSet Member}

theorem zcard_keep_le (p : Member × ℤ → Bool) : (set.keep p).zcard ≤ set.zcard :=
  List.length_filter_le _ _

variable [DecidableEq Member] {score : ℤ} {member : Member}

theorem zcard_zadd_le : (set.zadd score member).zcard ≤ set.zcard + 1 := by
  have hkept : (set.zrem member).zcard ≤ set.zcard := zcard_keep_le _
  unfold zadd zcard at *
  rw [List.length_append, List.length_singleton]
  omega

/-- Without a member the key has fewer, if the member was there. -/
theorem zcard_zrem_lt (h : member ∈ set) : (set.zrem member).zcard < set.zcard := by
  obtain ⟨e, he, rfl⟩ := List.mem_map.mp h
  refine List.length_filter_lt_length_iff_exists.mpr ⟨e, he, ?_⟩
  simp

/-- A new score for a member that is there adds none. -/
theorem zcard_zadd_of_mem (h : member ∈ set) : (set.zadd score member).zcard ≤ set.zcard := by
  have hless : (set.zrem member).zcard < set.zcard := zcard_zrem_lt h
  unfold zadd zcard at *
  rw [List.length_append, List.length_singleton]
  omega

theorem mem_entries_zadd {e : Member × ℤ} (h : e ∈ (set.zadd score member).entries) :
    e ∈ set.entries ∨ e = (member, score) := by
  rcases List.mem_append.mp h with hkept | hnew
  · exact Or.inl (List.mem_of_mem_filter hkept)
  · exact Or.inr (List.mem_singleton.mp hnew)

end SlotSet

namespace SlotKey

variable {Member : Type*} {limit ttl : ℕ} {key : SlotKey Member}

theorem count_eq_unexpired : (key.count ttl).1 = (key.unexpired ttl).length := by
  unfold unexpired
  rw [List.length_map]
  rfl

theorem unexpired_count : (key.count ttl).2.unexpired ttl = key.unexpired ttl := by
  unfold unexpired count SlotSet.slotsInUse SlotSet.zremRangeByScore SlotSet.keep
  simp only [List.filter_filter, Bool.and_self]

/-- Time only takes members out of the window. -/
theorem unexpired_tick {now : ℤ} (h : key.now ≤ now) :
    (unexpired ttl { key with now := now }).length ≤ (key.unexpired ttl).length := by
  unfold unexpired
  rw [List.length_map, List.length_map]
  refine (List.monotone_filter_right _ ?_).length_le
  intro e he
  have hinside : now - ttl < e.2 := of_decide_eq_true he
  exact decide_eq_true (by omega)

theorem zcard_expire_le (seconds : ℕ) : (key.expire seconds).set.zcard ≤ key.set.zcard := by
  unfold expire
  by_cases hzero : seconds = 0
  · rw [if_pos hzero]
    exact Nat.zero_le _
  · rw [if_neg hzero]

theorem entries_expire {seconds : ℕ} {e : Member × ℤ} (h : e ∈ (key.expire seconds).set.entries) :
    e ∈ key.set.entries := by
  unfold expire at h
  by_cases hzero : seconds = 0
  · rw [if_pos hzero] at h
    cases h
  · rwa [if_neg hzero] at h

theorem entries_keep {set : SlotSet Member} {p : Member × ℤ → Bool} {e : Member × ℤ}
    (h : e ∈ (set.keep p).entries) : e ∈ set.entries := List.mem_of_mem_filter h

variable [DecidableEq Member] {member : Member}

/-- Everything an acquire can do: trim the key, and add the member if that left room. -/
theorem acquire_cases (limit ttl : ℕ) (key : SlotKey Member) (member : Member) :
    ((key.count ttl).1 < limit ∧ key.acquire limit ttl member = (.taken,
      expire { key with set := (key.count ttl).2.set.zadd key.now member } (ttl * 2))) ∨
    (limit ≤ (key.count ttl).1 ∧
      key.acquire limit ttl member = (.full (key.count ttl).1, (key.count ttl).2)) := by
  unfold acquire SlotSet.acquireSlot
  by_cases hfull : limit ≤ (key.set.zremRangeByScore (key.now - ttl)).zcard
  · refine Or.inr ⟨hfull, ?_⟩
    simp only [if_pos hfull]
    rfl
  · refine Or.inl ⟨Nat.lt_of_not_le hfull, ?_⟩
    simp only [if_neg hfull]
    rfl

/-- Everything a refresh can do: move the score of a member that is there. -/
theorem refresh_cases (ttl : ℕ) (key : SlotKey Member) (member : Member) :
    (member ∈ key.set ∧ key.refresh ttl member =
      (true, expire { key with set := key.set.zadd key.now member } (ttl * 2))) ∨
    (member ∉ key.set ∧ key.refresh ttl member = (false, key)) := by
  unfold refresh SlotSet.refreshSlot
  by_cases hmem : member ∈ key.set
  · simp [hmem]
  · simp [hmem]

theorem acquire_taken_iff :
    (key.acquire limit ttl member).1 = .taken ↔ (key.unexpired ttl).length < limit := by
  rw [← count_eq_unexpired]
  rcases acquire_cases limit ttl key member with ⟨hroom, heq⟩ | ⟨hfull, heq⟩
  · rw [heq]
    exact iff_of_true rfl hroom
  · rw [heq]
    exact iff_of_false (fun h => by cases h) (Nat.not_lt.mpr hfull)

/-- A refusal counts the members inside the window. -/
theorem acquire_full {live : ℕ} (h : (key.acquire limit ttl member).1 = .full live) :
    live = (key.unexpired ttl).length := by
  rw [← count_eq_unexpired]
  rcases acquire_cases limit ttl key member with ⟨-, heq⟩ | ⟨-, heq⟩
  · rw [heq] at h
    cases h
  · rw [heq] at h
    exact (SlotClaim.full.inj h).symm

theorem refresh_absent (h : member ∉ key.set) : key.refresh ttl member = (false, key) := by
  rcases refresh_cases ttl key member with ⟨hmem, -⟩ | ⟨-, heq⟩
  · exact absurd hmem h
  · exact heq

theorem mem_refresh {other : Member} (h : other ∈ (key.refresh ttl member).2.set) :
    other ∈ key.set := by
  rcases refresh_cases ttl key member with ⟨hmem, heq⟩ | ⟨-, heq⟩
  · rw [heq] at h
    obtain ⟨e, he, rfl⟩ := List.mem_map.mp h
    rcases SlotSet.mem_zadd.mp (List.mem_map_of_mem (entries_expire he)) with hold | hmoved
    · exact hold
    · exact hmoved ▸ hmem
  · rwa [heq] at h

/-- No script fills the key past the limit. -/
theorem zcard_runScript (script : SlotScript Member) (h : key.set.zcard ≤ limit) :
    (key.runScript limit ttl script).set.zcard ≤ limit := by
  cases script with
  | acquire member =>
    have htrimmed : (key.count ttl).2.set.zcard = (key.count ttl).1 := rfl
    change (key.acquire limit ttl member).2.set.zcard ≤ limit
    rcases acquire_cases limit ttl key member with ⟨hroom, heq⟩ | ⟨-, heq⟩
    · have hadded : ((key.count ttl).2.set.zadd key.now member).zcard ≤
          (key.count ttl).2.set.zcard + 1 := SlotSet.zcard_zadd_le
      rw [heq]
      refine Nat.le_trans (zcard_expire_le _) (Nat.le_trans hadded ?_)
      omega
    · rw [heq]
      exact Nat.le_trans (SlotSet.zcard_keep_le _) h
  | refresh member =>
    change (key.refresh ttl member).2.set.zcard ≤ limit
    rcases refresh_cases ttl key member with ⟨hmem, heq⟩ | ⟨-, heq⟩
    · rw [heq]
      exact Nat.le_trans (zcard_expire_le _) (Nat.le_trans (SlotSet.zcard_zadd_of_mem hmem) h)
    · rw [heq]
      exact h
  | release member => exact Nat.le_trans (SlotSet.zcard_keep_le _) h
  | clear => exact Nat.zero_le _
  | count => exact Nat.le_trans (SlotSet.zcard_keep_le _) h

/-- An entry is there from before, or the script that ran gave the member its score. -/
theorem entries_runScript (script : SlotScript Member) {e : Member × ℤ}
    (h : e ∈ (key.runScript limit ttl script).set.entries) :
    e ∈ key.set.entries ∨ (key.now = e.2 ∧ key.Scores limit ttl e.1 script) := by
  cases script with
  | acquire member =>
    change e ∈ (key.acquire limit ttl member).2.set.entries at h
    rcases acquire_cases limit ttl key member with ⟨-, heq⟩ | ⟨-, heq⟩
    · rw [heq] at h
      rcases SlotSet.mem_entries_zadd (entries_expire h) with hold | rfl
      · exact Or.inl (entries_keep hold)
      · exact Or.inr ⟨rfl, rfl, by rw [heq]⟩
    · rw [heq] at h
      exact Or.inl (entries_keep h)
  | refresh member =>
    change e ∈ (key.refresh ttl member).2.set.entries at h
    rcases refresh_cases ttl key member with ⟨-, heq⟩ | ⟨-, heq⟩
    · rw [heq] at h
      rcases SlotSet.mem_entries_zadd (entries_expire h) with hold | rfl
      · exact Or.inl hold
      · exact Or.inr ⟨rfl, rfl, by rw [heq]⟩
    · rw [heq] at h
      exact Or.inl h
  | release member => exact Or.inl (entries_keep h)
  | clear => cases h
  | count => exact Or.inl (entries_keep h)

/-- The key is inside the limit, and each score is the time at which a script gave it. -/
structure Kept (limit ttl : ℕ) (start : SlotKey Member) (past : List (SlotEvent Member))
    (key : SlotKey Member) : Prop where
  zcard_le : key.set.zcard ≤ limit
  scored : ∀ e ∈ key.set.entries, ScoredAt limit ttl start past e.1 e.2

theorem ScoredAt.later {start : SlotKey Member} {past : List (SlotEvent Member)} {time : ℤ}
    (h : ScoredAt limit ttl start past member time) (event : SlotEvent Member) :
    ScoredAt limit ttl start (past ++ [event]) member time := by
  obtain ⟨before, script, later, at_, rfl, hrun, htime, hscores⟩ := h
  exact ⟨before, script, later ++ [event], at_, by simp, hrun, htime, hscores⟩

theorem Kept.step {start key' : SlotKey Member} {past : List (SlotEvent Member)}
    {event : SlotEvent Member} (hrun : Transition.run (step limit ttl) start past = some key)
    (h : Kept limit ttl start past key) (hstep : key.step limit ttl event = some key') :
    Kept limit ttl start (past ++ [event]) key' := by
  cases event with
  | script script =>
    obtain rfl := Option.some.inj hstep
    refine ⟨zcard_runScript script h.zcard_le, ?_⟩
    intro e he
    rcases entries_runScript script he with hold | ⟨htime, hscores⟩
    · exact (h.scored e hold).later _
    · exact ⟨past, script, [], key, rfl, hrun, htime, hscores⟩
  | tick now =>
    obtain ⟨-, hs⟩ := Option.ite_none_right_eq_some.mp hstep
    obtain rfl := Option.some.inj hs
    exact ⟨h.zcard_le, fun e he => (h.scored e he).later _⟩
  | lapse =>
    simp only [SlotKey.step] at hstep
    split at hstep
    next expiry hexpiry =>
      obtain ⟨-, hs⟩ := Option.ite_none_right_eq_some.mp hstep
      obtain rfl := Option.some.inj hs
      exact ⟨Nat.zero_le _, fun e he => by cases he⟩
    next => cases hstep

theorem kept_run {start : ℤ} {events : List (SlotEvent Member)}
    (hrun : Transition.run (step limit ttl) (fresh start) events = some key) :
    Kept limit ttl (fresh start) events key := by
  refine Transition.history_run ⟨Nat.zero_le _, fun e he => by cases he⟩ ?_ hrun
  intro past before event after hbefore h hstep
  exact h.step hbefore hstep

/-- A member the window counts took its slot, or kept it, less than the TTL ago. -/
theorem Kept.counted {start : SlotKey Member} {past : List (SlotEvent Member)}
    (h : Kept limit ttl start past key) (hmem : member ∈ key.unexpired ttl) :
    ∃ time, key.now - ttl < time ∧ ScoredAt limit ttl start past member time := by
  obtain ⟨e, he, rfl⟩ := List.mem_map.mp hmem
  have hkeep := List.of_mem_filter he
  have hinside : key.now - ttl < e.2 := of_decide_eq_true hkeep
  exact ⟨e.2, hinside, h.scored e (List.mem_of_mem_filter he)⟩

/-- In every run the key holds at most `limit` members. An acquire takes a slot
exactly when fewer than `limit` members are inside the window, which is what a
count before it says when the clock has not moved; when it has, a count under
the limit still gets the slot. Both answer with the members that took or kept
their slot within the TTL and nobody else, and a refresh adds no member. -/
theorem slots_within_limit (limit ttl : ℕ) (start : ℤ) (events : List (SlotEvent Member))
    (key : SlotKey Member)
    (hrun : Transition.run (step limit ttl) (fresh start) events = some key) :
    key.set.zcard ≤ limit ∧
      (∀ member, (key.acquire limit ttl member).1 = .taken ↔
        (key.unexpired ttl).length < limit) ∧
      (∀ member, (key.count ttl).1 < limit ↔
        ((key.count ttl).2.acquire limit ttl member).1 = .taken) ∧
      (∀ member now, key.now ≤ now → (key.count ttl).1 < limit →
        (acquire limit ttl member { (key.count ttl).2 with now := now }).1 = .taken) ∧
      ((key.count ttl).1 = (key.unexpired ttl).length ∧
        (∀ member live, (key.acquire limit ttl member).1 = .full live →
          live = (key.unexpired ttl).length) ∧
        ∀ member ∈ key.unexpired ttl, ∃ time, key.now - ttl < time ∧
          ScoredAt limit ttl (fresh start) events member time) ∧
      (∀ member other, other ∈ (key.refresh ttl member).2.set → other ∈ key.set) ∧
      ∀ member, member ∉ key.set → key.refresh ttl member = (false, key) := by
  have hkept := kept_run hrun
  refine ⟨hkept.zcard_le, fun member => acquire_taken_iff, ?_, ?_, ?_,
    fun member other => mem_refresh, fun member => refresh_absent⟩
  · intro member
    rw [acquire_taken_iff, unexpired_count, count_eq_unexpired]
  · intro member now hnow hroom
    have hless : (unexpired ttl { (key.count ttl).2 with now := now }).length ≤
        ((key.count ttl).2.unexpired ttl).length := unexpired_tick hnow
    rw [unexpired_count] at hless
    rw [count_eq_unexpired] at hroom
    exact acquire_taken_iff.mpr (Nat.lt_of_le_of_lt hless hroom)
  · exact ⟨count_eq_unexpired, fun member live => acquire_full, fun member => hkept.counted⟩

/-- One slot taken, five seconds of a one-second window gone by. -/
theorem slots_within_limit_stale :
    ∃ key : SlotKey ℕ, Transition.run (step 1 1) (fresh 0) [.script (.acquire 7), .tick 5] =
      some key ∧ key.set.zcard ≤ 1 := by
  refine ⟨_, rfl, ?_⟩
  exact (slots_within_limit 1 1 0 [.script (.acquire 7), .tick 5] _ rfl).1

/-- A clear counts the members it drops, the one outside the window included. And
a count that finds no room is out of date once the clock moves. -/
theorem clear_counts_expired :
    (∃ key : SlotKey ℕ, Transition.run (step 1 1) (fresh 0) [.script (.acquire 7), .tick 5] =
      some key ∧ key.unexpired 1 = [] ∧ key.clear.1 = 1) ∧
    ∃ key : SlotKey ℕ, Transition.run (step 1 1) (fresh 0) [.script (.acquire 7)] = some key ∧
      ¬ (key.count 1).1 < 1 ∧
      (acquire 1 1 8 { (key.count 1).2 with now := 1 }).1 = .taken :=
  ⟨⟨_, rfl, by decide, by decide⟩, ⟨_, rfl, by decide, by decide⟩⟩

end SlotKey

end OpenAIGateway
