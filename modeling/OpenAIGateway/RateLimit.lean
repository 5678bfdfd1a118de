import OpenAIGateway.TokenBucket
import Mathlib.Data.Rat.Floor

/-!
The rate limit of a route: a token bucket in one Redis key, refilled by the
clock of Redis and rewritten by every call, refused ones too. The key expires
once the bucket would be full again, so a key that is gone answers like one that
was kept, and every call is a call on a bucket that lasts.
-/

set_option linter.all false

namespace OpenAIGateway.RateLimit

open TokenBucket

/-- The hash under a route's key, and the millisecond after which it is gone. -/
structure Key where
  bucket : Bucket ℚ
  expiresAt : ℤ
  deriving DecidableEq

/-- The clock in whole milliseconds, by which keys expire. -/
def mstime (now : ℚ) : ℤ := ⌊now * 1000⌋

/-- The fields of the key, unless it has expired. -/
def fetch (now : ℚ) (store : Option Key) : Option (Bucket ℚ) :=
  store.bind fun key => if key.expiresAt < mstime now then none else some key.bucket

/-- Tokens after the refill. A bucket that is not there is a full one. -/
def refill (rate burst : ℚ) (b : Option (Bucket ℚ)) (now : ℚ) : ℚ :=
  let tokens := (b.map Bucket.tokens).getD burst
  let ts := (b.map Bucket.ts).getD now
  min burst (tokens + (now - ts) * rate)

/-- The script, from the fields it read to the seconds to wait and the fields it writes. -/
def script (rate burst : ℚ) (b : Option (Bucket ℚ)) (now : ℚ) : ℚ × Bucket ℚ :=
  let tokens := refill rate burst b now
  if 1 ≤ tokens then (0, ⟨tokens - 1, now⟩) else ((1 - tokens) / rate, ⟨tokens, now⟩)

def expire (rate burst : ℚ) (now : ℚ) : ℤ := mstime now + (⌈burst / rate⌉ + 1) * 1000

/-- Take one token from a route's bucket. -/
def takeToken (rate burst : ℚ) (now : ℚ) (store : Option Key) : ℚ × Option Key :=
  let (wait, b) := script rate burst (fetch now store) now
  (wait, some ⟨b, expire rate burst now⟩)

/-- Requests a minute as a refill rate and a bucket size. -/
def rateAndBurst (rpm : ℕ) : ℚ × ℚ :=
  let burst : ℚ := (max rpm 1 : ℕ)
  (burst / 60, burst)

def waitFromRedis (wait : ℚ) : Option ℚ := if 0 < wait then some wait else none

/-- How long a caller has to wait, `none` when it need not. -/
def takeRateToken (rpm : ℕ) (now : ℚ) (store : Option Key) : Option ℚ × Option Key :=
  if rpm = 0 then (none, store)
  else
    let (rate, burst) := rateAndBurst rpm
    let (wait, store) := takeToken rate burst now store
    (waitFromRedis wait, store)

/-- The key after calls at these times. -/
def after (rpm : ℕ) (store : Option Key) (times : List ℚ) : Option Key :=
  times.foldl (fun store now => (takeRateToken rpm now store).2) store

/-- What calls at these times were told. -/
def answers (rpm : ℕ) (store : Option Key) : List ℚ → List (ℚ × Option ℚ)
  | [] => []
  | now :: rest =>
    (now, (takeRateToken rpm now store).1) :: answers rpm (takeRateToken rpm now store).2 rest

/-- The calls granted between two instants, both included. -/
def grantedWithin (start finish : ℚ) (told : List (ℚ × Option ℚ)) : ℕ :=
  told.countP (fun c => decide (c.2 = none ∧ start ≤ c.1 ∧ c.1 ≤ finish))

/-- What calls would be told if the key never expired. -/
def answersKept (rpm : ℕ) (b : Option (Bucket ℚ)) : List ℚ → List (ℚ × Option ℚ)
  | [] => []
  | now :: rest =>
    let (rate, burst) := rateAndBurst rpm
    let (wait, b) := script rate burst b now
    (now, waitFromRedis wait) :: answersKept rpm (some b) rest

section Script

variable {rate burst now : ℚ} {store : Option Key} {b : Bucket ℚ}

/-- The key holds a bucket: one nobody has called holds a full one. -/
def Holds (rate burst : ℚ) (store : Option Key) (b : Bucket ℚ) : Prop :=
  (store = none ∧ b.tokens = burst) ∨ store = some ⟨b, expire rate burst b.ts⟩

/-- A bucket that is not there refills as a full one does. -/
theorem refill_none (rate burst now : ℚ) : refill rate burst none now = burst := by
  unfold refill
  simp

/-- A key is gone only when its bucket has had the time to fill. -/
theorem idle_of_expired {ts : ℚ} (h : expire rate burst ts < mstime now) :
    burst / rate ≤ now - ts := by
  have hfill : burst / rate ≤ ⌈burst / rate⌉ := Int.le_ceil _
  have hbefore : ts * 1000 < mstime ts + 1 := Int.lt_floor_add_one _
  have hafter : (mstime now : ℚ) ≤ now * 1000 := Int.floor_le _
  have hexpired : (mstime ts : ℚ) + (⌈burst / rate⌉ + 1) * 1000 < mstime now := by
    exact_mod_cast h
  linarith

/-- Whether the key is there or gone, the script sees the bucket it would have kept. -/
theorem refill_fetch (h : Holds rate burst store b) (hb : b.Within burst) (hrate : 0 < rate)
    (hclock : b.ts ≤ now) : refill rate burst (fetch now store) now = b.refilled rate burst now := by
  rcases h with ⟨rfl, hfull⟩ | rfl
  · have haccrued : 0 ≤ (now - b.ts) * rate := mul_nonneg (sub_nonneg.mpr hclock) hrate.le
    have hrefilled : b.refilled rate burst now = burst := by
      unfold Bucket.refilled
      rw [hfull]
      exact min_eq_left (by linarith)
    rw [hrefilled]
    exact refill_none rate burst now
  · unfold fetch
    rw [Option.bind_some]
    by_cases hexpired : expire rate burst b.ts < mstime now
    · rw [if_pos hexpired, refill_none, hb.refilled_idle hrate (idle_of_expired hexpired)]
    · rw [if_neg hexpired]
      rfl

theorem script_eq_take {kept : Option (Bucket ℚ)}
    (h : refill rate burst kept now = b.refilled rate burst now) :
    script rate burst kept now = b.take rate burst now := by
  unfold script Bucket.take
  rw [h]

end Script

section Calls

variable {rpm : ℕ} {now : ℚ} {store : Option Key} {b : Bucket ℚ} {times : List ℚ}

def rate (rpm : ℕ) : ℚ := (rateAndBurst rpm).1

def burst (rpm : ℕ) : ℚ := (rateAndBurst rpm).2

theorem one_le_burst (rpm : ℕ) : 1 ≤ burst rpm := by
  exact Nat.one_le_cast.mpr (le_max_right rpm 1)

theorem rate_pos (rpm : ℕ) : 0 < rate rpm := by
  have hburst := one_le_burst rpm
  have hrate : rate rpm = burst rpm / 60 := rfl
  linarith

/-- A call on the key is a call on the bucket it holds. -/
theorem takeRateToken_eq (hrpm : 0 < rpm) (h : Holds (rate rpm) (burst rpm) store b)
    (hb : b.Within (burst rpm)) (hclock : b.ts ≤ now) :
    takeRateToken rpm now store = (waitFromRedis (b.take (rate rpm) (burst rpm) now).1,
      some ⟨(b.take (rate rpm) (burst rpm) now).2, expire (rate rpm) (burst rpm) now⟩) := by
  have hscript := script_eq_take (refill_fetch h hb (rate_pos rpm) hclock)
  unfold takeRateToken takeToken
  rw [if_neg hrpm.ne']
  exact congrArg (fun w : ℚ × Bucket ℚ =>
    (waitFromRedis w.1, some (⟨w.2, expire (rate rpm) (burst rpm) now⟩ : Key))) hscript

theorem holds_take (hrpm : 0 < rpm) (h : Holds (rate rpm) (burst rpm) store b)
    (hb : b.Within (burst rpm)) (hclock : b.ts ≤ now) :
    Holds (rate rpm) (burst rpm) (takeRateToken rpm now store).2
      (b.take (rate rpm) (burst rpm) now).2 := by
  rw [takeRateToken_eq hrpm h hb hclock]
  refine Or.inr ?_
  rw [Bucket.ts_take]

/-- The key holds a bucket after any calls, last touched by one of them. -/
theorem holds_after (hrpm : 0 < rpm) (h : Holds (rate rpm) (burst rpm) store b)
    (hb : b.Within (burst rpm)) (hclock : (b.ts :: times).Pairwise (· ≤ ·)) :
    ∃ b' : Bucket ℚ, Holds (rate rpm) (burst rpm) (after rpm store times) b' ∧
      b'.Within (burst rpm) ∧ b'.ts ∈ b.ts :: times := by
  induction times generalizing store b with
  | nil => exact ⟨b, h, hb, List.mem_cons_self⟩
  | cons now rest ih =>
    obtain ⟨hbefore, hrest⟩ := List.pairwise_cons.mp hclock
    have hnow := hbefore now List.mem_cons_self
    obtain ⟨b', hholds, hwithin, hts⟩ := ih (holds_take hrpm h hb hnow)
      (hb.take (rate_pos rpm) hnow) (by rw [Bucket.ts_take]; exact hrest)
    rw [Bucket.ts_take] at hts
    exact ⟨b', hholds, hwithin, List.mem_cons_of_mem _ hts⟩

theorem answers_eq (hrpm : 0 < rpm) (h : Holds (rate rpm) (burst rpm) store b)
    (hb : b.Within (burst rpm)) (hclock : (b.ts :: times).Pairwise (· ≤ ·)) :
    answers rpm store times =
      (calls (rate rpm) (burst rpm) b times).map (fun c => (c.1, waitFromRedis c.2)) := by
  induction times generalizing store b with
  | nil => rfl
  | cons now rest ih =>
    obtain ⟨hbefore, hrest⟩ := List.pairwise_cons.mp hclock
    have hnow := hbefore now List.mem_cons_self
    have hlater := ih (holds_take hrpm h hb hnow) (hb.take (rate_pos rpm) hnow)
      (by rw [Bucket.ts_take]; exact hrest)
    simp only [answers, calls, List.map_cons]
    rw [hlater, takeRateToken_eq hrpm h hb hnow]

theorem answersKept_eq {kept : Option (Bucket ℚ)}
    (h : ∀ now, b.ts ≤ now → refill (rate rpm) (burst rpm) kept now =
      b.refilled (rate rpm) (burst rpm) now)
    (hclock : (b.ts :: times).Pairwise (· ≤ ·)) :
    answersKept rpm kept times =
      (calls (rate rpm) (burst rpm) b times).map (fun c => (c.1, waitFromRedis c.2)) := by
  induction times generalizing kept b with
  | nil => rfl
  | cons now rest ih =>
    obtain ⟨hbefore, hrest⟩ := List.pairwise_cons.mp hclock
    have hscript := script_eq_take (h now (hbefore now List.mem_cons_self))
    have hlater : answersKept rpm (some (b.take (rate rpm) (burst rpm) now).2) rest =
        (calls (rate rpm) (burst rpm) (b.take (rate rpm) (burst rpm) now).2 rest).map
          (fun c => (c.1, waitFromRedis c.2)) :=
      ih (fun _ _ => rfl) (by rw [Bucket.ts_take]; exact hrest)
    rw [← hscript] at hlater
    simp only [calls, List.map_cons, ← hscript, ← hlater]
    rfl

theorem waitFromRedis_eq_none_iff (wait : ℚ) : waitFromRedis wait = none ↔ ¬ 0 < wait := by
  unfold waitFromRedis
  by_cases h : 0 < wait <;> simp [h]

theorem grantedWithin_map (start finish : ℚ) (told : List (ℚ × ℚ)) :
    grantedWithin start finish (told.map fun c => (c.1, waitFromRedis c.2)) =
      granted start finish told := by
  unfold grantedWithin granted
  rw [List.countP_map]
  exact List.countP_congr fun c _ => by
    simp only [Function.comp_apply, waitFromRedis_eq_none_iff]

/-- A route nobody has called holds a full bucket since before its first call. -/
theorem exists_holds (rpm : ℕ) (hclock : times.Pairwise (· ≤ ·)) :
    ∃ b : Bucket ℚ, Holds (rate rpm) (burst rpm) none b ∧ b.Within (burst rpm) ∧
      (b.ts :: times).Pairwise (· ≤ ·) := by
  have hfull : ∀ ts, Bucket.Within (burst rpm) ⟨burst rpm, ts⟩ :=
    fun ts => ⟨zero_le_one.trans (one_le_burst rpm), le_refl _⟩
  cases times with
  | nil => exact ⟨⟨burst rpm, 0⟩, Or.inl ⟨rfl, rfl⟩, hfull 0, List.pairwise_singleton _ _⟩
  | cons now rest =>
    exact ⟨⟨burst rpm, now⟩, Or.inl ⟨rfl, rfl⟩, hfull now,
      List.pairwise_cons.mpr ⟨head_le hclock, hclock⟩⟩

/-- Before any call of a run the key holds a bucket no younger than the call. -/
theorem holds_before (hrpm : 0 < rpm) (hclock : times.Pairwise (· ≤ ·)) {past : List ℚ}
    (hpast : past ++ [now] <+: times) :
    ∃ b : Bucket ℚ, Holds (rate rpm) (burst rpm) (after rpm none past) b ∧
      b.Within (burst rpm) ∧ b.ts ≤ now := by
  obtain ⟨b, hholds, hwithin, hstart⟩ := exists_holds rpm (hclock.sublist hpast.sublist)
  rw [← List.cons_append] at hstart
  obtain ⟨hbefore, -, hnow⟩ := List.pairwise_append.mp hstart
  obtain ⟨b', hholds', hwithin', hts⟩ := holds_after hrpm hholds hwithin hbefore
  exact ⟨b', hholds', hwithin', hnow b'.ts hts now List.mem_cons_self⟩

end Calls

/-- A route's tokens stay within its burst. In any interval at most the burst and
what accrues meanwhile is granted. A call is refused for want of a whole token
alone, and granted once it has waited as told. Whether the key expires is never seen. -/
theorem takeRateToken_laws (rpm : ℕ) (hrpm : 0 < rpm) (times : List ℚ)
    (hclock : times.Pairwise (· ≤ ·)) :
    (∀ past, past <+: times → ∀ key, after rpm none past = some key →
      0 ≤ key.bucket.tokens ∧ key.bucket.tokens ≤ burst rpm) ∧
    (∀ start length, 0 ≤ length →
      (grantedWithin start (start + length) (answers rpm none times) : ℚ) ≤
        burst rpm + rate rpm * length) ∧
    (∀ past now, past ++ [now] <+: times →
      ((takeRateToken rpm now (after rpm none past)).1 ≠ none ↔
        refill (rate rpm) (burst rpm) (fetch now (after rpm none past)) now < 1)) ∧
    (∀ past now wait, past ++ [now] <+: times →
      (takeRateToken rpm now (after rpm none past)).1 = some wait →
      ∀ later, now + wait ≤ later →
        (takeRateToken rpm later (after rpm none (past ++ [now]))).1 = none) ∧
    answers rpm none times = answersKept rpm none times := by
  have hrate := rate_pos rpm
  refine ⟨?_, ?_, ?_, ?_, ?_⟩
  · intro past hpast key hkey
    obtain ⟨b, hholds, hwithin, hstart⟩ := exists_holds rpm (hclock.sublist hpast.sublist)
    obtain ⟨b', hholds', hwithin', -⟩ := holds_after hrpm hholds hwithin hstart
    rw [hkey] at hholds'
    rcases hholds' with ⟨hnone, -⟩ | hsome
    · cases hnone
    · cases hsome
      exact hwithin'
  · intro start length hlength
    obtain ⟨b, hholds, hwithin, hstart⟩ := exists_holds rpm hclock
    have hle : (granted start (start + length) (calls (rate rpm) (burst rpm) b times) : ℚ) ≤
        burst rpm + (start + length - start) * rate rpm :=
      granted_le hrate hwithin (by linarith) hstart
    rw [answers_eq hrpm hholds hwithin hstart, grantedWithin_map]
    linarith
  · intro past now hpast
    obtain ⟨b, hholds, hwithin, hts⟩ := holds_before hrpm hclock hpast
    rw [takeRateToken_eq hrpm hholds hwithin hts, refill_fetch hholds hwithin hrate hts, ne_eq,
      waitFromRedis_eq_none_iff, not_not]
    exact Bucket.wait_pos_iff hrate
  · intro past now wait hpast hwait later hlater
    obtain ⟨b, hholds, hwithin, hts⟩ := holds_before hrpm hclock hpast
    have hnext := holds_take hrpm hholds hwithin hts
    rw [takeRateToken_eq hrpm hholds hwithin hts] at hwait
    have hpos : 0 < (b.take (rate rpm) (burst rpm) now).1 := by
      by_contra hzero
      rw [(waitFromRedis_eq_none_iff _).mpr hzero] at hwait
      cases hwait
    have htold : (b.take (rate rpm) (burst rpm) now).1 = wait :=
      Option.some.inj ((if_pos hpos).symm.trans hwait)
    rw [← htold] at hlater
    have hrefused := (Bucket.wait_pos_iff hrate).mp hpos
    have hafter : after rpm none (past ++ [now]) =
        (takeRateToken rpm now (after rpm none past)).2 := by
      unfold after
      rw [List.foldl_append]
      rfl
    rw [hafter, takeRateToken_eq hrpm hnext (hwithin.take hrate hts)
      (by rw [Bucket.ts_take]; linarith), waitFromRedis_eq_none_iff, Bucket.wait_pos_iff hrate]
    exact not_lt.mpr (Bucket.refilled_after_wait hrate (one_le_burst rpm) hrefused hlater)
  · obtain ⟨b, hholds, hwithin, hstart⟩ := exists_holds rpm hclock
    have hkept : ∀ now, b.ts ≤ now → refill (rate rpm) (burst rpm) none now =
        b.refilled (rate rpm) (burst rpm) now := by
      intro now hnow
      rw [← refill_fetch hholds hwithin hrate hnow, fetch, Option.bind_none]
    rw [answers_eq hrpm hholds hwithin hstart, answersKept_eq hkept hstart]

/-- At two requests a minute a third one at once is told to wait half a minute, and
half a minute later there is a token for it. -/
theorem third_call_waits :
    (takeRateToken 2 0 (after 2 none [0, 0])).1 = some 30 ∧
      ∀ later, 30 ≤ later → (takeRateToken 2 later (after 2 none ([0, 0] ++ [0]))).1 = none := by
  have hclock : ([0, 0] ++ [0] : List ℚ).Pairwise (· ≤ ·) := by
    simp
  have htold : (takeRateToken 2 0 (after 2 none [0, 0])).1 = some 30 := by
    decide +kernel
  refine ⟨htold, fun later hlater => ?_⟩
  have hlaws := (takeRateToken_laws 2 (by decide) ([0, 0] ++ [0]) hclock).2.2.2.1
  have hwaited : (0 : ℚ) + 30 ≤ later := by linarith
  exact hlaws [0, 0] 0 30 (List.prefix_refl _) htold later hwaited

end OpenAIGateway.RateLimit
