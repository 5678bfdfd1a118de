import Mathlib.Algebra.Order.Field.Basic
import Mathlib.Tactic.Linarith
import Mathlib.Tactic.Ring

/-!
A token bucket over an ordered field. Tokens accrue at a rate up to a burst; a
call takes one, or is told how long one takes to accrue. In any stretch of time
at most the burst and what accrued meanwhile is granted, whatever was refused
in between.
-/

set_option linter.all false

namespace OpenAIGateway.TokenBucket

/-- The tokens a bucket held, and when. -/
structure Bucket (K : Type*) where
  tokens : K
  ts : K
  deriving DecidableEq

variable {K : Type*} [Field K] [LinearOrder K] (rate burst : K)

/-- What a bucket holds later on. -/
def Bucket.refilled (b : Bucket K) (now : K) : K := min burst (b.tokens + (now - b.ts) * rate)

/-- Take one token if there is one, and say how long to wait for it otherwise. -/
def Bucket.take (b : Bucket K) (now : K) : K × Bucket K :=
  if 1 ≤ b.refilled rate burst now then (0, ⟨b.refilled rate burst now - 1, now⟩)
  else ((1 - b.refilled rate burst now) / rate, ⟨b.refilled rate burst now, now⟩)

/-- Calls at these times, with what each was told to wait. -/
def calls (b : Bucket K) : List K → List (K × K)
  | [] => []
  | now :: rest => (now, (b.take rate burst now).1) :: calls (b.take rate burst now).2 rest

/-- The calls granted between two instants, both included. -/
def granted (start finish : K) (calls : List (K × K)) : ℕ :=
  calls.countP (fun c => decide (¬ 0 < c.2 ∧ start ≤ c.1 ∧ c.1 ≤ finish))

/-- No more than the burst, and no debt. -/
def Bucket.Within (b : Bucket K) : Prop := 0 ≤ b.tokens ∧ b.tokens ≤ burst

variable {rate burst} {b : Bucket K} {now start finish : K}

theorem Bucket.take_of_refilled (h : 1 ≤ b.refilled rate burst now) :
    b.take rate burst now = (0, ⟨b.refilled rate burst now - 1, now⟩) := if_pos h

theorem Bucket.take_of_short (h : b.refilled rate burst now < 1) :
    b.take rate burst now =
      ((1 - b.refilled rate burst now) / rate, ⟨b.refilled rate burst now, now⟩) :=
  if_neg (not_le.mpr h)

theorem Bucket.ts_take : (b.take rate burst now).2.ts = now := by
  rcases le_or_gt 1 (b.refilled rate burst now) with h | h
  · rw [take_of_refilled h]
  · rw [take_of_short h]

theorem Bucket.refilled_le_burst : b.refilled rate burst now ≤ burst := min_le_left _ _

theorem Bucket.refilled_le :
    b.refilled rate burst now ≤ b.tokens + (now - b.ts) * rate := min_le_right _ _

/-- Looking at a bucket changes nothing: it may be topped up first. -/
theorem Bucket.take_refilled :
    Bucket.take rate burst ⟨b.refilled rate burst now, now⟩ now = b.take rate burst now := by
  have hsame : Bucket.refilled rate burst ⟨b.refilled rate burst now, now⟩ now =
      b.refilled rate burst now := by
    unfold refilled
    simp only [sub_self, zero_mul, add_zero]
    exact min_eq_right (min_le_left _ _)
  unfold take
  rw [hsame]

variable [IsStrictOrderedRing K]

theorem Bucket.Within.refilled_nonneg (h : b.Within burst) (hrate : 0 < rate)
    (hclock : b.ts ≤ now) : 0 ≤ b.refilled rate burst now := by
  have haccrued : 0 ≤ (now - b.ts) * rate := mul_nonneg (sub_nonneg.mpr hclock) hrate.le
  exact le_min (h.1.trans h.2) (by linarith [h.1])

theorem Bucket.Within.take (h : b.Within burst) (hrate : 0 < rate) (hclock : b.ts ≤ now) :
    (b.take rate burst now).2.Within burst := by
  have hnonneg := h.refilled_nonneg hrate hclock
  have hle : b.refilled rate burst now ≤ burst := refilled_le_burst
  rcases le_or_gt 1 (b.refilled rate burst now) with hone | hone
  · rw [take_of_refilled hone]
    exact ⟨sub_nonneg.mpr hone, by linarith⟩
  · rw [take_of_short hone]
    exact ⟨hnonneg, hle⟩

/-- A call is told to wait exactly when less than one token is there. -/
theorem Bucket.wait_pos_iff (hrate : 0 < rate) :
    0 < (b.take rate burst now).1 ↔ b.refilled rate burst now < 1 := by
  rcases le_or_gt 1 (b.refilled rate burst now) with h | h
  · rw [take_of_refilled h]
    exact ⟨fun hwait => absurd hwait (lt_irrefl 0), fun hshort => absurd hshort (not_lt.mpr h)⟩
  · rw [take_of_short h]
    exact ⟨fun _ => h, fun _ => div_pos (sub_pos.mpr h) hrate⟩

/-- Whoever was told to wait, and does, finds a token. -/
theorem Bucket.refilled_after_wait (hrate : 0 < rate) (hburst : 1 ≤ burst)
    (hrefused : b.refilled rate burst now < 1) {later : K}
    (hlater : now + (b.take rate burst now).1 ≤ later) :
    1 ≤ (b.take rate burst now).2.refilled rate burst later := by
  rw [take_of_short hrefused] at hlater ⊢
  have hwait : (1 - b.refilled rate burst now) / rate ≤ later - now := by linarith
  have haccrued : 1 - b.refilled rate burst now ≤ (later - now) * rate := (div_le_iff₀ hrate).mp hwait
  exact le_min hburst (by linarith)

/-- A bucket left alone for as long as it takes to fill is full. -/
theorem Bucket.Within.refilled_idle (h : b.Within burst) (hrate : 0 < rate)
    (hidle : burst / rate ≤ now - b.ts) : b.refilled rate burst now = burst := by
  have haccrued : burst ≤ (now - b.ts) * rate := (div_le_iff₀ hrate).mp hidle
  exact min_eq_left (by linarith [h.1])

/-- A call costs the token it is granted. -/
theorem Bucket.tokens_take (hrate : 0 < rate) :
    (b.take rate burst now).2.tokens + (if 0 < (b.take rate burst now).1 then 0 else 1) =
      b.refilled rate burst now := by
  rcases le_or_gt 1 (b.refilled rate burst now) with h | h
  · rw [if_neg (mt (wait_pos_iff hrate).mp (not_lt.mpr h)), take_of_refilled h]
    exact sub_add_cancel _ _
  · rw [if_pos ((wait_pos_iff hrate).mpr h), take_of_short h]
    exact add_zero _

omit [IsStrictOrderedRing K] in
theorem granted_cons (b : Bucket K) (now : K) (rest : List K) :
    granted start finish (calls rate burst b (now :: rest)) =
      granted start finish (calls rate burst (b.take rate burst now).2 rest) +
        if ¬ 0 < (b.take rate burst now).1 ∧ start ≤ now ∧ now ≤ finish then 1 else 0 := by
  unfold granted
  simp only [calls, List.countP_cons, decide_eq_true_eq]

omit [IsStrictOrderedRing K] in
/-- Calls after an interval are none of its. -/
theorem granted_late (b : Bucket K) {times : List K} (hlate : ∀ t ∈ times, finish < t) :
    granted start finish (calls rate burst b times) = 0 := by
  induction times generalizing b with
  | nil => rfl
  | cons now rest ih =>
    obtain ⟨hnow, hrest⟩ := List.forall_mem_cons.mp hlate
    rw [granted_cons, ih _ hrest, if_neg fun h => absurd h.2.2 (not_le.mpr hnow)]

omit [Field K] [IsStrictOrderedRing K] in
theorem head_le {times : List K} (hclock : (now :: times).Pairwise (· ≤ ·)) :
    ∀ t ∈ now :: times, now ≤ t :=
  List.forall_mem_cons.mpr ⟨le_refl now, (List.pairwise_cons.mp hclock).1⟩

/-- What is granted up to an instant was in the bucket or accrued until then. -/
theorem granted_le_of_started (hrate : 0 < rate) (hb : b.Within burst) (hstarted : b.ts ≤ finish)
    {times : List K} (hclock : (b.ts :: times).Pairwise (· ≤ ·)) :
    (granted start finish (calls rate burst b times) : K) ≤
      b.tokens + (finish - b.ts) * rate := by
  induction times generalizing b with
  | nil =>
    have haccrued : 0 ≤ (finish - b.ts) * rate := mul_nonneg (sub_nonneg.mpr hstarted) hrate.le
    have hzero : granted start finish (calls rate burst b []) = 0 := rfl
    rw [hzero, Nat.cast_zero]
    linarith [hb.1]
  | cons now rest ih =>
    obtain ⟨hbefore, hrest⟩ := List.pairwise_cons.mp hclock
    have hnow : b.ts ≤ now := hbefore now List.mem_cons_self
    rcases le_or_gt now finish with hin | hlate
    · have hcount : (granted start finish (calls rate burst b (now :: rest)) : K) ≤
          granted start finish (calls rate burst (b.take rate burst now).2 rest) +
            if 0 < (b.take rate burst now).1 then 0 else 1 := by
        rw [granted_cons, Nat.cast_add]
        by_cases hwait : 0 < (b.take rate burst now).1
        · rw [if_pos hwait, if_neg fun h => h.1 hwait, Nat.cast_zero]
        · rw [if_neg hwait]
          have hone : (if ¬ 0 < (b.take rate burst now).1 ∧ start ≤ now ∧ now ≤ finish
              then 1 else 0) ≤ 1 := by
            split <;> omega
          exact add_le_add_right (Nat.cast_le_one.mpr hone) _
      have hafter := ih (hb.take hrate hnow) (by rw [Bucket.ts_take]; exact hin)
        (by rw [Bucket.ts_take]; exact hrest)
      rw [Bucket.ts_take] at hafter
      have htokens : (b.take rate burst now).2.tokens +
          (if 0 < (b.take rate burst now).1 then 0 else 1) = b.refilled rate burst now :=
        Bucket.tokens_take hrate
      have hle : b.refilled rate burst now ≤ b.tokens + (now - b.ts) * rate := Bucket.refilled_le
      calc (granted start finish (calls rate burst b (now :: rest)) : K)
          ≤ (b.take rate burst now).2.tokens + (finish - now) * rate +
              (if 0 < (b.take rate burst now).1 then 0 else 1) := by linarith
        _ = b.refilled rate burst now + (finish - now) * rate := by linarith
        _ ≤ b.tokens + (now - b.ts) * rate + (finish - now) * rate := by linarith
        _ = b.tokens + (finish - b.ts) * rate := by ring
    · have hall : ∀ t ∈ now :: rest, finish < t :=
        fun t ht => lt_of_lt_of_le hlate (head_le hrest t ht)
      have haccrued : 0 ≤ (finish - b.ts) * rate := mul_nonneg (sub_nonneg.mpr hstarted) hrate.le
      rw [granted_late b hall, Nat.cast_zero]
      linarith [hb.1]

/-- In any interval at most the burst is granted and what accrues in it. -/
theorem granted_le (hrate : 0 < rate) (hb : b.Within burst) (hinterval : start ≤ finish)
    {times : List K} (hclock : (b.ts :: times).Pairwise (· ≤ ·)) :
    (granted start finish (calls rate burst b times) : K) ≤ burst + (finish - start) * rate := by
  have hburst : 0 ≤ burst := hb.1.trans hb.2
  have hwhole : 0 ≤ (finish - start) * rate := mul_nonneg (sub_nonneg.mpr hinterval) hrate.le
  induction times generalizing b with
  | nil =>
    have hzero : granted start finish (calls rate burst b []) = 0 := rfl
    rw [hzero, Nat.cast_zero]
    linarith
  | cons now rest ih =>
    obtain ⟨hbefore, hrest⟩ := List.pairwise_cons.mp hclock
    have hnow : b.ts ≤ now := hbefore now List.mem_cons_self
    rcases lt_or_ge now start with hearly | hin
    · -- A call before the interval leaves a bucket that is within its burst.
      rw [granted_cons, if_neg fun h => absurd h.2.1 (not_le.mpr hearly), Nat.add_zero]
      exact ih (hb.take hrate hnow) (by rw [Bucket.ts_take]; exact hrest)
    · rcases le_or_gt now finish with hstarted | hlate
      · -- From the first call inside on, the bucket holds no more than the burst.
        have hfull : Bucket.Within burst ⟨b.refilled rate burst now, now⟩ :=
          ⟨hb.refilled_nonneg hrate hnow, Bucket.refilled_le_burst⟩
        have hsame : calls rate burst ⟨b.refilled rate burst now, now⟩ (now :: rest) =
            calls rate burst b (now :: rest) := by
          simp only [calls, Bucket.take_refilled]
        have hle : (granted start finish (calls rate burst
            ⟨b.refilled rate burst now, now⟩ (now :: rest)) : K) ≤
            b.refilled rate burst now + (finish - now) * rate :=
          granted_le_of_started hrate hfull hstarted
            (List.pairwise_cons.mpr ⟨head_le hrest, hrest⟩)
        rw [hsame] at hle
        have hcap : b.refilled rate burst now ≤ burst := Bucket.refilled_le_burst
        have hless : (finish - now) * rate ≤ (finish - start) * rate :=
          mul_le_mul_of_nonneg_right (by linarith) hrate.le
        linarith
      · have hall : ∀ t ∈ now :: rest, finish < t :=
          fun t ht => lt_of_lt_of_le hlate (head_le hrest t ht)
        rw [granted_late b hall, Nat.cast_zero]
        linarith

end OpenAIGateway.TokenBucket
