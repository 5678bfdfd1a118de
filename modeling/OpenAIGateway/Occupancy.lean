import OpenAIGateway.Schedule

/-!
Occupancy in basis points against occupancy as a ratio. The product that is
divided stops at the largest `u32`, so a credential with hundreds of thousands
of requests in flight reads as idler than it is.
-/

set_option linter.all false

namespace OpenAIGateway

variable {AccountId : Type*}

namespace Candidate

/-- A credential with room, its counts in 32 bits. Nothing queues. -/
structure HasRoom (c : Candidate AccountId) : Prop where
  room : c.inFlight < c.maxConcurrency
  fits : c.maxConcurrency ≤ u32Max
  unqueued : c.waiting = 0

/-- The basis points a ratio comes to where nothing stops the product. -/
def basisPoints (c : Candidate AccountId) : ℕ := 10000 * c.inFlight / c.maxConcurrency

/-- One credential at most as occupied as another, as exact ratios. -/
def AtMost (a b : Candidate AccountId) : Prop :=
  a.inFlight * b.maxConcurrency ≤ b.inFlight * a.maxConcurrency

theorem HasRoom.loadBp_eq {c : Candidate AccountId} (hc : c.HasRoom) :
    c.loadBp = min (10000 * c.inFlight) u32Max / c.maxConcurrency := by
  have hpos : c.maxConcurrency ≠ 0 := by
    have := hc.room
    omega
  have hbusy : min c.inFlight u32Max = c.inFlight := by
    have := hc.room
    have := hc.fits
    omega
  unfold loadBp
  rw [if_neg hpos, hc.unqueued, Nat.add_zero, hbusy, Nat.mul_comm c.inFlight]

theorem HasRoom.loadBp_le {c : Candidate AccountId} (hc : c.HasRoom) :
    c.loadBp ≤ c.basisPoints := by
  rw [hc.loadBp_eq]
  exact Nat.div_le_div_right (Nat.min_le_left _ _)

theorem HasRoom.basisPoints_lt {c : Candidate AccountId} (hc : c.HasRoom) :
    c.basisPoints < 10000 := by
  have := hc.room
  apply Nat.div_lt_of_lt_mul
  omega

theorem basisPoints_mul_le (c : Candidate AccountId) :
    c.basisPoints * c.maxConcurrency ≤ 10000 * c.inFlight :=
  Nat.div_mul_le_self _ _

theorem basisPoints_mono {a b : Candidate AccountId} (ha : a.HasRoom) (hb : b.HasRoom)
    (h : a.AtMost b) : a.basisPoints ≤ b.basisPoints := by
  have hapos : 0 < a.maxConcurrency := Nat.zero_lt_of_lt ha.room
  have hbpos : 0 < b.maxConcurrency := Nat.zero_lt_of_lt hb.room
  apply (Nat.le_div_iff_mul_le hbpos).mpr
  apply Nat.le_of_mul_le_mul_right _ hapos
  calc a.basisPoints * b.maxConcurrency * a.maxConcurrency
      = a.basisPoints * a.maxConcurrency * b.maxConcurrency := Nat.mul_right_comm ..
    _ ≤ 10000 * a.inFlight * b.maxConcurrency :=
        Nat.mul_le_mul_right _ a.basisPoints_mul_le
    _ = 10000 * (a.inFlight * b.maxConcurrency) := Nat.mul_assoc ..
    _ ≤ 10000 * (b.inFlight * a.maxConcurrency) := Nat.mul_le_mul_left _ h
    _ = 10000 * b.inFlight * a.maxConcurrency := (Nat.mul_assoc ..).symm

/-- The load is exact as soon as what survives the division fits in 32 bits. -/
theorem HasRoom.basisPoints_le_loadBp_iff {c : Candidate AccountId} (hc : c.HasRoom) :
    c.basisPoints ≤ c.loadBp ↔ c.basisPoints * c.maxConcurrency ≤ u32Max := by
  have hpos : 0 < c.maxConcurrency := Nat.zero_lt_of_lt hc.room
  rw [hc.loadBp_eq, Nat.le_div_iff_mul_le hpos, Nat.le_min]
  exact and_iff_right c.basisPoints_mul_le

/-- A credential of ten thousand slots, exactly as occupied as another reads in basis points. -/
def inBasisPoints (c : Candidate AccountId) : Candidate AccountId :=
  { c with maxConcurrency := 10000, inFlight := c.basisPoints }

theorem HasRoom.inBasisPoints {c : Candidate AccountId} (hc : c.HasRoom) :
    c.inBasisPoints.HasRoom where
  room := hc.basisPoints_lt
  fits := by
    change 10000 ≤ u32Max
    decide
  unqueued := hc.unqueued

theorem inBasisPoints_atMost (c : Candidate AccountId) : c.inBasisPoints.AtMost c := by
  change c.basisPoints * c.maxConcurrency ≤ c.inFlight * 10000
  rw [Nat.mul_comm c.inFlight]
  exact c.basisPoints_mul_le

theorem HasRoom.loadBp_inBasisPoints {c : Candidate AccountId} (hc : c.HasRoom) :
    c.inBasisPoints.loadBp = c.basisPoints := by
  have hlt := hc.basisPoints_lt
  have hfits : min (10000 * c.basisPoints) u32Max = 10000 * c.basisPoints := by
    unfold u32Max
    omega
  rw [hc.inBasisPoints.loadBp_eq]
  change min (10000 * c.basisPoints) u32Max / 10000 = c.basisPoints
  rw [hfits]
  omega

/-- No credential at most as occupied reads as busier, exactly when the largest multiple of
this one's limit within ten thousand times its requests fits in 32 bits. -/
theorem loadBp_le_of_atMost_iff (b : Candidate AccountId) (hb : b.HasRoom) :
    (∀ a : Candidate AccountId, a.HasRoom → a.AtMost b → a.loadBp ≤ b.loadBp) ↔
      10000 * b.inFlight / b.maxConcurrency * b.maxConcurrency ≤ u32Max := by
  constructor
  · intro hmono
    apply hb.basisPoints_le_loadBp_iff.mp
    rw [← hb.loadBp_inBasisPoints]
    exact hmono _ hb.inBasisPoints b.inBasisPoints_atMost
  · intro hfits a ha hle
    have hexact : b.basisPoints ≤ b.loadBp := hb.basisPoints_le_loadBp_iff.mpr hfits
    exact (ha.loadBp_le.trans (basisPoints_mono ha hb hle)).trans hexact

/-- A credential of so many slots, so many of them taken. -/
def taken (inFlight maxConcurrency : ℕ) : Candidate ℕ where
  account := 0
  provider := .anthropic
  priority := 50
  maxConcurrency := maxConcurrency
  inFlight := inFlight
  waiting := 0
  schedulable := true
  cooldownUntil := none
  rateLimitedUntil := none
  windowResetsAt := none
  usageRemainingPct := none
  usageReservePct := none
  lastUsedAt := 0

theorem taken_hasRoom {inFlight maxConcurrency : ℕ} (hroom : inFlight < maxConcurrency)
    (hfits : maxConcurrency ≤ u32Max) : (taken inFlight maxConcurrency).HasRoom :=
  ⟨hroom, hfits, rfl⟩

theorem one_of_two_fits :
    (taken 1 2).HasRoom ∧ ∀ a : Candidate ℕ, a.HasRoom → a.AtMost (taken 1 2) →
      a.loadBp ≤ (taken 1 2).loadBp :=
  have hroom : (taken 1 2).HasRoom := taken_hasRoom (by decide) (by decide)
  ⟨hroom, (loadBp_le_of_atMost_iff (taken 1 2) hroom).mpr (by decide)⟩

/-- Half of two and half of two million: the second reads as less than half as loaded. -/
theorem half_reads_idler :
    ¬ ∀ a b : Candidate ℕ, a.HasRoom → b.HasRoom → a.AtMost b → a.loadBp ≤ b.loadBp := by
  intro hmono
  have hle := hmono (taken 1 2) (taken 1000000 2000000) (taken_hasRoom (by decide) (by decide))
    (taken_hasRoom (by decide) (by decide)) (by unfold AtMost taken; decide)
  revert hle
  decide

end Candidate

end OpenAIGateway
