import OpenAIGateway.Breaker
import Mathlib.Data.List.Induction

/-!
The state of a breaker, read off what was done to it. The failures since the
last success say whether it is closed, and the last failure says until when it
is open. Asking, claiming and handing back a probe say nothing.
-/

set_option linter.all false

namespace OpenAIGateway.Breaker

inductive Operation
  | permits (now : ℤ)
  | beginRequest (now : ℤ)
  | releaseProbe
  | recordSuccess
  | recordFailure (now : ℤ)
  deriving DecidableEq

def apply (b : Breaker) : Operation → Breaker
  | .permits _ => b
  | .beginRequest now => (b.beginRequest now).2
  | .releaseProbe => b.releaseProbe
  | .recordSuccess => b.recordSuccess
  | .recordFailure now => b.recordFailure now

/-- The breaker after these operations. -/
def after (b : Breaker) (ops : List Operation) : Breaker := ops.foldl apply b

/-- When a failure was recorded. -/
def Operation.failedAt : Operation → Option ℤ
  | .recordFailure now => some now
  | _ => none

/-- Whether the operation records how a request went. -/
def Operation.outcome : Operation → Bool
  | .recordSuccess => true
  | .recordFailure _ => true
  | _ => false

/-- The failures since the last success, or since the start. -/
def failuresSince (ops : List Operation) : ℕ :=
  (ops.reverse.takeWhile (fun op => op != .recordSuccess)).countP (fun op => op.failedAt.isSome)

def lastFailure (ops : List Operation) : Option ℤ := ops.reverse.findSome? Operation.failedAt

/-- When a breaker half-opens after a failure, in whole seconds of 64 bits. -/
def halfOpensAt (cooldownSecs : ℕ) (failed : ℤ) : ℤ :=
  saturatingAddI64 failed (min cooldownSecs i64Max)

/-- The plain sum, as long as it fits. -/
theorem halfOpensAt_eq {cooldownSecs : ℕ} {failed : ℤ} (hlow : -2 ^ 63 ≤ failed)
    (hcooldown : cooldownSecs ≤ i64Max) (hhigh : failed + cooldownSecs ≤ i64Max) :
    halfOpensAt cooldownSecs failed = failed + cooldownSecs := by
  unfold halfOpensAt saturatingAddI64
  unfold i64Max at *
  omega

theorem failuresSince_append (ops : List Operation) (op : Operation) :
    failuresSince (ops ++ [op]) = if op = .recordSuccess then 0
      else failuresSince ops + if op.failedAt.isSome then 1 else 0 := by
  unfold failuresSince
  rw [List.reverse_append, List.reverse_singleton, List.singleton_append]
  cases op <;> simp [Operation.failedAt]

/-- What records no outcome adds no failure. -/
theorem failuresSince_append_of_not_outcome (ops : List Operation) {op : Operation}
    (h : op.outcome = false) : failuresSince (ops ++ [op]) = failuresSince ops := by
  have hfailed : op.failedAt = none := by
    cases op <;> first | rfl | cases h
  have hsuccess : op ≠ .recordSuccess := by
    rintro rfl
    cases h
  rw [failuresSince_append, if_neg hsuccess, hfailed]
  rfl

theorem lastFailure_append (ops : List Operation) (op : Operation) :
    lastFailure (ops ++ [op]) = op.failedAt.or (lastFailure ops) := by
  unfold lastFailure
  rw [List.reverse_append, List.reverse_singleton, List.singleton_append, List.findSome?_cons]
  cases op <;> rfl

theorem lastFailure_isSome {ops : List Operation} (h : 0 < failuresSince ops) :
    (lastFailure ops).isSome := by
  obtain ⟨op, hop, hfailed⟩ := List.countP_pos_iff.mp h
  unfold lastFailure
  rw [List.findSome?_isSome_iff]
  exact ⟨op, (List.takeWhile_sublist _).mem hop, hfailed⟩

/-- What the fields of a breaker say about its past. -/
structure Tells (tripThreshold cooldownSecs : ℕ) (past : List Operation) (b : Breaker) : Prop where
  threshold : b.tripThreshold = max tripThreshold 1
  cooldown : b.cooldownSecs = cooldownSecs
  count : b.consecutiveFailures = min (failuresSince past) (2 ^ 32 - 1)
  openedUntil : b.openedUntil = if max tripThreshold 1 ≤ failuresSince past then
    (lastFailure past).map (halfOpensAt cooldownSecs) else none

theorem tells_new (tripThreshold cooldownSecs : ℕ) :
    Tells tripThreshold cooldownSecs [] (new tripThreshold cooldownSecs) where
  threshold := rfl
  cooldown := rfl
  count := rfl
  openedUntil := by
    have hnone : ¬ max tripThreshold 1 ≤ failuresSince [] := by
      have : failuresSince [] = 0 := rfl
      omega
    rw [if_neg hnone]
    rfl

variable {tripThreshold cooldownSecs : ℕ} {past : List Operation} {b : Breaker}

/-- An operation that is no outcome leaves everything but the probe flag. -/
theorem apply_of_not_outcome (b : Breaker) {op : Operation} (h : op.outcome = false) :
    ∃ sent, b.apply op = { b with halfOpenProbeSent := sent } := by
  cases op with
  | permits now => exact ⟨b.halfOpenProbeSent, rfl⟩
  | beginRequest now =>
    rcases b.beginRequest_cases now with ⟨-, hprobe⟩ | hsame | hsame
    · exact ⟨true, congrArg Prod.snd hprobe⟩
    · exact ⟨b.halfOpenProbeSent, congrArg Prod.snd hsame⟩
    · exact ⟨b.halfOpenProbeSent, congrArg Prod.snd hsame⟩
  | releaseProbe => exact ⟨false, rfl⟩
  | recordSuccess => cases h
  | recordFailure now => cases h

theorem Tells.apply_of_not_outcome (h : Tells tripThreshold cooldownSecs past b) {op : Operation}
    (hop : op.outcome = false) :
    Tells tripThreshold cooldownSecs (past ++ [op]) (b.apply op) := by
  have hfailed : op.failedAt = none := by
    cases op <;> first | rfl | cases hop
  have hsince := failuresSince_append_of_not_outcome past hop
  have hlast : lastFailure (past ++ [op]) = lastFailure past := by
    rw [lastFailure_append, hfailed, Option.none_or]
  obtain ⟨sent, hsent⟩ := b.apply_of_not_outcome hop
  rw [hsent]
  constructor
  · exact h.threshold
  · exact h.cooldown
  · rw [hsince]
    exact h.count
  · rw [hsince, hlast]
    exact h.openedUntil

theorem Tells.recordSuccess (h : Tells tripThreshold cooldownSecs past b) :
    Tells tripThreshold cooldownSecs (past ++ [.recordSuccess]) b.recordSuccess := by
  have hsince : failuresSince (past ++ [.recordSuccess]) = 0 := by
    rw [failuresSince_append, if_pos rfl]
  constructor
  · exact h.threshold
  · exact h.cooldown
  · rw [hsince]
    rfl
  · have hnone : ¬ max tripThreshold 1 ≤ 0 := by omega
    rw [hsince, if_neg hnone]
    rfl

theorem Tells.recordFailure (hthreshold : tripThreshold < 2 ^ 32)
    (h : Tells tripThreshold cooldownSecs past b) (now : ℤ) :
    Tells tripThreshold cooldownSecs (past ++ [.recordFailure now]) (b.recordFailure now) := by
  have hsince : failuresSince (past ++ [.recordFailure now]) = failuresSince past + 1 := by
    rw [failuresSince_append, if_neg (by simp)]
    rfl
  have hlast : lastFailure (past ++ [.recordFailure now]) = some now := by
    rw [lastFailure_append]
    rfl
  have hcount : min (b.consecutiveFailures + 1) (2 ^ 32 - 1) =
      min (failuresSince past + 1) (2 ^ 32 - 1) := by
    rw [h.count]
    omega
  -- The count stops at the largest `u32`, which no threshold is above.
  have htrips : b.tripThreshold ≤ min (b.consecutiveFailures + 1) (2 ^ 32 - 1) ↔
      max tripThreshold 1 ≤ failuresSince past + 1 := by
    rw [h.threshold, hcount]
    omega
  unfold Breaker.recordFailure
  by_cases htrip : max tripThreshold 1 ≤ failuresSince past + 1
  · simp only [if_pos (htrips.mpr htrip)]
    constructor
    · exact h.threshold
    · exact h.cooldown
    · rw [hsince]
      exact hcount
    · rw [hsince, hlast, if_pos htrip, h.cooldown]
      rfl
  · simp only [if_neg (mt htrips.mp htrip)]
    constructor
    · exact h.threshold
    · exact h.cooldown
    · rw [hsince]
      exact hcount
    · have hopened := h.openedUntil
      rw [if_neg (by omega)] at hopened
      rw [hsince, if_neg htrip]
      exact hopened

theorem Tells.apply (hthreshold : tripThreshold < 2 ^ 32)
    (h : Tells tripThreshold cooldownSecs past b) (op : Operation) :
    Tells tripThreshold cooldownSecs (past ++ [op]) (b.apply op) := by
  cases op with
  | permits now => exact h.apply_of_not_outcome rfl
  | beginRequest now => exact h.apply_of_not_outcome rfl
  | releaseProbe => exact h.apply_of_not_outcome rfl
  | recordSuccess => exact h.recordSuccess
  | recordFailure now => exact h.recordFailure hthreshold now

theorem tells_after (hthreshold : tripThreshold < 2 ^ 32) (cooldownSecs : ℕ)
    (ops : List Operation) :
    Tells tripThreshold cooldownSecs ops ((new tripThreshold cooldownSecs).after ops) := by
  induction ops using List.reverseRecOn with
  | nil => exact tells_new tripThreshold cooldownSecs
  | append_singleton ops op ih =>
    unfold after
    rw [List.foldl_append]
    exact ih.apply hthreshold op

theorem Tells.state_of_below (h : Tells tripThreshold cooldownSecs past b)
    (hbelow : failuresSince past < max tripThreshold 1) (now : ℤ) : b.state now = .closed := by
  have hopened := h.openedUntil
  rw [if_neg (not_le.mpr hbelow)] at hopened
  unfold state
  rw [hopened]

theorem Tells.state_of_tripped (h : Tells tripThreshold cooldownSecs past b)
    (htrip : max tripThreshold 1 ≤ failuresSince past) (now : ℤ) :
    ∃ failed, lastFailure past = some failed ∧
      b.state now = if now < halfOpensAt cooldownSecs failed then
        .openUntil (halfOpensAt cooldownSecs failed) else .halfOpen := by
  have hpos : 0 < failuresSince past := by omega
  obtain ⟨failed, hfailed⟩ := Option.isSome_iff_exists.mp (lastFailure_isSome hpos)
  have hopened := h.openedUntil
  rw [if_pos htrip, hfailed, Option.map_some] at hopened
  refine ⟨failed, hfailed, ?_⟩
  unfold state
  rw [hopened]

/-- A breaker is closed exactly while the failures since the last success are
below its threshold. Otherwise it is open until the last failure's time plus the
cooldown, and half-open from then on. Whatever records no outcome changes none
of this. -/
theorem state_after (tripThreshold : UInt32) (cooldownSecs : ℕ) (ops : List Operation) (now : ℤ) :
    (((new tripThreshold.toNat cooldownSecs).after ops).state now = .closed ↔
      failuresSince ops < max tripThreshold.toNat 1) ∧
    (max tripThreshold.toNat 1 ≤ failuresSince ops → ∃ failed, lastFailure ops = some failed ∧
      ((new tripThreshold.toNat cooldownSecs).after ops).state now =
        if now < halfOpensAt cooldownSecs failed then
          .openUntil (halfOpensAt cooldownSecs failed)
        else .halfOpen) ∧
    ∀ op : Operation, op.outcome = false →
      ((new tripThreshold.toNat cooldownSecs).after (ops ++ [op])).state now =
        ((new tripThreshold.toNat cooldownSecs).after ops).state now := by
  have htells := tells_after tripThreshold.toNat_lt cooldownSecs ops
  refine ⟨⟨?_, fun hbelow => htells.state_of_below hbelow now⟩,
    fun htrip => htells.state_of_tripped htrip now, ?_⟩
  · intro hclosed
    apply not_le.mp
    intro htrip
    obtain ⟨failed, -, hstate⟩ := htells.state_of_tripped htrip now
    rw [hclosed] at hstate
    by_cases hopen : now < halfOpensAt cooldownSecs failed
    · rw [if_pos hopen] at hstate
      cases hstate
    · rw [if_neg hopen] at hstate
      cases hstate
  · intro op hop
    have hsnoc : (new tripThreshold.toNat cooldownSecs).after (ops ++ [op]) =
        ((new tripThreshold.toNat cooldownSecs).after ops).apply op := by
      unfold after
      rw [List.foldl_append]
      rfl
    obtain ⟨sent, hsent⟩ :=
      ((new tripThreshold.toNat cooldownSecs).after ops).apply_of_not_outcome hop
    rw [hsnoc, hsent]
    rfl

end OpenAIGateway.Breaker
