import Mathlib.Data.List.Sort
import Mathlib.Tactic.Common

/-!
Looking things up in a sorted list by where a bound cuts it.
-/

set_option linter.all false

namespace OpenAIGateway.Bisect

variable {α : Type*}

/-- `slice::partition_point`, on a list that the predicate cuts once. -/
def partitionPoint (p : α → Bool) (xs : List α) : ℕ := (xs.takeWhile p).length

theorem getElem?_partitionPoint (p : α → Bool) (xs : List α) :
    xs[partitionPoint p xs]? = (xs.dropWhile p).head? := by
  unfold partitionPoint
  induction xs with
  | nil => rfl
  | cons x xs ih =>
    cases hx : p x with
    | false => simp [hx]
    | true => simp [hx, ih]

/-- What a predicate cuts off is what satisfies it. -/
theorem partitionPoint_eq_countP {p : α → Bool} {xs : List α}
    (hcut : xs.Pairwise (fun a b => p b = true → p a = true)) :
    partitionPoint p xs = xs.countP p := by
  unfold partitionPoint
  induction xs with
  | nil => rfl
  | cons x xs ih =>
    obtain ⟨hx, hxs⟩ := List.pairwise_cons.mp hcut
    cases hpx : p x with
    | true =>
      rw [List.takeWhile_cons_of_pos hpx, List.length_cons, ih hxs, List.countP_cons_of_pos hpx]
    | false =>
      have hneg : ¬ p x = true := by simp [hpx]
      have hnone : xs.countP p = 0 :=
        List.countP_eq_zero.mpr (fun b hb hpb => hneg (hx b hb hpb))
      rw [List.takeWhile_cons_of_neg hneg, List.countP_cons_of_neg hneg, hnone]
      rfl

variable [LinearOrder α] {xs : List α}

/-- In a sorted list the first element not below a bound is the least such one. -/
theorem head?_dropWhile_lt (h : xs.Pairwise (· ≤ ·)) (lo hi : α) :
    (∃ t ∈ (xs.dropWhile (fun t => decide (t < lo))).head?, t ≤ hi) ↔
      ∃ t ∈ xs, lo ≤ t ∧ t ≤ hi := by
  induction xs with
  | nil => simp
  | cons x xs ih =>
    obtain ⟨hx, hxs⟩ := List.pairwise_cons.mp h
    by_cases hlt : x < lo
    · rw [List.dropWhile_cons_of_pos (by simpa using hlt), ih hxs]
      constructor
      · rintro ⟨t, ht, hbounds⟩
        exact ⟨t, List.mem_cons_of_mem x ht, hbounds⟩
      · rintro ⟨t, ht, hlo, hhi⟩
        rcases List.mem_cons.mp ht with rfl | ht
        · exact absurd hlo (not_le.mpr hlt)
        · exact ⟨t, ht, hlo, hhi⟩
    · rw [List.dropWhile_cons_of_neg (by simpa using hlt), List.head?_cons]
      constructor
      · rintro ⟨t, ht, hhi⟩
        cases ht
        exact ⟨x, List.mem_cons_self, not_lt.mp hlt, hhi⟩
      · rintro ⟨t, ht, hlo, hhi⟩
        refine ⟨x, rfl, ?_⟩
        rcases List.mem_cons.mp ht with rfl | ht
        · exact hhi
        · exact (hx t ht).trans hhi

/-- In a sorted list as many lie between two bounds as lie between their cuts. -/
theorem partitionPoint_sub (h : xs.Pairwise (· ≤ ·)) {lo hi : α} (hle : lo ≤ hi) :
    partitionPoint (fun t => decide (t ≤ hi)) xs - partitionPoint (fun t => decide (t < lo)) xs =
      xs.countP (fun t => decide (lo ≤ t ∧ t ≤ hi)) := by
  have hhi : xs.Pairwise (fun a b => decide (b ≤ hi) = true → decide (a ≤ hi) = true) := by
    refine h.imp ?_
    intro a b hab hb
    exact decide_eq_true (hab.trans (of_decide_eq_true hb))
  have hlo : xs.Pairwise (fun a b => decide (b < lo) = true → decide (a < lo) = true) := by
    refine h.imp ?_
    intro a b hab hb
    exact decide_eq_true (lt_of_le_of_lt hab (of_decide_eq_true hb))
  rw [partitionPoint_eq_countP hhi, partitionPoint_eq_countP hlo]
  have hsum : xs.countP (fun t => decide (t ≤ hi)) = xs.countP (fun t => decide (t < lo)) +
      xs.countP (fun t => decide (lo ≤ t ∧ t ≤ hi)) := by
    clear h hhi hlo
    induction xs with
    | nil => rfl
    | cons x xs ih =>
      rw [List.countP_cons, List.countP_cons, List.countP_cons, ih]
      rcases lt_or_ge x lo with hx | hx
      · have hxhi : x ≤ hi := hx.le.trans hle
        simp [hx, hxhi, not_le.mpr hx]
        omega
      · simp [hx, not_lt.mpr hx, Nat.add_assoc]
  omega

end OpenAIGateway.Bisect
