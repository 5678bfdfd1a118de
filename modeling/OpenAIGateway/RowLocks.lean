import Mathlib.Data.List.Basic
import Mathlib.Tactic.Common

/-!
Row locks held by transactions. A lock is granted when no other owner holds one on
the same row in a mode it conflicts with, and an owner's locks are all released
together. The locks of a table so kept never conflict.
-/

set_option linter.all false

namespace OpenAIGateway.RowLocks

structure Lock (ο ρ μ : Type*) where
  owner : ο
  row : ρ
  mode : μ

variable {ο ρ μ : Type*} (conflicts : μ → μ → Bool)

/-- No two owners hold conflicting locks on one row. -/
def Compatible (table : List (Lock ο ρ μ)) : Prop :=
  ∀ a ∈ table, ∀ b ∈ table, a.row = b.row → conflicts a.mode b.mode = true → a.owner = b.owner

variable {conflicts} {table : List (Lock ο ρ μ)} {lock held : Lock ο ρ μ}

theorem compatible_nil : Compatible conflicts ([] : List (Lock ο ρ μ)) :=
  fun _ h => nomatch h

variable [DecidableEq ο]

/-- Release every lock an owner holds. -/
def release (table : List (Lock ο ρ μ)) (owner : ο) : List (Lock ο ρ μ) :=
  table.filter (fun held => held.owner ≠ owner)

variable {owner : ο}

theorem mem_release : held ∈ release table owner ↔ held ∈ table ∧ held.owner ≠ owner := by
  simp [release]

theorem Compatible.release (h : Compatible conflicts table) :
    Compatible conflicts (release table owner) :=
  fun a ha b hb => h a (mem_release.mp ha).1 b (mem_release.mp hb).1

variable [DecidableEq ρ]

variable (conflicts) in
/-- Whether a lock can be granted beside those held. -/
def free (table : List (Lock ο ρ μ)) (lock : Lock ο ρ μ) : Bool :=
  table.all (fun held =>
    held.owner = lock.owner || held.row ≠ lock.row || !conflicts held.mode lock.mode)

theorem free_iff : free conflicts table lock = true ↔
    ∀ held ∈ table, held.row = lock.row → conflicts held.mode lock.mode = true →
      held.owner = lock.owner := by
  simp only [free, List.all_eq_true, Bool.or_eq_true, decide_eq_true_eq, Bool.not_eq_true',
    ← Bool.not_eq_true]
  refine forall₂_congr (fun held _ => ?_)
  constructor
  · rintro ((howner | hrow) | hmode) hsame hconflict
    · exact howner
    · exact absurd hsame hrow
    · exact absurd hconflict hmode
  · intro h
    by_cases hrow : held.row = lock.row
    · by_cases hmode : conflicts held.mode lock.mode = true
      · exact Or.inl (Or.inl (h hrow hmode))
      · exact Or.inr hmode
    · exact Or.inl (Or.inr hrow)

theorem Compatible.grant (hsymm : ∀ a b, conflicts a b = conflicts b a)
    (h : Compatible conflicts table) (hfree : free conflicts table lock = true) :
    Compatible conflicts (lock :: table) := by
  rw [free_iff] at hfree
  intro a ha b hb hrow hmode
  rcases List.mem_cons.mp ha with rfl | ha' <;> rcases List.mem_cons.mp hb with rfl | hb'
  · rfl
  · exact (hfree b hb' hrow.symm ((hsymm _ _).trans hmode)).symm
  · exact hfree a ha' hrow hmode
  · exact h a ha' b hb' hrow hmode

end OpenAIGateway.RowLocks
