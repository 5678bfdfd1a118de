import Mathlib.Algebra.Group.Nat.Defs
import Mathlib.Data.List.Basic
import Mathlib.Data.Nat.Basic
import Mathlib.Tactic.Ext

/-!
Token counts of one response. Counts are merged field by field by maximum,
so reports may arrive in any order and repeat one another. A sum of counts
that a renderer writes is a wrapping `u64` sum, and `Usage.total` saturates.
-/

set_option linter.all false

namespace OpenAIGateway

def u64Max : ℕ := 2 ^ 64 - 1

/-- `+` on a `u64`, as a release build computes it. -/
def wrappingAdd (a b : ℕ) : ℕ := (a + b) % 2 ^ 64

@[ext]
structure Usage where
  inputTokens : ℕ := 0
  outputTokens : ℕ := 0
  cacheReadTokens : ℕ := 0
  cacheWriteTokens : ℕ := 0
  deriving DecidableEq, Repr

namespace Usage

/-- Counts only ever grow within a response, so the larger report wins. -/
def merge (u patch : Usage) : Usage where
  inputTokens := max u.inputTokens patch.inputTokens
  outputTokens := max u.outputTokens patch.outputTokens
  cacheReadTokens := max u.cacheReadTokens patch.cacheReadTokens
  cacheWriteTokens := max u.cacheWriteTokens patch.cacheWriteTokens

/-- `saturating_add` over the four counts. -/
def total (u : Usage) : ℕ :=
  min (min (min (u.inputTokens + u.outputTokens) u64Max + u.cacheReadTokens) u64Max
    + u.cacheWriteTokens) u64Max

/-- The four counts added without a machine word in the way. -/
def sum (u : Usage) : ℕ :=
  u.inputTokens + u.outputTokens + u.cacheReadTokens + u.cacheWriteTokens

/-- Every prompt-side token, as three of the four renderers report it. -/
def promptTokens (u : Usage) : ℕ :=
  u.inputTokens + u.cacheReadTokens + u.cacheWriteTokens

def Le (u v : Usage) : Prop :=
  u.inputTokens ≤ v.inputTokens ∧ u.outputTokens ≤ v.outputTokens ∧
    u.cacheReadTokens ≤ v.cacheReadTokens ∧ u.cacheWriteTokens ≤ v.cacheWriteTokens

instance (u v : Usage) : Decidable (Le u v) := by
  unfold Le
  infer_instance

theorem merge_default (u : Usage) : u.merge {} = u := by
  simp [merge]

theorem le_merge_left (u v : Usage) : Le u (u.merge v) := by
  simp only [Le, merge]
  omega

theorem Le.trans {u v w : Usage} (h : Le u v) (h' : Le v w) : Le u w := by
  unfold Le at *
  omega

theorem Le.refl (u : Usage) : Le u u := ⟨le_rfl, le_rfl, le_rfl, le_rfl⟩

theorem Le.antisymm {u v : Usage} (h : Le u v) (h' : Le v u) : u = v := by
  unfold Le at *
  ext <;> omega

/-- Merging changes nothing exactly when the patch reports nothing larger. -/
theorem merge_eq_left_iff (u v : Usage) : u.merge v = u ↔ Le v u := by
  rw [Usage.ext_iff]
  simp only [merge, Le]
  omega

section Fold

variable {α : Type*} (f : α → Usage)

theorem le_foldl_merge (xs : List α) (u : Usage) : Le u (xs.foldl (fun u x => u.merge (f x)) u) := by
  induction xs generalizing u with
  | nil => exact Le.refl u
  | cons x rest ih => exact (le_merge_left u (f x)).trans (ih (u.merge (f x)))

/-- A run of reports changes nothing exactly when no report is larger. -/
theorem foldl_merge_eq_iff (xs : List α) (u : Usage) :
    xs.foldl (fun u x => u.merge (f x)) u = u ↔ ∀ x ∈ xs, Le (f x) u := by
  induction xs with
  | nil => simp
  | cons x rest ih =>
    rw [List.foldl_cons, List.forall_mem_cons, ← merge_eq_left_iff]
    constructor
    · intro h
      have hfirst : u.merge (f x) = u := by
        have hle := le_foldl_merge f rest (u.merge (f x))
        rw [h] at hle
        exact hle.antisymm (le_merge_left u (f x))
      rw [hfirst] at h
      exact ⟨hfirst, ih.mp h⟩
    · intro h
      rw [h.1]
      exact ih.mpr h.2

end Fold

/-- Ordered usages with the same prompt total, output and cache reads agree. -/
theorem eq_of_le_of_counts {u v : Usage} (h : Le u v)
    (hprompt : u.promptTokens = v.promptTokens) (hout : u.outputTokens = v.outputTokens)
    (hread : u.cacheReadTokens = v.cacheReadTokens) : u = v := by
  unfold Le promptTokens at *
  ext <;> omega

/-- Saturation is invisible exactly below the machine word. -/
theorem total_eq_sum_iff (u : Usage) : u.total = u.sum ↔ u.sum < 2 ^ 64 := by
  unfold total sum u64Max
  omega

/-- The prompt total, added as machine words. -/
theorem wrappingAdd_promptTokens (u : Usage) :
    wrappingAdd (wrappingAdd u.inputTokens u.cacheReadTokens) u.cacheWriteTokens =
      u.promptTokens % 2 ^ 64 := by
  unfold wrappingAdd promptTokens
  omega

theorem promptTokens_add_output (u : Usage) : u.promptTokens + u.outputTokens = u.sum := by
  unfold promptTokens sum
  omega

end Usage

end OpenAIGateway
