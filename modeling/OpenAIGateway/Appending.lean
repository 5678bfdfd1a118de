import Mathlib.Data.List.Basic
import Mathlib.Tactic.Common

/-!
Lists that are only appended to. What each step of a fold appends or gains, the
fold does. A row is appended unless one that is there is in its way; rows none
of which is in the way of a later one stay so.
-/

set_option linter.all false

namespace OpenAIGateway.Appending

section Fold

variable {σ α β : Type*} {step : σ → α → σ} {f : σ → List β} {g : α → List β}

/-- What each step adds to a list, a whole fold adds. -/
theorem foldl_appends (hstep : ∀ st a, f (step st a) = f st ++ g a) (st : σ) (xs : List α) :
    f (xs.foldl step st) = f st ++ xs.flatMap g := by
  induction xs generalizing st with
  | nil => simp
  | cons a xs ih => rw [List.foldl_cons, ih, hstep, List.append_assoc, List.flatMap_cons]

/-- A fold has what it started with and what some step of it gained. -/
theorem foldl_gains {P : σ → Prop} {Q : α → Prop} (hstep : ∀ st a, P (step st a) ↔ P st ∨ Q a)
    (st : σ) (xs : List α) : P (xs.foldl step st) ↔ P st ∨ ∃ a ∈ xs, Q a := by
  induction xs generalizing st with
  | nil => simp
  | cons a xs ih =>
    simp only [List.foldl_cons, ih, hstep, List.mem_cons, exists_eq_or_imp, or_assoc]

end Fold

variable {α : Type*} (inTheWay : α → α → Bool)

/-- Append a row unless one that is there is in its way. -/
def put (rows : List α) (a : α) : List α :=
  if rows.any (inTheWay a) then rows else rows ++ [a]

def putAll (rows new : List α) : List α := new.foldl (put inTheWay) rows

/-- No row is in the way of a later one. -/
def Free (rows : List α) : Prop := rows.Pairwise (fun a b => inTheWay b a = false)

variable {inTheWay} {rows new : List α} {a b : α}

theorem mem_put_iff :
    b ∈ put inTheWay rows a ↔ b ∈ rows ∨ (b = a ∧ rows.any (inTheWay a) = false) := by
  unfold put
  cases hany : rows.any (inTheWay a) with
  | true => simp
  | false => simp

theorem free_put (h : Free inTheWay rows) (a : α) : Free inTheWay (put inTheWay rows a) := by
  unfold put
  cases hany : rows.any (inTheWay a) with
  | true => exact h
  | false =>
    refine List.pairwise_append.mpr ⟨h, List.pairwise_singleton _ a, ?_⟩
    intro b hb c hc
    rw [List.mem_singleton.mp hc]
    simpa using List.any_eq_false.mp hany b hb

/-- A row is there afterwards, or one in its way is. -/
theorem placed_put (rows : List α) (a : α) :
    ∃ b ∈ put inTheWay rows a, b = a ∨ inTheWay a b = true := by
  cases hany : rows.any (inTheWay a) with
  | true =>
    obtain ⟨b, hb, hway⟩ := List.any_eq_true.mp hany
    exact ⟨b, mem_put_iff.mpr (Or.inl hb), Or.inr hway⟩
  | false => exact ⟨a, mem_put_iff.mpr (Or.inr ⟨rfl, hany⟩), Or.inl rfl⟩

theorem filter_put {p : α → Bool} (h : p a = false) :
    (put inTheWay rows a).filter p = rows.filter p := by
  unfold put
  cases hany : rows.any (inTheWay a) with
  | true => rfl
  | false => simp [h]

theorem mem_putAll_of_mem (h : b ∈ rows) : b ∈ putAll inTheWay rows new := by
  induction new generalizing rows with
  | nil => exact h
  | cons a new ih => exact ih (mem_put_iff.mpr (Or.inl h))

theorem mem_of_mem_putAll (h : b ∈ putAll inTheWay rows new) : b ∈ rows ∨ b ∈ new := by
  induction new generalizing rows with
  | nil => exact Or.inl h
  | cons a new ih =>
    rcases ih h with h | h
    · rcases mem_put_iff.mp h with h | ⟨rfl, -⟩
      · exact Or.inl h
      · exact Or.inr List.mem_cons_self
    · exact Or.inr (List.mem_cons_of_mem a h)

theorem free_putAll (h : Free inTheWay rows) (new : List α) :
    Free inTheWay (putAll inTheWay rows new) := by
  induction new generalizing rows with
  | nil => exact h
  | cons a new ih => exact ih (free_put h a)

/-- Every row put is there afterwards, or one in its way is. -/
theorem placed_putAll (rows : List α) (h : a ∈ new) :
    ∃ b ∈ putAll inTheWay rows new, b = a ∨ inTheWay a b = true := by
  induction new generalizing rows with
  | nil => cases h
  | cons c new ih =>
    rcases List.mem_cons.mp h with rfl | h
    · obtain ⟨b, hb, hplaced⟩ := placed_put rows a
      have hkept : b ∈ putAll inTheWay (put inTheWay rows a) new := mem_putAll_of_mem hb
      exact ⟨b, hkept, hplaced⟩
    · exact ih (put inTheWay rows c) h

theorem filter_putAll {p : α → Bool} (h : ∀ a ∈ new, p a = false) :
    (putAll inTheWay rows new).filter p = rows.filter p := by
  induction new generalizing rows with
  | nil => rfl
  | cons a new ih =>
    have hrest : (putAll inTheWay (put inTheWay rows a) new).filter p =
        (put inTheWay rows a).filter p := ih (fun b hb => h b (List.mem_cons_of_mem a hb))
    exact hrest.trans (filter_put (h a List.mem_cons_self))

theorem putAll_append (xs ys : List α) :
    putAll inTheWay rows (xs ++ ys) = putAll inTheWay (putAll inTheWay rows xs) ys :=
  List.foldl_append

/-- Among free rows, those that share what puts a row in another's way are at most one. -/
theorem length_filter_le_one {p : α → Bool} (h : Free inTheWay rows)
    (hp : ∀ a b, p a = true → p b = true → inTheWay b a = true) : (rows.filter p).length ≤ 1 := by
  induction rows with
  | nil => exact Nat.zero_le 1
  | cons a rows ih =>
    obtain ⟨ha, hrows⟩ := List.pairwise_cons.mp h
    cases hpa : p a with
    | false =>
      rw [List.filter_cons_of_neg (by simp [hpa])]
      exact ih hrows
    | true =>
      have hnone : rows.filter p = [] := by
        apply List.filter_eq_nil_iff.mpr
        intro b hb hpb
        have hfree := ha b hb
        rw [hp a b hpa hpb] at hfree
        cases hfree
      rw [List.filter_cons_of_pos hpa, hnone]
      exact Nat.le_refl 1

end OpenAIGateway.Appending
