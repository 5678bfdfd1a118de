import Mathlib.Data.List.Basic
import Mathlib.Tactic.Common

/-!
Loops whose passes may fail. A pass either fails, goes on from a new state, or
ends with a result. The run is bounded by a count of passes, and a state that
shrinks with every pass bounds the count.
-/

set_option linter.all false

namespace OpenAIGateway.Loop

variable {σ ρ : Type*}

inductive Step (σ ρ : Type*)
  | next (s : σ)
  | done (r : ρ)
  deriving DecidableEq

/-- At most `fuel` passes; `none` when a pass fails or the passes run out. -/
def run (step : σ → Option (Step σ ρ)) : ℕ → σ → Option ρ
  | 0, _ => none
  | fuel + 1, s =>
    match step s with
    | none => none
    | some (.next s') => run step fuel s'
    | some (.done r) => some r

variable {step : σ → Option (Step σ ρ)}

theorem run_next {fuel : ℕ} {s s' : σ} (h : step s = some (.next s')) :
    run step (fuel + 1) s = run step fuel s' := by
  simp only [run, h]

theorem run_done {fuel : ℕ} {s : σ} {r : ρ} (h : step s = some (.done r)) :
    run step (fuel + 1) s = some r := by
  simp only [run, h]

/-- A loop whose passes keep an invariant, never fail and always shrink its state ends. What its
last pass establishes between the state and the result, and every pass carries back, holds. -/
theorem exists_run_rel (I : σ → Prop) (R : σ → ρ → Prop) (size : σ → ℕ)
    (hstep : ∀ s, I s → (∃ r, step s = some (.done r) ∧ R s r) ∨
      ∃ s', step s = some (.next s') ∧ I s' ∧ size s' < size s ∧ ∀ r, R s' r → R s r)
    {fuel : ℕ} {s : σ} (hs : I s) (hfuel : size s < fuel) :
    ∃ r, run step fuel s = some r ∧ R s r := by
  induction fuel generalizing s with
  | zero => omega
  | succ fuel ih =>
    rcases hstep s hs with ⟨r, hdone, hr⟩ | ⟨s', hnext, hs', hlt, hback⟩
    · exact ⟨r, run_done hdone, hr⟩
    · rw [run_next hnext]
      obtain ⟨r, hrun, hr⟩ := ih hs' (by omega)
      exact ⟨r, hrun, hback r hr⟩

/-- The same with a fact about the result alone. -/
theorem exists_run_of (I : σ → Prop) (Q : ρ → Prop) (size : σ → ℕ)
    (hstep : ∀ s, I s → (∃ r, step s = some (.done r) ∧ Q r) ∨
      ∃ s', step s = some (.next s') ∧ I s' ∧ size s' < size s)
    {fuel : ℕ} {s : σ} (hs : I s) (hfuel : size s < fuel) : ∃ r, run step fuel s = some r ∧ Q r := by
  refine exists_run_rel I (fun _ r => Q r) size ?_ hs hfuel
  intro s hs
  rcases hstep s hs with hdone | ⟨s', hnext, hs', hlt⟩
  · exact Or.inl hdone
  · exact Or.inr ⟨s', hnext, hs', hlt, fun _ hr => hr⟩

theorem exists_run (I : σ → Prop) (size : σ → ℕ)
    (hstep : ∀ s, I s → (∃ r, step s = some (.done r)) ∨
      ∃ s', step s = some (.next s') ∧ I s' ∧ size s' < size s)
    {fuel : ℕ} {s : σ} (hs : I s) (hfuel : size s < fuel) : ∃ r, run step fuel s = some r := by
  obtain ⟨r, hr, -⟩ := exists_run_of I (fun _ => True) size
    (fun s hs => (hstep s hs).imp_left (fun ⟨r, hr⟩ => ⟨r, hr, trivial⟩)) hs hfuel
  exact ⟨r, hr⟩

/-- What the last pass of a loop establishes from its invariant holds of the result. -/
theorem result_of_run (I : σ → Prop) (Q : ρ → Prop)
    (hnext : ∀ s s', I s → step s = some (.next s') → I s')
    (hdone : ∀ s r, I s → step s = some (.done r) → Q r) {fuel : ℕ} {s : σ} {r : ρ} (hs : I s)
    (hrun : run step fuel s = some r) : Q r := by
  induction fuel generalizing s with
  | zero => cases hrun
  | succ fuel ih =>
    cases hpass : step s with
    | none =>
      simp only [run, hpass] at hrun
      cases hrun
    | some pass =>
      cases pass with
      | next s' =>
        rw [run_next hpass] at hrun
        exact ih (hnext s s' hs hpass) hrun
      | done r' =>
        rw [run_done hpass] at hrun
        obtain rfl : r' = r := Option.some.inj hrun
        exact hdone s r' hs hpass

end OpenAIGateway.Loop
