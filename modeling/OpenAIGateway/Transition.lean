import Mathlib.Data.List.Basic
import Mathlib.Data.List.Induction
import Mathlib.Tactic.Common

/-!
Systems that take step after step. A step is a partial function of the state
and an event, and a run is a list of events. What one step preserves, when it
meets a condition, a run of such steps preserves.
-/

set_option linter.all false

namespace OpenAIGateway.Transition

variable {σ ε : Type*} (step : σ → ε → Option σ)

/-- The state after a run; `none` when an event is not possible where it comes. -/
def run : σ → List ε → Option σ
  | s, [] => some s
  | s, e :: events => (step s e).bind (fun s' => run s' events)

/-- Every step of the run meets a condition on the state before it and its event. -/
def AllSteps (ok : σ → ε → Prop) : σ → List ε → Prop
  | _, [] => True
  | s, e :: events => ok s e ∧ ∀ s', step s e = some s' → AllSteps ok s' events

instance decidableAllSteps {ok : σ → ε → Prop} [∀ s e, Decidable (ok s e)] :
    ∀ (s : σ) (events : List ε), Decidable (AllSteps step ok s events)
  | _, [] => isTrue trivial
  | s, e :: events =>
    haveI : Decidable (∀ s', step s e = some s' → AllSteps step ok s' events) :=
      match step s e with
      | none => isTrue (fun _ h => nomatch h)
      | some next =>
        haveI : Decidable (AllSteps step ok next events) := decidableAllSteps next events
        decidable_of_iff (AllSteps step ok next events)
          ⟨fun h _ heq => Option.some.inj heq ▸ h, fun h => h next rfl⟩
    inferInstanceAs (Decidable (ok s e ∧ ∀ s', step s e = some s' → AllSteps step ok s' events))

variable {step}

theorem invariant_run {ok : σ → ε → Prop} {I : σ → Prop}
    (hstep : ∀ s e s', I s → ok s e → step s e = some s' → I s') {s s' : σ} {events : List ε}
    (hs : I s) (hok : AllSteps step ok s events) (hrun : run step s events = some s') : I s' := by
  induction events generalizing s with
  | nil =>
    obtain rfl : s = s' := Option.some.inj hrun
    exact hs
  | cons e events ih =>
    obtain ⟨next, hnext, hrest⟩ := Option.bind_eq_some_iff.mp hrun
    exact ih (hstep s e next hs hok.1 hnext) (hok.2 next hnext) hrest

/-- Steps that keep an invariant also meet what it gives them. -/
theorem allSteps_of_invariant {ok good : σ → ε → Prop} {I : σ → Prop}
    (hstep : ∀ s e s', I s → ok s e → step s e = some s' → I s')
    (hgood : ∀ s e, I s → ok s e → good s e) {s : σ} {events : List ε} (hs : I s)
    (hok : AllSteps step ok s events) : AllSteps step good s events := by
  induction events generalizing s with
  | nil => trivial
  | cons e events ih =>
    refine ⟨hgood s e hs hok.1, ?_⟩
    intro s' hs'
    exact ih (hstep s e s' hs hok.1 hs') (hok.2 s' hs')

theorem allSteps_true (s : σ) (events : List ε) : AllSteps step (fun _ _ => True) s events := by
  induction events generalizing s with
  | nil => trivial
  | cons e events ih => exact ⟨trivial, fun s' _ => ih s'⟩

theorem allSteps_of_forall_mem {ok : ε → Prop} (s : σ) {events : List ε}
    (h : ∀ e ∈ events, ok e) : AllSteps step (fun _ e => ok e) s events := by
  induction events generalizing s with
  | nil => trivial
  | cons e events ih =>
    exact ⟨h e (List.mem_cons_self ..), fun s' _ => ih s' (fun e' he' => h e' (.tail _ he'))⟩

theorem allSteps_append {ok : σ → ε → Prop} {s : σ} {first second : List ε}
    (h : AllSteps step ok s (first ++ second)) :
    AllSteps step ok s first ∧
      ∀ s', run step s first = some s' → AllSteps step ok s' second := by
  induction first generalizing s with
  | nil =>
    refine ⟨trivial, ?_⟩
    intro s' hrun
    obtain rfl : s = s' := Option.some.inj hrun
    exact h
  | cons e first ih =>
    refine ⟨⟨h.1, fun next hnext => (ih (h.2 next hnext)).1⟩, ?_⟩
    intro s' hrun
    obtain ⟨next, hnext, hrest⟩ := Option.bind_eq_some_iff.mp hrun
    exact (ih (h.2 next hnext)).2 s' hrest

/-- What every step preserves, every run preserves. -/
theorem preserved_run {I : σ → Prop} (hstep : ∀ s e s', I s → step s e = some s' → I s')
    {s s' : σ} {events : List ε} (hs : I s) (hrun : run step s events = some s') : I s' :=
  invariant_run (fun s e s' hI _ => hstep s e s' hI) hs (allSteps_true s events) hrun

theorem run_append (s : σ) (first second : List ε) :
    run step s (first ++ second) = (run step s first).bind (fun s' => run step s' second) := by
  induction first generalizing s with
  | nil => rfl
  | cons e first ih =>
    rw [List.cons_append, run, run, Option.bind_assoc]
    exact congrArg (Option.bind (step s e)) (funext ih)

/-- A fact about the past of a run and its state, kept by each further step. -/
theorem history_run {s₀ : σ} {J : List ε → σ → Prop} (hstart : J [] s₀)
    (hstep : ∀ past s e s', run step s₀ past = some s → J past s → step s e = some s' →
      J (past ++ [e]) s') {events : List ε} {s : σ} (hrun : run step s₀ events = some s) :
    J events s := by
  induction events using List.reverseRecOn generalizing s with
  | nil =>
    obtain rfl : s₀ = s := Option.some.inj hrun
    exact hstart
  | append_singleton past e ih =>
    rw [run_append] at hrun
    obtain ⟨before, hbefore, hlast⟩ := Option.bind_eq_some_iff.mp hrun
    obtain ⟨after, hafter, hend⟩ := Option.bind_eq_some_iff.mp hlast
    obtain rfl : after = s := Option.some.inj hend
    exact hstep past before e after hbefore (ih hbefore) hafter

section Simulation

variable {τ : Type*} {f : τ → ε → τ} {ok : σ → ε → Prop} {R Bad : σ → τ → Prop}

/-- A fold over the events of a run keeps what every step keeps between the two. -/
theorem simulation_run
    (hstep : ∀ s t e s', R s t → ok s e → step s e = some s' → R s' (f t e)) {s s' : σ} {t : τ}
    {events : List ε} (hs : R s t) (hok : AllSteps step ok s events)
    (hrun : run step s events = some s') : R s' (events.foldl f t) := by
  induction events generalizing s t with
  | nil =>
    obtain rfl : s = s' := Option.some.inj hrun
    exact hs
  | cons e events ih =>
    obtain ⟨next, hnext, hrest⟩ := Option.bind_eq_some_iff.mp hrun
    exact ih (hstep s t e next hs hok.1 hnext) (hok.2 next hnext) hrest

/-- Either every step met the condition, or the first that did not left its mark. -/
theorem allSteps_or_run
    (hgood : ∀ s t e s', R s t → ok s e → step s e = some s' → R s' (f t e))
    (hbad : ∀ s t e s', R s t → ¬ ok s e → step s e = some s' → Bad s' (f t e))
    (hkeep : ∀ s t e s', Bad s t → step s e = some s' → Bad s' (f t e)) {s s' : σ} {t : τ}
    {events : List ε} (hs : R s t) (hrun : run step s events = some s') :
    AllSteps step ok s events ∨ Bad s' (events.foldl f t) := by
  induction events generalizing s t with
  | nil => exact .inl trivial
  | cons e events ih =>
    obtain ⟨next, hnext, hrest⟩ := Option.bind_eq_some_iff.mp hrun
    by_cases hok : ok s e
    · rcases ih (hgood s t e next hs hok hnext) hrest with hall | hmark
      · refine .inl ⟨hok, ?_⟩
        intro s'' hs''
        obtain rfl : next = s'' := Option.some.inj (hnext.symm.trans hs'')
        exact hall
      · exact .inr hmark
    · right
      have hkept : ∀ s t e s', Bad s t → True → step s e = some s' → Bad s' (f t e) :=
        fun s t e s' hmark _ hstep => hkeep s t e s' hmark hstep
      rw [List.foldl_cons]
      exact simulation_run hkept (hbad s t e next hs hok hnext) (allSteps_true next events) hrest

end Simulation

end OpenAIGateway.Transition
