import Mathlib.Data.List.Basic
import Mathlib.Tactic.Common

/-!
Futures that may be dropped where they wait. A future that runs leaves marks: a
point where it gave way to its executor, or something it did. Dropped at a
point, it has done what it did before, and does nothing more. So a future that
keeps some of its acts for after its last point does all of them or none.
-/

set_option linter.all false

namespace OpenAIGateway.Suspension

/-- What a future does in order: it waits at a point, or acts without giving way. -/
inductive Mark (π ε : Type)
  | wait (p : π)
  | act (e : ε)

/-- A future that runs to its end: its marks, and what it returns. -/
structure Fut (π ε α : Type) where
  marks : List (Mark π ε)
  value : α

variable {π ε α β : Type}

instance : Monad (Fut π ε) where
  pure a := ⟨[], a⟩
  bind m f := ⟨m.marks ++ (f m.value).marks, (f m.value).value⟩

/-- Await a future that is ready or is not: only one that is not gives way. -/
def await (ready : π → Bool) (p : π) : Fut π ε Unit := ⟨if ready p then [] else [.wait p], ()⟩

def act (e : ε) : Fut π ε Unit := ⟨[.act e], ()⟩

/-- Some acts without a point between them. -/
def actAll (es : List ε) : Fut π ε Unit := ⟨es.map .act, ()⟩

def acts : List (Mark π ε) → List ε
  | [] => []
  | .wait _ :: marks => acts marks
  | .act e :: marks => e :: acts marks

def waits : List (Mark π ε) → ℕ
  | [] => 0
  | .wait _ :: marks => waits marks + 1
  | .act _ :: marks => waits marks

/-- What is done when the future is dropped at the point after so many others, and all that it
does when it has no such point. -/
def actsBy : ℕ → List (Mark π ε) → List ε
  | _, [] => []
  | 0, .wait _ :: _ => []
  | n + 1, .wait _ :: marks => actsBy n marks
  | n, .act e :: marks => e :: actsBy n marks

@[simp] theorem marks_pure (a : α) : (pure a : Fut π ε α).marks = [] := rfl

@[simp] theorem value_pure (a : α) : (pure a : Fut π ε α).value = a := rfl

@[simp] theorem marks_bind (m : Fut π ε α) (f : α → Fut π ε β) :
    (m >>= f).marks = m.marks ++ (f m.value).marks := rfl

@[simp] theorem value_bind (m : Fut π ε α) (f : α → Fut π ε β) :
    (m >>= f).value = (f m.value).value := rfl

@[simp] theorem acts_nil : acts ([] : List (Mark π ε)) = [] := rfl

@[simp] theorem acts_act (e : ε) : acts (act (π := π) e).marks = [e] := rfl

@[simp] theorem waits_act (e : ε) : waits (act (π := π) e).marks = 0 := rfl

@[simp] theorem acts_append (xs ys : List (Mark π ε)) : acts (xs ++ ys) = acts xs ++ acts ys := by
  induction xs with
  | nil => rfl
  | cons m xs ih =>
    cases m with
    | wait p => exact ih
    | act e => exact congrArg (e :: ·) ih

@[simp] theorem waits_append (xs ys : List (Mark π ε)) :
    waits (xs ++ ys) = waits xs + waits ys := by
  induction xs with
  | nil => exact (Nat.zero_add _).symm
  | cons m xs ih =>
    cases m with
    | wait p =>
      simp only [List.cons_append, waits, ih]
      omega
    | act e => exact ih

@[simp] theorem acts_await (ready : π → Bool) (p : π) :
    acts (await (ε := ε) ready p).marks = [] := by
  unfold await
  cases ready p with
  | true => rfl
  | false => rfl

@[simp] theorem acts_actAll (es : List ε) : acts (actAll (π := π) es).marks = es := by
  induction es with
  | nil => rfl
  | cons e es ih => exact congrArg (e :: ·) ih

@[simp] theorem waits_actAll (es : List ε) : waits (actAll (π := π) es).marks = 0 := by
  induction es with
  | nil => rfl
  | cons e es ih => exact ih

/-- A future that is not dropped does all that it does. -/
theorem actsBy_of_le {n : ℕ} {marks : List (Mark π ε)} (h : waits marks ≤ n) :
    actsBy n marks = acts marks := by
  induction marks generalizing n with
  | nil => cases n <;> rfl
  | cons m marks ih =>
    cases m with
    | wait p =>
      cases n with
      | zero => exact absurd h (Nat.not_succ_le_zero _)
      | succ n => exact ih (Nat.le_of_succ_le_succ h)
    | act e =>
      have hrest := ih (n := n) h
      cases n <;> exact congrArg (e :: ·) hrest

/-- What follows the point at which a future is dropped is not done. -/
theorem actsBy_append_of_lt {n : ℕ} {xs : List (Mark π ε)} (h : n < waits xs)
    (ys : List (Mark π ε)) : actsBy n (xs ++ ys) = actsBy n xs := by
  induction xs generalizing n with
  | nil => exact absurd h (Nat.not_lt_zero n)
  | cons m xs ih =>
    cases m with
    | wait p =>
      cases n with
      | zero => rfl
      | succ n => exact ih (Nat.lt_of_succ_lt_succ h)
    | act e =>
      have hrest := ih (n := n) h
      cases n <;> exact congrArg (e :: ·) hrest

/-- What is done by then is a first part of what the future does. -/
theorem actsBy_prefix (n : ℕ) (marks : List (Mark π ε)) : actsBy n marks <+: acts marks := by
  induction marks generalizing n with
  | nil => cases n <;> exact List.prefix_refl []
  | cons m marks ih =>
    cases m with
    | wait p =>
      cases n with
      | zero => exact List.nil_prefix
      | succ n => exact ih n
    | act e => cases n <;> exact List.prefix_cons_inj e |>.mpr (ih _)

/-- Acts that are kept for after the last point are all done or none of them. -/
theorem kept_acts {ρ : Type} {kept : ε → Option ρ} {before after : List (Mark π ε)}
    (hbefore : (acts before).filterMap kept = []) (hafter : waits after = 0) (n : ℕ)
    (h : n < waits (before ++ after)) : (actsBy n (before ++ after)).filterMap kept = [] := by
  rw [waits_append, hafter, Nat.add_zero] at h
  rw [actsBy_append_of_lt h]
  obtain ⟨rest, hrest⟩ := actsBy_prefix n before
  rw [← hrest, List.filterMap_append] at hbefore
  exact (List.append_eq_nil_iff.mp hbefore).1

end OpenAIGateway.Suspension
