import Mathlib.Data.Rat.Defs
import Mathlib.Tactic.Common

/-!
Conditions over nullable columns. A condition is true, false or unknown, and a
query keeps the rows on which its condition is true.
-/

set_option linter.all false

namespace OpenAIGateway.ThreeValued

variable {α : Type*}

/-- `none` is the truth value a comparison with NULL has. -/
abbrev Truth := Option Bool

def isNull (a : Option α) : Truth := some a.isNone

/-- A comparison of two columns, unknown when either is NULL. -/
def compare (r : α → α → Bool) : Option α → Option α → Truth
  | some a, some b => some (r a b)
  | _, _ => none

def conj : Truth → Truth → Truth
  | some false, _ => some false
  | _, some false => some false
  | some true, some true => some true
  | _, _ => none

def disj : Truth → Truth → Truth
  | some true, _ => some true
  | _, some true => some true
  | some false, some false => some false
  | _, _ => none

/-- The row is kept. -/
def Holds (t : Truth) : Prop := t = some true

instance (t : Truth) : Decidable (Holds t) := inferInstanceAs (Decidable (t = some true))

@[simp] theorem holds_some_iff (b : Bool) : Holds (some b) ↔ b = true := by simp [Holds]

@[simp] theorem holds_isNull_iff (a : Option α) : Holds (isNull a) ↔ a = none := by
  cases a <;> simp [Holds, isNull]

@[simp] theorem holds_compare_iff (r : α → α → Bool) (a b : Option α) :
    Holds (compare r a b) ↔ ∃ x ∈ a, ∃ y ∈ b, r x y = true := by
  cases a <;> cases b <;> simp [Holds, compare]

@[simp] theorem holds_conj_iff (s t : Truth) : Holds (conj s t) ↔ Holds s ∧ Holds t := by
  rcases s with _ | _ | _ <;> rcases t with _ | _ | _ <;> simp [Holds, conj]

@[simp] theorem holds_disj_iff (s t : Truth) : Holds (disj s t) ↔ Holds s ∨ Holds t := by
  rcases s with _ | _ | _ <;> rcases t with _ | _ | _ <;> simp [Holds, disj]

/-- The usual guard of a nullable column: NULL passes, and a value passes by comparison. -/
theorem holds_null_or_compare_iff (r : α → α → Bool) (a : Option α) (b : α) :
    Holds (disj (isNull a) (compare r a (some b))) ↔ ∀ x ∈ a, r x b = true := by
  cases a <;> simp

end OpenAIGateway.ThreeValued
