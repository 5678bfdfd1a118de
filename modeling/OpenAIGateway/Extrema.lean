import Mathlib.Data.List.Basic
import Mathlib.Data.Prod.Lex
import Mathlib.Order.MinMax
import Mathlib.Tactic.Common

/-!
The last of the largest entries of a list, by a comparison that may leave
entries level, and all the entries whose key is least.
-/

set_option linter.all false

namespace OpenAIGateway.Extrema

variable {α : Type*} (exceeds : α → α → Bool)

/-- `max_by`: an entry gives way to every later one it does not exceed. -/
def maxBy : List α → Option α
  | [] => none
  | x :: xs => some (xs.foldl (fun best y => if exceeds best y then best else y) x)

/-- A comparison in which being level is transitive. -/
structure WeakOrder : Prop where
  asymm : ∀ a b, exceeds a b = true → exceeds b a = false
  cotrans : ∀ a b c, exceeds a c = true → exceeds a b = true ∨ exceeds b c = true

variable {exceeds}

theorem foldl_maximal (h : WeakOrder exceeds) (x : α) (xs : List α) :
    let best := xs.foldl (fun best y => if exceeds best y then best else y) x
    (best = x ∨ best ∈ xs) ∧ exceeds x best = false ∧ ∀ y ∈ xs, exceeds y best = false := by
  have hirrefl : ∀ a, exceeds a a = false := by
    intro a
    cases haa : exceeds a a with
    | false => rfl
    | true =>
      have := h.asymm a a haa
      rw [haa] at this
      exact this
  induction xs generalizing x with
  | nil => exact ⟨Or.inl rfl, hirrefl x, by simp⟩
  | cons y xs ih =>
    rw [List.foldl_cons]
    by_cases hxy : exceeds x y = true
    · rw [if_pos hxy]
      obtain ⟨hmem, hx, hxs⟩ := ih x
      refine ⟨hmem.imp_right (List.mem_cons_of_mem y), hx, ?_⟩
      intro z hz
      rcases List.mem_cons.mp hz with rfl | hz
      · cases hzb : exceeds z (xs.foldl (fun best y => if exceeds best y then best else y) x) with
        | false => rfl
        | true =>
          rcases h.cotrans _ x _ hzb with hzx | hxb
          · rw [h.asymm x z hxy] at hzx
            cases hzx
          · rw [hx] at hxb
            cases hxb
      · exact hxs z hz
    · rw [if_neg hxy]
      obtain ⟨hmem, hy, hxs⟩ := ih y
      refine ⟨Or.inr ?_, ?_, ?_⟩
      · rcases hmem with hmem | hmem
        · rw [hmem]
          exact List.mem_cons_self
        · exact List.mem_cons_of_mem y hmem
      · cases hxb : exceeds x (xs.foldl (fun best y => if exceeds best y then best else y) y) with
        | false => rfl
        | true =>
          rcases h.cotrans _ y _ hxb with hxy' | hyb
          · exact absurd hxy' hxy
          · rw [hy] at hyb
            cases hyb
      · intro z hz
        rcases List.mem_cons.mp hz with rfl | hz
        · exact hy
        · exact hxs z hz

theorem maxBy_eq_none_iff {xs : List α} : maxBy exceeds xs = none ↔ xs = [] := by
  cases xs with
  | nil => exact ⟨fun _ => rfl, fun _ => rfl⟩
  | cons x xs =>
    constructor
    · intro h
      cases h
    · intro h
      cases h

theorem mem_of_maxBy {xs : List α} {best : α} (h : maxBy exceeds xs = some best) : best ∈ xs := by
  have hfold : ∀ (ys : List α) (x : α),
      ys.foldl (fun best y => if exceeds best y then best else y) x ∈ x :: ys := by
    intro ys
    induction ys with
    | nil => exact fun x => List.mem_cons_self
    | cons y ys ih =>
      intro x
      rw [List.foldl_cons]
      by_cases hxy : exceeds x y = true
      · rw [if_pos hxy]
        rcases List.mem_cons.mp (ih x) with hmem | hmem
        · exact List.mem_cons.mpr (Or.inl hmem)
        · exact List.mem_cons_of_mem x (List.mem_cons_of_mem y hmem)
      · rw [if_neg hxy]
        exact List.mem_cons_of_mem x (ih y)
  cases xs with
  | nil => cases h
  | cons x xs =>
    cases h
    exact hfold xs x

/-- Where level entries are equal, `maxBy` finds the one entry that nothing exceeds. -/
theorem maxBy_eq_some_iff (h : WeakOrder exceeds) {xs : List α}
    (hlevel : ∀ a ∈ xs, ∀ b ∈ xs, exceeds a b = false → exceeds b a = false → a = b) (m : α) :
    maxBy exceeds xs = some m ↔ m ∈ xs ∧ ∀ x ∈ xs, exceeds x m = false := by
  cases xs with
  | nil => simp [maxBy]
  | cons x xs =>
    obtain ⟨hmem, hx, hxs⟩ := foldl_maximal h x xs
    have hbest : ∀ y ∈ x :: xs, exceeds y
        (xs.foldl (fun best y => if exceeds best y then best else y) x) = false := by
      intro y hy
      rcases List.mem_cons.mp hy with rfl | hy
      · exact hx
      · exact hxs y hy
    have hin : xs.foldl (fun best y => if exceeds best y then best else y) x ∈ x :: xs :=
      List.mem_cons.mpr hmem
    unfold maxBy
    rw [Option.some.injEq]
    constructor
    · intro heq
      subst heq
      exact ⟨hin, hbest⟩
    · intro hm
      exact hlevel _ hin m hm.1 (hm.2 _ hin) (hbest m hm.1)

section Least

variable {κ : Type*} [Min κ] [DecidableEq κ]

/-- The entries whose key is the least one. -/
def keepMin (key : α → κ) (xs : List α) : List α :=
  match (xs.map key).min? with
  | some least => xs.filter (fun x => key x = least)
  | none => []

theorem keepMin_sublist (key : α → κ) (xs : List α) : (keepMin key xs).Sublist xs := by
  unfold keepMin
  cases (xs.map key).min? with
  | none => exact List.nil_sublist xs
  | some least => exact List.filter_sublist

theorem mem_of_mem_keepMin {key : α → κ} {xs : List α} {x : α} (h : x ∈ keepMin key xs) :
    x ∈ xs := (keepMin_sublist key xs).mem h

theorem keepMin_ne_nil [Std.MinEqOr κ] {key : α → κ} {xs : List α} (h : xs ≠ []) :
    keepMin key xs ≠ [] := by
  unfold keepMin
  cases hmin : (xs.map key).min? with
  | none => exact absurd (List.map_eq_nil_iff.mp (List.min?_eq_none_iff.mp hmin)) h
  | some least =>
    obtain ⟨x, hx, hkey⟩ := List.mem_map.mp (List.min?_mem hmin)
    exact List.ne_nil_of_mem (List.mem_filter.mpr ⟨hx, by simpa using hkey⟩)

theorem keepMin_singleton [Std.MinEqOr κ] (key : α → κ) (x : α) : keepMin key [x] = [x] := by
  simp [keepMin]

end Least

section Ordered

variable {κ ν : Type*} [LinearOrder κ] [LinearOrder ν]

theorem lawfulOrderMin : Std.LawfulOrderMin κ where
  min_eq_or := min_choice
  le_min_iff := fun _ _ _ => le_min_iff

/-- The least of a list is the one value of it that is at or below every other. -/
theorem min?_eq_some_iff {xs : List κ} {least : κ} :
    xs.min? = some least ↔ least ∈ xs ∧ ∀ x ∈ xs, least ≤ x := by
  have : Std.LawfulOrderMin κ := lawfulOrderMin
  exact List.min?_eq_some_iff

/-- The entries of least key are those at or below every entry. -/
theorem mem_keepMin_iff {key : α → κ} {xs : List α} {x : α} :
    x ∈ keepMin key xs ↔ x ∈ xs ∧ ∀ y ∈ xs, key x ≤ key y := by
  unfold keepMin
  cases hmin : (xs.map key).min? with
  | none =>
    have hnil : xs = [] := List.map_eq_nil_iff.mp (List.min?_eq_none_iff.mp hmin)
    subst hnil
    simp
  | some least =>
    obtain ⟨hmem, hle⟩ := min?_eq_some_iff.mp hmin
    obtain ⟨z, hz, hzkey⟩ := List.mem_map.mp hmem
    rw [List.mem_filter, decide_eq_true_eq]
    refine and_congr_right (fun hx => ?_)
    constructor
    · intro heq y hy
      rw [heq]
      exact hle _ (List.mem_map_of_mem hy)
    · intro h
      apply le_antisymm
      · rw [← hzkey]
        exact h z hz
      · exact hle _ (List.mem_map_of_mem hx)

theorem mem_keepMin_congr {key : α → κ} {xs ys : List α} (h : ∀ x, x ∈ xs ↔ x ∈ ys) (x : α) :
    x ∈ keepMin key xs ↔ x ∈ keepMin key ys := by
  simp only [mem_keepMin_iff, h]

/-- Least by one key and then by another is least by both, the first key first. -/
theorem mem_keepMin_keepMin_iff {f : α → κ} {g : α → ν} {xs : List α} {x : α} :
    x ∈ keepMin g (keepMin f xs) ↔ x ∈ keepMin (fun y => toLex (f y, g y)) xs := by
  simp only [mem_keepMin_iff]
  constructor
  · rintro ⟨⟨hx, hf⟩, hg⟩
    refine ⟨hx, ?_⟩
    intro y hy
    rw [Prod.Lex.toLex_le_toLex]
    rcases lt_or_eq_of_le (hf y hy) with hlt | heq
    · exact Or.inl hlt
    · refine Or.inr ⟨heq, hg y ⟨hy, ?_⟩⟩
      intro z hz
      rw [← heq]
      exact hf z hz
  · rintro ⟨hx, hlex⟩
    have hboth : ∀ y ∈ xs, f x ≤ f y ∧ (f x = f y → g x ≤ g y) := by
      intro y hy
      exact Prod.Lex.toLex_le_toLex'.mp (hlex y hy)
    refine ⟨⟨hx, fun y hy => (hboth y hy).1⟩, ?_⟩
    rintro y ⟨hy, hleast⟩
    exact (hboth y hy).2 (le_antisymm (hboth y hy).1 (hleast x hx))

end Ordered

end OpenAIGateway.Extrema
