import Mathlib.Data.List.Basic
import Mathlib.Tactic.Common

/-!
Sequences cut into terminated lines. A list is a run of lines, each followed
by the separator, and a rest without one. A prefix that stops right after a
separator is a prefix of the lines.
-/

set_option linter.all false

namespace OpenAIGateway.Lines

variable {α : Type*} (sep : α)

/-- Each line followed by the separator. -/
def join (lines : List (List α)) : List α := lines.flatMap (· ++ [sep])

/-- Lines that do not contain the separator. -/
def Clean (lines : List (List α)) : Prop := ∀ l ∈ lines, sep ∉ l

@[simp] theorem join_nil : join sep [] = [] := rfl

@[simp] theorem join_cons (l : List α) (lines : List (List α)) :
    join sep (l :: lines) = l ++ sep :: join sep lines := by
  simp [join]

@[simp] theorem join_append (xs ys : List (List α)) :
    join sep (xs ++ ys) = join sep xs ++ join sep ys := List.flatMap_append

theorem clean_append {sep : α} {xs ys : List (List α)} :
    Clean sep (xs ++ ys) ↔ Clean sep xs ∧ Clean sep ys := List.forall_mem_append

theorem join_eq_nil_or (lines : List (List α)) :
    lines = [] ∨ ∃ z, join sep lines = z ++ [sep] := by
  rcases List.eq_nil_or_concat' lines with hnil | ⟨init, l, rfl⟩
  · exact Or.inl hnil
  · exact Or.inr ⟨join sep init ++ l, by simp⟩

/-- Every list is some clean lines and a rest without a separator. -/
theorem exists_lines (xs : List α) :
    ∃ lines rest, xs = join sep lines ++ rest ∧ Clean sep lines ∧ sep ∉ rest := by
  induction xs with
  | nil => exact ⟨[], [], rfl, by simp [Clean], by simp⟩
  | cons x xs ih =>
    obtain ⟨lines, rest, hxs, hclean, hrest⟩ := ih
    by_cases hx : x = sep
    · refine ⟨[] :: lines, rest, ?_, ?_, hrest⟩
      · simp [hxs, hx]
      · intro l hl
        rcases List.mem_cons.mp hl with rfl | hl
        · simp
        · exact hclean l hl
    · cases lines with
      | nil => exact ⟨[], x :: rest, by simpa using hxs, by simp [Clean], by simp [hrest, Ne.symm hx]⟩
      | cons l lines =>
        refine ⟨(x :: l) :: lines, rest, by simp [hxs], ?_, hrest⟩
        intro l' hl'
        rcases List.mem_cons.mp hl' with rfl | hl'
        · have hl := hclean l (by simp)
          simp [hl, Ne.symm hx]
        · exact hclean l' (by simp [hl'])

/-- A prefix that is empty or ends in a separator is a prefix of the lines. -/
theorem join_prefix {sep : α} {lines : List (List α)} {rest x y : List α}
    (h : join sep lines ++ rest = x ++ y) (hclean : Clean sep lines) (hrest : sep ∉ rest)
    (hx : x = [] ∨ ∃ z, x = z ++ [sep]) :
    ∃ front back, lines = front ++ back ∧ x = join sep front ∧ y = join sep back ++ rest := by
  induction lines generalizing x with
  | nil =>
    rcases hx with rfl | ⟨z, rfl⟩
    · exact ⟨[], [], rfl, rfl, h.symm⟩
    · rw [join_nil, List.nil_append] at h
      exact absurd (by simp [h]) hrest
  | cons l lines ih =>
    rcases hx with rfl | ⟨z, rfl⟩
    · exact ⟨[], l :: lines, rfl, rfl, h.symm⟩
    · have hl : sep ∉ l := hclean l (by simp)
      have hprefix : ∃ x', z ++ [sep] = (l ++ [sep]) ++ x' ∧
          join sep lines ++ rest = x' ++ y ∧ (x' = [] ∨ ∃ z', x' = z' ++ [sep]) := by
        have heq : (l ++ [sep]) ++ (join sep lines ++ rest) = (z ++ [sep]) ++ y := by
          rw [← h]
          simp
        rcases List.append_eq_append_iff.mp heq with ⟨x', hz, htail⟩ | ⟨bs, hlz, hy⟩
        · refine ⟨x', hz, htail, ?_⟩
          rcases List.eq_nil_or_concat' x' with hnil | ⟨init, last, rfl⟩
          · exact Or.inl hnil
          · rw [← List.append_assoc] at hz
            have hlast := (List.append_inj' hz rfl).2
            exact Or.inr ⟨init, by rw [← hlast]⟩
        · rcases List.eq_nil_or_concat' bs with rfl | ⟨init, last, rfl⟩
          · exact ⟨[], by simpa using hlz.symm, by simpa using hy.symm, Or.inl rfl⟩
          · rw [← List.append_assoc] at hlz
            have hinit := (List.append_inj' hlz rfl).1
            exact absurd (by rw [hinit]; simp) hl
      obtain ⟨x', hz, htail, hx'⟩ := hprefix
      obtain ⟨front, back, rfl, rfl, rfl⟩ := ih htail (fun l' hl' => hclean l' (by simp [hl'])) hx'
      exact ⟨l :: front, back, rfl, by rw [hz]; simp, rfl⟩

/-- There is one way to cut a list at the first entry of a kind. -/
theorem firstSplit_unique {P : α → Prop} {pre pre' : List α} {p p' : α} {post post' : List α}
    (heq : pre ++ p :: post = pre' ++ p' :: post') (hpre : ∀ q ∈ pre, ¬ P q) (hp : P p)
    (hpre' : ∀ q ∈ pre', ¬ P q) (hp' : P p') : pre = pre' ∧ p = p' ∧ post = post' := by
  induction pre generalizing pre' with
  | nil =>
    cases pre' with
    | nil => simpa using heq
    | cons q rest =>
      obtain ⟨rfl, -⟩ : p = q ∧ post = rest ++ p' :: post' := by simpa using heq
      exact absurd hp (hpre' p (by simp))
  | cons q rest ih =>
    cases pre' with
    | nil =>
      obtain ⟨rfl, -⟩ : q = p' ∧ rest ++ p :: post = post' := by simpa using heq
      exact absurd hp' (hpre q (by simp))
    | cons q' rest' =>
      obtain ⟨rfl, htail⟩ : q = q' ∧ rest ++ p :: post = rest' ++ p' :: post' := by
        simpa using heq
      obtain ⟨rfl, hrest⟩ := ih htail (fun r hr => hpre r (by simp [hr]))
        (fun r hr => hpre' r (by simp [hr]))
      exact ⟨rfl, hrest⟩

/-- Clean lines are determined by their join. -/
theorem join_inj {sep : α} {xs ys : List (List α)} (hxs : Clean sep xs) (hys : Clean sep ys)
    (h : join sep xs = join sep ys) : xs = ys := by
  induction xs generalizing ys with
  | nil =>
    cases ys with
    | nil => rfl
    | cons l ys => simp at h
  | cons l xs ih =>
    cases ys with
    | nil => simp at h
    | cons l' ys =>
      rw [join_cons, join_cons] at h
      have hfree : ∀ k : List α, sep ∉ k → ∀ x ∈ k, ¬ x = sep := by
        intro k hk x hx heq
        exact hk (heq ▸ hx)
      obtain ⟨rfl, -, htail⟩ := firstSplit_unique (P := fun x => x = sep) h
        (hfree l (hxs l (by simp))) rfl (hfree l' (hys l' (by simp))) rfl
      rw [ih (fun k hk => hxs k (by simp [hk])) (fun k hk => hys k (by simp [hk])) htail]

end OpenAIGateway.Lines
