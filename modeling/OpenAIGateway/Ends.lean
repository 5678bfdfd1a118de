import Mathlib.Data.List.DropRight
import Mathlib.Tactic.Common

/-!
The end of a list: a run of one element taken off it, a list taken off it, and
the parts it ends with when it is cut at a separator.
-/

set_option linter.all false

namespace Ends

variable {α : Type*} [DecidableEq α]

/-- Without the run of `a` it ends in. -/
def trimEnd (a : α) (l : List α) : List α := l.rdropWhile fun b => decide (b = a)

/-- What is before a list at the end. -/
def stripSuffix (suffix l : List α) : Option (List α) :=
  if suffix <:+ l then some (l.take (l.length - suffix.length)) else none

theorem stripSuffix_eq_some_iff {suffix l rest : List α} :
    stripSuffix suffix l = some rest ↔ l = rest ++ suffix := by
  unfold stripSuffix
  constructor
  · intro h
    split at h
    next hsuffix =>
      obtain ⟨before, rfl⟩ := hsuffix
      have hlength : (before ++ suffix).length - suffix.length = before.length := by
        rw [List.length_append, Nat.add_sub_cancel]
      rw [hlength, List.take_left, Option.some.injEq] at h
      rw [h]
    next => cases h
  · rintro rfl
    have hlength : (rest ++ suffix).length - suffix.length = rest.length := by
      rw [List.length_append, Nat.add_sub_cancel]
    rw [if_pos (List.suffix_append _ _), hlength, List.take_left]

theorem exists_trimEnd (a : α) (l : List α) : ∃ n, l = trimEnd a l ++ List.replicate n a := by
  refine ⟨(l.rtakeWhile fun b => decide (b = a)).length, ?_⟩
  have hrun : l.rtakeWhile (fun b => decide (b = a)) =
      List.replicate (l.rtakeWhile fun b => decide (b = a)).length a :=
    List.eq_replicate_length.mpr fun b hb => by simpa using List.mem_rtakeWhile_imp hb
  rw [← hrun]
  exact List.rdropWhile_append_rtakeWhile.symm

theorem getLast?_trimEnd (a : α) (l : List α) : (trimEnd a l).getLast? ≠ some a := by
  intro h
  obtain ⟨hne, hlast⟩ := List.mem_getLast?_eq_getLast h
  have hnot := List.rdropWhile_last_not (fun b => decide (b = a)) l hne
  exact hnot (decide_eq_true hlast.symm)

/-- A list that does not end in `a` is what is left when a run of `a` after it is taken off. -/
theorem trimEnd_append_replicate {a : α} {l : List α} (h : l.getLast? ≠ some a) (n : ℕ) :
    trimEnd a (l ++ List.replicate n a) = l := by
  induction n with
  | zero =>
    rw [List.replicate_zero, List.append_nil, trimEnd, List.rdropWhile_eq_self_iff]
    intro hne hlast
    rw [List.getLast?_eq_some_getLast hne, of_decide_eq_true hlast] at h
    exact h rfl
  | succ n ih =>
    have hlast := List.rdropWhile_concat_pos (fun b => decide (b = a)) (l ++ List.replicate n a) a
      (decide_eq_true rfl)
    rw [List.replicate_succ', ← List.append_assoc, trimEnd, hlast]
    exact ih

theorem trimEnd_eq_self {a : α} {l : List α} (h : l.getLast? ≠ some a) : trimEnd a l = l := by
  have htrim := trimEnd_append_replicate h 0
  rwa [List.replicate_zero, List.append_nil] at htrim

/-- What is in front of a list loses nothing to it unless it ends in `a` itself. -/
theorem trimEnd_append {a : α} {front : List α} (h : front.getLast? ≠ some a) (l : List α) :
    trimEnd a (front ++ l) = front ++ trimEnd a l := by
  obtain ⟨n, hl⟩ := exists_trimEnd a l
  have hlast : (front ++ trimEnd a l).getLast? ≠ some a := by
    cases hcase : trimEnd a l with
    | nil => rwa [List.append_nil]
    | cons b rest =>
      rw [List.getLast?_append_of_ne_nil _ (List.cons_ne_nil b rest), ← hcase]
      exact getLast?_trimEnd a l
  have hwhole : front ++ l = front ++ trimEnd a l ++ List.replicate n a := by
    rw [List.append_assoc, ← hl]
  rw [hwhole, trimEnd_append_replicate hlast]

theorem intercalate_append {sep : α} {front back : List (List α)} (hfront : front ≠ [])
    (hback : back ≠ []) : [sep].intercalate (front ++ back) =
      [sep].intercalate front ++ sep :: [sep].intercalate back := by
  induction front with
  | nil => exact absurd rfl hfront
  | cons part front ih =>
    cases front with
    | nil =>
      rw [List.singleton_append, List.intercalate_cons_of_ne_nil hback, List.intercalate_singleton]
      simp
    | cons next front =>
      have hmore : next :: front ≠ [] := List.cons_ne_nil _ _
      rw [List.cons_append, List.intercalate_cons_of_ne_nil (by simp), ih hmore,
        List.intercalate_cons_of_ne_nil hmore]
      simp

/-- Part by part, a list ends with another when it is the other or ends with it after a
separator. -/
theorem splitOn_suffix_iff (sep : α) (l suffix : List α) :
    suffix.splitOn sep <:+ l.splitOn sep ↔ l = suffix ∨ sep :: suffix <:+ l := by
  constructor
  · intro h
    obtain ⟨front, hparts⟩ := h
    have hl : [sep].intercalate (front ++ suffix.splitOn sep) = l := by
      rw [hparts, List.intercalate_splitOn]
    by_cases hfront : front = []
    · rw [hfront, List.nil_append, List.intercalate_splitOn] at hl
      exact .inl hl.symm
    · rw [intercalate_append hfront (List.splitOn_ne_nil _ _), List.intercalate_splitOn] at hl
      exact .inr ⟨_, hl⟩
  · intro h
    rcases h with rfl | ⟨front, rfl⟩
    · exact List.suffix_rfl
    · rw [List.splitOn_append_cons_self]
      exact List.suffix_append _ _

end Ends
