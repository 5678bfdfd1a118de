import OpenAIGateway.Keyed
import Mathlib.Algebra.BigOperators.Group.Finset.Basic
import Mathlib.Algebra.BigOperators.Group.Finset.Piecewise

/-!
Rows grouped by a key: the keys that occur, in order and once each, and one
figure a key over the rows that carry it. Neither depends on the order of the
rows, and sums over the groups are sums over the rows.
-/

set_option linter.all false

namespace OpenAIGateway.Grouping

section Distinct

variable {γ : Type*} [LinearOrder γ]

/-- What a list holds, in order and once each. -/
def distinct (gs : List γ) : List γ := gs.foldr (Keyed.insert id) []

theorem sorted_distinct (gs : List γ) : Keyed.Sorted id (distinct gs) := by
  induction gs with
  | nil => exact List.Pairwise.nil
  | cons g gs ih => exact Keyed.sorted_insert g ih

theorem mem_distinct {g : γ} {gs : List γ} : g ∈ distinct gs ↔ g ∈ gs := by
  induction gs with
  | nil => rfl
  | cons h gs ih =>
    have hinsert : g ∈ distinct (h :: gs) ↔ g = h ∨ g ∈ distinct gs ∧ g ≠ h :=
      Keyed.mem_insert_iff (sorted_distinct gs)
    rw [hinsert, ih, List.mem_cons]
    constructor
    · rintro (hg | ⟨hg, -⟩)
      · exact Or.inl hg
      · exact Or.inr hg
    · intro hg
      by_cases heq : g = h
      · exact Or.inl heq
      · exact Or.inr ⟨hg.resolve_left heq, heq⟩

theorem nodup_distinct (gs : List γ) : (distinct gs).Nodup :=
  (sorted_distinct gs).imp fun hlt => ne_of_lt hlt

/-- Only what a list holds counts. -/
theorem distinct_eq_of_mem_iff {gs hs : List γ} (h : ∀ g, g ∈ gs ↔ g ∈ hs) :
    distinct gs = distinct hs := by
  apply Keyed.ext_of_mem_iff (sorted_distinct gs) (sorted_distinct hs)
  intro g
  rw [mem_distinct, mem_distinct, h]

end Distinct

section Sums

variable {α γ M : Type*} [DecidableEq γ] [AddCommMonoid M]

/-- Over keys that cover the rows, the sums of the groups sum to the rows'. -/
theorem sum_map_sum_filter (key : α → γ) (f : α → M) {gs : List γ} (hgs : gs.Nodup)
    (rows : List α) (hrows : ∀ row ∈ rows, key row ∈ gs) :
    (gs.map fun g => ((rows.filter fun row => decide (key row = g)).map f).sum).sum =
      (rows.map f).sum := by
  rw [← List.sum_toFinset _ hgs]
  induction rows with
  | nil => simp
  | cons row rows ih =>
    have hcons : ∀ g, (((row :: rows).filter fun row => decide (key row = g)).map f).sum =
        (if key row = g then f row else 0) +
          ((rows.filter fun row => decide (key row = g)).map f).sum := by
      intro g
      by_cases hg : key row = g
      · simp [hg]
      · simp [hg]
    have hrow : key row ∈ gs.toFinset := List.mem_toFinset.mpr (hrows row List.mem_cons_self)
    simp only [hcons]
    rw [Finset.sum_add_distrib, Finset.sum_ite_eq, if_pos hrow,
      ih fun other hother => hrows other (List.mem_cons_of_mem row hother), List.map_cons,
      List.sum_cons]

end Sums

section GroupBy

variable {α β γ : Type*} [LinearOrder γ] (key : α → γ) (aggregate : γ → List α → β)

/-- One figure for each key that occurs, over the rows that carry it. -/
def groupBy (rows : List α) : List β :=
  (distinct (rows.map key)).map fun g =>
    aggregate g (rows.filter fun row => decide (key row = g))

variable {key aggregate}

/-- The order of the rows is not seen where no figure sees it. -/
theorem groupBy_perm {rows rows' : List α} (h : rows.Perm rows')
    (hagg : ∀ g (xs ys : List α), xs.Perm ys → aggregate g xs = aggregate g ys) :
    groupBy key aggregate rows = groupBy key aggregate rows' := by
  unfold groupBy
  rw [distinct_eq_of_mem_iff fun g => (h.map key).mem_iff]
  exact List.map_congr_left fun g _ => hagg g _ _ (h.filter _)

/-- The figure of a key is found at its key. -/
theorem find?_groupBy {figure : γ → List α → β} (g : γ) (rows : List α) :
    (groupBy key (fun g rows => (g, figure g rows)) rows).find?
        (fun entry => decide (entry.1 = g)) =
      if g ∈ rows.map key then some (g, figure g (rows.filter fun row => decide (key row = g)))
      else none := by
  unfold groupBy
  rw [List.find?_map]
  by_cases hg : g ∈ rows.map key
  · have hfind : (distinct (rows.map key)).find? (fun h => decide (h = g)) = some g := by
      rw [List.find?_eq_some_iff_getElem]
      obtain ⟨i, hi, hget⟩ := List.mem_iff_getElem.mp (mem_distinct.mpr hg)
      refine ⟨decide_eq_true rfl, i, hi, hget, fun j hj => ?_⟩
      have hne : (distinct (rows.map key))[j] ≠ (distinct (rows.map key))[i] :=
        fun h => absurd ((nodup_distinct _).getElem_inj_iff.mp h) (Nat.ne_of_lt hj)
      simpa [← hget] using hne
    rw [if_pos hg]
    exact congrArg _ hfind
  · rw [if_neg hg, Option.map_eq_none_iff, List.find?_eq_none]
    intro h hh heq
    exact hg (of_decide_eq_true heq ▸ mem_distinct.mp hh)

/-- A figure that is a sum over its group sums to the sum over all rows. -/
theorem sum_groupBy {M : Type*} [AddCommMonoid M] (f : α → M) (figure : β → M)
    (hfigure : ∀ g rows, figure (aggregate g rows) = (rows.map f).sum) (rows : List α) :
    ((groupBy key aggregate rows).map figure).sum = (rows.map f).sum := by
  unfold groupBy
  rw [List.map_map]
  have hsum : (figure ∘ fun g => aggregate g (rows.filter fun row => decide (key row = g))) =
      fun g => ((rows.filter fun row => decide (key row = g)).map f).sum := by
    funext g
    exact hfigure g _
  rw [hsum]
  apply sum_map_sum_filter key f (nodup_distinct _)
  intro row hrow
  exact mem_distinct.mpr (List.mem_map_of_mem hrow)

end GroupBy

end OpenAIGateway.Grouping
