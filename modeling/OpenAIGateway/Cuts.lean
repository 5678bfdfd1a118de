import Mathlib.Data.List.Forall2
import Mathlib.Data.List.TakeDrop

/-!
Texts cut into consecutive pieces, one for each symbol of a pattern. What a
pattern with one more symbol matches is read off what the pattern before it
matched on the prefixes of the text.
-/

set_option linter.all false

namespace Cuts

variable {α β : Type*} {accepts : α → List β → Prop}

/-- The text can be cut into consecutive pieces, one accepted by each symbol in order. -/
def Cut (accepts : α → List β → Prop) (pattern : List α) (text : List β) : Prop :=
  ∃ pieces, List.Forall₂ accepts pattern pieces ∧ pieces.flatten = text

theorem cut_nil_iff {text : List β} : Cut accepts [] text ↔ text = [] := by
  constructor
  · rintro ⟨pieces, hpieces, rfl⟩
    obtain rfl := List.forall₂_nil_left_iff.mp hpieces
    rfl
  · rintro rfl
    exact ⟨[], .nil, rfl⟩

/-- The last symbol takes a last piece. -/
theorem cut_concat_iff {pattern : List α} {p : α} {text : List β} :
    Cut accepts (pattern ++ [p]) text ↔
      ∃ before piece, text = before ++ piece ∧ Cut accepts pattern before ∧ accepts p piece := by
  constructor
  · rintro ⟨pieces, hpieces, rfl⟩
    have hrev := List.forall₂_reverse_iff.mpr hpieces
    rw [List.reverse_concat] at hrev
    obtain ⟨piece, before, hpiece, hbefore, heq⟩ := List.forall₂_cons_left_iff.mp hrev
    obtain rfl : pieces = before.reverse ++ [piece] := by
      rw [← List.reverse_cons, ← heq, List.reverse_reverse]
    have hbefore : List.Forall₂ accepts pattern before.reverse := by
      simpa only [List.reverse_reverse] using List.forall₂_reverse_iff.mpr hbefore
    exact ⟨before.reverse.flatten, piece, by simp, ⟨_, hbefore, rfl⟩, hpiece⟩
  · rintro ⟨before, piece, rfl, ⟨pieces, hpieces, rfl⟩, hpiece⟩
    refine ⟨pieces ++ [piece], ?_, by simp⟩
    exact List.rel_append hpieces (.cons hpiece .nil)

/-- A symbol that takes any run matches a prefix when the pattern before it matched that
prefix or a shorter one. -/
theorem cut_concat_take_any {pattern : List α} {p : α} {text : List β} {j : ℕ}
    (hany : ∀ run, accepts p run) :
    Cut accepts (pattern ++ [p]) (text.take j) ↔
      ∃ i ≤ j, Cut accepts pattern (text.take i) := by
  rw [cut_concat_iff]
  constructor
  · rintro ⟨before, piece, htake, hcut, -⟩
    have hlen : before.length ≤ j := by
      have := congrArg List.length htake
      rw [List.length_take, List.length_append] at this
      omega
    have hbefore : text.take before.length = before := by
      have := congrArg (List.take before.length) htake
      rwa [List.take_take, Nat.min_eq_left hlen, List.take_left] at this
    exact ⟨before.length, hlen, by rwa [hbefore]⟩
  · rintro ⟨i, hle, hcut⟩
    refine ⟨text.take i, (text.take j).drop i, ?_, hcut, hany _⟩
    have := (List.take_append_drop i (text.take j)).symm
    rwa [List.take_take, Nat.min_eq_left hle] at this

/-- A symbol that takes one item matches no empty prefix. -/
theorem not_cut_concat_nil {pattern : List α} {p : α} {takes : β → Prop}
    (hone : ∀ run, accepts p run ↔ ∃ b, run = [b] ∧ takes b) :
    ¬ Cut accepts (pattern ++ [p]) [] := by
  rw [cut_concat_iff]
  rintro ⟨before, piece, hnil, -, hpiece⟩
  obtain ⟨b, rfl, -⟩ := (hone piece).mp hpiece
  exact absurd hnil.symm (by simp)

/-- A symbol that takes one item takes the last of a prefix. -/
theorem cut_concat_take_one {pattern : List α} {p : α} {text : List β} {takes : β → Prop}
    (hone : ∀ run, accepts p run ↔ ∃ b, run = [b] ∧ takes b) {j : ℕ} {c : β}
    (hc : text[j]? = some c) :
    Cut accepts (pattern ++ [p]) (text.take (j + 1)) ↔
      Cut accepts pattern (text.take j) ∧ takes c := by
  have htake : text.take (j + 1) = text.take j ++ [c] := by
    rw [List.take_add_one, hc, Option.toList_some]
  rw [cut_concat_iff, htake]
  constructor
  · rintro ⟨before, piece, heq, hcut, hpiece⟩
    obtain ⟨b, rfl, hb⟩ := (hone piece).mp hpiece
    obtain ⟨rfl, hlast⟩ := List.append_inj' heq rfl
    obtain rfl := List.head_eq_of_cons_eq hlast
    exact ⟨hcut, hb⟩
  · rintro ⟨hcut, hc⟩
    exact ⟨_, [c], rfl, hcut, (hone [c]).mpr ⟨c, rfl, hc⟩⟩

end Cuts
