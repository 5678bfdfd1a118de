import Mathlib.Data.List.Chain
import Mathlib.Tactic.Common

/-!
Runs of spacing in a list made one element each. What is left is never longer,
and is the list itself exactly when its spacing was single throughout.
-/

set_option linter.all false

namespace Spacing

variable {α : Type*} (spacing : α → Bool) (blank : α)

/-- What follows, when the element before it was spacing or was not. -/
def collapseFrom : Bool → List α → List α
  | _, [] => []
  | inRun, a :: rest =>
    if spacing a then
      if inRun then collapseFrom true rest else blank :: collapseFrom true rest
    else a :: collapseFrom false rest

/-- Every run of spacing as one blank. -/
def collapse (text : List α) : List α := collapseFrom spacing blank false text

/-- No spacing but blanks, and no two of them together. -/
structure Single (text : List α) : Prop where
  eq_blank : ∀ a ∈ text, spacing a = true → a = blank
  apart : text.IsChain fun a b => spacing a = true → spacing b = false

theorem length_collapseFrom_le (inRun : Bool) (text : List α) :
    (collapseFrom spacing blank inRun text).length ≤ text.length := by
  induction text generalizing inRun with
  | nil => exact Nat.le_refl _
  | cons a rest ih =>
    unfold collapseFrom
    split
    · split
      · exact Nat.le_succ_of_le (ih true)
      · exact Nat.succ_le_succ (ih true)
    · exact Nat.succ_le_succ (ih false)

theorem length_collapse_le (text : List α) :
    (collapse spacing blank text).length ≤ text.length :=
  length_collapseFrom_le spacing blank false text

/-- In the middle of a run the list must go on with something else. -/
theorem collapseFrom_eq_self_iff (inRun : Bool) (text : List α) :
    collapseFrom spacing blank inRun text = text ↔
      Single spacing blank text ∧
        (inRun = true → ∀ a ∈ text.head?, spacing a = false) := by
  induction text generalizing inRun with
  | nil =>
    have hsingle : Single spacing blank [] := ⟨fun _ h => absurd h List.not_mem_nil, .nil⟩
    exact ⟨fun _ => ⟨hsingle, fun _ _ h => absurd h (Option.not_mem_none _)⟩, fun _ => rfl⟩
  | cons a rest ih =>
    have hsingle : Single spacing blank (a :: rest) ↔
        (spacing a = true → a = blank) ∧ Single spacing blank rest ∧
          (spacing a = true → ∀ b ∈ rest.head?, spacing b = false) := by
      constructor
      · intro h
        obtain ⟨hnext, hrest⟩ := List.isChain_cons.mp h.apart
        exact ⟨h.eq_blank a List.mem_cons_self,
          ⟨fun b hb => h.eq_blank b (List.mem_cons_of_mem a hb), hrest⟩,
          fun ha b hb => hnext b hb ha⟩
      · intro h
        obtain ⟨ha, hrest, hnext⟩ := h
        refine ⟨?_, List.isChain_cons.mpr ⟨fun b hb ha' => hnext ha' b hb, hrest.apart⟩⟩
        intro b hb
        cases hb with
        | head => exact ha
        | tail _ hb => exact hrest.eq_blank b hb
    have hhead : (∀ b ∈ (a :: rest).head?, spacing b = false) ↔ spacing a = false := by simp
    rw [hsingle, hhead]
    unfold collapseFrom
    cases hspacing : spacing a with
    | false =>
      rw [if_neg (by decide), List.cons_inj_right, ih false]
      simp
    | true =>
      rw [if_pos rfl]
      cases inRun with
      | true =>
        rw [if_pos rfl]
        constructor
        · intro h
          have hlen := congrArg List.length h
          have hle := length_collapseFrom_le spacing blank true rest
          rw [List.length_cons] at hlen
          omega
        · intro h
          exact absurd (h.2 rfl) (by decide)
      | false =>
        rw [if_neg (by decide), List.cons.injEq, ih true]
        constructor
        · intro h
          exact ⟨⟨fun _ => h.1.symm, h.2⟩, fun hrun => absurd hrun (by decide)⟩
        · intro h
          exact ⟨(h.1.1 rfl).symm, h.1.2⟩

/-- The list itself is left exactly when its spacing was single. -/
theorem collapse_eq_self_iff (text : List α) :
    collapse spacing blank text = text ↔ Single spacing blank text := by
  rw [collapse, collapseFrom_eq_self_iff]
  exact and_iff_left (fun h => absurd h (by decide))

theorem single_of_forall {text : List α} (h : ∀ a ∈ text, spacing a = false) :
    Single spacing blank text where
  eq_blank a ha hspacing := by
    rw [h a ha] at hspacing
    cases hspacing
  apart := by
    have hpairwise : text.Pairwise fun a b => spacing a = true → spacing b = false :=
      List.pairwise_of_forall_mem_list fun _ _ b hb _ => h b hb
    exact hpairwise.isChain

/-- Texts put together of parts that can only get shorter are equal when every part is. -/
theorem flatMap_eq_iff_of_length_le {β : Type*} {f g : β → List α} {parts : List β}
    (h : ∀ x ∈ parts, (g x).length ≤ (f x).length) :
    parts.flatMap f = parts.flatMap g ↔ ∀ x ∈ parts, f x = g x := by
  induction parts with
  | nil => exact ⟨fun _ x hx => absurd hx List.not_mem_nil, fun _ => rfl⟩
  | cons x parts ih =>
    have hx := h x List.mem_cons_self
    have hparts : ∀ y ∈ parts, (g y).length ≤ (f y).length :=
      fun y hy => h y (List.mem_cons_of_mem x hy)
    have hlength : ∀ rest : List β, (∀ y ∈ rest, (g y).length ≤ (f y).length) →
        (rest.flatMap g).length ≤ (rest.flatMap f).length := by
      intro rest hrest
      induction rest with
      | nil => exact Nat.le_refl _
      | cons y rest ih =>
        have hy := hrest y List.mem_cons_self
        have htail := ih fun z hz => hrest z (List.mem_cons_of_mem y hz)
        rw [List.flatMap_cons, List.flatMap_cons, List.length_append, List.length_append]
        omega
    rw [List.flatMap_cons, List.flatMap_cons, List.forall_mem_cons, ← ih hparts]
    constructor
    · intro heq
      have htotal := congrArg List.length heq
      have hrest := hlength parts hparts
      rw [List.length_append, List.length_append] at htotal
      exact List.append_inj heq (by omega)
    · intro heq
      rw [heq.1, heq.2]

end Spacing
