import Mathlib.Data.Finset.Card
import Mathlib.Data.List.Nodup
import Mathlib.Tactic.Common

/-!
Names handed out one by one, none of them twice. A family of spellings that
differ has a free one among any few more than are taken, and a list of pairs
in which no key and no value repeats is a bijection that can be read both ways.
-/

set_option linter.all false

namespace OpenAIGateway.Naming

section Fresh

variable {α : Type*} [DecidableEq α]

/-- Of one more spelling than are taken, all different, one is free. -/
theorem exists_free (taken : List α) (spelling : ℕ → α)
    (hinj : ∀ i j, i ≤ taken.length → j ≤ taken.length → spelling i = spelling j → i = j) :
    ∃ i ≤ taken.length, spelling i ∉ taken := by
  have hcard : taken.toFinset.card < ((Finset.range (taken.length + 1)).image spelling).card := by
    rw [Finset.card_image_of_injOn, Finset.card_range]
    · have := taken.toFinset_card_le
      omega
    · intro i hi j hj hij
      rw [Finset.coe_range, Set.mem_Iio] at hi hj
      exact hinj i j (by omega) (by omega) hij
  obtain ⟨name, hname, hfree⟩ := Finset.exists_mem_notMem_of_card_lt_card hcard
  obtain ⟨i, hi, rfl⟩ := Finset.mem_image.mp hname
  have hlt := Finset.mem_range.mp hi
  exact ⟨i, by omega, fun h => hfree (List.mem_toFinset.mpr h)⟩

end Fresh

section FirstSeen

variable {α : Type*} [DecidableEq α]

/-- Add a name unless it was seen. -/
def push (seen : List α) (name : α) : List α := if name ∈ seen then seen else seen ++ [name]

theorem mem_push {seen : List α} {name other : α} :
    other ∈ push seen name ↔ other ∈ seen ∨ other = name := by
  unfold push
  by_cases h : name ∈ seen
  · rw [if_pos h]
    exact ⟨Or.inl, fun ho => ho.elim id (fun heq => heq ▸ h)⟩
  · rw [if_neg h, List.mem_append, List.mem_singleton]

theorem nodup_push {seen : List α} {name : α} (h : seen.Nodup) : (push seen name).Nodup := by
  unfold push
  by_cases hmem : name ∈ seen
  · rw [if_pos hmem]
    exact h
  · rw [if_neg hmem, ← List.concat_eq_append]
    exact h.concat hmem

/-- The names in the order they were first seen. -/
def firstSeen (names : List α) : List α := names.foldl push []

theorem mem_foldl_push {names seen : List α} {name : α} :
    name ∈ names.foldl push seen ↔ name ∈ seen ∨ name ∈ names := by
  induction names generalizing seen with
  | nil => simp
  | cons n names ih =>
    rw [List.foldl_cons, ih, mem_push, List.mem_cons, or_assoc]

theorem nodup_foldl_push {names seen : List α} (h : seen.Nodup) : (names.foldl push seen).Nodup := by
  induction names generalizing seen with
  | nil => exact h
  | cons n names ih => exact ih (nodup_push h)

@[simp] theorem mem_firstSeen {names : List α} {name : α} :
    name ∈ firstSeen names ↔ name ∈ names := by
  rw [firstSeen, mem_foldl_push]
  simp

theorem nodup_firstSeen (names : List α) : (firstSeen names).Nodup := nodup_foldl_push List.nodup_nil

theorem length_firstSeen (names : List α) : (firstSeen names).length = names.toFinset.card := by
  rw [← List.toFinset_card_of_nodup (nodup_firstSeen names)]
  congr 1
  ext name
  rw [List.mem_toFinset, List.mem_toFinset, mem_firstSeen]

end FirstSeen

section Pairs

variable {κ β : Type*}

/-- No key and no value of the pairs repeats. -/
structure OneToOne (pairs : List (κ × β)) : Prop where
  keys : (pairs.map Prod.fst).Nodup
  values : (pairs.map Prod.snd).Nodup

theorem OneToOne.nil : OneToOne ([] : List (κ × β)) := ⟨List.nodup_nil, List.nodup_nil⟩

theorem OneToOne.cons {pairs : List (κ × β)} {k : κ} {v : β} (h : OneToOne pairs)
    (hk : k ∉ pairs.map Prod.fst) (hv : v ∉ pairs.map Prod.snd) : OneToOne ((k, v) :: pairs) :=
  ⟨List.nodup_cons.mpr ⟨hk, h.keys⟩, List.nodup_cons.mpr ⟨hv, h.values⟩⟩

theorem OneToOne.swap {pairs : List (κ × β)} (h : OneToOne pairs) :
    OneToOne (pairs.map Prod.swap) := by
  refine ⟨?_, ?_⟩
  · rw [List.map_map]
    exact h.values
  · rw [List.map_map]
    exact h.keys

theorem OneToOne.lookup_of_mem [DecidableEq κ] {pairs : List (κ × β)} (h : OneToOne pairs) {k : κ}
    {v : β} (hmem : (k, v) ∈ pairs) : pairs.lookup k = some v := by
  obtain ⟨pre, post, rfl⟩ := List.append_of_mem hmem
  have hkeys := h.keys
  rw [List.map_append, List.map_cons] at hkeys
  refine List.lookup_eq_some_iff.mpr ⟨pre, post, rfl, ?_⟩
  intro p hp
  have hne : p.1 ≠ k := fun heq =>
    (List.nodup_append.mp hkeys).2.2 p.1 (List.mem_map_of_mem hp) k List.mem_cons_self heq
  rw [bne_iff_ne]
  exact hne.symm

theorem OneToOne.lookup_swap_of_mem [DecidableEq β] {pairs : List (κ × β)} (h : OneToOne pairs)
    {k : κ} {v : β} (hmem : (k, v) ∈ pairs) : (pairs.map Prod.swap).lookup v = some k :=
  h.swap.lookup_of_mem (List.mem_map_of_mem hmem)

theorem lookup_eq_none_of_notMem [DecidableEq κ] {pairs : List (κ × β)} {k : κ}
    (h : k ∉ pairs.map Prod.fst) : pairs.lookup k = none := by
  refine List.lookup_eq_none_iff.mpr ?_
  intro p hp
  rw [bne_iff_ne]
  exact fun heq => h (heq ▸ List.mem_map_of_mem hp)

end Pairs

end OpenAIGateway.Naming
