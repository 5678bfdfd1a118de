import Mathlib.Data.List.Basic
import Mathlib.Logic.Function.Basic

/-!
An index of items by the names they go by, where a name that two different
items claim is kept and marked. What the index has under a name depends only
on the items that claim it.
-/

set_option linter.all false

namespace Marking

variable {Name Item Ident : Type*} [DecidableEq Name] [DecidableEq Ident]

/-- Under each name the item that goes by it; `some none` is a name of two. -/
abbrev Index (Name Item : Type*) := Name → Option (Option Item)

/-- What a name holds once one more item claims it. -/
def claim (ident : Item → Ident) (held : Option (Option Item)) (item : Item) :
    Option (Option Item) :=
  match held with
  | none => some (some item)
  | some found => if found.any (fun other => ident other ≠ ident item) then some none else held

def mark (ident : Item → Ident) (index : Index Name Item) (entry : Name × Item) :
    Index Name Item :=
  Function.update index entry.1 (claim ident (index entry.1) entry.2)

/-- The items that claim a name, in the order they do. -/
def claimants (entries : List (Name × Item)) (name : Name) : List Item :=
  (entries.filter (fun entry => entry.1 = name)).map Prod.snd

theorem mem_claimants {entries : List (Name × Item)} {name : Name} {item : Item} :
    item ∈ claimants entries name ↔ (name, item) ∈ entries := by
  unfold claimants
  rw [List.mem_map]
  constructor
  · rintro ⟨⟨key, found⟩, hentry, rfl⟩
    obtain ⟨hmem, hkey⟩ := List.mem_filter.mp hentry
    rwa [← of_decide_eq_true hkey]
  · intro hmem
    exact ⟨(name, item), List.mem_filter.mpr ⟨hmem, decide_eq_true rfl⟩, rfl⟩

theorem mark_apply (ident : Item → Ident) (index : Index Name Item) (entry : Name × Item)
    (name : Name) : mark ident index entry name =
      (claimants [entry] name).foldl (claim ident) (index name) := by
  unfold mark claimants
  by_cases hname : entry.1 = name
  · rw [List.filter_cons_of_pos (by simpa using hname), ← hname, Function.update_self]
    rfl
  · rw [List.filter_cons_of_neg (by simpa using hname),
      Function.update_of_ne (fun h => hname h.symm)]
    rfl

/-- A name holds what the items that claim it come to. -/
theorem foldl_mark_apply (ident : Item → Ident) (index : Index Name Item)
    (entries : List (Name × Item)) (name : Name) :
    entries.foldl (mark ident) index name =
      (claimants entries name).foldl (claim ident) (index name) := by
  induction entries generalizing index with
  | nil => rfl
  | cons entry entries ih =>
    have hsplit : claimants (entry :: entries) name =
        claimants [entry] name ++ claimants entries name := by
      unfold claimants
      rw [← List.map_append, ← List.filter_append, List.singleton_append]
    rw [List.foldl_cons, ih, mark_apply, hsplit, List.foldl_append]

/-- A mark is never taken back. -/
theorem foldl_claim_marked (ident : Item → Ident) (items : List Item) :
    items.foldl (claim ident) (some none) = some none := by
  induction items with
  | nil => rfl
  | cons item items ih => exact ih

/-- An item stays until one of another identity claims its name. -/
theorem foldl_claim_held (ident : Item → Ident) (held : Item) (items : List Item) :
    items.foldl (claim ident) (some (some held)) =
      if ∀ item ∈ items, ident item = ident held then some (some held) else some none := by
  induction items with
  | nil => simp
  | cons item items ih =>
    rw [List.foldl_cons]
    by_cases heq : ident item = ident held
    · have hclaim : claim ident (some (some held)) item = some (some held) := by
        simp [claim, heq]
      rw [hclaim, ih]
      simp [heq]
    · have hclaim : claim ident (some (some held)) item = some none := by
        simp [claim, Ne.symm heq]
      rw [hclaim, foldl_claim_marked, if_neg (by simp [heq])]

/-- Where an identity is one item's alone, a name finds the only item that claims it. -/
theorem foldl_mark_eq_some_iff {ident : Item → Ident} {entries : List (Name × Item)}
    {name : Name}
    (hident : ∀ a ∈ claimants entries name, ∀ b ∈ claimants entries name,
      ident a = ident b → a = b) {item : Item} :
    (entries.foldl (mark ident) (fun _ => none) name).bind id = some item ↔
      (name, item) ∈ entries ∧ ∀ other, (name, other) ∈ entries → other = item := by
  rw [foldl_mark_apply]
  simp only [← mem_claimants]
  generalize claimants entries name = items at hident ⊢
  cases items with
  | nil => simp
  | cons first items =>
    have hfirst : claim ident none first = some (some first) := rfl
    rw [List.foldl_cons, hfirst, foldl_claim_held]
    constructor
    · intro hget
      split at hget
      next hall =>
        obtain rfl : first = item := Option.some.inj hget
        refine ⟨List.mem_cons_self, ?_⟩
        intro other hother
        rcases List.mem_cons.mp hother with rfl | htail
        · rfl
        · exact hident other hother first List.mem_cons_self (hall other htail)
      next => exact absurd hget (by simp)
    · rintro ⟨-, honly⟩
      have hitem : first = item := honly first List.mem_cons_self
      rw [if_pos, hitem]
      · rfl
      · intro other hother
        rw [honly other (List.mem_cons_of_mem _ hother), hitem]

end Marking
