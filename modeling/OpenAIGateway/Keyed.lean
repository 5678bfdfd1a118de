import Mathlib.Order.Lattice
import Mathlib.Data.List.Basic
import Mathlib.Tactic.Common

/-!
Ordered maps whose values know their own key, as lists sorted strictly by it.
-/

set_option linter.all false

namespace OpenAIGateway.Keyed

variable {α κ : Type*} [LinearOrder κ] (key : α → κ)

def Sorted (xs : List α) : Prop := xs.Pairwise (fun a b => key a < key b)

def get? (xs : List α) (k : κ) : Option α := xs.find? (fun a => decide (key a = k))

/-- Put a value in its place, over the value that had its key. -/
def insert (a : α) : List α → List α
  | [] => [a]
  | b :: xs =>
    if key a < key b then a :: b :: xs
    else if key a = key b then a :: xs
    else b :: insert a xs

variable {key}

theorem mem_insert_iff {a b : α} {xs : List α} (h : Sorted key xs) :
    b ∈ insert key a xs ↔ b = a ∨ (b ∈ xs ∧ key b ≠ key a) := by
  induction xs with
  | nil => simp [insert]
  | cons c xs ih =>
    obtain ⟨hc, hxs⟩ := List.pairwise_cons.mp h
    unfold insert
    by_cases hlt : key a < key c
    · rw [if_pos hlt]
      have hne : ∀ d ∈ c :: xs, key d ≠ key a := by
        intro d hd
        rcases List.mem_cons.mp hd with hd | hd
        · rw [hd]
          exact ne_of_gt hlt
        · exact ne_of_gt (lt_trans hlt (hc d hd))
      constructor
      · intro hb
        rcases List.mem_cons.mp hb with hb | hb
        · exact Or.inl hb
        · exact Or.inr ⟨hb, hne b hb⟩
      · intro hb
        rcases hb with hb | ⟨hb, -⟩
        · exact List.mem_cons.mpr (Or.inl hb)
        · exact List.mem_cons.mpr (Or.inr hb)
    · rw [if_neg hlt]
      by_cases heq : key a = key c
      · rw [if_pos heq]
        constructor
        · intro hb
          rcases List.mem_cons.mp hb with hb | hb
          · exact Or.inl hb
          · refine Or.inr ⟨List.mem_cons.mpr (Or.inr hb), ?_⟩
            rw [heq]
            exact ne_of_gt (hc b hb)
        · intro hb
          rcases hb with hb | ⟨hb, hne⟩
          · exact List.mem_cons.mpr (Or.inl hb)
          · rcases List.mem_cons.mp hb with hb | hb
            · exact absurd (hb ▸ heq.symm) hne
            · exact List.mem_cons.mpr (Or.inr hb)
      · rw [if_neg heq, List.mem_cons, List.mem_cons, ih hxs]
        constructor
        · intro hb
          rcases hb with rfl | hb | hb
          · exact Or.inr ⟨Or.inl rfl, fun h => heq h.symm⟩
          · exact Or.inl hb
          · exact Or.inr ⟨Or.inr hb.1, hb.2⟩
        · intro hb
          rcases hb with hb | ⟨hb | hb, hne⟩
          · exact Or.inr (Or.inl hb)
          · exact Or.inl hb
          · exact Or.inr (Or.inr ⟨hb, hne⟩)

theorem sorted_insert (a : α) {xs : List α} (h : Sorted key xs) : Sorted key (insert key a xs) := by
  induction xs with
  | nil => exact List.pairwise_singleton _ a
  | cons c xs ih =>
    obtain ⟨hc, hxs⟩ := List.pairwise_cons.mp h
    unfold insert
    by_cases hlt : key a < key c
    · rw [if_pos hlt]
      refine List.pairwise_cons.mpr ⟨?_, h⟩
      intro d hd
      rcases List.mem_cons.mp hd with hd | hd
      · rw [hd]
        exact hlt
      · exact lt_trans hlt (hc d hd)
    · rw [if_neg hlt]
      by_cases heq : key a = key c
      · rw [if_pos heq]
        refine List.pairwise_cons.mpr ⟨?_, hxs⟩
        intro d hd
        rw [heq]
        exact hc d hd
      · rw [if_neg heq]
        refine List.pairwise_cons.mpr ⟨?_, ih hxs⟩
        intro d hd
        rcases (mem_insert_iff hxs).mp hd with hd | ⟨hd, -⟩
        · rw [hd]
          exact lt_of_le_of_ne (not_lt.mp hlt) (fun h => heq h.symm)
        · exact hc d hd

theorem exists_key_insert_iff {a : α} {k : κ} {xs : List α} (h : Sorted key xs) :
    (∃ b ∈ insert key a xs, key b = k) ↔ (∃ b ∈ xs, key b = k) ∨ k = key a := by
  constructor
  · rintro ⟨b, hb, rfl⟩
    rcases (mem_insert_iff h).mp hb with rfl | ⟨hb, -⟩
    · exact Or.inr rfl
    · exact Or.inl ⟨b, hb, rfl⟩
  · intro hk
    by_cases hka : k = key a
    · exact ⟨a, (mem_insert_iff h).mpr (Or.inl rfl), hka.symm⟩
    · obtain ⟨b, hb, rfl⟩ := hk.resolve_right hka
      exact ⟨b, (mem_insert_iff h).mpr (Or.inr ⟨hb, hka⟩), rfl⟩

/-- A key is on at most one value. -/
theorem eq_of_key_eq {a b : α} {xs : List α} (h : Sorted key xs) (ha : a ∈ xs) (hb : b ∈ xs)
    (hkey : key a = key b) : a = b := by
  induction xs with
  | nil => cases ha
  | cons c xs ih =>
    obtain ⟨hc, hxs⟩ := List.pairwise_cons.mp h
    rcases List.mem_cons.mp ha with ha | ha <;> rcases List.mem_cons.mp hb with hb | hb
    · rw [ha, hb]
    · have := hc b hb
      rw [ha] at hkey
      exact absurd hkey (ne_of_lt this)
    · have := hc a ha
      rw [hb] at hkey
      exact absurd hkey (ne_of_gt this)
    · exact ih hxs ha hb

/-- A sorted list is what it holds. -/
theorem ext_of_mem_iff {xs ys : List α} (hxs : Sorted key xs) (hys : Sorted key ys)
    (h : ∀ a, a ∈ xs ↔ a ∈ ys) : xs = ys := by
  have hnodup : ∀ {zs : List α}, Sorted key zs → zs.Nodup := by
    intro zs hzs
    exact hzs.imp fun hlt heq => absurd (congrArg key heq) (ne_of_lt hlt)
  have hperm : xs.Perm ys := (List.perm_ext_iff_of_nodup (hnodup hxs) (hnodup hys)).mpr h
  exact hperm.eq_of_pairwise (fun _ _ _ _ hab hba => absurd hba (lt_asymm hab)) hxs hys

theorem get?_eq_some_iff {a : α} {k : κ} {xs : List α} (h : Sorted key xs) :
    get? key xs k = some a ↔ a ∈ xs ∧ key a = k := by
  unfold get?
  constructor
  · intro hget
    exact ⟨List.mem_of_find?_eq_some hget, by simpa using List.find?_some hget⟩
  · intro hmem
    cases hget : xs.find? (fun b => decide (key b = k)) with
    | none => exact absurd hmem.2 (by simpa using List.find?_eq_none.mp hget a hmem.1)
    | some b =>
      have hb : b ∈ xs ∧ key b = k :=
        ⟨List.mem_of_find?_eq_some hget, by simpa using List.find?_some hget⟩
      rw [eq_of_key_eq h hmem.1 hb.1 (hmem.2.trans hb.2.symm)]

theorem get?_insert {a : α} {k : κ} {xs : List α} (h : Sorted key xs) :
    get? key (insert key a xs) k = if k = key a then some a else get? key xs k := by
  apply Option.ext
  intro b
  rw [get?_eq_some_iff (sorted_insert a h), mem_insert_iff h]
  by_cases hk : k = key a
  · rw [if_pos hk]
    constructor
    · rintro ⟨hb | ⟨-, hne⟩, hkey⟩
      · rw [hb]
      · exact absurd (hkey.trans hk) hne
    · intro hab
      cases hab
      exact ⟨Or.inl rfl, hk.symm⟩
  · rw [if_neg hk, get?_eq_some_iff h]
    constructor
    · rintro ⟨hb | ⟨hb, -⟩, hkey⟩
      · exact absurd (hkey ▸ congrArg key hb) hk
      · exact ⟨hb, hkey⟩
    · rintro ⟨hb, hkey⟩
      exact ⟨Or.inr ⟨hb, fun hne => hk (hkey.symm.trans hne)⟩, hkey⟩

/-- A sorted list is what it answers. -/
theorem ext_of_get? {xs ys : List α} (hxs : Sorted key xs) (hys : Sorted key ys)
    (h : ∀ k, get? key xs k = get? key ys k) : xs = ys := by
  apply ext_of_mem_iff hxs hys
  intro a
  have hself : ∀ {zs : List α}, Sorted key zs → (a ∈ zs ↔ get? key zs (key a) = some a) :=
    fun hzs => ((get?_eq_some_iff hzs).trans (and_iff_left rfl)).symm
  rw [hself hxs, hself hys, h]

/-- Values of two keys go in in either order. -/
theorem insert_comm {a b : α} {xs : List α} (h : Sorted key xs) (hne : key a ≠ key b) :
    insert key a (insert key b xs) = insert key b (insert key a xs) := by
  apply ext_of_get? (sorted_insert a (sorted_insert b h)) (sorted_insert b (sorted_insert a h))
  intro k
  rw [get?_insert (sorted_insert b h), get?_insert h, get?_insert (sorted_insert a h),
    get?_insert h]
  by_cases hka : k = key a
  · rw [if_pos hka, if_neg fun hkb => hne (hka.symm.trans hkb), if_pos hka]
  · rw [if_neg hka, if_neg hka]

/-- A value that is there already changes nothing. -/
theorem insert_of_mem {a : α} {xs : List α} (h : Sorted key xs) (ha : a ∈ xs) :
    insert key a xs = xs := by
  apply ext_of_get? (sorted_insert a h) h
  intro k
  rw [get?_insert h]
  by_cases hk : k = key a
  · rw [if_pos hk, (get?_eq_some_iff h).mpr ⟨ha, hk.symm⟩]
  · rw [if_neg hk]

/-- A map that keeps the keys keeps the order. -/
theorem map_insert {β : Type*} {key' : β → κ} {f : α → β} (hf : ∀ a, key' (f a) = key a) (a : α)
    (xs : List α) : (insert key a xs).map f = insert key' (f a) (xs.map f) := by
  induction xs with
  | nil => rfl
  | cons b xs ih =>
    simp only [insert, List.map_cons, hf]
    by_cases hlt : key a < key b
    · simp [hlt]
    · by_cases heq : key a = key b
      · simp [heq]
      · simp [hlt, heq, ih]

end OpenAIGateway.Keyed
