import Mathlib.Data.List.AList
import Mathlib.Data.List.Induction

/-!
Maps filled entry by entry: every entry inserted over what its key had, or only
where its key has nothing yet.
-/

set_option linter.all false

namespace OpenAIGateway.EntryMaps

variable {α β : Type*} [DecidableEq α]

abbrev EntryMap (α β : Type*) := AList (fun _ : α => β)

/-- Insert every entry; the last one of a key stays. -/
def insertAll (m : EntryMap α β) (entries : List (α × β)) : EntryMap α β :=
  entries.foldl (fun m e => m.insert e.1 e.2) m

/-- The last value a list of entries gives a key. -/
def lastOf (entries : List (α × β)) (a : α) : Option β :=
  (entries.reverse.find? (fun e => decide (e.1 = a))).map Prod.snd

theorem lastOf_eq_some_mem {entries : List (α × β)} {a : α} {b : β}
    (h : lastOf entries a = some b) : (a, b) ∈ entries := by
  obtain ⟨⟨a', b'⟩, hfind, rfl⟩ := Option.map_eq_some_iff.mp h
  obtain rfl : a' = a := by simpa using List.find?_some hfind
  exact List.mem_reverse.mp (List.mem_of_find?_eq_some hfind)

theorem lastOf_isSome_iff (entries : List (α × β)) (a : α) :
    (lastOf entries a).isSome ↔ ∃ e ∈ entries, e.1 = a := by
  simp [lastOf]

theorem lastOf_concat (entries : List (α × β)) (e : α × β) (a : α) :
    lastOf (entries ++ [e]) a = if e.1 = a then some e.2 else lastOf entries a := by
  unfold lastOf
  rw [List.reverse_append, List.reverse_singleton, List.singleton_append, List.find?_cons]
  by_cases h : e.1 = a
  · simp [h]
  · simp [h]

theorem lookup_insertAll (m : EntryMap α β) (entries : List (α × β)) (a : α) :
    (insertAll m entries).lookup a = (lastOf entries a).or (m.lookup a) := by
  induction entries using List.reverseRecOn with
  | nil => rfl
  | append_singleton entries e ih =>
    have hlast : insertAll m (entries ++ [e]) = (insertAll m entries).insert e.1 e.2 := by
      simp [insertAll]
    rw [hlast, lastOf_concat]
    by_cases h : e.1 = a
    · subst h
      simp [AList.lookup_insert]
    · rw [AList.lookup_insert_ne (Ne.symm h), ih, if_neg h]

/-- Insert an entry only where its key has nothing. -/
def orInsert (m : EntryMap α β) (a : α) (b : β) : EntryMap α β :=
  if a ∈ m then m else m.insert a b

theorem lookup_orInsert (m : EntryMap α β) (a : α) (b : β) (k : α) :
    (orInsert m a b).lookup k = (m.lookup k).or (if a = k then some b else none) := by
  unfold orInsert
  by_cases hk : a = k
  · subst hk
    by_cases hmem : a ∈ m
    · obtain ⟨c, hc⟩ := Option.isSome_iff_exists.mp (AList.lookup_isSome.mpr hmem)
      simp [hmem, hc]
    · simp [hmem, AList.lookup_insert, AList.lookup_eq_none.mpr hmem]
  · by_cases hmem : a ∈ m
    · simp [hmem, hk]
    · simp [hmem, hk, AList.lookup_insert_ne (Ne.symm hk)]

/-- Insert every entry whose key has nothing. -/
def orInsertAll (m : EntryMap α β) (entries : List (Sigma fun _ : α => β)) : EntryMap α β :=
  entries.foldl (fun m e => orInsert m e.1 e.2) m

theorem lookup_orInsertAll (m : EntryMap α β) (entries : List (Sigma fun _ : α => β)) (k : α) :
    (orInsertAll m entries).lookup k = (m.lookup k).or (entries.dlookup k) := by
  induction entries generalizing m with
  | nil => simp [orInsertAll]
  | cons e entries ih =>
    obtain ⟨a, b⟩ := e
    have hcons : orInsertAll m (⟨a, b⟩ :: entries) = orInsertAll (orInsert m a b) entries := rfl
    rw [hcons, ih, lookup_orInsert]
    by_cases hk : a = k
    · subst hk
      simp
    · have hne : k ≠ a := Ne.symm hk
      simp [hk, List.dlookup_cons_ne entries ⟨a, b⟩ hne]

theorem mem_of_lookup {m : EntryMap α β} {a : α} {b : β} (h : m.lookup a = some b) : a ∈ m :=
  AList.lookup_isSome.mp (Option.isSome_iff_exists.mpr ⟨b, h⟩)

theorem mem_insertAll_iff (m : EntryMap α β) (entries : List (α × β)) (a : α) :
    a ∈ insertAll m entries ↔ (∃ e ∈ entries, e.1 = a) ∨ a ∈ m := by
  rw [← AList.lookup_isSome, lookup_insertAll, ← lastOf_isSome_iff, ← AList.lookup_isSome]
  cases lastOf entries a <;> simp

theorem mem_orInsertAll_entries_iff (m current : EntryMap α β) (a : α) :
    a ∈ orInsertAll m current.entries ↔ a ∈ m ∨ a ∈ current := by
  rw [← AList.lookup_isSome, lookup_orInsertAll, ← AList.lookup_isSome, ← AList.lookup_isSome]
  change ((m.lookup a).or (current.lookup a)).isSome ↔ _
  cases m.lookup a <;> simp

end OpenAIGateway.EntryMaps
