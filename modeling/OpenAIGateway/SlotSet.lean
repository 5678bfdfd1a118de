import Mathlib.Data.Int.Basic
import Mathlib.Data.List.Nodup
import Mathlib.Tactic.Common

/-!
The concurrency slots of a credential: a sorted set of request ids, scored by
when each was last taken or refreshed. A script runs on it in one step, with
the store's own clock.
-/

set_option linter.all false

namespace OpenAIGateway

variable {Member : Type*}

/-- The members of a slot key and their scores, no member twice. -/
structure SlotSet (Member : Type*) where
  entries : List (Member × ℤ)
  nodup : (entries.map Prod.fst).Nodup

/-- What asking for a slot got you. -/
inductive SlotClaim
  | taken
  | full (live : ℕ)
  deriving DecidableEq

namespace SlotSet

def members (set : SlotSet Member) : List Member := set.entries.map Prod.fst

instance : Membership Member (SlotSet Member) := ⟨fun set member => member ∈ set.members⟩

instance [DecidableEq Member] (member : Member) (set : SlotSet Member) :
    Decidable (member ∈ set) :=
  inferInstanceAs (Decidable (member ∈ set.members))

def empty : SlotSet Member := ⟨[], List.nodup_nil⟩

def zcard (set : SlotSet Member) : ℕ := set.entries.length

/-- Keep the entries that meet a condition. -/
def keep (set : SlotSet Member) (p : Member × ℤ → Bool) : SlotSet Member where
  entries := set.entries.filter p
  nodup := set.nodup.sublist (List.filter_sublist.map Prod.fst)

/-- Drop the members whose score is at most `bound`. -/
def zremRangeByScore (set : SlotSet Member) (bound : ℤ) : SlotSet Member :=
  set.keep (fun e => bound < e.2)

theorem mem_keep {set : SlotSet Member} {p : Member × ℤ → Bool} {member : Member}
    (h : member ∈ set.keep p) : member ∈ set := by
  obtain ⟨e, he, rfl⟩ := List.mem_map.mp h
  exact List.mem_map_of_mem (List.mem_of_mem_filter he)

variable [DecidableEq Member]

def zrem (set : SlotSet Member) (member : Member) : SlotSet Member :=
  set.keep (fun e => e.1 ≠ member)

theorem notMem_zrem (set : SlotSet Member) (member : Member) : member ∉ set.zrem member := by
  intro h
  obtain ⟨e, he, heq⟩ := List.mem_map.mp h
  have hne := List.of_mem_filter he
  simp [heq] at hne

/-- Add a member, or give it a new score. -/
def zadd (set : SlotSet Member) (score : ℤ) (member : Member) : SlotSet Member where
  entries := (set.zrem member).entries ++ [(member, score)]
  nodup := by
    rw [List.map_append, List.map_cons, List.map_nil, ← List.concat_eq_append]
    exact (set.zrem member).nodup.concat (notMem_zrem set member)

theorem mem_zadd {set : SlotSet Member} {score : ℤ} {member other : Member} :
    other ∈ set.zadd score member ↔ other ∈ set ∨ other = member := by
  constructor
  · intro h
    obtain ⟨e, he, rfl⟩ := List.mem_map.mp h
    rcases List.mem_append.mp he with he | he
    · exact Or.inl (mem_keep (List.mem_map_of_mem he))
    · rw [List.mem_singleton.mp he]
      exact Or.inr rfl
  · intro h
    by_cases heq : other = member
    · subst heq
      exact List.mem_map.mpr
        ⟨(other, score), List.mem_append_right _ (List.mem_singleton_self _), rfl⟩
    · obtain ⟨e, he, rfl⟩ := List.mem_map.mp (h.resolve_right heq)
      refine List.mem_map_of_mem (List.mem_append_left _ (List.mem_filter.mpr ⟨he, ?_⟩))
      simpa using heq

/-- Take a slot if fewer than `limit` members are inside the window. -/
def acquireSlot (set : SlotSet Member) (now : ℤ) (member : Member) (limit ttl : ℕ) :
    SlotClaim × SlotSet Member :=
  let live := set.zremRangeByScore (now - ttl)
  if limit ≤ live.zcard then (.full live.zcard, live) else (.taken, live.zadd now member)

/-- How many members are inside the window, the others trimmed. -/
def slotsInUse (set : SlotSet Member) (now : ℤ) (ttl : ℕ) : ℕ × SlotSet Member :=
  let live := set.zremRangeByScore (now - ttl)
  (live.zcard, live)

def clearSlots (set : SlotSet Member) : ℕ × SlotSet Member := (set.zcard, empty)

/-- Move the score of a member that is still there. -/
def refreshSlot (set : SlotSet Member) (now : ℤ) (member : Member) : Bool × SlotSet Member :=
  if member ∈ set then (true, set.zadd now member) else (false, set)

def releaseSlot (set : SlotSet Member) (member : Member) : SlotSet Member := set.zrem member

section Membership

variable {set : SlotSet Member} {now : ℤ} {member other : Member} {limit ttl : ℕ}

theorem mem_acquireSlot (h : other ∈ (set.acquireSlot now member limit ttl).2) :
    other ∈ set ∨ (other = member ∧ limit ≠ 0) := by
  unfold acquireSlot at h
  by_cases hfull : limit ≤ (set.zremRangeByScore (now - ttl)).zcard
  · simp only [if_pos hfull] at h
    exact Or.inl (mem_keep h)
  · simp only [if_neg hfull] at h
    rcases mem_zadd.mp h with h | h
    · exact Or.inl (mem_keep h)
    · exact Or.inr ⟨h, by omega⟩

theorem mem_refreshSlot : other ∈ (set.refreshSlot now member).2 ↔ other ∈ set := by
  unfold refreshSlot
  by_cases hmem : member ∈ set
  · rw [if_pos hmem, mem_zadd]
    exact ⟨fun h => h.elim id (fun heq => heq ▸ hmem), Or.inl⟩
  · rw [if_neg hmem]

theorem refreshSlot_of_notMem (h : member ∉ set) : set.refreshSlot now member = (false, set) :=
  if_neg h

/-- An empty key has room under every limit but zero. -/
theorem acquireSlot_empty (hlimit : limit ≠ 0) :
    member ∈ (empty.acquireSlot now member limit ttl).2 := by
  unfold acquireSlot
  have hroom : ¬ limit ≤ (empty.zremRangeByScore (now - ttl) : SlotSet Member).zcard :=
    fun h => hlimit (Nat.le_zero.mp h)
  simp only [if_neg hroom]
  exact mem_zadd.mpr (Or.inr rfl)

end Membership

end SlotSet

end OpenAIGateway
