import OpenAIGateway.Catalog

/-!
Tier ladders: the ordered rungs a route can serve from, the cheapest first. A
rung's rank is a `u8`, so a ladder can be longer than its ranks reach.
-/

set_option linter.all false

namespace OpenAIGateway

abbrev TierName := String

/-- A rung with its position. Tiers are compared by rank alone. -/
structure Tier where
  name : TierName
  rank : Fin 256
  deriving DecidableEq

/-- `u8::try_from`. -/
def u8TryFrom (n : ℕ) : Option (Fin 256) := if h : n < 256 then some ⟨n, h⟩ else none

theorem u8TryFrom_eq_some_iff {n : ℕ} {r : Fin 256} : u8TryFrom n = some r ↔ r.val = n := by
  unfold u8TryFrom
  by_cases h : n < 256
  · rw [dif_pos h, Option.some.injEq]
    exact ⟨fun heq => by rw [← heq], fun heq => Fin.ext heq.symm⟩
  · rw [dif_neg h]
    constructor
    · intro hnone
      cases hnone
    · intro heq
      exact absurd (heq ▸ r.isLt) h

theorem u8TryFrom_eq_none_iff {n : ℕ} : u8TryFrom n = none ↔ 256 ≤ n := by
  unfold u8TryFrom
  by_cases h : n < 256
  · rw [dif_pos h]
    constructor
    · intro hsome
      cases hsome
    · omega
  · rw [dif_neg h]
    exact ⟨fun _ => not_lt.mp h, fun _ => rfl⟩

/-- One rung and the models that can serve it, in preference order. -/
structure Rung where
  name : TierName
  models : List ModelId
  deriving DecidableEq

/-- A ladder has a rung. -/
structure TierLadder where
  rungs : List Rung
  nonempty : rungs ≠ []

namespace TierLadder

/-- A ladder from its cheapest rung up. -/
def ofRungs (first : Rung) (rest : List Rung) : TierLadder := ⟨first :: rest, List.cons_ne_nil _ _⟩

/-- The cheapest rung. -/
def floor (ladder : TierLadder) : Tier := ⟨(ladder.rungs.head ladder.nonempty).name, 0⟩

/-- The most capable rung. -/
def ceiling (ladder : TierLadder) : Tier :=
  ⟨(ladder.rungs.getLast ladder.nonempty).name, (u8TryFrom (ladder.rungs.length - 1)).getD 255⟩

/-- Look a rung up by name. -/
def tier (ladder : TierLadder) (name : TierName) : Option Tier :=
  ((ladder.rungs.findIdx? (fun r => decide (r.name = name))).bind u8TryFrom).map
    (fun rank => ⟨name, rank⟩)

/-- The rung one step more capable. -/
def escalate (ladder : TierLadder) (start : Tier) : Option Tier :=
  (ladder.rungs[start.rank.val + 1]?).bind (fun rung =>
    (u8TryFrom (start.rank.val + 1)).map (fun rank => ⟨rung.name, rank⟩))

/-- Raise a tier to a floor above it. -/
def clampToFloor (tier : Tier) (floor : Option Tier) : Tier :=
  match floor with
  | some f => if tier.rank < f.rank then f else tier
  | none => tier

/-- The models on a rung that the catalogue has. -/
def specs (catalog : Catalog) (rung : Rung) : List ModelSpec := rung.models.filterMap catalog.get

/-- First model on a tier that can serve the request and passes `also`. -/
def pickWhere (ladder : TierLadder) (tier : Tier) (catalog : Catalog) (need : Requirements)
    (also : ModelSpec → Bool) : Option ModelSpec :=
  (ladder.rungs[tier.rank.val]?).bind (fun rung =>
    (specs catalog rung).find? (fun spec => spec.satisfies need && also spec))

def pick (ladder : TierLadder) (tier : Tier) (catalog : Catalog) (need : Requirements) :
    Option ModelSpec := ladder.pickWhere tier catalog need (fun _ => true)

theorem mem_specs_iff (catalog : Catalog) (rung : Rung) (spec : ModelSpec) :
    spec ∈ specs catalog rung ↔ spec ∈ catalog.models ∧ spec.id ∈ rung.models := by
  unfold specs
  rw [List.mem_filterMap]
  constructor
  · intro h
    obtain ⟨id, hid, hget⟩ := h
    obtain ⟨hmem, rfl⟩ := (catalog.get_eq_some_iff id spec).mp hget
    exact ⟨hmem, hid⟩
  · intro h
    exact ⟨spec.id, h.2, (catalog.get_eq_some_iff spec.id spec).mpr ⟨h.1, rfl⟩⟩

/-- An escalation goes up by one, to a rung the ladder has and a `u8` counts. -/
theorem escalate_eq_some_iff (ladder : TierLadder) (start next : Tier) :
    ladder.escalate start = some next ↔
      ∃ rung, ladder.rungs[next.rank.val]? = some rung ∧ next.name = rung.name ∧
        next.rank.val = start.rank.val + 1 := by
  unfold escalate
  rw [Option.bind_eq_some_iff]
  constructor
  · intro h
    obtain ⟨rung, hrung, hnext⟩ := h
    obtain ⟨rank, hrank, rfl⟩ := Option.map_eq_some_iff.mp hnext
    have hval := u8TryFrom_eq_some_iff.mp hrank
    exact ⟨rung, by rw [hval]; exact hrung, rfl, hval⟩
  · intro h
    obtain ⟨rung, hrung, hname, hrank⟩ := h
    refine ⟨rung, by rw [← hrank]; exact hrung, ?_⟩
    rw [u8TryFrom_eq_some_iff.mpr hrank, Option.map_some, ← hname]

theorem escalate_eq_none_iff (ladder : TierLadder) (start : Tier) :
    ladder.escalate start = none ↔
      ladder.rungs.length ≤ start.rank.val + 1 ∨ 256 ≤ start.rank.val + 1 := by
  unfold escalate
  rw [Option.bind_eq_none_iff]
  constructor
  · intro h
    by_cases hlen : ladder.rungs.length ≤ start.rank.val + 1
    · exact Or.inl hlen
    · have hrung := h _ (List.getElem?_eq_getElem (not_le.mp hlen))
      exact Or.inr (u8TryFrom_eq_none_iff.mp (Option.map_eq_none_iff.mp hrung))
  · intro h rung hrung
    rcases h with hlen | hrank
    · rw [List.getElem?_eq_none hlen] at hrung
      cases hrung
    · rw [u8TryFrom_eq_none_iff.mpr hrank]
      rfl

/-- The rank of a floor, 0 without one. -/
def floorRank (floor : Option Tier) : ℕ := floor.elim 0 (fun f => f.rank.val)

theorem clampToFloor_rank (tier : Tier) (floor : Option Tier) :
    (clampToFloor tier floor).rank.val = max tier.rank.val (floorRank floor) := by
  cases floor with
  | none => simp [clampToFloor, floorRank]
  | some f =>
    unfold clampToFloor floorRank
    by_cases h : tier.rank < f.rank
    · simp only [h, if_true, Option.elim_some]
      have hle : tier.rank.val ≤ f.rank.val := le_of_lt h
      omega
    · simp only [h, if_false, Option.elim_some]
      have hle : f.rank.val ≤ tier.rank.val := not_lt.mp h
      omega

end TierLadder

end OpenAIGateway
