import Mathlib.Data.List.Basic
import Mathlib.Tactic.Common

/-!
Length-delimited frames over a buffer that fills read by read. `next` finds a
frame at the front of the buffer and says how long it is. When it finds every
encoded frame whatever follows it, and finds nothing in a proper beginning of
one, the reads may cut the encodings anywhere: the frames come out in order,
each once, and the buffer ends empty.
-/

set_option linter.all false

namespace OpenAIGateway.Framing

variable {α β μ : Type*} (next : List β → Option (α × ℕ))

/-- Take frames off the front of the buffer, `fuel` at most. -/
def drain : ℕ → List β → List α × List β
  | 0, b => ([], b)
  | fuel + 1, b =>
    match next b with
    | none => ([], b)
    | some (a, n) =>
      let (as, rest) := drain fuel (b.drop n)
      (a :: as, rest)

/-- Append each read to the buffer and drain it. -/
def feed : List β → List (List β) → List α × List β
  | b, [] => ([], b)
  | b, r :: reads =>
    let (as, rest) := drain next (b ++ r).length (b ++ r)
    let (as', rest') := feed rest reads
    (as ++ as', rest')

/-- An encoding that `next` reads back, and never before it is complete. -/
structure Reads (enc : μ → List β) (item : μ → α) (m : μ) : Prop where
  nonempty : enc m ≠ []
  complete : ∀ rest, next (enc m ++ rest) = some (item m, (enc m).length)
  incomplete : ∀ x y, x ++ y = enc m → y ≠ [] → next x = none

variable {next} {enc : μ → List β} {item : μ → α}

theorem drain_none {fuel : ℕ} {b : List β} (h : next b = none) : drain next fuel b = ([], b) := by
  cases fuel with
  | zero => rfl
  | succ fuel => simp only [drain, h]

theorem drain_some {fuel n : ℕ} {b : List β} {a : α} (h : next b = some (a, n)) :
    drain next (fuel + 1) b =
      (a :: (drain next fuel (b.drop n)).1, (drain next fuel (b.drop n)).2) := by
  simp only [drain, h]

/-- Draining a beginning of the encodings takes the frames that are complete
in it and keeps the rest, which is empty when nothing is still to come. -/
theorem drain_prefix (hempty : next [] = none) {ms : List μ} (hms : ∀ m ∈ ms, Reads next enc item m)
    {fuel : ℕ} {x y : List β} (hfuel : x.length ≤ fuel) (h : x ++ y = ms.flatMap enc) :
    ∃ front back rest, ms = front ++ back ∧ drain next fuel x = (front.map item, rest) ∧
      rest ++ y = back.flatMap enc ∧ (y = [] → rest = []) := by
  induction ms generalizing fuel x with
  | nil =>
    obtain ⟨rfl, rfl⟩ : x = [] ∧ y = [] := by simpa using h
    exact ⟨[], [], [], rfl, drain_none hempty, rfl, fun _ => rfl⟩
  | cons m ms ih =>
    have hm := hms m (by simp)
    rw [List.flatMap_cons] at h
    have hcut : (∃ tail, x = enc m ++ tail ∧ tail ++ y = ms.flatMap enc) ∨
        ∃ cut, cut ≠ [] ∧ x ++ cut = enc m ∧ y = cut ++ ms.flatMap enc := by
      rcases List.append_eq_append_iff.mp h with ⟨cut, hmx, hy⟩ | ⟨tail, hx, htail⟩
      · by_cases hcut : cut = []
        · subst hcut
          exact Or.inl ⟨[], by simpa using hmx.symm, by simpa using hy⟩
        · exact Or.inr ⟨cut, hcut, hmx.symm, hy⟩
      · exact Or.inl ⟨tail, hx, htail.symm⟩
    rcases hcut with ⟨tail, rfl, htail⟩ | ⟨cut, hcut, hmx, hy⟩
    · have hpos := List.length_pos_of_ne_nil hm.nonempty
      rw [List.length_append] at hfuel
      obtain ⟨fuel, rfl⟩ : ∃ n, fuel = n + 1 := ⟨fuel - 1, by omega⟩
      obtain ⟨front, back, rest, rfl, hdrain, hrest, hend⟩ :=
        ih (fun m' hm' => hms m' (by simp [hm'])) (show tail.length ≤ fuel by omega) htail
      refine ⟨m :: front, back, rest, rfl, ?_, hrest, hend⟩
      rw [drain_some (hm.complete tail), List.drop_left, hdrain]
      rfl
    · refine ⟨[], m :: ms, x, rfl, drain_none (hm.incomplete x cut hmx hcut), ?_, ?_⟩
      · rw [List.flatMap_cons]
        exact h
      · intro hnil
        rw [hnil] at hy
        exact absurd (List.append_eq_nil_iff.mp hy.symm).1 hcut

/-- However the encodings are cut into reads, the frames come out in order,
each once, and nothing stays behind. -/
theorem feed_flatMap (hempty : next [] = none) {ms : List μ} (hms : ∀ m ∈ ms, Reads next enc item m)
    {b : List β} {reads : List (List β)} (h : b ++ reads.flatten = ms.flatMap enc)
    (hb : reads.flatten = [] → b = []) : feed next b reads = (ms.map item, []) := by
  induction reads generalizing b ms with
  | nil =>
    obtain rfl : b = [] := hb rfl
    cases ms with
    | nil => rfl
    | cons m ms =>
      rw [List.flatMap_cons] at h
      exact absurd (List.append_eq_nil_iff.mp h.symm).1 (hms m (by simp)).nonempty
  | cons r reads ih =>
    have hx : (b ++ r) ++ reads.flatten = ms.flatMap enc := by
      rw [← h, List.flatten_cons, List.append_assoc]
    obtain ⟨front, back, rest, rfl, hdrain, hrest, hend⟩ :=
      drain_prefix hempty hms (Nat.le_refl _) hx
    have htail := ih (fun m hm => hms m (by simp [hm])) hrest hend
    simp only [feed, hdrain, htail, List.map_append]

end OpenAIGateway.Framing
