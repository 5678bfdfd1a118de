import Mathlib.Data.List.Basic
import Mathlib.Tactic.Common

/-!
A text cut at the first or at the last of its separators.
-/

set_option linter.all false

namespace OpenAIGateway.Split

/-- The parts before and after the first separator. -/
def first (sep : Char) : List Char → Option (List Char × List Char)
  | [] => none
  | c :: text =>
    if c = sep then some ([], text)
    else (first sep text).map (fun parts => (c :: parts.1, parts.2))

/-- `str::split_once`. -/
def splitOnce (sep : Char) (s : String) : Option (String × String) :=
  (first sep s.toList).map (fun parts => (String.ofList parts.1, String.ofList parts.2))

/-- `str::rsplit_once`. -/
def rsplitOnce (sep : Char) (s : String) : Option (String × String) :=
  (first sep s.toList.reverse).map
    (fun parts => (String.ofList parts.2.reverse, String.ofList parts.1.reverse))

/-- The parts before and after the first occurrence of a text. -/
def firstText (sep : List Char) : List Char → Option (List Char × List Char)
  | [] => if sep = [] then some ([], []) else none
  | c :: text =>
    if sep <+: c :: text then some ([], (c :: text).drop sep.length)
    else (firstText sep text).map (fun parts => (c :: parts.1, parts.2))

/-- `str::split_once` at a text. -/
def splitOnceText (sep s : String) : Option (String × String) :=
  (firstText sep.toList s.toList).map
    (fun parts => (String.ofList parts.1, String.ofList parts.2))

/-- `str::split`. -/
def split (sep : Char) (s : String) : List String := (s.toList.splitOn sep).map String.ofList

variable {sep : Char}

theorem first_eq_some_iff {text xs ys : List Char} :
    first sep text = some (xs, ys) ↔ text = xs ++ sep :: ys ∧ sep ∉ xs := by
  induction text generalizing xs with
  | nil => simp [first]
  | cons c text ih =>
    unfold first
    by_cases hc : c = sep
    · rw [if_pos hc]
      constructor
      · intro h
        cases h
        exact ⟨by rw [hc, List.nil_append], List.not_mem_nil⟩
      · intro h
        cases xs with
        | nil => simpa [hc] using h.1
        | cons x xs =>
          have hx : c = x := (List.cons.inj h.1).1
          exact absurd List.mem_cons_self (hx ▸ hc ▸ h.2)
    · rw [if_neg hc, Option.map_eq_some_iff]
      constructor
      · intro h
        obtain ⟨⟨xs', ys'⟩, hrest, heq⟩ := h
        cases heq
        obtain ⟨htext, hmem⟩ := ih.mp hrest
        exact ⟨by rw [htext, List.cons_append],
          List.not_mem_cons_of_ne_of_not_mem (Ne.symm hc) hmem⟩
      · intro h
        cases xs with
        | nil => exact absurd (List.cons.inj h.1).1 hc
        | cons x xs =>
          obtain ⟨hx, htext⟩ := List.cons.inj h.1
          have hmem : sep ∉ xs := fun hmem => h.2 (List.mem_cons_of_mem x hmem)
          exact ⟨(xs, ys), ih.mpr ⟨htext, hmem⟩, by rw [hx]⟩

theorem first_eq_none_iff {text : List Char} : first sep text = none ↔ sep ∉ text := by
  constructor
  · intro h hmem
    obtain ⟨xs, ys, htext, hxs⟩ := List.eq_append_cons_of_mem hmem
    rw [first_eq_some_iff.mpr ⟨htext, hxs⟩] at h
    cases h
  · intro hmem
    cases h : first sep text with
    | none => rfl
    | some parts =>
      obtain ⟨xs, ys⟩ := parts
      obtain ⟨htext, -⟩ := first_eq_some_iff.mp h
      exact absurd (by rw [htext]; simp) hmem

theorem splitOnce_eq_some_iff {s a b : String} :
    splitOnce sep s = some (a, b) ↔ s.toList = a.toList ++ sep :: b.toList ∧ sep ∉ a.toList := by
  unfold splitOnce
  rw [Option.map_eq_some_iff, ← first_eq_some_iff]
  constructor
  · intro h
    obtain ⟨⟨xs, ys⟩, hfirst, heq⟩ := h
    cases heq
    simpa using hfirst
  · intro h
    exact ⟨(a.toList, b.toList), h, by simp⟩

theorem rsplitOnce_eq_some_iff {s a b : String} :
    rsplitOnce sep s = some (a, b) ↔ s.toList = a.toList ++ sep :: b.toList ∧ sep ∉ b.toList := by
  have hreverse : s.toList = a.toList ++ sep :: b.toList ↔
      s.toList.reverse = b.toList.reverse ++ sep :: a.toList.reverse := by
    rw [← List.reverse_inj]
    simp
  have hmem : sep ∈ b.toList ↔ sep ∈ b.toList.reverse := List.mem_reverse.symm
  unfold rsplitOnce
  rw [Option.map_eq_some_iff, hreverse, hmem, ← first_eq_some_iff]
  constructor
  · intro h
    obtain ⟨⟨xs, ys⟩, hfirst, heq⟩ := h
    cases heq
    simpa using hfirst
  · intro h
    exact ⟨(b.toList.reverse, a.toList.reverse), h, by simp⟩

theorem rsplitOnce_eq_none_iff {s : String} : rsplitOnce sep s = none ↔ sep ∉ s.toList := by
  unfold rsplitOnce
  rw [Option.map_eq_none_iff, first_eq_none_iff, List.mem_reverse]

/-- A text that is there is found, no later than where it is. -/
theorem firstText_append (sep before later : List Char) :
    ∃ xs ys, firstText sep (before ++ sep ++ later) = some (xs, ys) ∧
      xs ++ sep ++ ys = before ++ sep ++ later ∧ xs.length ≤ before.length := by
  induction before with
  | nil =>
    refine ⟨[], later, ?_, rfl, Nat.le_refl _⟩
    cases hsep : sep with
    | nil => cases later <;> rfl
    | cons c sep => simp [firstText]
  | cons c before ih =>
    obtain ⟨xs, ys, hfound, heq, hlen⟩ := ih
    rw [List.cons_append, List.cons_append, firstText]
    by_cases hprefixed : sep <+: c :: (before ++ sep ++ later)
    · obtain ⟨rest, hrest⟩ := hprefixed
      refine ⟨[], rest, ?_, by simpa using hrest, Nat.zero_le _⟩
      rw [if_pos ⟨rest, hrest⟩, ← hrest, List.drop_left]
    · refine ⟨c :: xs, ys, ?_, by simp [← heq], by simpa using hlen⟩
      rw [if_neg hprefixed, hfound]
      rfl

/-- A joined text has the parts of both texts. -/
theorem split_join (sep : Char) (a b : String) :
    split sep (a ++ String.singleton sep ++ b) = split sep a ++ split sep b := by
  have htext : (a ++ String.singleton sep ++ b).toList = a.toList ++ sep :: b.toList := by
    simp
  unfold split
  rw [htext, List.splitOn_append_cons_self, List.map_append]

theorem split_injective (sep : Char) : Function.Injective (split sep) := by
  intro a b h
  unfold split at h
  have hparts : a.toList.splitOn sep = b.toList.splitOn sep :=
    List.map_injective_iff.mpr (fun _ _ => String.ofList_inj.mp) h
  have hjoin : ∀ text : List Char, [sep].intercalate (text.splitOn sep) = text :=
    fun text => List.intercalate_splitOn sep
  have hchars : a.toList = b.toList := by
    rw [← hjoin a.toList, hparts, hjoin]
  exact String.toList_inj.mp hchars

theorem split_of_notMem {s : String} (h : sep ∉ s.toList) : split sep s = [s] := by
  unfold split
  rw [List.splitOn_eq_singleton h, List.map_singleton, String.ofList_toList]

end OpenAIGateway.Split
