import OpenAIGateway.Cuts
import OpenAIGateway.EndpointSync

/-!
What a pattern of a sync's filter matches. The dynamic program keeps one flag
for each prefix of the text; each pattern character turns the flags of the
pattern before it into its own.
-/

set_option linter.all false

namespace OpenAIGateway.EndpointSync

/-- What one pattern character takes: `*` any run, `?` one character, any other itself. -/
def Takes (p : Char) (run : List Char) : Prop :=
  if p = '*' then True else if p = '?' then ∃ c, run = [c] else run = [p]

theorem takes_any (run : List Char) : Takes '*' run := by
  rw [Takes, if_pos rfl]
  trivial

/-- Every character but `*` takes one character, `?` whichever it is. -/
theorem takes_one_iff {p : Char} (hp : p ≠ '*') (run : List Char) :
    Takes p run ↔ ∃ c, run = [c] ∧ (p = '?' ∨ p = c) := by
  rw [Takes, if_neg hp]
  split
  next hq => simp only [hq, true_or, and_true]
  next hq => simp only [hq, false_or, exists_eq_right']

section SoFar

theorem length_soFar (before : Bool) (matched : List Bool) :
    (soFar before matched).length = matched.length := by
  induction matched generalizing before with
  | nil => rfl
  | cons m matched ih => rw [soFar, List.length_cons, ih, List.length_cons]

theorem getElem?_soFar {before : Bool} {matched : List Bool} {j : ℕ} (hj : j < matched.length) :
    (soFar before matched)[j]? = some true ↔
      before = true ∨ ∃ i ≤ j, matched[i]? = some true := by
  induction matched generalizing before j with
  | nil => exact absurd hj (Nat.not_lt_zero j)
  | cons m matched ih =>
    cases j with
    | zero => simp [soFar]
    | succ j =>
      rw [soFar, List.getElem?_cons_succ, ih (Nat.lt_of_succ_lt_succ hj), Bool.or_eq_true,
        or_assoc]
      apply or_congr_right
      constructor
      · rintro (rfl | ⟨i, hi, hmatched⟩)
        · exact ⟨0, Nat.zero_le _, rfl⟩
        · exact ⟨i + 1, Nat.succ_le_succ hi, hmatched⟩
      · rintro ⟨i, hi, hmatched⟩
        cases i with
        | zero => exact .inl (Option.some.inj hmatched)
        | succ i => exact .inr ⟨i, Nat.le_of_succ_le_succ hi, hmatched⟩

end SoFar

/-- The flags say which prefixes of the text the pattern so far matches. -/
structure Tracks (pattern text : List Char) (matched : List Bool) : Prop where
  length : matched.length = text.length + 1
  flag : ∀ j ≤ text.length, matched[j]? = some true ↔ Cuts.Cut Takes pattern (text.take j)

namespace Tracks

variable {pattern text : List Char} {matched : List Bool}

/-- The empty pattern matches the empty prefix alone. -/
theorem start (text : List Char) : Tracks [] text (true :: text.map (fun _ => false)) where
  length := by simp
  flag := by
    intro j hj
    rw [Cuts.cut_nil_iff]
    cases j with
    | zero => simp
    | succ j =>
      have hne : text.take (j + 1) ≠ [] := by
        rw [← List.length_pos_iff, List.length_take]
        omega
      simp [hne, List.getElem?_replicate]

theorem star (h : Tracks pattern text matched) :
    Tracks (pattern ++ ['*']) text (soFar false matched) where
  length := by rw [length_soFar, h.length]
  flag := by
    intro j hj
    have hlt : j < matched.length := by rw [h.length]; omega
    rw [getElem?_soFar hlt, Cuts.cut_concat_take_any takes_any]
    simp only [Bool.false_eq_true, false_or]
    apply exists_congr
    intro i
    apply and_congr_right
    intro hi
    exact h.flag i (hi.trans hj)

theorem one (h : Tracks pattern text matched) {p : Char} (hp : p ≠ '*') :
    Tracks (pattern ++ [p]) text
      (false :: List.zipWith (fun m c => m && (p == '?' || p == c)) matched text) where
  length := by
    have := h.length
    rw [List.length_cons, List.length_zipWith]
    omega
  flag := by
    intro j hj
    cases j with
    | zero =>
      have hnot : ¬ Cuts.Cut Takes (pattern ++ [p]) [] := Cuts.not_cut_concat_nil (takes_one_iff hp)
      simp [hnot]
    | succ j =>
      -- The flag one further on is this flag, and this character of the text.
      have hc : text[j]? = some text[j] := List.getElem?_eq_getElem hj
      obtain ⟨m, hm⟩ : ∃ m, matched[j]? = some m := by
        have hlt : j < matched.length := by rw [h.length]; omega
        exact ⟨_, List.getElem?_eq_getElem hlt⟩
      have hflag := h.flag j (by omega)
      rw [hm, Option.some_inj] at hflag
      rw [Cuts.cut_concat_take_one (takes_one_iff hp) hc, ← hflag, List.getElem?_cons_succ,
        List.getElem?_zipWith_eq_some]
      simp [hm, hc]

theorem step (h : Tracks pattern text matched) (p : Char) :
    Tracks (pattern ++ [p]) text (globStep text matched p) := by
  unfold globStep
  split
  next hp =>
    subst hp
    exact h.star
  next hp => exact h.one hp

theorem run (h : Tracks pattern text matched) (more : List Char) :
    Tracks (pattern ++ more) text (more.foldl (globStep text) matched) := by
  induction more generalizing pattern matched with
  | nil => rwa [List.append_nil]
  | cons p more ih =>
    rw [List.foldl_cons, List.append_cons]
    exact ih (h.step p)

/-- The last flag is about the whole text. -/
theorem getLastD_iff (h : Tracks pattern text matched) :
    matched.getLastD false = true ↔ Cuts.Cut Takes pattern text := by
  have hflag := h.flag text.length (Nat.le_refl _)
  rw [List.take_length] at hflag
  have hlast : matched.getLast? = matched[text.length]? := by
    rw [List.getLast?_eq_getElem?, h.length, Nat.add_sub_cancel]
  rw [← hflag, ← hlast, List.getLastD_eq_getLast?]
  cases matched.getLast? <;> simp

end Tracks

/-- A pattern matches exactly the texts that can be cut into consecutive pieces, one for each
of its characters in order. -/
theorem glob_iff (pattern text : String) :
    glob pattern text = true ↔
      ∃ pieces, List.Forall₂ Takes pattern.toList pieces ∧ pieces.flatten = text.toList :=
  ((Tracks.start text.toList).run pattern.toList).getLastD_iff

end OpenAIGateway.EndpointSync
