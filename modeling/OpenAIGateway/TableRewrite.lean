import Mathlib.Data.List.Perm.Basic
import Mathlib.Data.List.Sort
import Mathlib.Tactic.Common

/-!
Rewriting a table in place. A ranked delete leaves the first row of each
partition; an update visits the rows one by one, in whatever order, and is
refused as soon as a new row is in the way of another row of the table as it is
then.
-/

set_option linter.all false

namespace OpenAIGateway.TableRewrite

section Ranking

variable {α κ ι : Type*} [DecidableEq κ] [DecidableEq ι] (key : α → κ) (id : α → ι)
  (le : α → α → Prop) [DecidableRel le]

/-- `row_number() OVER (PARTITION BY key ORDER BY le)`, of the row of an id. -/
def rowNumber (rows : List α) (a : α) : ℕ :=
  ((rows.filter fun b => decide (key b = key a)).insertionSort le).findIdx
    (fun b => decide (id b = id a)) + 1

/-- The rows that are first of their partition. -/
def firsts (rows : List α) : List α :=
  rows.filter fun a => decide (rowNumber key id le rows a ≤ 1)

variable {key id le} {rows : List α}

theorem eq_singleton_of_nodup {a : α} (h : rows.Nodup) (ha : a ∈ rows)
    (hall : ∀ b ∈ rows, b = a) : rows = [a] := by
  have hreplicate := List.eq_replicate_of_mem hall
  rw [hreplicate, List.nodup_replicate] at h
  have hpos := List.length_pos_of_mem ha
  have hone : rows.length = 1 := by omega
  rw [hreplicate, hone]
  rfl

/-- A row alone in its partition is its first. -/
theorem rowNumber_of_alone {a : α} (h : (rows.filter fun b => decide (key b = key a)) = [a]) :
    rowNumber key id le rows a = 1 := by
  unfold rowNumber
  rw [h, List.insertionSort_cons, List.insertionSort_nil, List.orderedInsert_nil,
    List.findIdx_cons, decide_eq_true rfl]
  rfl

variable (le) in
/-- Each partition leaves one row, and none of its rows comes before it. -/
theorem exists_first [Std.Total le] [IsTrans α le] (hids : (rows.map id).Nodup) {k : κ}
    (hk : ∃ a ∈ rows, key a = k) :
    ∃ a ∈ rows, key a = k ∧ (∀ b ∈ rows, key b = k → le a b) ∧
      (firsts key id le rows).filter (fun b => decide (key b = k)) = [a] := by
  have hmem : ∀ {b}, b ∈ (rows.filter fun b => decide (key b = k)).insertionSort le ↔
      b ∈ rows ∧ key b = k := by
    intro b
    rw [List.mem_insertionSort, List.mem_filter, decide_eq_true_iff]
  have hsorted := List.pairwise_insertionSort le (rows.filter fun b => decide (key b = k))
  cases hpart : (rows.filter fun b => decide (key b = k)).insertionSort le with
  | nil =>
    obtain ⟨a, ha, hka⟩ := hk
    have hin := hmem.mpr ⟨ha, hka⟩
    rw [hpart] at hin
    cases hin
  | cons a rest =>
    rw [hpart] at hmem hsorted
    obtain ⟨ha, hka⟩ := hmem.mp List.mem_cons_self
    have hone : ∀ b ∈ rows, key b = k → (rowNumber key id le rows b ≤ 1 ↔ b = a) := by
      intro b hb hkb
      have hnumber : rowNumber key id le rows b =
          (a :: rest).findIdx (fun c => decide (id c = id b)) + 1 := by
        unfold rowNumber
        rw [hkb, hpart]
      rw [hnumber, List.findIdx_cons]
      by_cases hid : id a = id b
      · have hsame : a = b := List.inj_on_of_nodup_map hids ha hb hid
        rw [decide_eq_true hid, hsame]
        exact ⟨fun _ => rfl, fun _ => le_refl 1⟩
      · rw [decide_eq_false hid]
        constructor
        · intro hle
          simp at hle
        · intro hsame
          exact absurd (congrArg id hsame).symm hid
    refine ⟨a, ha, hka, fun b hb hkb => ?_, ?_⟩
    · rcases List.mem_cons.mp (hmem.mpr ⟨hb, hkb⟩) with hba | hba
      · rw [hba]
        exact (Std.Total.total a a).elim (fun hle => hle) (fun hle => hle)
      · exact List.rel_of_pairwise_cons hsorted hba
    · have hnodup : ((firsts key id le rows).filter fun b => decide (key b = k)).Nodup :=
        ((List.Nodup.of_map id hids).filter _).filter _
      apply eq_singleton_of_nodup hnodup
      · exact List.mem_filter.mpr ⟨List.mem_filter.mpr
          ⟨ha, decide_eq_true ((hone a ha hka).mpr rfl)⟩, decide_eq_true hka⟩
      · intro b hb
        obtain ⟨hfirst, hkb⟩ := List.mem_filter.mp hb
        obtain ⟨hrow, hnumber⟩ := List.mem_filter.mp hfirst
        exact (hone b hrow (of_decide_eq_true hkb)).mp (of_decide_eq_true hnumber)

end Ranking

section Update

variable {α : Type*} (inTheWay : α → α → Bool) (p : α → Bool) (f : α → α)

/-- `UPDATE .. SET f WHERE p`, visiting the rows at some positions in turn. -/
def updateIn : List ℕ → List α → Option (List α)
  | [], rows => some rows
  | i :: order, rows =>
    match rows[i]? with
    | none => updateIn order rows
    | some a =>
      if p a then
        if (rows.eraseIdx i).any (inTheWay (f a)) then none
        else updateIn order (rows.set i (f a))
      else updateIn order rows

/-- What an update makes of a row. -/
def updated (a : α) : α := if p a then f a else a

variable {inTheWay p f} {rows : List α}

/-- A row that is not updated is passed over. -/
theorem updateIn_skip {i : ℕ} (order : List ℕ) (h : ∀ a, rows[i]? = some a → p a = false) :
    updateIn inTheWay p f (i :: order) rows = updateIn inTheWay p f order rows := by
  conv_lhs => unfold updateIn
  cases ha : rows[i]? with
  | none => rfl
  | some a => simp only [h a ha, Bool.false_eq_true, if_false]

/-- A row in nobody's way is updated. -/
theorem updateIn_visit {i : ℕ} {a : α} (order : List ℕ) (ha : rows[i]? = some a) (hp : p a = true)
    (hclear : (rows.eraseIdx i).any (inTheWay (f a)) = false) :
    updateIn inTheWay p f (i :: order) rows = updateIn inTheWay p f order (rows.set i (f a)) := by
  conv_lhs => unfold updateIn
  simp only [ha, hp, hclear, if_true, Bool.false_eq_true, if_false]

/-- What visiting one row of an update that goes through comes to. -/
theorem updateIn_cons_cases {i : ℕ} {order : List ℕ} {after : List α}
    (h : updateIn inTheWay p f (i :: order) rows = some after) :
    updateIn inTheWay p f order rows = some after ∨
      ∃ a, rows[i]? = some a ∧ (rows.eraseIdx i).any (inTheWay (f a)) = false ∧
        updateIn inTheWay p f order (rows.set i (f a)) = some after := by
  by_cases hvisit : ∃ a, rows[i]? = some a ∧ p a = true
  · obtain ⟨a, ha, hp⟩ := hvisit
    cases hany : (rows.eraseIdx i).any (inTheWay (f a)) with
    | true =>
      unfold updateIn at h
      simp [ha, hp, hany] at h
    | false =>
      rw [updateIn_visit order ha hp hany] at h
      exact Or.inr ⟨a, ha, hany, h⟩
  · rw [updateIn_skip order fun a ha => Bool.eq_false_iff.mpr fun hp => hvisit ⟨a, ha, hp⟩] at h
    exact Or.inl h

/-- The rest of an update: the rows still to be visited are as they were, the others as they
will be. -/
theorem updateIn_rest (hfree : ∀ (i j : ℕ) (a b : α), rows[i]? = some a → rows[j]? = some b →
      i ≠ j → p a = true → inTheWay (f a) b = false ∧ inTheWay (f a) (updated p f b) = false)
    {order : List ℕ} {table : List α} (hnodup : order.Nodup)
    (htable : ∀ i, table[i]? = if i ∈ order then rows[i]? else (rows[i]?).map (updated p f)) :
    updateIn inTheWay p f order table = some (rows.map (updated p f)) := by
  induction order generalizing table with
  | nil =>
    unfold updateIn
    rw [Option.some.injEq]
    apply List.ext_getElem?
    intro i
    rw [htable i, List.getElem?_map]
    rfl
  | cons i order ih =>
    obtain ⟨hi, hnodup⟩ := List.nodup_cons.mp hnodup
    have hrow : table[i]? = rows[i]? := by
      rw [htable i, if_pos List.mem_cons_self]
    have hkept : ∀ j, j ≠ i → table[j]? =
        if j ∈ order then rows[j]? else (rows[j]?).map (updated p f) := by
      intro j hj
      rw [htable j]
      simp [hj]
    by_cases hvisit : ∃ a, table[i]? = some a ∧ p a = true
    · obtain ⟨a, ha, hp⟩ := hvisit
      have hclear : (table.eraseIdx i).any (inTheWay (f a)) = false := by
        rw [List.any_eq_false]
        intro b hb
        obtain ⟨j, hj, hget⟩ := List.mem_eraseIdx_iff_getElem?.mp hb
        rw [hkept j hj] at hget
        rw [Bool.not_eq_true]
        split at hget
        · exact (hfree i j a b (hrow ▸ ha) hget hj.symm hp).1
        · obtain ⟨c, hc, rfl⟩ := Option.map_eq_some_iff.mp hget
          exact (hfree i j a c (hrow ▸ ha) hc hj.symm hp).2
      rw [updateIn_visit order ha hp hclear]
      apply ih hnodup
      intro j
      by_cases hj : j = i
      · obtain ⟨hlt, -⟩ := List.getElem?_eq_some_iff.mp ha
        rw [hj, List.getElem?_set_self hlt, if_neg hi, ← hrow, ha, Option.map_some, updated,
          if_pos hp]
      · rw [List.getElem?_set_ne (Ne.symm hj), hkept j hj]
    · have hskip : ∀ a, table[i]? = some a → p a = false :=
        fun a ha => Bool.eq_false_iff.mpr fun hp => hvisit ⟨a, ha, hp⟩
      rw [updateIn_skip order hskip]
      apply ih hnodup
      intro j
      by_cases hj : j = i
      · rw [hj, if_neg hi, hrow]
        cases ha : rows[i]? with
        | none => rfl
        | some a =>
          rw [Option.map_some, updated, hskip a (hrow.trans ha), if_neg Bool.false_ne_true]
      · exact hkept j hj

/-- Whatever the order, an update whose new rows are in nobody's way goes through. -/
theorem updateIn_eq_map (hfree : ∀ (i j : ℕ) (a b : α), rows[i]? = some a → rows[j]? = some b →
      i ≠ j → p a = true → inTheWay (f a) b = false ∧ inTheWay (f a) (updated p f b) = false)
    {order : List ℕ} (horder : order.Perm (List.range rows.length)) :
    updateIn inTheWay p f order rows = some (rows.map (updated p f)) := by
  apply updateIn_rest hfree (horder.nodup_iff.mpr List.nodup_range)
  intro i
  by_cases hi : i ∈ order
  · rw [if_pos hi]
  · have hout : rows[i]? = none := by
      rw [List.getElem?_eq_none_iff, ← not_lt, ← List.mem_range]
      exact fun hrange => hi (horder.mem_iff.mpr hrange)
    rw [if_neg hi, hout]
    rfl

/-- Where no row was in another's way, an update that goes through leaves it so. -/
theorem pairwise_updateIn (hcomm : ∀ a b, inTheWay a b = inTheWay b a) {order : List ℕ}
    {after : List α} (h : rows.Pairwise (fun a b => inTheWay b a = false))
    (hupdate : updateIn inTheWay p f order rows = some after) :
    after.Pairwise (fun a b => inTheWay b a = false) := by
  induction order generalizing rows with
  | nil =>
    cases hupdate
    exact h
  | cons i order ih =>
    rcases updateIn_cons_cases hupdate with hupdate | ⟨a, -, hany, hupdate⟩
    · exact ih h hupdate
    · refine ih ?_ hupdate
      have hclear : ∀ j (hj : j < rows.length), j ≠ i → inTheWay (f a) rows[j] = false := by
        intro j hj hne
        have hmem := List.mem_eraseIdx_iff_getElem.mpr ⟨j, hj, hne, rfl⟩
        exact Bool.eq_false_iff.mpr (List.any_eq_false.mp hany _ hmem)
      rw [List.pairwise_iff_getElem] at h ⊢
      intro j k hj hk hjk
      rw [List.length_set] at hj hk
      rw [List.getElem_set, List.getElem_set]
      split_ifs with hik hij hij
      · omega
      · exact hclear j hj (Ne.symm hij)
      · rw [hcomm]
        exact hclear k hk (Ne.symm hik)
      · exact h j k hj hk hjk

/-- An update of no row is none. -/
theorem updateIn_of_none (h : ∀ a ∈ rows, p a = false) (order : List ℕ) :
    updateIn inTheWay p f order rows = some rows := by
  induction order with
  | nil => rfl
  | cons i order ih =>
    rw [updateIn_skip order fun a ha => h a (List.mem_of_getElem? ha)]
    exact ih

end Update

end OpenAIGateway.TableRewrite
