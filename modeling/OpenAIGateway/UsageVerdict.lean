import OpenAIGateway.Appending
import OpenAIGateway.UsageImport
import Mathlib.Algebra.Order.Group.Int
import Mathlib.Algebra.Order.Group.Abs

/-!
What a verdict says. The index answers as a plain scan of the rows would, and
a session is imported exactly when nothing stands against it: it ended before
the cutoff, it names native models only, and no call of it that is large enough
to be told apart was metered around the time it ran. A Grok session has no such
calls, and is imported when the gateway served nothing around it.
-/

set_option linter.all false

namespace OpenAIGateway.UsageImport

variable {session : Session} {start last : ℤ} {m : Message}

section Window

theorem foldl_window (ms : List Message) (w : ℤ × ℤ) :
    let span := ms.foldl (fun w m => (min w.1 m.occurredAt, max w.2 m.occurredAt)) w
    (span.1 ≤ w.1 ∧ w.2 ≤ span.2) ∧ ∀ m ∈ ms, span.1 ≤ m.occurredAt ∧ m.occurredAt ≤ span.2 := by
  induction ms generalizing w with
  | nil => exact ⟨⟨le_rfl, le_rfl⟩, by simp⟩
  | cons m ms ih =>
    rw [List.foldl_cons]
    obtain ⟨⟨hlo, hhi⟩, hms⟩ := ih (min w.1 m.occurredAt, max w.2 m.occurredAt)
    have hmin := le_min_iff.mp hlo
    have hmax := max_le_iff.mp hhi
    refine ⟨⟨hmin.1, hmax.1⟩, ?_⟩
    intro m' hm'
    rcases List.mem_cons.mp hm' with rfl | hm'
    · exact ⟨hmin.2, hmax.2⟩
    · exact hms m' hm'

/-- Every call of a session lies in its window. -/
theorem Session.window_bounds (h : session.window = some (start, last))
    (hm : m ∈ session.messages) : start ≤ m.occurredAt ∧ m.occurredAt ≤ last := by
  unfold Session.window at h
  cases hms : session.messages with
  | nil =>
    rw [hms] at hm
    cases hm
  | cons m₀ ms =>
    rw [hms] at h hm
    obtain ⟨hfirst, hrest⟩ := foldl_window ms (m₀.occurredAt, m₀.occurredAt)
    rw [Option.some.inj h] at hfirst hrest
    rcases List.mem_cons.mp hm with rfl | hm
    · exact hfirst
    · exact hrest m hm

theorem Session.exists_window (hm : m ∈ session.messages) :
    ∃ start last, session.window = some (start, last) := by
  unfold Session.window
  cases hms : session.messages with
  | nil =>
    rw [hms] at hm
    cases hm
  | cons m₀ ms => exact ⟨_, _, rfl⟩

theorem Session.window_le (h : session.window = some (start, last)) : start ≤ last := by
  unfold Session.window at h
  cases hms : session.messages with
  | nil =>
    rw [hms] at h
    cases h
  | cons m₀ ms =>
    rw [hms] at h
    obtain ⟨hlo, hhi⟩ := (foldl_window ms (m₀.occurredAt, m₀.occurredAt)).1
    rw [Option.some.inj h] at hlo hhi
    exact hlo.trans hhi

end Window

namespace LedgerIndex

theorem mem_push_iff (times : Fingerprint → Option (List ℤ)) (row : GatewayRow) (fp : Fingerprint)
    (t : ℤ) : t ∈ (push times row fp).getD [] ↔
      t ∈ (times fp).getD [] ∨ (row.counts = fp ∧ row.occurredAt = t) := by
  unfold push
  by_cases hfp : fp = row.counts
  · subst hfp
    rw [Function.update_self, Option.getD_some, List.mem_append, List.mem_singleton]
    simp [eq_comm]
  · rw [Function.update_of_ne hfp]
    simp [Ne.symm hfp]

theorem mem_foldl_push_iff (rows : List GatewayRow) (times : Fingerprint → Option (List ℤ))
    (fp : Fingerprint) (t : ℤ) : t ∈ (rows.foldl push times fp).getD [] ↔
      t ∈ (times fp).getD [] ∨ ∃ row ∈ rows, row.counts = fp ∧ row.occurredAt = t := by
  exact Appending.foldl_gains (P := fun times => t ∈ (times fp).getD [])
    (fun times row => mem_push_iff times row fp t) times rows

/-- The indexed lookup is a plain scan of the rows. -/
theorem seenBetween_build (rows : List GatewayRow) (fp : Fingerprint) (lo hi : ℤ) :
    (build rows).seenBetween fp lo hi =
      rows.any (fun row =>
        decide (row.counts = fp ∧ lo ≤ row.occurredAt ∧ row.occurredAt ≤ hi)) := by
  have hmem := mem_foldl_push_iff rows (fun _ => none) fp
  rw [Bool.eq_iff_iff]
  unfold seenBetween build
  simp only [List.any_eq_true, decide_eq_true_eq]
  cases htimes : rows.foldl push (fun _ => none) fp with
  | none =>
    constructor
    · intro h
      cases h
    · rintro ⟨row, hrow, hcounts, -⟩
      have hnil := (hmem row.occurredAt).mpr (Or.inr ⟨row, hrow, hcounts, rfl⟩)
      rw [htimes] at hnil
      cases hnil
  | some times =>
    have hsorted : (times.insertionSort (· ≤ ·)).Pairwise (· ≤ ·) :=
      List.pairwise_insertionSort (· ≤ ·) times
    have hlookup := Bisect.head?_dropWhile_lt hsorted lo hi
    rw [Option.map_some, Option.any_some, Bisect.getElem?_partitionPoint, Option.any_eq_true]
    simp only [decide_eq_true_eq]
    refine hlookup.trans ?_
    constructor
    · rintro ⟨t, ht, hbounds⟩
      have hrow := (hmem t).mp (by rw [htimes]; exact (List.mem_insertionSort _).mp ht)
      rcases hrow with hnil | ⟨row, hrow, hcounts, rfl⟩
      · cases hnil
      · exact ⟨row, hrow, hcounts, hbounds⟩
    · rintro ⟨row, hrow, hcounts, hbounds⟩
      have ht := (hmem row.occurredAt).mpr (Or.inr ⟨row, hrow, hcounts, rfl⟩)
      rw [htimes] at ht
      exact ⟨row.occurredAt, (List.mem_insertionSort _).mpr ht, hbounds⟩

/-- The indexed count is a count of the instants. -/
theorem servedBetween_activity (served : List ℤ) {lo hi : ℤ} (hle : lo ≤ hi) :
    (activity served).servedBetween lo hi =
      served.countP (fun t => decide (lo ≤ t ∧ t ≤ hi)) := by
  have hsorted : (served.insertionSort (· ≤ ·)).Pairwise (· ≤ ·) :=
    List.pairwise_insertionSort (· ≤ ·) served
  exact (Bisect.partitionPoint_sub hsorted hle).trans
    ((List.perm_insertionSort (· ≤ ·) served).countP_eq _)

end LedgerIndex

theorem matched_eq_zero_iff (ledger : LedgerIndex) (lo hi : ℤ) :
    matched session ledger lo hi = 0 ↔ ∀ m ∈ session.messages, m.distinctive = true →
      ledger.seenBetween m.fingerprint lo hi = false := by
  unfold matched
  rw [List.length_eq_zero_iff, List.filter_eq_nil_iff]
  simp

theorem any_cutoff_eq_false_iff {before : Option ℤ} :
    before.any (fun cutoff => decide (cutoff ≤ last)) = false ↔
      ∀ cutoff ∈ before, last < cutoff := by
  cases before with
  | none => simp
  | some cutoff => simp

/-- Nothing stands against a session that is imported. -/
theorem judge_eq_imported_iff (ledger : LedgerIndex) (before : Option ℤ) :
    judge session ledger .claudeCode before = some .imported ↔
      ∃ start last, session.window = some (start, last) ∧ (∀ cutoff ∈ before, last < cutoff) ∧
        foreignModel session = none ∧ ∀ m ∈ session.messages, m.distinctive = true →
          ledger.seenBetween m.fingerprint (start - ledgerSlack) (last + ledgerSlack) = false := by
  unfold judge
  cases hwindow : session.window with
  | none =>
    constructor
    · intro h
      cases h
    · rintro ⟨start, last, h, -⟩
      cases h
  | some w =>
    obtain ⟨start, last⟩ := w
    simp only [Option.map_some, Option.some.injEq, Source.foreignModelProvesProxying, if_true]
    constructor
    · intro h
      refine ⟨start, last, rfl, ?_⟩
      by_cases hcutoff : before.any (fun cutoff => decide (cutoff ≤ last)) = true
      · rw [if_pos hcutoff] at h
        cases h
      · rw [if_neg hcutoff] at h
        cases hforeign : foreignModel session with
        | some model =>
          rw [hforeign] at h
          cases h
        | none =>
          rw [hforeign] at h
          by_cases hmatched : 0 < matched session ledger (start - ledgerSlack) (last + ledgerSlack)
          · simp [hmatched] at h
          · exact ⟨any_cutoff_eq_false_iff.mp (Bool.eq_false_of_not_eq_true hcutoff), rfl,
              (matched_eq_zero_iff ledger _ _).mp (by omega)⟩
    · rintro ⟨start', last', hspan, hcutoff, hforeign, hseen⟩
      cases hspan
      have hany := any_cutoff_eq_false_iff.mpr hcutoff
      have hmatched := (matched_eq_zero_iff ledger _ _).mpr hseen
      simp [hany, hforeign, hmatched]

/-- A Grok session is imported when the gateway served nothing of its provider around it. -/
theorem judge_grok_eq_imported_iff (served : List ℤ) (before : Option ℤ) :
    judge session (.activity served) .grokCli before = some .imported ↔
      ∃ start last, session.window = some (start, last) ∧ (∀ cutoff ∈ before, last < cutoff) ∧
        ∀ t ∈ served, t < start - ledgerSlack ∨ last + ledgerSlack < t := by
  unfold judge
  cases hwindow : session.window with
  | none =>
    constructor
    · intro h
      cases h
    · rintro ⟨start, last, h, -⟩
      cases h
  | some w =>
    obtain ⟨start, last⟩ := w
    have hle := Session.window_le hwindow
    have hwidened : start - ledgerSlack ≤ last + ledgerSlack := by
      unfold ledgerSlack
      omega
    have hnone : (LedgerIndex.activity served).servedBetween (start - ledgerSlack)
        (last + ledgerSlack) = 0 ↔
          ∀ t ∈ served, t < start - ledgerSlack ∨ last + ledgerSlack < t := by
      rw [LedgerIndex.servedBetween_activity served hwidened, List.countP_eq_zero]
      refine forall₂_congr (fun t _ => ?_)
      rw [decide_eq_true_eq]
      omega
    simp only [Option.map_some, Option.some.injEq, Source.foreignModelProvesProxying,
      Bool.false_eq_true, if_false]
    constructor
    · intro h
      refine ⟨start, last, rfl, ?_⟩
      by_cases hcutoff : before.any (fun cutoff => decide (cutoff ≤ last)) = true
      · rw [if_pos hcutoff] at h
        cases h
      · rw [if_neg hcutoff] at h
        refine ⟨any_cutoff_eq_false_iff.mp (Bool.eq_false_of_not_eq_true hcutoff), hnone.mp ?_⟩
        by_contra hserved
        rw [if_pos (Nat.pos_of_ne_zero hserved)] at h
        cases h
    · rintro ⟨start', last', hspan, hcutoff, hout⟩
      cases hspan
      rw [any_cutoff_eq_false_iff.mpr hcutoff, hnone.mpr hout]
      rfl

/-- The counts of a call as its transcript has them. -/
def Message.counts (m : Message) : Fingerprint :=
  (m.usage.inputTokens, m.usage.outputTokens, m.usage.cacheReadTokens, m.usage.cacheWriteTokens)

theorem clamp_eq {v : ℕ} (h : (v : ℤ) ≤ bigintMax) : clamp v = v := min_eq_left h

/-- No column clamps counts that a row has. -/
theorem fingerprint_eq_counts {row : GatewayRow} (h : row.counts = m.counts) :
    m.fingerprint = row.counts := by
  have hfits := row.fits
  rw [h] at hfits ⊢
  obtain ⟨hin, hout, hread, hwrite⟩ := hfits
  unfold Message.fingerprint
  rw [clamp_eq hin, clamp_eq hout, clamp_eq hread, clamp_eq hwrite]
  rfl

/-- No call of an imported session that is large enough has its counts in a row of its time. -/
theorem not_metered_of_imported {rows : List GatewayRow} {before : Option ℤ} {row : GatewayRow}
    (h : judge session (.build rows) .claudeCode before = some .imported)
    (hwindow : session.window = some (start, last)) (hm : m ∈ session.messages)
    (hdistinctive : m.distinctive = true) (hrow : row ∈ rows) (hcounts : row.counts = m.counts) :
    row.occurredAt < start - ledgerSlack ∨ last + ledgerSlack < row.occurredAt := by
  obtain ⟨start', last', hwindow', -, -, hseen⟩ := (judge_eq_imported_iff _ before).mp h
  cases hwindow.symm.trans hwindow'
  have hscan := hseen m hm hdistinctive
  rw [LedgerIndex.seenBetween_build, List.any_eq_false] at hscan
  have hout := hscan row hrow
  rw [decide_eq_true_eq, fingerprint_eq_counts hcounts] at hout
  by_contra hin
  exact hout ⟨rfl, by omega, by omega⟩

/-- No row with the counts of such a call is within the slack of the call itself. -/
theorem not_metered_near_of_imported {rows : List GatewayRow} {before : Option ℤ}
    {row : GatewayRow} (h : judge session (.build rows) .claudeCode before = some .imported)
    (hm : m ∈ session.messages) (hdistinctive : m.distinctive = true) (hrow : row ∈ rows)
    (hcounts : row.counts = m.counts) : ledgerSlack < |row.occurredAt - m.occurredAt| := by
  obtain ⟨start, last, hwindow⟩ := Session.exists_window hm
  obtain ⟨hstart, hlast⟩ := Session.window_bounds hwindow hm
  rw [lt_abs]
  rcases not_metered_of_imported h hwindow hm hdistinctive hrow hcounts with hbefore | hafter
  · right
    omega
  · left
    omega

end OpenAIGateway.UsageImport
