import OpenAIGateway.CatalogRecords
import Mathlib.Data.List.Forall2

/-!
Statements that write prices into the catalogue, carried out one after the other
up to the first that a column refuses. Which of them write a record is decided
by the table they start from, and what they write is their prices, rounded.
-/

set_option linter.all false

namespace OpenAIGateway

namespace CatalogTable

/-- What a price rounds to has its sign, from half of the column's last place on. -/
theorem column_sign {d s : Decimal} (h : column d = some s) :
    (0 ≤ s.val ↔ -(1 / 2) / 10 ^ 6 < d.val) ∧ (0 < s.val ↔ 1 / 2 / 10 ^ 6 ≤ d.val) := by
  unfold column at h
  obtain ⟨hfits, hs⟩ := Option.ite_none_right_eq_some.mp h
  have hscale : (0 : ℚ) < 10 ^ 6 := by positivity
  rw [← Option.some.inj hs, Decimal.new_val (lt_trans hfits (by norm_num)) (by omega),
    le_div_iff₀ hscale, lt_div_iff₀ hscale, zero_mul, Int.cast_nonneg_iff, Int.cast_pos,
    div_lt_iff₀ hscale, div_le_iff₀ hscale]
  by_cases hsign : 0 ≤ d.val * 10 ^ 6
  · rw [if_pos hsign]
    constructor
    · constructor
      · intro _
        linarith
      · intro _
        apply Int.floor_nonneg.mpr
        linarith
    · rw [Int.floor_pos]
      constructor
      · intro hle
        linarith
      · intro hle
        linarith
  · rw [if_neg hsign]
    rw [not_le] at hsign
    constructor
    · rw [neg_nonneg, ← Int.lt_add_one_iff, zero_add, Int.floor_lt]
      push_cast
      constructor
      · intro hlt
        linarith
      · intro hlt
        linarith
    · rw [neg_pos, Int.floor_lt]
      push_cast
      constructor
      · intro hlt
        linarith
      · intro hle
        linarith

/-- Two prices that are stored as no free model's and no negative one's. -/
def PaysRounded (input output : Decimal) : Prop :=
  -(1 / 2) / 10 ^ 6 < input.val ∧ -(1 / 2) / 10 ^ 6 < output.val ∧
    (1 / 2 / 10 ^ 6 ≤ input.val ∨ 1 / 2 / 10 ^ 6 ≤ output.val)

/-- Neither price is negative, and they are not both zero. -/
def Paid (input output : Decimal) : Prop :=
  0 ≤ input.val ∧ 0 ≤ output.val ∧ ¬ (input.val = 0 ∧ output.val = 0)

theorem paid_column_iff {input output storedInput storedOutput : Decimal}
    (hinput : column input = some storedInput) (houtput : column output = some storedOutput) :
    Paid storedInput storedOutput ↔ PaysRounded input output := by
  obtain ⟨hnonneg, hpos⟩ := column_sign hinput
  obtain ⟨hnonneg', hpos'⟩ := column_sign houtput
  unfold Paid PaysRounded
  rw [← hnonneg, ← hpos, ← hnonneg', ← hpos']
  refine and_congr_right (fun hi => and_congr_right (fun ho => ?_))
  rw [not_and_or, lt_iff_le_and_ne, lt_iff_le_and_ne]
  constructor
  · rintro (hne | hne)
    · exact .inl ⟨hi, Ne.symm hne⟩
    · exact .inr ⟨ho, Ne.symm hne⟩
  · rintro (⟨-, hne⟩ | ⟨-, hne⟩)
    · exact .inl (Ne.symm hne)
    · exact .inr (Ne.symm hne)

end CatalogTable

open CatalogTable

/-- Refresh the prices of a row that is no override; a cache price that is not stated
leaves the one there is. -/
def CatalogRecords.updateModelPrices (table : CatalogRecords) (id : String) (input output : Decimal)
    (cacheRead : Option Decimal) (now : ℤ) : Option CatalogRecords :=
  match table.get id with
  | none => some table
  | some old =>
    if old.isOverride then some table
    else
      (column input).bind (fun input => (column output).bind (fun output =>
        (optionalColumn cacheRead).map (fun cacheRead =>
          table.put
            { old with
              row := { old.row with
                inputPerMtok := input
                outputPerMtok := output
                cacheReadPerMtok := cacheRead.or old.row.cacheReadPerMtok }
              updatedAt := now })))

/-- One catalogue write of a price writer. -/
inductive PriceSync
  | reprice (id : String) (input output : Decimal) (cacheRead : Option Decimal)
  | insert (row : CatalogRow)

namespace PriceSync

def id : PriceSync → String
  | .reprice id .. => id
  | .insert row => row.id

def input : PriceSync → Decimal
  | .reprice _ input .. => input
  | .insert row => row.inputPerMtok

def output : PriceSync → Decimal
  | .reprice _ _ output _ => output
  | .insert row => row.outputPerMtok

/-- The table after a write; `none` when a column refuses it. -/
def carryOut (table : CatalogRecords) (now : ℤ) : PriceSync → Option CatalogRecords
  | .reprice id input output cacheRead => table.updateModelPrices id input output cacheRead now
  | .insert row => table.upsertModel row false now

/-- An operator's override has the id. -/
def held (table : CatalogRecords) (id : String) : Bool :=
  (table.get id).any CatalogRecord.isOverride

/-- The record a write left, unless an override was left alone. -/
def wrote (before after : CatalogRecords) (id : String) : Option CatalogRecord :=
  if held before id then none else after.get id

/-- Carry the writes out, up to the first one refused: the table, and the records written. -/
def carryOutAll (now : ℕ → ℤ) :
    ℕ → List PriceSync → CatalogRecords → CatalogRecords × List CatalogRecord
  | _, [], table => (table, [])
  | k, w :: rest, table =>
    match w.carryOut table (now k) with
    | none => (table, [])
    | some next =>
      let after := carryOutAll now (k + 1) rest next
      (after.1, (wrote table next w.id).toList ++ after.2)

/-- The columns hold what the write states. -/
def accepted : PriceSync → Bool
  | .reprice _ input output cacheRead =>
    (column input).isSome && (column output).isSome && (optionalColumn cacheRead).isSome
  | .insert row => row.stored.isSome

/-- The write falls on a record: a new one, or one that is there and no override. -/
def falls (table : CatalogRecords) : PriceSync → Bool
  | .reprice id .. => (table.get id).any (fun old => !old.isOverride)
  | .insert row => !held table row.id

/-- The write is not refused. An update of no record is not, whatever it states. -/
def passes (table : CatalogRecords) (w : PriceSync) : Bool :=
  match w with
  | .reprice .. => !w.falls table || w.accepted
  | .insert _ => w.accepted

/-- The writes that leave a record, of those before the first one refused. -/
def executed (table : CatalogRecords) (writes : List PriceSync) : List PriceSync :=
  (writes.takeWhile (passes table)).filter (falls table)

/-- The provider of the record a write leaves. -/
def provider (table : CatalogRecords) : PriceSync → String
  | .reprice id .. => ((table.get id).map (fun old => old.row.provider)).getD ""
  | .insert row => row.provider

/-- Only records that are there are repriced, and none of them is inserted. -/
def Planned (table : CatalogRecords) (writes : List PriceSync) : Prop :=
  ∀ id input output cacheRead, .reprice id input output cacheRead ∈ writes →
    (table.get id).isSome ∧ ∀ row, .insert row ∈ writes → row.id ≠ id

/-- A record with the write's prices, rounded, under a provider. -/
def States (w : PriceSync) (provider : String) (record : CatalogRecord) : Prop :=
  column w.input = some record.row.inputPerMtok ∧
    column w.output = some record.row.outputPerMtok ∧ record.row.provider = provider

variable {now : ℕ → ℤ} {k : ℕ} {t : ℤ} {w : PriceSync} {writes : List PriceSync}
  {table before next : CatalogRecords}

/-- A table part of the way through the writes, seen from the one they started from: the
same overrides, and the repriced records still there under their providers. -/
structure Midway (table before : CatalogRecords) (writes : List PriceSync) : Prop where
  held : ∀ id, PriceSync.held before id = PriceSync.held table id
  there : ∀ id input output cacheRead, .reprice id input output cacheRead ∈ writes →
    ∃ old old', table.get id = some old ∧ before.get id = some old' ∧
      old'.isOverride = old.isOverride ∧ old'.row.provider = old.row.provider

theorem midway_refl (h : Planned table writes) : Midway table table writes where
  held := fun _ => rfl
  there := fun id input output cacheRead hmem => by
    obtain ⟨old, hold⟩ := Option.isSome_iff_exists.mp (h id input output cacheRead hmem).1
    exact ⟨old, old, hold, hold, rfl, rfl⟩

theorem Midway.falls_eq (h : Midway table before writes) (hw : w ∈ writes) :
    w.falls before = w.falls table := by
  cases w with
  | insert row => simp only [falls, h.held]
  | reprice id input output cacheRead =>
    obtain ⟨old, old', hold, hold', hoverride, -⟩ := h.there id input output cacheRead hw
    simp [falls, hold, hold', hoverride]

theorem Midway.passes_eq (h : Midway table before writes) (hw : w ∈ writes) :
    w.passes before = w.passes table := by
  have hfalls := h.falls_eq hw
  cases w with
  | insert row => rfl
  | reprice id input output cacheRead => simp only [passes, hfalls]

theorem Midway.provider_eq (h : Midway table before writes) (hw : w ∈ writes) :
    w.provider before = w.provider table := by
  cases w with
  | insert row => rfl
  | reprice id input output cacheRead =>
    obtain ⟨old, old', hold, hold', -, hprovider⟩ := h.there id input output cacheRead hw
    simp [provider, hold, hold', hprovider]

/-- What a write does: it is refused and stops the run, falls on no record and leaves
the table, or leaves one record under its id that is no override. -/
inductive Outcome (table : CatalogRecords) (t : ℤ) (w : PriceSync) : Prop
  | refused (hpasses : w.passes table = false) (hnone : w.carryOut table t = none)
  | left (hpasses : w.passes table = true) (hfalls : w.falls table = false)
      (hsame : w.carryOut table t = some table)
  | written (next : CatalogRecords) (record : CatalogRecord) (hpasses : w.passes table = true)
      (hfalls : w.falls table = true) (hnext : w.carryOut table t = some next)
      (hplain : record.isOverride = false) (hstates : w.States (w.provider table) record)
      (hget : ∀ id, next.get id = if id = w.id then some record else table.get id)

theorem outcome_insert (table : CatalogRecords) (t : ℤ) (row : CatalogRow) :
    Outcome table t (.insert row) := by
  cases hstored : row.stored with
  | none =>
    apply Outcome.refused
    · simp [passes, accepted, hstored]
    · exact (CatalogRecords.upsertModel_eq_none_iff ..).mpr hstored
  | some row' =>
    have hpasses : passes table (.insert row) = true := by simp [passes, accepted, hstored]
    obtain ⟨next, hnext⟩ : ∃ next, table.upsertModel row false t = some next := by
      cases hwrite : table.upsertModel row false t with
      | none => simp [(CatalogRecords.upsertModel_eq_none_iff ..).mp hwrite] at hstored
      | some next => exact ⟨next, rfl⟩
    obtain ⟨row'', hstored', hget⟩ := CatalogRecords.get_upsertModel hnext
    obtain rfl : row' = row'' := Option.some.inj (hstored.symm.trans hstored')
    obtain ⟨-, hprovider, -⟩ := CatalogRow.stored_keeps hstored
    obtain ⟨input, output, cacheRead, cacheWrite, hinput, houtput, -, -, hrow⟩ :=
      CatalogRow.stored_eq_some_iff.mp hstored
    cases hold : table.get row.id with
    | none =>
      rw [hold] at hget
      refine Outcome.written next (CatalogRecords.inserted row' false t) hpasses ?_ hnext rfl ?_ hget
      · simp [falls, held, hold]
      · subst hrow
        exact ⟨hinput, houtput, rfl⟩
    | some old =>
      rw [hold] at hget
      cases hoverride : old.isOverride with
      | true =>
        apply Outcome.left hpasses
        · simp [falls, held, hold, hoverride]
        · have hsame : next = table := by
            apply CatalogRecords.ext_get
            intro id
            rw [hget]
            by_cases hid : id = row.id
            · simp [hid, hold, CatalogRecords.upserted, hoverride]
            · rw [if_neg hid]
          rw [← hsame] at hnext ⊢
          exact hsame ▸ hnext
      | false =>
        have hrefreshed : CatalogRecords.upserted (some old) row' false t =
            CatalogRecords.refreshed old row' t := by
          simp [CatalogRecords.upserted, hoverride]
        rw [hrefreshed] at hget
        refine Outcome.written next (CatalogRecords.refreshed old row' t) hpasses ?_ hnext hoverride
          ?_ hget
        · simp [falls, held, hold, hoverride]
        · subst hrow
          exact ⟨hinput, houtput, rfl⟩

theorem outcome_reprice (table : CatalogRecords) (t : ℤ) (id : String) (input output : Decimal)
    (cacheRead : Option Decimal) : Outcome table t (.reprice id input output cacheRead) := by
  cases hold : table.get id with
  | none =>
    apply Outcome.left
    · simp [passes, falls, hold]
    · simp [falls, hold]
    · simp [carryOut, CatalogRecords.updateModelPrices, hold]
  | some old =>
    cases hoverride : old.isOverride with
    | true =>
      apply Outcome.left
      · simp [passes, falls, hold, hoverride]
      · simp [falls, hold, hoverride]
      · simp [carryOut, CatalogRecords.updateModelPrices, hold, hoverride]
    | false =>
      have hfalls : falls table (.reprice id input output cacheRead) = true := by
        simp [falls, hold, hoverride]
      cases hinput : column input with
      | none =>
        apply Outcome.refused
        · simp [passes, hfalls, accepted, hinput]
        · simp [carryOut, CatalogRecords.updateModelPrices, hold, hoverride, hinput]
      | some storedInput =>
        cases houtput : column output with
        | none =>
          apply Outcome.refused
          · simp [passes, hfalls, accepted, houtput]
          · simp [carryOut, CatalogRecords.updateModelPrices, hold, hoverride, hinput, houtput]
        | some storedOutput =>
          cases hread : optionalColumn cacheRead with
          | none =>
            apply Outcome.refused
            · simp [passes, hfalls, accepted, hread]
            · simp [carryOut, CatalogRecords.updateModelPrices, hold, hoverride, hinput, houtput,
                hread]
          | some storedRead =>
            let record : CatalogRecord :=
              { old with
                row := { old.row with
                  inputPerMtok := storedInput
                  outputPerMtok := storedOutput
                  cacheReadPerMtok := storedRead.or old.row.cacheReadPerMtok }
                updatedAt := t }
            have hnext : carryOut table t (.reprice id input output cacheRead) =
                some (table.put record) := by
              simp [carryOut, CatalogRecords.updateModelPrices, hold, hoverride, hinput, houtput,
                hread, record]
            refine Outcome.written (table.put record) record ?_ hfalls hnext hoverride ?_ ?_
            · simp [passes, accepted, hinput, houtput, hread]
            · exact ⟨hinput, houtput, by simp [provider, hold, record]⟩
            · intro other
              have hid : record.row.id = id := (CatalogRecords.get_eq_some_iff.mp hold).2
              rw [CatalogRecords.get_put, hid]
              rfl

theorem outcome (table : CatalogRecords) (t : ℤ) (w : PriceSync) : Outcome table t w := by
  cases w with
  | insert row => exact outcome_insert table t row
  | reprice id input output cacheRead => exact outcome_reprice table t id input output cacheRead

theorem held_of_falls (h : w.falls table = true) : held table w.id = false := by
  cases w with
  | insert row =>
    unfold falls at h
    exact Bool.not_eq_true' _ ▸ h
  | reprice id input output cacheRead =>
    obtain ⟨old, hold, hplain⟩ := (Option.any_eq_true ..).mp h
    simpa [held, PriceSync.id, hold] using hplain

/-- A write that falls on no record has none to show. -/
theorem wrote_of_not_falls (h : w.falls table = false) : wrote table table w.id = none := by
  unfold wrote
  cases w with
  | insert row =>
    have hheld : held table row.id = true := by simpa [falls] using h
    exact if_pos hheld
  | reprice id input output cacheRead =>
    cases hold : table.get id with
    | none => simp [PriceSync.id, hold]
    | some old =>
      have hoverride : old.isOverride = true := by simpa [falls, hold] using h
      simp [PriceSync.id, held, hold, hoverride]

/-- Half way through, a write to come is still midway once one more is carried out. -/
theorem Midway.step (hplan : Planned table writes) (h : Midway table before writes)
    (hw : w ∈ writes) (hnext : w.carryOut before t = some next) : Midway table next writes := by
  rcases outcome before t w with ⟨-, hnone⟩ | ⟨-, -, hsame⟩ |
    ⟨next', record, -, hfalls, hnext', hplain, hstates, hget⟩
  · rw [hnone] at hnext
    cases hnext
  · obtain rfl : before = next := Option.some.inj (hsame.symm.trans hnext)
    exact h
  · obtain rfl : next' = next := Option.some.inj (hnext'.symm.trans hnext)
    have hnotHeld := held_of_falls hfalls
    constructor
    · intro id
      rw [← h.held id]
      by_cases hid : id = w.id
      · rw [hid, hnotHeld]
        simp [PriceSync.held, hget, hplain]
      · simp [PriceSync.held, hget, hid]
    · intro id input output cacheRead hmem
      obtain ⟨old, old', hold, hold', hoverride, hprovider⟩ :=
        h.there id input output cacheRead hmem
      by_cases hid : id = w.id
      · refine ⟨old, record, hold, by rw [hget, if_pos hid], ?_, ?_⟩
        · rw [hplain, ← hoverride]
          simpa [PriceSync.held, ← hid, hold'] using hnotHeld.symm
        · rw [hstates.2.2]
          cases w with
          | insert row => exact absurd hid.symm ((hplan id input output cacheRead hmem).2 row hw)
          | reprice id' input' output' cacheRead' =>
            obtain rfl : id = id' := hid
            simp [provider, hold', hprovider]
      · exact ⟨old, old', hold, by rw [hget, if_neg hid, hold'], hoverride, hprovider⟩

/-- The records written are those of the writes that leave one, in their order. -/
theorem forall₂_executed_of_midway {rest : List PriceSync} (hplan : Planned table writes)
    (hrest : ∀ w ∈ rest, w ∈ writes) (h : Midway table before writes) :
    List.Forall₂ (fun w record => States w (w.provider table) record) (executed table rest)
      (carryOutAll now k rest before).2 := by
  induction rest generalizing k before with
  | nil => exact .nil
  | cons w rest ih =>
    have hw : w ∈ writes := hrest w List.mem_cons_self
    have hrest' : ∀ w ∈ rest, w ∈ writes := fun w hw => hrest w (List.mem_cons_of_mem _ hw)
    unfold carryOutAll executed
    rcases outcome before (now k) w with ⟨hpasses, hnone⟩ | ⟨hpasses, hfalls, hsame⟩ |
      ⟨next, record, hpasses, hfalls, hnext, hplain, hstates, hget⟩
    · rw [h.passes_eq hw] at hpasses
      rw [hnone, List.takeWhile_cons_of_neg (by simp [hpasses])]
      exact .nil
    · rw [h.passes_eq hw] at hpasses
      rw [h.falls_eq hw] at hfalls
      rw [hsame, List.takeWhile_cons_of_pos hpasses, List.filter_cons_of_neg (by simp [hfalls])]
      rw [← h.falls_eq hw] at hfalls
      simp only [wrote_of_not_falls hfalls, Option.toList_none, List.nil_append]
      exact ih hrest' h
    · have hmid := h.step hplan hw hnext
      have hwrote : wrote before next w.id = some record := by
        rw [wrote, if_neg (by simp [held_of_falls hfalls]), hget, if_pos rfl]
      rw [h.passes_eq hw] at hpasses
      rw [h.falls_eq hw] at hfalls
      rw [h.provider_eq hw] at hstates
      rw [hnext, List.takeWhile_cons_of_pos hpasses, List.filter_cons_of_pos hfalls]
      simp only [hwrote, Option.toList_some, List.singleton_append]
      exact .cons hstates (ih hrest' hmid)

theorem forall₂_executed (hplan : Planned table writes) :
    List.Forall₂ (fun w record => States w (w.provider table) record) (executed table writes)
      (carryOutAll now k writes table).2 :=
  forall₂_executed_of_midway hplan (fun _ hw => hw) (midway_refl hplan)

/-- Every record written of a provider that passes is paid for. -/
def StoresPaid (chat : String → Bool) (now : ℕ → ℤ) (writes : List PriceSync)
    (table : CatalogRecords) : Prop :=
  ∀ record ∈ (carryOutAll now 0 writes table).2, chat record.row.provider = true →
    Paid record.row.inputPerMtok record.row.outputPerMtok

/-- The records written are paid for exactly when the prices the writes state round to that. -/
theorem storesPaid_iff (hplan : Planned table writes) (chat : String → Bool) :
    StoresPaid chat now writes table ↔
      ∀ w ∈ executed table writes, chat (w.provider table) = true →
        PaysRounded w.input w.output := by
  have hall : List.Forall₂ (fun w record => States w (w.provider table) record)
      (executed table writes) (carryOutAll now 0 writes table).2 := forall₂_executed hplan
  unfold StoresPaid
  generalize executed table writes = ws at hall ⊢
  generalize (carryOutAll now 0 writes table).2 = records at hall ⊢
  induction hall with
  | nil => simp
  | cons hstates _ ih =>
    obtain ⟨hinput, houtput, hprovider⟩ := hstates
    rw [List.forall_mem_cons, List.forall_mem_cons]
    refine and_congr ?_ ih
    rw [hprovider, paid_column_iff hinput houtput]

end PriceSync

end OpenAIGateway
