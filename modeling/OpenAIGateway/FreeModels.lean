import OpenAIGateway.PriceSources
import OpenAIGateway.SyncAgain
import OpenAIGateway.ModelDiscovery
import Mathlib.Data.List.TakeWhile

/-!
Which writers can store a price that wins every comparison. An endpoint's list
and `catalog add` judge a price as the column will hold it, so neither stores a
free or negative one unless told to. The pricing table, the price list and the
discovery judge it as it is written, and store what rounding makes of it.
-/

set_option linter.all false

namespace OpenAIGateway

open CatalogTable PriceSync

/-- Whether a row is a chat model's: its provider parses, and is asked in a chat dialect. -/
def isChat (registry : String → Option EndpointMaps.Dialect) (provider : String) : Bool :=
  match Provider.builtin provider with
  | some .jev => false
  | some _ => true
  | none => (registry provider).any (fun dialect => decide (dialect ≠ .systemOne))

/-- A run of inserts reprices nothing. -/
theorem planned_inserts (table : CatalogRecords) (rows : List CatalogRow) :
    Planned table (rows.map PriceSync.insert) := by
  intro id input output cacheRead hmem
  obtain ⟨row, -, h⟩ := List.mem_map.mp hmem
  cases h

theorem mem_executed {table : CatalogRecords} {writes : List PriceSync} {w : PriceSync}
    (h : w ∈ executed table writes) : w ∈ writes ∧ w.passes table = true ∧ w.falls table = true := by
  obtain ⟨htake, hfalls⟩ := List.mem_filter.mp h
  exact ⟨(List.takeWhile_sublist _).subset htake, List.mem_takeWhile_imp htake, hfalls⟩

/-- What a write that leaves a record states, its columns hold. -/
theorem column_isSome_of_executed {table : CatalogRecords} {writes : List PriceSync}
    {w : PriceSync} (h : w ∈ executed table writes) :
    (column w.input).isSome ∧ (column w.output).isSome := by
  obtain ⟨-, hpasses, hfalls⟩ := mem_executed h
  cases w with
  | insert row =>
    obtain ⟨row', hrow⟩ := Option.isSome_iff_exists.mp hpasses
    obtain ⟨input, output, cacheRead, cacheWrite, hinput, houtput, -⟩ :=
      CatalogRow.stored_eq_some_iff.mp hrow
    simp [PriceSync.input, PriceSync.output, hinput, houtput]
  | reprice id input output cacheRead =>
    simp only [passes, hfalls, accepted, Bool.not_true, Bool.false_or, Bool.and_eq_true] at hpasses
    exact hpasses.1

namespace LiteLlm

variable {arith : Arithmetic} {texts : DecimalText}

theorem million_val : million.val = 10 ^ 6 := by
  rw [million, Decimal.new_val (by norm_num) (by omega)]
  norm_num

/-- What a column holds is below its limit. -/
theorem column_abs_lt {d s : Decimal} (h : column d = some s) : |d.val| < 2 * 10 ^ 12 := by
  unfold column at h
  obtain ⟨hfits, -⟩ := Option.ite_none_right_eq_some.mp h
  have hcast : ((|if 0 ≤ d.val * 10 ^ 6 then ⌊d.val * 10 ^ 6 + 1 / 2⌋
      else -⌊-(d.val * 10 ^ 6) + 1 / 2⌋| : ℤ) : ℚ) < 10 ^ 12 := by exact_mod_cast hfits
  by_cases hsign : 0 ≤ d.val * 10 ^ 6
  · rw [if_pos hsign, Int.cast_abs] at hcast
    have hfloor := Int.lt_floor_add_one (d.val * 10 ^ 6 + 1 / 2)
    have hle := le_abs_self ((⌊d.val * 10 ^ 6 + 1 / 2⌋ : ℤ) : ℚ)
    rw [abs_of_nonneg (by linarith)]
    linarith
  · rw [if_neg hsign, Int.cast_abs, Int.cast_neg, abs_neg] at hcast
    have hfloor := Int.lt_floor_add_one (-(d.val * 10 ^ 6) + 1 / 2)
    have hle := le_abs_self ((⌊-(d.val * 10 ^ 6) + 1 / 2⌋ : ℤ) : ℚ)
    rw [abs_of_neg (by linarith)]
    linarith

/-- A product that a column holds is exact. -/
theorem mul_million_exact {d p : Decimal} (hmul : arith.mul d million = some p)
    (hcolumn : (column p).isSome) : p.val = 10 ^ 6 * d.val := by
  obtain ⟨s, hs⟩ := Option.isSome_iff_exists.mp hcolumn
  rcases d.mul_million with hrep | ⟨-, hbig⟩
  · have hexact := arith.mul_rounded.exact_of_representable (d, million) ⟨10 ^ 6 * d.val, hrep⟩
      (by rw [million_val, mul_comm])
    rw [hmul] at hexact
    cases hexact
    rfl
  · -- Beyond two millions the product is past the column's limit, however it is rounded.
    exfalso
    have hlimit := column_abs_lt hs
    have hbound : ∀ n : ℤ, |n| = 2 * 10 ^ 6 → ∃ e : Decimal, e.val = n ∧
        ∃ q : Decimal, q.val = n * 10 ^ 6 ∧ arith.mul e million = some q := by
      intro n hn
      have he : (Decimal.new n 0).val = n := by
        rw [Decimal.new_val (by omega) (by omega), pow_zero, div_one]
      have hq : (Decimal.new (n * 10 ^ 6) 0).val = n * 10 ^ 6 := by
        rw [Decimal.new_val (by rw [abs_mul, hn]; norm_num) (by omega), pow_zero, div_one]
        push_cast
        rfl
      refine ⟨_, he, _, hq, ?_⟩
      apply arith.mul_rounded.exact_of_representable (Decimal.new n 0, million)
      rw [he, hq, million_val]
    rcases le_abs.mp hbig with hpos | hneg
    · obtain ⟨e, he, q, hq, hmulq⟩ := hbound (2 * 10 ^ 6) (by norm_num)
      have hle := arith.mul_rounded.mono (e, million) (d, million) q p hmulq hmul
        (by
          rw [he, million_val]
          push_cast
          linarith)
      rw [hq] at hle
      push_cast at hle
      have hself := le_abs_self p.val
      linarith
    · obtain ⟨e, he, q, hq, hmulq⟩ := hbound (-(2 * 10 ^ 6)) (by norm_num)
      have hle := arith.mul_rounded.mono (d, million) (e, million) p q hmul hmulq
        (by
          rw [he, million_val]
          push_cast
          linarith)
      rw [hq] at hle
      push_cast at hle
      have hself := neg_abs_le p.val
      linarith

/-- Prices per token that round to a paid model's. -/
def PaysPerToken (input output : Decimal) : Prop :=
  -(1 / 2) / 10 ^ 12 < input.val ∧ -(1 / 2) / 10 ^ 12 < output.val ∧
    (1 / 2 / 10 ^ 12 ≤ input.val ∨ 1 / 2 / 10 ^ 12 ≤ output.val)

theorem paysRounded_of_token {input output scaledInput scaledOutput : Decimal}
    (hinput : scaledInput.val = 10 ^ 6 * input.val)
    (houtput : scaledOutput.val = 10 ^ 6 * output.val) :
    PaysRounded scaledInput scaledOutput ↔ PaysPerToken input output := by
  have hlow : ∀ x : ℚ, -(1 / 2) / 10 ^ 6 < 10 ^ 6 * x ↔ -(1 / 2) / 10 ^ 12 < x := by
    intro x
    constructor
    · intro h
      linarith
    · intro h
      linarith
  have hhigh : ∀ x : ℚ, 1 / 2 / 10 ^ 6 ≤ 10 ^ 6 * x ↔ 1 / 2 / 10 ^ 12 ≤ x := by
    intro x
    constructor
    · intro h
      linarith
    · intro h
      linarith
  unfold PaysRounded PaysPerToken
  rw [hinput, houtput, hlow, hlow, hhigh, hhigh]

theorem rowOf_eq_some {entry : Entry} {row : CatalogRow} (h : rowOf arith texts entry = some row) :
    arith.mul entry.input million = some row.inputPerMtok ∧
      arith.mul entry.output million = some row.outputPerMtok ∧
      row.provider = entry.known.asStr := by
  unfold rowOf at h
  obtain ⟨input, hinput, h⟩ := Option.bind_eq_some_iff.mp h
  obtain ⟨output, houtput, h⟩ := Option.bind_eq_some_iff.mp h
  obtain ⟨cacheRead, -, h⟩ := Option.bind_eq_some_iff.mp h
  obtain ⟨cacheWrite, -, rfl⟩ := Option.map_eq_some_iff.mp h
  exact ⟨hinput, houtput, rfl⟩

theorem mem_mapM_iff {α β : Type*} {f : α → Option β} {xs : List α} {ys : List β}
    (h : xs.mapM f = some ys) (y : β) : y ∈ ys ↔ ∃ x ∈ xs, f x = some y := by
  induction xs generalizing ys with
  | nil =>
    cases h
    simp
  | cons x xs ih =>
    rw [List.mapM_cons] at h
    obtain ⟨first, hfirst, h⟩ := Option.bind_eq_some_iff.mp h
    obtain ⟨rest, hrest, h⟩ := Option.bind_eq_some_iff.mp h
    cases h
    simp [ih hrest, hfirst, eq_comm]

/-- The entries a pricing table has for this gateway. -/
def docEntries (registry : String → Bool) (texts : DecimalText) : Json → List Entry
  | .obj members => entries registry texts members
  | _ => []

theorem mem_seedWrites {registry : String → Bool} {doc : Json} {origin : String} {w : PriceSync}
    (h : w ∈ seedWrites (fromLitellm registry texts arith doc origin)) :
    ∃ entry ∈ docEntries registry texts doc, ∃ row,
      rowOf arith texts entry = some row ∧ w = .insert row := by
  cases doc with
  | obj members =>
    unfold fromLitellm at h
    dsimp only at h
    cases hrows : (entries registry texts members).mapM (rowOf arith texts) with
    | none => simp [hrows, seedWrites] at h
    | some rows =>
      rw [hrows, Option.map_some] at h
      by_cases hempty : rows.isEmpty = true
      · simp [hempty, seedWrites] at h
      · rw [if_neg hempty] at h
        obtain ⟨row, hrow, rfl⟩ := List.mem_map.mp h
        obtain ⟨entry, hentry, hrowOf⟩ := (mem_mapM_iff hrows row).mp hrow
        exact ⟨entry, hentry, row, hrowOf, rfl⟩
  | _ => simp [fromLitellm, seedWrites] at h

theorem planned_seedWrites (table : CatalogRecords)
    (read : Option (Except String (List CatalogRow))) : Planned table (seedWrites read) := by
  rcases read with _ | (_ | rows)
  · exact planned_inserts table []
  · exact planned_inserts table []
  · exact planned_inserts table rows

/-- A seed stores paid chat models alone exactly when the per-token prices of those it
writes round to that. -/
theorem seed_paid_iff (registry : String → Option EndpointMaps.Dialect) (texts : DecimalText)
    (arith : Arithmetic) (doc : Json) (origin : String) (table : CatalogRecords) (now : ℕ → ℤ) :
    let writes :=
      seedWrites (fromLitellm (fun s => (registry s).isSome) texts arith doc origin)
    StoresPaid (isChat registry) now writes table ↔
    ∀ entry ∈ docEntries (fun s => (registry s).isSome) texts doc, ∀ row,
      rowOf arith texts entry = some row → .insert row ∈ executed table writes →
      isChat registry entry.known.asStr = true → PaysPerToken entry.input entry.output := by
  intro writes
  have htoken : ∀ entry row, rowOf arith texts entry = some row →
      .insert row ∈ executed table writes →
      (PaysRounded row.inputPerMtok row.outputPerMtok ↔
        PaysPerToken entry.input entry.output) := by
    intro entry row hrow hmem
    obtain ⟨hinput, houtput, -⟩ := rowOf_eq_some hrow
    obtain ⟨hinputSome, houtputSome⟩ := column_isSome_of_executed hmem
    exact paysRounded_of_token (mul_million_exact hinput hinputSome)
      (mul_million_exact houtput houtputSome)
  rw [storesPaid_iff (planned_seedWrites table _)]
  constructor
  · intro h entry hentry row hrow hmem hchat
    apply (htoken entry row hrow hmem).mp
    apply h _ hmem
    rw [provider, (rowOf_eq_some hrow).2.2]
    exact hchat
  · intro h w hmem hchat
    obtain ⟨entry, hentry, row, hrow, rfl⟩ := mem_seedWrites (mem_executed hmem).1
    apply (htoken entry row hrow hmem).mpr
    apply h entry hentry row hrow hmem
    rw [← (rowOf_eq_some hrow).2.2]
    exact hchat

end LiteLlm

namespace XaiPrices

theorem perMtok_val (raw : Int64) : (perMtok raw).val = raw.toInt / 10 ^ 4 := by
  have hlow := raw.le_toInt
  have hhigh := raw.toInt_lt
  unfold perMtok
  rw [Decimal.new_val (by rw [abs_lt]; constructor <;> omega) (by omega)]

/-- What the list states of a model that is taken from it. -/
theorem priceOf_eq_some {m : Model} {p : ModelPrice} (h : priceOf m = some p) :
    p.inputPerMtok = perMtok m.promptTextTokenPrice ∧
      p.outputPerMtok = perMtok m.completionTextTokenPrice ∧
      (m.promptTextTokenPrice.toInt ≠ 0 ∨ m.completionTextTokenPrice.toInt ≠ 0) := by
  unfold priceOf at h
  split at h
  · cases h
  · dsimp only at h
    split at h
    · cases h
    · rename_i hpaid
      cases h
      refine ⟨rfl, rfl, ?_⟩
      rw [perMtok_val, perMtok_val] at hpaid
      by_contra hzero
      push Not at hzero
      apply hpaid
      simp [hzero.1, hzero.2]

/-- A price in ten-thousandths is stored as it is. -/
theorem paysRounded_perMtok {input output : Int64} (h : input.toInt ≠ 0 ∨ output.toInt ≠ 0) :
    PaysRounded (perMtok input) (perMtok output) ↔ 0 ≤ input.toInt ∧ 0 ≤ output.toInt := by
  have hlow : ∀ n : ℤ, -(1 / 2) / 10 ^ 6 < (n : ℚ) / 10 ^ 4 ↔ 0 ≤ n := by
    intro n
    constructor
    · intro hlt
      by_contra hneg
      have hle : (n : ℚ) ≤ -1 := by exact_mod_cast (by omega : n ≤ -1)
      linarith
    · intro hle
      have hcast : (0 : ℚ) ≤ n := by exact_mod_cast hle
      linarith
  have hhigh : ∀ n : ℤ, 1 / 2 / 10 ^ 6 ≤ (n : ℚ) / 10 ^ 4 ↔ 1 ≤ n := by
    intro n
    constructor
    · intro hle
      by_contra hlt
      have hcast : (n : ℚ) ≤ 0 := by exact_mod_cast (by omega : n ≤ 0)
      linarith
    · intro hle
      have hcast : (1 : ℚ) ≤ n := by exact_mod_cast hle
      linarith
  unfold PaysRounded
  rw [perMtok_val, perMtok_val, hlow, hlow, hhigh, hhigh]
  constructor
  · rintro ⟨hinput, houtput, -⟩
    exact ⟨hinput, houtput⟩
  · rintro ⟨hinput, houtput⟩
    exact ⟨hinput, houtput, by omega⟩

theorem planned_syncWrites (models : List Model) (table : CatalogRecords) :
    Planned table (syncWrites models table) := by
  have hknown : ∀ id, (table.records.map (fun record => record.row.id)).contains id = true ↔
      (table.get id).isSome := by
    intro id
    rw [List.contains_iff_mem, List.mem_map, Option.isSome_iff_exists]
    simp only [CatalogRecords.get_eq_some_iff]
  intro id input output cacheRead hmem
  obtain ⟨p, -, hp⟩ := List.mem_map.mp hmem
  unfold planOne at hp
  dsimp only at hp
  split at hp
  · rename_i hthere
    cases hp
    refine ⟨(hknown _).mp hthere, ?_⟩
    intro row hrow heq
    obtain ⟨q, -, hq⟩ := List.mem_map.mp hrow
    unfold planOne at hq
    dsimp only at hq
    split at hq
    · cases hq
    · rename_i habsent
      cases hq
      dsimp only at heq
      rw [heq] at habsent
      exact habsent hthere
  · cases hp

/-- A price sync stores paid chat models alone exactly when no price it writes is negative. -/
theorem sync_paid_iff (registry : String → Option EndpointMaps.Dialect) (models : List Model)
    (table : CatalogRecords) (now : ℕ → ℤ) :
    let writes := syncWrites models table
    StoresPaid (isChat registry) now writes table ↔
    ∀ m ∈ models, ∀ p, priceOf m = some p →
      let w := planOne .xAI (table.records.map (fun record => record.row.id)) p
      w ∈ executed table writes → isChat registry (w.provider table) = true →
      0 ≤ m.promptTextTokenPrice.toInt ∧ 0 ≤ m.completionTextTokenPrice.toInt := by
  intro writes
  have hstates : ∀ m p known, priceOf m = some p →
      (PaysRounded (planOne .xAI known p).input (planOne .xAI known p).output ↔
        0 ≤ m.promptTextTokenPrice.toInt ∧ 0 ≤ m.completionTextTokenPrice.toInt) := by
    intro m p known hp
    obtain ⟨hinput, houtput, hpaid⟩ := priceOf_eq_some hp
    rw [← paysRounded_perMtok hpaid, ← hinput, ← houtput]
    unfold planOne
    dsimp only
    split <;> rfl
  rw [storesPaid_iff (planned_syncWrites models table)]
  constructor
  · intro h m _ p hp w hmem hchat
    exact (hstates m p _ hp).mp (h w hmem hchat)
  · intro h w hmem hchat
    obtain ⟨p, hprices, rfl⟩ := List.mem_map.mp (mem_executed hmem).1
    obtain ⟨m, hm, hp⟩ := List.mem_filterMap.mp hprices
    exact (hstates m p _ hp).mpr (h m hm p hp hmem hchat)

end XaiPrices

namespace XaiModels

/-- The writes of a discovery, against one reading of the catalogue. -/
def discoveryWrites (listed : List ListedModel) (rows : List CatalogRow) : List PriceSync :=
  (newModels listed rows).map (fun insert => .insert (rowFrom insert))

/-- The price a new row takes: the list's, else the published one, else the donor's. -/
def inputFor (model : ListedModel) (donor : Option Donor) : Option Decimal :=
  model.inputPerMtok.or (((published model.upstreamName).map Published.input).or
    (donor.map Donor.inputPerMtok))

def outputFor (model : ListedModel) (donor : Option Donor) : Option Decimal :=
  model.outputPerMtok.or (((published model.upstreamName).map Published.output).or
    (donor.map Donor.outputPerMtok))

theorem insertOne_prices {model : ListedModel} {donor : Option Donor} {insert : CatalogInsert}
    (h : insertOne model donor = some insert) :
    inputFor model donor = some insert.inputPerMtok ∧
      outputFor model donor = some insert.outputPerMtok := by
  unfold insertOne at h
  obtain ⟨input, hinput, h⟩ := Option.bind_eq_some_iff.mp h
  obtain ⟨output, houtput, h⟩ := Option.bind_eq_some_iff.mp h
  split at h
  · cases h
  · cases h
    exact ⟨hinput, houtput⟩

/-- The table that the writes leave is the one a discovery leaves. -/
theorem carryOutAll_discoveryWrites (now : ℕ → ℤ) (k : ℕ) (inserts : List CatalogInsert)
    (table : CatalogRecords) :
    (carryOutAll now k (inserts.map (fun insert => .insert (rowFrom insert))) table).1 =
      (writeAll now k inserts table).1 := by
  induction inserts generalizing k table with
  | nil => rfl
  | cons insert rest ih =>
    unfold writeAll
    rw [List.map_cons]
    unfold carryOutAll carryOut
    dsimp only
    cases table.upsertModel (rowFrom insert) false (now k) with
    | none => rfl
    | some next => exact ih (k + 1) next

/-- A discovery stores paid models alone exactly when the prices its new rows take round
to that. -/
theorem discovery_paid_iff (registry : String → Option EndpointMaps.Dialect)
    (listed : List ListedModel) (read : CatalogRead) (table : CatalogRecords) (now : ℕ → ℤ) :
    let writes := discoveryWrites listed (read.rows table)
    let donor := dearest ((xaiRows (read.rows table)).map donorOf)
    StoresPaid (isChat registry) now writes table ↔
    ∀ model ∈ listed, ∀ insert, insertOne model donor = some insert →
      .insert (rowFrom insert) ∈ executed table writes →
      ∀ input ∈ inputFor model donor, ∀ output ∈ outputFor model donor,
        PaysRounded input output := by
  intro writes donor
  have hplan : Planned table writes := by
    intro id input output cacheRead hmem
    obtain ⟨insert, -, h⟩ := List.mem_map.mp hmem
    cases h
  rw [storesPaid_iff hplan]
  constructor
  · intro h model _ insert hinsert hmem input hinput output houtput
    obtain ⟨hin, hout⟩ := insertOne_prices hinsert
    cases hin.symm.trans hinput
    cases hout.symm.trans houtput
    exact h _ hmem rfl
  · intro h w hmem _
    obtain ⟨insert, hnew, rfl⟩ := List.mem_map.mp (mem_executed hmem).1
    obtain ⟨-, model, hmodel, hinsert⟩ := mem_newModels_iff.mp hnew
    obtain ⟨hin, hout⟩ := insertOne_prices hinsert
    exact h model hmodel insert hinsert hmem _ hin _ hout

end XaiModels

/-- Amounts whose rounding is to six places. -/
structure RoundedAmounts extends ModelList.Amounts where
  places : ∀ d, ∃ m : ℤ, (round6 d).val = m / 10 ^ 6

theorem fits_nonneg {d : Decimal} (h : FitsColumn d) : 0 ≤ d.val := by
  obtain ⟨m, -, hm⟩ := h
  rw [hm]
  positivity

namespace EndpointSync

open ModelList

/-- What an endpoint's list offers is paid for, at prices the columns store as they are. -/
theorem paid_of_offers {endpoint label : String} {options : SyncOptions}
    {models : List ListedModel} {row : ModelRow} (hrounded : ∀ model ∈ models, RoundedModel model)
    (h : row ∈ offers endpoint label options models) :
    Fits row ∧ Paid row.inputPerMtok row.outputPerMtok := by
  have hfits := fits_of_offers hrounded h
  obtain ⟨model, -, hrow⟩ := mem_offers h
  obtain ⟨offer, hchoose, rfl, -⟩ := offeredRow_eq_some hrow
  have hfree := (choose_eq_ok hchoose).2.2
  refine ⟨hfits, fits_nonneg hfits.input, fits_nonneg hfits.output, ?_⟩
  rintro ⟨hinput, houtput⟩
  simp only [catalogRow] at hinput houtput
  simp [isFree, hinput, houtput] at hfree

/-- A row of the table after the writes was there before, or has the prices of one of them. -/
theorem mem_syncRows {rows : List ModelRow} {table table' : CatalogTable}
    {done done' : CatalogTable.EndpointSync}
    (hfits : ∀ row ∈ rows, Fits row)
    (h : syncRows rows table done = some (table', done')) {stored : StoredModelRow}
    (hstored : stored ∈ table'.rows) :
    stored ∈ table.rows ∨ ∃ row ∈ rows, stored.model.inputPerMtok = row.inputPerMtok ∧
      stored.model.outputPerMtok = row.outputPerMtok := by
  induction rows generalizing table done with
  | nil =>
    cases h
    exact .inl hstored
  | cons row rows ih =>
    obtain ⟨⟨middle, wrote⟩, hfirst, hrest⟩ := Option.bind_eq_some_iff.mp h
    rcases ih (fun row hrow => hfits row (List.mem_cons_of_mem _ hrow)) hrest with hmem | hlater
    · have hget := get_syncModel (hfits row List.mem_cons_self) hfirst stored.model.id
      rw [get_eq_some_iff.mpr ⟨hmem, rfl⟩] at hget
      by_cases hid : stored.model.id = row.id
      · rw [if_pos hid] at hget
        cases hold : table.get row.id with
        | none =>
          rw [hold] at hget
          cases hget
          exact .inr ⟨row, List.mem_cons_self, rfl, rfl⟩
        | some old =>
          rw [hold, image] at hget
          split at hget
          · cases hget
            exact .inr ⟨row, List.mem_cons_self, rfl, rfl⟩
          · cases hget
            exact .inl (get_eq_some_iff.mp hold).1
      · rw [if_neg hid] at hget
        exact .inl (get_eq_some_iff.mp hget.symm).1
    · obtain ⟨other, hother, hprices⟩ := hlater
      exact .inr ⟨other, List.mem_cons_of_mem _ hother, hprices⟩

/-- Every row an endpoint's sync leaves was there before or is paid for. -/
theorem sync_stores_paid {amounts : RoundedAmounts} {candidates : List Url}
    {answers : List PageAnswer} {listing : Listing} {endpoint label : String}
    {options : SyncOptions} {laddered : List String} {table table' : CatalogTable} {p : Plan}
    {done : CatalogTable.EndpointSync}
    (hpriced : priced amounts.toAmounts candidates answers = .ok listing)
    (hplan : plan endpoint label (table.providerModels endpoint) options listing.models laddered =
      .ok p)
    (hsync : table.syncEndpointModels laddered endpoint p.writes p.remove = some (table', done))
    {stored : StoredModelRow} (hstored : stored ∈ table'.rows) :
    stored ∈ table.rows ∨ Paid stored.model.inputPerMtok stored.model.outputPerMtok := by
  have hrounded := rounded_of_priced amounts.places hpriced
  obtain ⟨-, -, hp⟩ := plan_eq_ok_iff.mp hplan
  have hpaid : ∀ row ∈ p.writes, Fits row ∧ Paid row.inputPerMtok row.outputPerMtok := by
    intro row hrow
    rw [hp] at hrow
    exact paid_of_offers hrounded (List.mem_of_mem_filter hrow)
  obtain ⟨-, written, done', hrows, rfl⟩ := syncEndpointModels_eq_some hsync
  have hwritten := (CatalogTable.mem_deleteStale_iff.mp hstored).1
  rcases mem_syncRows (fun row hrow => (hpaid row hrow).1) hrows hwritten with
    hmem | ⟨row, hrow, hinput, houtput⟩
  · exact .inl hmem
  · right
    rw [hinput, houtput]
    exact (hpaid row hrow).2

end EndpointSync

namespace CatalogAdd

theorem bind_eq_ok {ε α β : Type} {x : Except ε α} {f : α → Except ε β} {b : β}
    (h : x >>= f = .ok b) : ∃ a, x = .ok a ∧ f a = .ok b := by
  cases x with
  | error e => cases h
  | ok a => exact ⟨a, rfl, h⟩

theorem fits_of_price {amounts : RoundedAmounts} {flag : String} {value d : Decimal}
    (h : price amounts.round6 flag value = .ok d) : FitsColumn d := by
  unfold price at h
  dsimp only at h
  split_ifs at h with hneg hceiling
  cases h
  exact EndpointSync.fits_of_places (amounts.places value) (not_lt.mp hneg) (not_le.mp hceiling)

theorem of_refuseIf {c : Bool} {message : String} {u : Unit} (h : refuseIf c message = .ok u) :
    c = false := by
  cases c with
  | true => cases h
  | false => rfl

/-- Without `--free` an operator's row is paid for, at prices the columns store as they are. -/
theorem paid_of_modelRow {amounts : RoundedAmounts} {args : CatalogAddArgs} {provider : Provider}
    {row : CatalogRow} (h : modelRow amounts.round6 args provider = .ok row)
    (hfree : args.free = false) :
    FitsColumn row.inputPerMtok ∧ FitsColumn row.outputPerMtok ∧
      Paid row.inputPerMtok row.outputPerMtok := by
  unfold modelRow at h
  obtain ⟨parts, -, h⟩ := bind_eq_ok h
  obtain ⟨_, -, h⟩ := bind_eq_ok h
  obtain ⟨_, -, h⟩ := bind_eq_ok h
  obtain ⟨input, hinput, h⟩ := bind_eq_ok h
  obtain ⟨output, houtput, h⟩ := bind_eq_ok h
  obtain ⟨_, hpaid, h⟩ := bind_eq_ok h
  obtain ⟨_, -, h⟩ := bind_eq_ok h
  obtain ⟨label, -, h⟩ := bind_eq_ok h
  obtain ⟨cacheRead, -, h⟩ := bind_eq_ok h
  obtain ⟨cacheWrite, -, h⟩ := bind_eq_ok h
  cases h
  have hfitsInput := fits_of_price hinput
  have hfitsOutput := fits_of_price houtput
  refine ⟨hfitsInput, hfitsOutput, fits_nonneg hfitsInput, fits_nonneg hfitsOutput, ?_⟩
  rintro ⟨hzero, hzero'⟩
  have hnot := of_refuseIf hpaid
  rw [hzero, hzero', hfree] at hnot
  cases hnot

end CatalogAdd

/-- Which prices end up stored, writer by writer. A seed, a price sync and a discovery
store paid chat models alone exactly when the prices they take round to that; an
endpoint's sync always does; and `catalog add` does unless it is told `--free`. -/
theorem stored_prices_paid_iff (registry : String → Option EndpointMaps.Dialect)
    (texts : DecimalText) (arith : Arithmetic) (amounts : RoundedAmounts) (now : ℕ → ℤ) :
    (∀ doc origin table,
      let writes := LiteLlm.seedWrites
        (LiteLlm.fromLitellm (fun s => (registry s).isSome) texts arith doc origin)
      StoresPaid (isChat registry) now writes table ↔
      ∀ entry ∈ LiteLlm.docEntries (fun s => (registry s).isSome) texts doc, ∀ row,
        LiteLlm.rowOf arith texts entry = some row → .insert row ∈ executed table writes →
        isChat registry entry.known.asStr = true →
        LiteLlm.PaysPerToken entry.input entry.output) ∧
    (∀ models table,
      let writes := XaiPrices.syncWrites models table
      StoresPaid (isChat registry) now writes table ↔
      ∀ m ∈ models, ∀ p, XaiPrices.priceOf m = some p →
        let w := XaiPrices.planOne .xAI (table.records.map (fun record => record.row.id)) p
        w ∈ executed table writes → isChat registry (w.provider table) = true →
        0 ≤ m.promptTextTokenPrice.toInt ∧ 0 ≤ m.completionTextTokenPrice.toInt) ∧
    (∀ listed (read : XaiModels.CatalogRead) table,
      let writes := XaiModels.discoveryWrites listed (read.rows table)
      let donor :=
        XaiModels.dearest ((XaiModels.xaiRows (read.rows table)).map XaiModels.donorOf)
      StoresPaid (isChat registry) now writes table ↔
      ∀ model ∈ listed, ∀ insert, XaiModels.insertOne model donor = some insert →
        .insert (XaiModels.rowFrom insert) ∈ executed table writes →
        ∀ input ∈ XaiModels.inputFor model donor, ∀ output ∈ XaiModels.outputFor model donor,
          PaysRounded input output) ∧
    (∀ candidates answers listing endpoint label options laddered (table : CatalogTable) p table'
        done,
      ModelList.priced amounts.toAmounts candidates answers = .ok listing →
      EndpointSync.plan endpoint label (table.providerModels endpoint) options listing.models
        laddered = .ok p →
      table.syncEndpointModels laddered endpoint p.writes p.remove = some (table', done) →
      ∀ stored ∈ table'.rows, stored ∈ table.rows ∨
        Paid stored.model.inputPerMtok stored.model.outputPerMtok) ∧
    ∀ args provider row, CatalogAdd.modelRow amounts.round6 args provider = .ok row →
      args.free = false →
      column row.inputPerMtok = some row.inputPerMtok ∧
        column row.outputPerMtok = some row.outputPerMtok ∧
        Paid row.inputPerMtok row.outputPerMtok := by
  refine ⟨?_, ?_, ?_, ?_, ?_⟩
  · intro doc origin table
    exact LiteLlm.seed_paid_iff registry texts arith doc origin table now
  · intro models table
    exact XaiPrices.sync_paid_iff registry models table now
  · intro listed read table
    exact XaiModels.discovery_paid_iff registry listed read table now
  · intro candidates answers listing endpoint label options laddered table p table' done hpriced
      hplan hsync stored hstored
    exact EndpointSync.sync_stores_paid hpriced hplan hsync hstored
  · intro args provider row hrow hfree
    obtain ⟨hinput, houtput, hpaid⟩ := CatalogAdd.paid_of_modelRow hrow hfree
    exact ⟨column_of_fits hinput, column_of_fits houtput, hpaid⟩

/-- Rounding by the column itself; what it does not hold is not rounded here. -/
def roundedAmounts : RoundedAmounts where
  numberText := fun _ => ""
  fromText := fun _ => none
  round6 := fun d => (column d).getD CatalogAdd.zero
  places := by
    intro d
    cases hcolumn : column d with
    | none => exact ⟨0, by simp [CatalogAdd.zero, Decimal.new_val]⟩
    | some s =>
      unfold column at hcolumn
      obtain ⟨hfits, hs⟩ := Option.ite_none_right_eq_some.mp hcolumn
      rw [Option.getD_some, ← Option.some.inj hs]
      exact ⟨_, Decimal.new_val (lt_trans hfits (by norm_num)) (by omega)⟩

def noText : DecimalText where
  numberText := fun _ => ""
  fromStr := fun _ => none

/-- A chat model of xAI's list, at these prices. -/
def grok (prompt completion : Int64) : XaiPrices.Model where
  id := "grok-4.6"
  promptTextTokenPrice := prompt
  completionTextTokenPrice := completion
  cachedPromptTextTokenPrice := none
  inputModalities := ["text"]
  outputModalities := ["text"]

def noRecords : CatalogRecords := ⟨[], List.Pairwise.nil⟩

theorem grok_is_stored_paid : StoresPaid (isChat (fun _ => none)) (fun _ => 0)
    (XaiPrices.syncWrites [grok 20000 60000] noRecords) noRecords := by
  apply ((stored_prices_paid_iff (fun _ => none) noText .down roundedAmounts
    (fun _ => 0)).2.1 [grok 20000 60000] noRecords).mpr
  intro m hm p _ w _ _
  obtain rfl := List.mem_singleton.mp hm
  decide

/-- A negative price in the payload is stored. -/
theorem negative_price_is_stored : ¬ StoresPaid (isChat (fun _ => none)) (fun _ => 0)
    (XaiPrices.syncWrites [grok (-1) 60000] noRecords) noRecords := by
  have hstored : ∃ record ∈ (carryOutAll (fun _ => 0) 0
      (XaiPrices.syncWrites [grok (-1) 60000] noRecords) noRecords).2,
      isChat (fun _ => none) record.row.provider = true ∧ record.row.inputPerMtok.val < 0 := by
    decide +kernel
  obtain ⟨record, hrecord, hchat, hnegative⟩ := hstored
  intro h
  exact absurd (h record hrecord hchat).1 (not_le.mpr hnegative)

end OpenAIGateway
