import OpenAIGateway.FreeModels

/-!
What a seed from a pricing table stores of each entry it keeps: a row under the
provider and the last segment of the entry's name, with the name and the prices
of the entry that no other entry of that provider and segment writes over.
-/

set_option linter.all false

namespace OpenAIGateway

open CatalogTable PriceSync

/-- A number to six places, half away from zero. -/
def sixPlaces (q : ℚ) : ℚ :=
  if 0 ≤ q then ⌊q * 10 ^ 6 + 1 / 2⌋ / 10 ^ 6 else ⌈q * 10 ^ 6 - 1 / 2⌉ / 10 ^ 6

/-- A number of at most six places is left as it is. -/
theorem sixPlaces_of_places {q : ℚ} {n : ℤ} (h : q * 10 ^ 6 = n) : sixPlaces q = q := by
  have hq : q = n / 10 ^ 6 := by
    rw [← h]
    field_simp
  have hfloor : ⌊(n : ℚ) + 1 / 2⌋ = n := by
    rw [Int.floor_eq_iff]
    constructor <;> linarith
  have hceil : ⌈(n : ℚ) - 1 / 2⌉ = n := by
    rw [Int.ceil_eq_iff]
    constructor <;> linarith
  unfold sixPlaces
  rw [h, hfloor, hceil, ite_self, hq]

theorem column_val {d s : Decimal} (h : column d = some s) : s.val = sixPlaces d.val := by
  unfold column at h
  obtain ⟨hfits, hs⟩ := Option.ite_none_right_eq_some.mp h
  have hscale : (0 : ℚ) < 10 ^ 6 := by positivity
  rw [← Option.some.inj hs, Decimal.new_val (lt_trans hfits (by norm_num)) (by omega)]
  unfold sixPlaces
  by_cases hsign : 0 ≤ d.val
  · have hscaled : 0 ≤ d.val * 10 ^ 6 := mul_nonneg hsign hscale.le
    rw [if_pos hscaled, if_pos hsign]
  · have hscaled : ¬ 0 ≤ d.val * 10 ^ 6 := fun h => hsign (nonneg_of_mul_nonneg_left h hscale)
    have hceil : ⌈d.val * 10 ^ 6 - 1 / 2⌉ = -⌊-(d.val * 10 ^ 6) + 1 / 2⌋ := by
      rw [← Int.ceil_neg]
      congr 1
      ring
    rw [if_neg hscaled, if_neg hsign, hceil]

namespace CatalogRecords

variable {now : ℕ → ℤ}

/-- Rows of other ids leave what an id has. -/
theorem get_carryOutAll_of_notMem {rows : List CatalogRow} {id : String}
    (h : id ∉ rows.map CatalogRow.id) (k : ℕ) (table : CatalogRecords) :
    (carryOutAll now k (rows.map PriceSync.insert) table).1.get id = table.get id := by
  induction rows generalizing k table with
  | nil => rfl
  | cons row rows ih =>
    rw [List.map_cons, List.mem_cons, not_or] at h
    rw [List.map_cons, carryOutAll]
    cases hnext : carryOut table (now k) (.insert row) with
    | none => rfl
    | some next =>
      obtain ⟨row', -, hget⟩ := get_upsertModel hnext
      change (carryOutAll now (k + 1) (rows.map PriceSync.insert) next).1.get id = table.get id
      rw [ih h.2, hget, if_neg h.1]

/-- A row of its own id is what the id has in the end, over what it had before. -/
theorem get_carryOutAll {before after : List CatalogRow} {row row' : CatalogRow}
    (hbefore : ∀ r ∈ before, r.stored.isSome) (hrow : row.stored = some row')
    (halone : ∀ r ∈ before ++ after, r.id ≠ row.id) (k : ℕ) (table : CatalogRecords) :
    ∃ t, (carryOutAll now k ((before ++ row :: after).map PriceSync.insert) table).1.get row.id =
      some (upserted (table.get row.id) row' false t) := by
  induction before generalizing k table with
  | nil =>
    have hafter : row.id ∉ after.map CatalogRow.id := by
      intro hmem
      obtain ⟨r, hr, hid⟩ := List.mem_map.mp hmem
      exact halone r hr hid
    rw [List.nil_append, List.map_cons, carryOutAll]
    cases hnext : carryOut table (now k) (.insert row) with
    | none =>
      have hnone := (upsertModel_eq_none_iff table row false (now k)).mp hnext
      rw [hrow] at hnone
      cases hnone
    | some next =>
      obtain ⟨stored, hstored, hget⟩ := get_upsertModel hnext
      obtain rfl : row' = stored := Option.some.inj (hrow.symm.trans hstored)
      refine ⟨now k, ?_⟩
      change (carryOutAll now (k + 1) (after.map PriceSync.insert) next).1.get row.id = _
      rw [get_carryOutAll_of_notMem hafter, hget, if_pos rfl]
  | cons first before ih =>
    rw [List.cons_append, List.map_cons, carryOutAll]
    have hfirst := hbefore first List.mem_cons_self
    cases hnext : carryOut table (now k) (.insert first) with
    | none =>
      have hnone := (upsertModel_eq_none_iff table first false (now k)).mp hnext
      rw [hnone] at hfirst
      cases hfirst
    | some next =>
      obtain ⟨stored, -, hget⟩ := get_upsertModel hnext
      have hother : row.id ≠ first.id := (halone first List.mem_cons_self).symm
      have hrest := ih (fun r hr => hbefore r (List.mem_cons_of_mem _ hr))
        (fun r hr => halone r (List.mem_cons_of_mem _ hr)) (k + 1) next
      rw [hget row.id, if_neg hother] at hrest
      exact hrest

end CatalogRecords

namespace LiteLlm

variable {arith : Arithmetic} {texts : DecimalText}

/-- The name an entry's model is asked for by. -/
def wireName (entry : Entry) : String :=
  (stripPrefix (entry.prefixed ++ "/") entry.name).getD entry.name

def entryId (entry : Entry) : String := entry.known.asStr ++ "/" ++ lastSegment entry.name

/-- What the id of an entry keeps of it. -/
def entryKey (entry : Entry) : String × String := (entry.known.asStr, lastSegment entry.name)

theorem lastSegment_plain (name : String) : '/' ∉ (lastSegment name).toList := by
  unfold lastSegment
  cases h : Split.rsplitOnce '/' name with
  | none => exact Split.rsplitOnce_eq_none_iff.mp h
  | some parts => exact (Split.rsplitOnce_eq_some_iff.mp h).2

/-- Entries of one id have one provider and one last segment. -/
theorem entryKey_eq_of_entryId {a b : Entry} (h : entryId a = entryId b) :
    entryKey a = entryKey b := by
  have hsplit : ∀ e : Entry, Split.rsplitOnce '/' (entryId e) =
      some (e.known.asStr, lastSegment e.name) := by
    intro e
    apply Split.rsplitOnce_eq_some_iff.mpr
    refine ⟨?_, lastSegment_plain e.name⟩
    simp [entryId]
  have heq := hsplit a
  rw [h, hsplit b] at heq
  exact (Option.some.inj heq).symm

/-- A stored price of an entry: for a million tokens, as the column rounds it. What has no more
than six places is stored exactly. -/
structure StoresPrice (perToken stored : Decimal) : Prop where
  rounded : stored.val = sixPlaces (perToken.val * 10 ^ 6)
  exact : ∀ n : ℤ, perToken.val * 10 ^ 6 * 10 ^ 6 = n → stored.val = perToken.val * 10 ^ 6

/-- A record with an entry's own name and prices. -/
structure OwnRow (texts : DecimalText) (entry : Entry) (record : CatalogRecord) : Prop where
  plain : record.isOverride = false
  provider : record.row.provider = entry.known.asStr
  upstreamName : record.row.upstreamName = wireName entry
  input : StoresPrice entry.input record.row.inputPerMtok
  output : StoresPrice entry.output record.row.outputPerMtok
  cacheRead : Option.Rel StoresPrice (decimal texts entry.spec["cache_read_input_token_cost"])
    record.row.cacheReadPerMtok
  cacheWrite : Option.Rel StoresPrice
    (decimal texts entry.spec["cache_creation_input_token_cost"]) record.row.cacheWritePerMtok

theorem storesPrice_of_column {d p s : Decimal} (hmul : arith.mul d million = some p)
    (hcolumn : column p = some s) : StoresPrice d s := by
  have hexact := mul_million_exact hmul (by rw [hcolumn]; rfl)
  have hrounded : s.val = sixPlaces (d.val * 10 ^ 6) := by
    rw [column_val hcolumn, hexact, mul_comm]
  refine ⟨hrounded, ?_⟩
  intro n hn
  rw [hrounded, sixPlaces_of_places hn]

theorem rel_of_optionalColumn {d : Option Decimal} {p s : Option Decimal}
    (hscaled : scaled arith d = some p) (hcolumn : optionalColumn p = some s) :
    Option.Rel StoresPrice d s := by
  cases d with
  | none =>
    obtain rfl := Option.some.inj hscaled
    obtain rfl := Option.some.inj hcolumn
    exact .none
  | some d =>
    obtain ⟨product, hmul, rfl⟩ := Option.map_eq_some_iff.mp hscaled
    obtain ⟨stored, hstored, rfl⟩ := Option.map_eq_some_iff.mp hcolumn
    exact .some (storesPrice_of_column hmul hstored)

/-- What a row's columns hold is its entry's. -/
theorem ownRow_of_stored {entry : Entry} {row row' : CatalogRow} {record : CatalogRecord}
    (hrow : rowOf arith texts entry = some row) (hstored : row.stored = some row')
    (hplain : record.isOverride = false) (hprovider : record.row.provider = row'.provider)
    (hname : record.row.upstreamName = row'.upstreamName)
    (hinput : record.row.inputPerMtok = row'.inputPerMtok)
    (houtput : record.row.outputPerMtok = row'.outputPerMtok)
    (hread : record.row.cacheReadPerMtok = row'.cacheReadPerMtok)
    (hwrite : record.row.cacheWritePerMtok = row'.cacheWritePerMtok) :
    OwnRow texts entry record := by
  unfold rowOf at hrow
  obtain ⟨inputProduct, hinputMul, hrow⟩ := Option.bind_eq_some_iff.mp hrow
  obtain ⟨outputProduct, houtputMul, hrow⟩ := Option.bind_eq_some_iff.mp hrow
  obtain ⟨readProduct, hreadMul, hrow⟩ := Option.bind_eq_some_iff.mp hrow
  obtain ⟨writeProduct, hwriteMul, rfl⟩ := Option.map_eq_some_iff.mp hrow
  obtain ⟨input, output, cacheRead, cacheWrite, hinputColumn, houtputColumn, hreadColumn,
    hwriteColumn, rfl⟩ := CatalogRow.stored_eq_some_iff.mp hstored
  exact
    { plain := hplain
      provider := hprovider
      upstreamName := hname
      input := by
        rw [hinput]
        exact storesPrice_of_column hinputMul hinputColumn
      output := by
        rw [houtput]
        exact storesPrice_of_column houtputMul houtputColumn
      cacheRead := by
        rw [hread]
        exact rel_of_optionalColumn hreadMul hreadColumn
      cacheWrite := by
        rw [hwrite]
        exact rel_of_optionalColumn hwriteMul hwriteColumn }

theorem ownRow_upserted {entry : Entry} {row row' : CatalogRow} {old : Option CatalogRecord}
    {t : ℤ} (hrow : rowOf arith texts entry = some row) (hstored : row.stored = some row')
    (hplain : old.any CatalogRecord.isOverride = false) :
    OwnRow texts entry (CatalogRecords.upserted old row' false t) := by
  cases old with
  | none => exact ownRow_of_stored hrow hstored rfl rfl rfl rfl rfl rfl rfl
  | some old =>
    have hold : old.isOverride = false := hplain
    have hrefreshed : CatalogRecords.upserted (some old) row' false t =
        CatalogRecords.refreshed old row' t := by
      simp [CatalogRecords.upserted, hold]
    rw [hrefreshed]
    exact ownRow_of_stored hrow hstored hold rfl rfl rfl rfl rfl rfl

theorem rowOf_id {entry : Entry} {row : CatalogRow} (h : rowOf arith texts entry = some row) :
    row.id = entryId entry := by
  unfold rowOf at h
  obtain ⟨input, -, h⟩ := Option.bind_eq_some_iff.mp h
  obtain ⟨output, -, h⟩ := Option.bind_eq_some_iff.mp h
  obtain ⟨cacheRead, -, h⟩ := Option.bind_eq_some_iff.mp h
  obtain ⟨cacheWrite, -, rfl⟩ := Option.map_eq_some_iff.mp h
  rfl

/-- The rows around the row of one entry are those of the entries around it. -/
theorem rows_around {before after : List Entry} {entry : Entry} {rows : List CatalogRow}
    (h : (before ++ entry :: after).mapM (rowOf arith texts) = some rows) :
    ∃ first row last, rows = first ++ row :: last ∧ rowOf arith texts entry = some row ∧
      before.mapM (rowOf arith texts) = some first ∧
      after.mapM (rowOf arith texts) = some last := by
  rw [List.mapM_append, List.mapM_cons] at h
  obtain ⟨first, hfirst, h⟩ := Option.bind_eq_some_iff.mp h
  obtain ⟨rest, hrest, h⟩ := Option.bind_eq_some_iff.mp h
  obtain ⟨row, hrow, hlast⟩ := Option.bind_eq_some_iff.mp hrest
  obtain ⟨last, hafter, heq⟩ := Option.bind_eq_some_iff.mp hlast
  obtain rfl : row :: last = rest := Option.some.inj heq
  exact ⟨first, row, last, (Option.some.inj h).symm, hrow, hfirst, hafter⟩

theorem mapM_of_fromLitellm {registry : String → Bool} {doc : Json} {origin : String}
    {rows : List CatalogRow} (h : fromLitellm registry texts arith doc origin = some (.ok rows)) :
    (docEntries registry texts doc).mapM (rowOf arith texts) = some rows := by
  cases doc with
  | obj members =>
    obtain ⟨found, hfound, hread⟩ := Option.map_eq_some_iff.mp h
    split at hread
    · cases hread
    · rw [← Except.ok.inj hread]
      exact hfound
  | _ => cases h

/-- Kept entries have ids apart unless they have one provider and one last segment; and an
entry that shares these with no other is stored with its own name and prices, unless an
operator's override holds its id or a price of it or of one before it is refused. -/
theorem seeding_keeps_own_rows (registry : String → Bool) (texts : DecimalText)
    (arith : Arithmetic) (doc : Json) (origin : String) (rows : List CatalogRow)
    (table : CatalogRecords) (now : ℕ → ℤ)
    (hread : fromLitellm registry texts arith doc origin = some (.ok rows)) :
    (∀ a ∈ docEntries registry texts doc, ∀ b ∈ docEntries registry texts doc,
      entryId a = entryId b → entryKey a = entryKey b) ∧
    ∀ before entry after, docEntries registry texts doc = before ++ entry :: after →
      (∀ other ∈ before ++ after, entryKey other ≠ entryKey entry) →
      ∃ first row last, rows = first ++ row :: last ∧ row.id = entryId entry ∧
        (∀ other ∈ first ++ last, other.id ≠ row.id) ∧
        ((∀ r ∈ first ++ [row], r.stored.isSome) →
          let seeded := (carryOutAll now 0 (rows.map PriceSync.insert) table).1
          if held table row.id then seeded.get row.id = table.get row.id
          else ∃ record, seeded.get row.id = some record ∧ OwnRow texts entry record) := by
  refine ⟨fun a _ b _ => entryKey_eq_of_entryId, ?_⟩
  intro before entry after hentries halone
  have hrows := mapM_of_fromLitellm hread
  rw [hentries] at hrows
  obtain ⟨first, row, last, rfl, hrow, hfirst, hlast⟩ := rows_around hrows
  have hid := rowOf_id hrow
  have hothers : ∀ other ∈ first ++ last, other.id ≠ row.id := by
    intro other hother hsame
    have hentry : ∃ e ∈ before ++ after, rowOf arith texts e = some other := by
      rcases List.mem_append.mp hother with hmem | hmem
      · obtain ⟨e, he, hrowOf⟩ := (mem_mapM_iff hfirst other).mp hmem
        exact ⟨e, List.mem_append_left _ he, hrowOf⟩
      · obtain ⟨e, he, hrowOf⟩ := (mem_mapM_iff hlast other).mp hmem
        exact ⟨e, List.mem_append_right _ he, hrowOf⟩
    obtain ⟨e, he, hrowOf⟩ := hentry
    apply halone e he
    apply entryKey_eq_of_entryId
    rw [← rowOf_id hrowOf, hsame, hid]
  refine ⟨first, row, last, rfl, hid, hothers, ?_⟩
  intro hreached
  obtain ⟨row', hstored⟩ := Option.isSome_iff_exists.mp
    (hreached row (List.mem_append_right _ List.mem_cons_self))
  obtain ⟨t, hget⟩ := CatalogRecords.get_carryOutAll
    (fun r hr => hreached r (List.mem_append_left _ hr)) hstored hothers 0 table
  dsimp only
  rw [hget]
  cases hheld : held table row.id with
  | true =>
    rw [if_pos rfl]
    obtain ⟨old, hold, hoverride⟩ := (Option.any_eq_true ..).mp hheld
    rw [hold]
    simp [CatalogRecords.upserted, hoverride]
  | false =>
    rw [if_neg (by decide)]
    exact ⟨_, rfl, ownRow_upserted hrow hstored hheld⟩

/-- Every kept entry has an id of its own, and is stored under it by its own name and at
exactly its prices. -/
def StoresEach (texts : DecimalText) (kept : List Entry) (rows : List CatalogRow)
    (seeded : CatalogRecords) : Prop :=
  (rows.map CatalogRow.id).Nodup ∧ ∀ entry ∈ kept, ∃ record,
    seeded.get (entryId entry) = some record ∧ record.row.upstreamName = wireName entry ∧
    record.row.inputPerMtok.val = entry.input.val * 10 ^ 6 ∧
    record.row.outputPerMtok.val = entry.output.val * 10 ^ 6 ∧
    Option.Rel (fun p s => s.val = p.val * 10 ^ 6)
      (decimal texts entry.spec["cache_read_input_token_cost"]) record.row.cacheReadPerMtok ∧
    Option.Rel (fun p s => s.val = p.val * 10 ^ 6)
      (decimal texts entry.spec["cache_creation_input_token_cost"]) record.row.cacheWritePerMtok

section Examples

/-- Two dollars for a million tokens, and a tenth of a millionth of one. -/
def costs : DecimalText where
  numberText := fun _ => ""
  fromStr := fun s =>
    if s = "0.000002" then some (.new 2 6)
    else if s = "0.0000000000001" then some (.new 1 13)
    else none

def member (name provider input : String) : String × Json :=
  (name, .obj [("litellm_provider", .str provider), ("input_cost_per_token", .str input),
    ("output_cost_per_token", .str "0.000002")])

def memberRow (id provider upstreamName : String) (input : Decimal) : CatalogRow where
  id := id
  provider := provider
  upstreamName := upstreamName
  inputPerMtok := input
  outputPerMtok := .new 2 0
  cacheReadPerMtok := none
  cacheWritePerMtok := none
  contextWindow := 0
  maxOutputTokens := 4096
  supportsVision := false
  supportsTools := false
  supportsReasoning := false
  supportsPromptCache := false
  displayLabel := none
  reasoningEfforts := none
  reasoningEffort := none

theorem two_million : Arithmetic.down.mul (.new 2 6) million = some (.new 2 0) := by
  apply Arithmetic.down.mul_rounded.exact_of_representable (Decimal.new 2 6, million)
  rw [million_val, Decimal.new_val (by norm_num) (by omega),
    Decimal.new_val (by norm_num) (by omega)]
  norm_num

theorem tiny_million : Arithmetic.down.mul (.new 1 13) million = some (.new 1 7) := by
  apply Arithmetic.down.mul_rounded.exact_of_representable (Decimal.new 1 13, million)
  rw [million_val, Decimal.new_val (by norm_num) (by omega),
    Decimal.new_val (by norm_num) (by omega)]
  norm_num

/-- A member of a known provider is kept at the prices its texts spell. -/
theorem keep_member {name provider input : String} {known : Provider} {price : Decimal}
    (hname : name ≠ "sample_spec")
    (hprovider : Provider.fromStr (fun _ => false) provider = some known)
    (hinput : costs.fromStr input = some price) :
    keep (fun _ => false) costs name (member name provider input).2 =
      some ⟨name, provider, known, (member name provider input).2, price, .new 2 6⟩ := by
  have hspec : (member name provider input).2["litellm_provider"].asStr = some provider := rfl
  have hcost : decimal costs (member name provider input).2["input_cost_per_token"] =
      some price := hinput
  have hout : decimal costs (member name provider input).2["output_cost_per_token"] =
      some (.new 2 6) := (rfl : costs.fromStr "0.000002" = some (.new 2 6))
  have hpaid : ¬ (price.val = 0 ∧ (Decimal.new 2 6).val = 0) := by
    rintro ⟨-, hzero⟩
    rw [Decimal.new_val (by norm_num) (by omega)] at hzero
    norm_num at hzero
  unfold keep
  rw [if_neg hname, hspec, Option.bind_some, hprovider, Option.bind_some, hcost, Option.bind_some,
    hout, Option.bind_some, if_neg hpaid]

/-- Its row has no cache prices and the windows of a table that states none. -/
theorem rowOf_member {name provider input : String} {known : Provider} {price product : Decimal}
    (hproduct : Arithmetic.down.mul price million = some product) :
    rowOf .down costs ⟨name, provider, known, (member name provider input).2, price, .new 2 6⟩ =
      some (memberRow (known.asStr ++ "/" ++ lastSegment name) known.asStr
        ((stripPrefix (provider ++ "/") name).getD name) product) := by
  unfold rowOf
  rw [hproduct, Option.bind_some, two_million, Option.bind_some]
  rfl

/-- A table of one model of xAI's. -/
def grokDoc (input : String) : Json := .obj [member "grok-4.6" "xai" input]

def grokEntry (input : String) (price : Decimal) : Entry :=
  ⟨"grok-4.6", "xai", .xAI, (member "grok-4.6" "xai" input).2, price, .new 2 6⟩

def grokRow (price : Decimal) : CatalogRow := memberRow "xai/grok-4.6" "xai" "grok-4.6" price

variable {input : String} {price product stored : Decimal}

theorem docEntries_grok (hinput : costs.fromStr input = some price) :
    docEntries (fun _ => false) costs (grokDoc input) = [grokEntry input price] := by
  have hname : "grok-4.6" ≠ "sample_spec" := by decide
  have hkept : keep (fun _ => false) costs "grok-4.6" (member "grok-4.6" "xai" input).2 =
      some (grokEntry input price) := keep_member hname rfl hinput
  have hfst : (member "grok-4.6" "xai" input).1 = "grok-4.6" := rfl
  change ([member "grok-4.6" "xai" input].filterMap
    (fun m => keep (fun _ => false) costs m.1 m.2)) = _
  rw [List.filterMap_cons, hfst, hkept]
  rfl

theorem fromLitellm_grok (hinput : costs.fromStr input = some price)
    (hproduct : Arithmetic.down.mul price million = some product) :
    fromLitellm (fun _ => false) costs .down (grokDoc input) "" =
      some (.ok [grokRow product]) := by
  have hrow : rowOf .down costs (grokEntry input price) = some (grokRow product) :=
    rowOf_member hproduct
  have hrows : (docEntries (fun _ => false) costs (grokDoc input)).mapM (rowOf .down costs) =
      some [grokRow product] := by
    rw [docEntries_grok hinput, List.mapM_cons, hrow]
    rfl
  have hread : fromLitellm (fun _ => false) costs .down (grokDoc input) "" =
      ((docEntries (fun _ => false) costs (grokDoc input)).mapM (rowOf .down costs)).map
        (fun rows => if rows.isEmpty then
          .error "no models in  matched a provider this gateway has an adapter for"
        else .ok rows) := rfl
  rw [hread, hrows]
  rfl

theorem column_tiny : column (.new 1 7) = some (.new 0 6) := by decide +kernel

theorem column_two : column (.new 2 0) = some (.new 2 0) := by
  apply column_of_fits
  refine ⟨2000000, by norm_num, ?_⟩
  rw [Decimal.new_val (by norm_num) (by omega)]
  norm_num

theorem stored_grok (hcolumn : column product = some stored) :
    (grokRow product).stored = some (grokRow stored) :=
  CatalogRow.stored_eq_some_iff.mpr ⟨_, _, _, _, hcolumn, column_two, rfl, rfl, rfl⟩

theorem get_seeded_grok (hcolumn : column product = some stored) (table : CatalogRecords) :
    ∃ t, (carryOutAll (fun _ => 0) 0 ([grokRow product].map PriceSync.insert) table).1.get
        "xai/grok-4.6" =
      some (CatalogRecords.upserted (table.get "xai/grok-4.6") (grokRow stored) false t) := by
  have hnone : ∀ r ∈ ([] : List CatalogRow), r.stored.isSome := by simp
  have halone : ∀ r ∈ ([] : List CatalogRow) ++ [], r.id ≠ (grokRow product).id := by simp
  exact CatalogRecords.get_carryOutAll hnone (stored_grok hcolumn) halone 0 table

/-- An operator's own row for the model. -/
def overridden : CatalogRecords where
  records := [⟨memberRow "xai/grok-4.6" "xai" "grok-4.6-0709" (.new 3 0), true, none, 0⟩]
  sorted := List.pairwise_singleton ..

theorem grok_stored_as_its_column_rounds :
    fromLitellm (fun _ => false) costs .down (grokDoc "0.0000000000001") "" =
        some (.ok [grokRow (.new 1 7)]) ∧
      ∃ record, (carryOutAll (fun _ => 0) 0 ([grokRow (.new 1 7)].map PriceSync.insert)
          noRecords).1.get "xai/grok-4.6" = some record ∧
        OwnRow costs (grokEntry "0.0000000000001" (.new 1 13)) record := by
  have hread := fromLitellm_grok (rfl : costs.fromStr "0.0000000000001" = _) tiny_million
  refine ⟨hread, ?_⟩
  obtain ⟨-, hown⟩ := seeding_keeps_own_rows (fun _ => false) costs .down
    (grokDoc "0.0000000000001") "" [grokRow (.new 1 7)] noRecords (fun _ => 0) hread
  obtain ⟨first, row, last, hrows, -, -, hstored⟩ :=
    hown [] _ [] (docEntries_grok (rfl : costs.fromStr "0.0000000000001" = _)) (by simp)
  obtain ⟨rfl, rfl, rfl⟩ : first = [] ∧ row = grokRow (.new 1 7) ∧ last = [] := by
    cases first with
    | nil => simpa [eq_comm] using hrows
    | cons r first => simp at hrows
  apply hstored
  intro r hr
  obtain rfl := List.mem_singleton.mp hr
  rw [stored_grok column_tiny]
  rfl

/-- A price of a tenth of a millionth of a dollar for a million tokens is stored as none at
all, and a seed leaves an operator's own row as it is. -/
theorem rounded_or_left_to_operator :
    (∃ rows, fromLitellm (fun _ => false) costs .down (grokDoc "0.0000000000001") "" =
        some (.ok rows) ∧
      ¬ StoresEach costs (docEntries (fun _ => false) costs (grokDoc "0.0000000000001")) rows
        (carryOutAll (fun _ => 0) 0 (rows.map PriceSync.insert) noRecords).1) ∧
    ∃ rows, fromLitellm (fun _ => false) costs .down (grokDoc "0.000002") "" = some (.ok rows) ∧
      ¬ StoresEach costs (docEntries (fun _ => false) costs (grokDoc "0.000002")) rows
        (carryOutAll (fun _ => 0) 0 (rows.map PriceSync.insert) overridden).1 := by
  constructor
  · refine ⟨_, fromLitellm_grok (rfl : costs.fromStr "0.0000000000001" = _) tiny_million, ?_⟩
    rw [docEntries_grok (rfl : costs.fromStr "0.0000000000001" = _)]
    rintro ⟨-, heach⟩
    obtain ⟨record, hget, -, hinput, -⟩ := heach _ List.mem_cons_self
    obtain ⟨t, hseeded⟩ := get_seeded_grok column_tiny noRecords
    obtain rfl := Option.some.inj (hseeded.symm.trans hget)
    change (Decimal.new 0 6).val = (Decimal.new 1 13).val * 10 ^ 6 at hinput
    rw [Decimal.new_val (by norm_num) (by omega),
      Decimal.new_val (by norm_num) (by omega)] at hinput
    norm_num at hinput
  · refine ⟨_, fromLitellm_grok (rfl : costs.fromStr "0.000002" = _) two_million, ?_⟩
    rw [docEntries_grok (rfl : costs.fromStr "0.000002" = _)]
    rintro ⟨-, heach⟩
    obtain ⟨record, hget, hname, -⟩ := heach _ List.mem_cons_self
    obtain ⟨t, hseeded⟩ := get_seeded_grok column_two overridden
    obtain rfl := Option.some.inj (hseeded.symm.trans hget)
    change "grok-4.6-0709" = "grok-4.6" at hname
    exact absurd hname (by decide)

/-- Two regions of one model have one id. -/
example : lastSegment "us-east-1/nova" = lastSegment "eu-west-1/nova" := by decide

end Examples

end LiteLlm

end OpenAIGateway
