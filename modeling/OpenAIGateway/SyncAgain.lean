import OpenAIGateway.SyncPlan

/-!
What a sync does to the table. It writes and removes rows of its own endpoint
alone, and the rows it leaves are the ones it would write, so the next sync of
the same list has nothing to do.
-/

set_option linter.all false

namespace OpenAIGateway

namespace CatalogTable

/-- The row an id has after a sync's write, by the row it had. -/
def image (old : Option StoredModelRow) (row : ModelRow) : StoredModelRow :=
  match old with
  | none => ⟨row, true, some row.provider⟩
  | some old =>
    if old.model.provider = row.provider then
      let label := old.model.displayLabel.or row.displayLabel
      ⟨{ row with displayLabel := label }, true, some row.provider⟩
    else old

variable {table table' : CatalogTable} {row : ModelRow} {rows : List ModelRow}
  {done done' : EndpointSync} {provider : String} {ids laddered : List String} {id : String}

theorem get_syncModel {wrote : Wrote} (hfits : Fits row)
    (h : syncModel table row = some (table', wrote)) (id : String) :
    table'.get id = if id = row.id then some (image (table.get row.id) row) else table.get id := by
  unfold syncModel at h
  rw [stored_of_fits hfits, Option.map_some] at h
  cases hget : table.get row.id with
  | none =>
    rw [hget] at h
    cases h
    exact get_put table _ id
  | some old =>
    rw [hget] at h
    dsimp only [image] at h ⊢
    by_cases hprovider : old.model.provider = row.provider
    · rw [if_pos hprovider] at h ⊢
      cases h
      exact get_put table _ id
    · rw [if_neg hprovider] at h ⊢
      cases h
      by_cases hid : id = row.id
      · rw [if_pos hid, hid, hget]
      · rw [if_neg hid]

theorem syncModel_isSome (table : CatalogTable) (hfits : Fits row) :
    ∃ next, syncModel table row = some next := by
  unfold syncModel
  rw [stored_of_fits hfits]
  exact ⟨_, rfl⟩

theorem syncRows_isSome (hfits : ∀ row ∈ rows, Fits row) (table : CatalogTable)
    (done : EndpointSync) : ∃ next, syncRows rows table done = some next := by
  induction rows generalizing table done with
  | nil => exact ⟨_, rfl⟩
  | cons row rows ih =>
    obtain ⟨⟨middle, wrote⟩, hfirst⟩ := syncModel_isSome table (hfits row List.mem_cons_self)
    obtain ⟨next, hrest⟩ := ih (fun row hrow => hfits row (List.mem_cons_of_mem _ hrow)) middle
      (done.add wrote)
    refine ⟨next, ?_⟩
    rw [syncRows, hfirst]
    exact hrest

/-- A sync's writes change the rows of their own ids alone. -/
theorem get_syncRows_of_not_mem (hfits : ∀ row ∈ rows, Fits row)
    (h : syncRows rows table done = some (table', done')) (hid : id ∉ rows.map ModelRow.id) :
    table'.get id = table.get id := by
  induction rows generalizing table done with
  | nil =>
    cases h
    rfl
  | cons row rows ih =>
    obtain ⟨⟨middle, wrote⟩, hfirst, hrest⟩ := Option.bind_eq_some_iff.mp h
    rw [List.map_cons, List.mem_cons, not_or] at hid
    rw [ih (fun row hrow => hfits row (List.mem_cons_of_mem _ hrow)) hrest hid.2,
      get_syncModel (hfits row List.mem_cons_self) hfirst, if_neg hid.1]

/-- Each id that is written once has the image of its row. -/
theorem get_syncRows_of_mem (hfits : ∀ row ∈ rows, Fits row)
    (hnodup : (rows.map ModelRow.id).Nodup)
    (h : syncRows rows table done = some (table', done')) (hrow : row ∈ rows) :
    table'.get row.id = some (image (table.get row.id) row) := by
  induction rows generalizing table done with
  | nil => cases hrow
  | cons first rows ih =>
    obtain ⟨⟨middle, wrote⟩, hfirst, hrest⟩ := Option.bind_eq_some_iff.mp h
    obtain ⟨hnot, hnodup⟩ := List.nodup_cons.mp hnodup
    have hfitsRest := fun row hrow => hfits row (List.mem_cons_of_mem first hrow)
    have hmiddle := get_syncModel (hfits first List.mem_cons_self) hfirst
    rcases List.mem_cons.mp hrow with rfl | hrow
    · rw [get_syncRows_of_not_mem hfitsRest hrest hnot, hmiddle, if_pos rfl]
    · have hne : row.id ≠ first.id := fun heq => hnot (heq ▸ List.mem_map_of_mem hrow)
      rw [ih hfitsRest hnodup hrest hrow, hmiddle, if_neg hne]

theorem get_deleteStale (table : CatalogTable) (provider : String) (ids laddered : List String)
    (id : String) : (table.deleteStale provider ids laddered).get id =
      (table.get id).filter (fun row => !stale provider ids laddered row) := by
  ext row
  rw [get_eq_some_iff, mem_deleteStale_iff, Option.filter_eq_some_iff, get_eq_some_iff,
    Bool.not_eq_true']
  tauto

/-- A row that the statement does not name stays. -/
theorem get_deleteStale_of_not_mem (hid : id ∉ ids) :
    (table.deleteStale provider ids laddered).get id = table.get id := by
  rw [get_deleteStale]
  cases hget : table.get id with
  | none => rfl
  | some row =>
    have hrow := (get_eq_some_iff.mp hget).2
    have hkeep : stale provider ids laddered row = false := by
      rw [← Bool.not_eq_true, stale_iff]
      exact fun hstale => hid (hrow ▸ hstale.2.2.1)
    rw [Option.filter_some, hkeep]
    rfl

theorem syncEndpointModels_eq_some
    (h : table.syncEndpointModels laddered provider rows ids = some (table', done)) :
    (∀ row ∈ rows, row.provider = provider) ∧ ∃ written done', syncRows rows table {} =
      some (written, done') ∧ table' = written.deleteStale provider ids laddered := by
  unfold syncEndpointModels at h
  split_ifs at h with hstray
  obtain ⟨⟨written, done'⟩, hrows, heq⟩ := Option.map_eq_some_iff.mp h
  cases heq
  refine ⟨?_, written, done', hrows, rfl⟩
  intro row hrow
  by_contra hne
  exact hstray (List.any_eq_true.mpr ⟨row, hrow, bne_iff_ne.mpr hne⟩)

theorem syncEndpointModels_isSome (hfits : ∀ row ∈ rows, Fits row)
    (hprovider : ∀ row ∈ rows, row.provider = provider) (table : CatalogTable)
    (ids laddered : List String) :
    ∃ next, table.syncEndpointModels laddered provider rows ids = some next := by
  obtain ⟨next, hnext⟩ := syncRows_isSome hfits table {}
  have hstray : rows.any (fun row => row.provider != provider) = false := by
    rw [List.any_eq_false]
    intro row hrow
    simp [hprovider row hrow]
  unfold syncEndpointModels
  rw [hstray, hnext]
  exact ⟨_, rfl⟩

end CatalogTable

namespace EndpointSync

open ModelList CatalogTable

variable {endpoint label : String} {options : SyncOptions} {models : List ListedModel}
  {laddered : List String} {table table' : CatalogTable} {p : Plan} {row : ModelRow}
  {model : ListedModel}

section Rounded

/-- A price as the catalogue's columns hold it: six places, and below a million. -/
structure RoundedPrice (price : Price) : Prop where
  input : FitsColumn price.input
  output : FitsColumn price.output
  cacheRead : ∀ d ∈ price.cacheRead, FitsColumn d
  cacheWrite : ∀ d ∈ price.cacheWrite, FitsColumn d

/-- Every price the entry states is rounded. -/
def RoundedModel (model : ListedModel) : Prop :=
  ∀ vendor ∈ model.vendors, ∀ price, vendor.price = some price → RoundedPrice price

/-- Six places, no sign and below a million: the column stores it as it is. -/
theorem fits_of_places {d : Decimal} (hplaces : ∃ m : ℤ, d.val = m / 10 ^ 6)
    (hnonneg : 0 ≤ d.val) (hlt : d.val < 1000000) : FitsColumn d := by
  obtain ⟨m, hm⟩ := hplaces
  have hscale : (0 : ℚ) < 10 ^ 6 := by positivity
  rw [hm, le_div_iff₀ hscale, zero_mul] at hnonneg
  rw [hm, div_lt_iff₀ hscale] at hlt
  have hnonneg' : 0 ≤ m := by exact_mod_cast hnonneg
  have hlt' : m < 10 ^ 12 := by
    have hcast : (m : ℚ) < ((10 ^ 12 : ℤ) : ℚ) := by
      push_cast
      linarith
    exact_mod_cast hcast
  refine ⟨m.toNat, by omega, ?_⟩
  rw [hm]
  congr 1
  exact_mod_cast (Int.toNat_of_nonneg hnonneg').symm

theorem fits_of_money {amounts : Amounts} {value : Json} {d : Decimal}
    (hround : ∀ d, ∃ m : ℤ, (amounts.round6 d).val = m / 10 ^ 6)
    (h : money amounts value = some d) : FitsColumn d := by
  obtain ⟨exact', -, hstored⟩ := Option.bind_eq_some_iff.mp h
  obtain ⟨⟨hnonneg, hlt⟩, heq⟩ := Option.ite_none_right_eq_some.mp hstored
  cases heq
  exact fits_of_places (hround exact') hnonneg hlt

/-- Every list that is read has rounded prices. -/
theorem rounded_of_priced {amounts : Amounts}
    (hround : ∀ d, ∃ m : ℤ, (amounts.round6 d).val = m / 10 ^ 6) {candidates : List Url}
    {answers : List PageAnswer} {listing : Listing}
    (h : priced amounts candidates answers = .ok listing) :
    ∀ model ∈ listing.models, RoundedModel model := by
  unfold priced at h
  cases hpages : pricedPages candidates answers {} with
  | error e =>
    rw [hpages] at h
    cases h
  | ok read =>
    rw [hpages] at h
    cases h
    intro model hmodel vendor hvendor price hprice
    obtain ⟨page, -, hentry⟩ := List.mem_flatMap.mp hmodel
    obtain ⟨item, -, rfl⟩ := List.mem_map.mp hentry
    obtain ⟨⟨name, v⟩, -, rfl⟩ := List.mem_map.mp hvendor
    obtain ⟨input, hinput, hrest⟩ := Option.bind_eq_some_iff.mp hprice
    obtain ⟨output, houtput, heq⟩ := Option.map_eq_some_iff.mp hrest
    cases heq
    exact ⟨fits_of_money hround hinput, fits_of_money hround houtput,
      fun d hd => fits_of_money hround hd, fun d hd => fits_of_money hround hd⟩

theorem fits_of_offers (hrounded : ∀ model ∈ models, RoundedModel model)
    (h : row ∈ offers endpoint label options models) : Fits row := by
  obtain ⟨model, hmodel, hrow⟩ := mem_offers h
  obtain ⟨offer, hchoose, rfl, -⟩ := offeredRow_eq_some hrow
  obtain ⟨-, vendor, hvendor, hprice⟩ := choose_ok hchoose
  have hprices := hrounded model hmodel vendor hvendor _ hprice
  exact ⟨hprices.input, hprices.output, hprices.cacheRead, hprices.cacheWrite⟩

end Rounded

section Again

variable {id : String} {existing : List StoredModelRow}

/-- What the catalogue holds under a row's id decides its verdict. -/
theorem verdict_providerModels (hid : row.id = modelId endpoint row.upstreamName) :
    verdict endpoint (table.providerModels endpoint) row =
      match table.get row.id with
      | none => .added
      | some stored =>
        if stored.model.provider ≠ endpoint then .held
        else if unchanged stored row then .unchanged
        else .updated := by
  unfold verdict
  rw [hid]
  exact congrArg (fun found => match found with
    | none => Verdict.added
    | some stored =>
      if stored.model.provider ≠ endpoint then Verdict.held
      else if unchanged stored row then Verdict.unchanged
      else Verdict.updated) (find?_providerModels table endpoint row.upstreamName)

theorem offers_shape (h : row ∈ offers endpoint label options models) :
    row.id = modelId endpoint row.upstreamName ∧ row.provider = endpoint ∧
      row.displayLabel.isSome = true := by
  obtain ⟨model, -, hrow⟩ := mem_offers h
  obtain ⟨offer, -, rfl, -⟩ := offeredRow_eq_some hrow
  exact ⟨rfl, rfl, rfl⟩

/-- What a sync wrote is what it would write. -/
theorem unchanged_image {old : Option StoredModelRow} (hlabel : row.displayLabel.isSome = true)
    (hold : ∀ stored, old = some stored → stored.model.provider = row.provider) :
    unchanged (image old row) row = true ∧ (image old row).model.provider = row.provider := by
  cases old with
  | none => simp [image, unchanged, hlabel]
  | some stored =>
    have hsome : (stored.model.displayLabel.or row.displayLabel).isSome = true := by
      simp [hlabel]
    simp [image, hold stored rfl, unchanged, hsome]

theorem isWritten_providerModels (h : row ∈ offers endpoint label options models) :
    isWritten endpoint (table.providerModels endpoint) row = true ↔
      (∀ stored, table.get row.id = some stored →
        stored.model.provider = endpoint ∧ unchanged stored row = false) := by
  rw [isWritten_iff, verdict_providerModels (offers_shape h).1]
  cases table.get row.id with
  | none => simp
  | some stored =>
    by_cases hprovider : stored.model.provider = endpoint
    · cases hunchanged : unchanged stored row <;> simp [hprovider, hunchanged]
    · simp [hprovider]

/-- The ids a plan removes are not among those the list names. -/
theorem mem_removals_iff : id ∈ removals endpoint existing options models laddered ↔
    (∃ m ∈ synced endpoint existing options, m.id = id) ∧
      id ∉ models.filterMap (namedId endpoint options) ∧ id ∉ laddered := by
  unfold removals gone
  rw [List.mem_filter, List.mem_map, Bool.not_eq_true', List.contains_eq_mem,
    decide_eq_false_iff_not]
  constructor
  · rintro ⟨⟨m, hm, rfl⟩, hladder⟩
    obtain ⟨hsynced, hnamed⟩ := List.mem_filter.mp hm
    exact ⟨⟨m, hsynced, rfl⟩, by simpa using hnamed, hladder⟩
  · rintro ⟨⟨m, hsynced, rfl⟩, hnamed, hladder⟩
    exact ⟨⟨m, List.mem_filter.mpr ⟨hsynced, by simpa using hnamed⟩, rfl⟩, hladder⟩

theorem mem_synced_iff {m : ModelRow} :
    m ∈ synced endpoint (table.providerModels endpoint) options ↔
    ∃ stored ∈ table.rows, stored.model = m ∧ stored.syncedBy = some endpoint ∧
      m.provider = endpoint ∧ options.filter.admits m.upstreamName m.id = true := by
  unfold synced
  simp only [List.mem_filter, List.mem_map, mem_providerModels_iff, beq_iff_eq, Bool.and_eq_true]
  constructor
  · rintro ⟨⟨stored, ⟨⟨hmem, -⟩, hsynced⟩, rfl⟩, hprovider, hadmits⟩
    exact ⟨stored, hmem, rfl, hsynced, hprovider, hadmits⟩
  · rintro ⟨stored, hmem, rfl, hsynced, hprovider, hadmits⟩
    exact ⟨⟨stored, ⟨⟨hmem, Or.inl hprovider⟩, hsynced⟩, rfl⟩, hprovider, hadmits⟩

/-- The rows a plan writes, of those the list offers. -/
def writes (endpoint label : String) (options : SyncOptions) (models : List ListedModel)
    (table : CatalogTable) : List ModelRow :=
  (offers endpoint label options models).filter
    (isWritten endpoint (table.providerModels endpoint))

theorem nodup_writes (table : CatalogTable) :
    ((writes endpoint label options models table).map ModelRow.id).Nodup :=
  (nodup_offers models).sublist (List.filter_sublist.map ModelRow.id)

variable {written : CatalogTable} {done : EndpointSync}

/-- After the writes nothing that the list offers is left to write. -/
theorem not_isWritten_after (hrounded : ∀ model ∈ models, RoundedModel model)
    (hsync : syncRows (writes endpoint label options models table) table {} = some (written, done))
    (h : row ∈ offers endpoint label options models) :
    isWritten endpoint ((written.deleteStale endpoint
        (removals endpoint (table.providerModels endpoint) options models laddered)
        laddered).providerModels endpoint) row = false := by
  obtain ⟨-, hprovider, hlabel⟩ := offers_shape h
  have hfits : ∀ row ∈ writes endpoint label options models table, Fits row :=
    fun row hrow => fits_of_offers hrounded (List.mem_of_mem_filter hrow)
  have hkept : row.id ∉ removals endpoint (table.providerModels endpoint) options models laddered :=
    fun hmem => (mem_removals_iff.mp hmem).2.1 (offers_named h)
  rw [← Bool.not_eq_true, isWritten_providerModels h, get_deleteStale_of_not_mem hkept]
  intro hall
  by_cases hwritten : isWritten endpoint (table.providerModels endpoint) row = true
  · have hmem : row ∈ writes endpoint label options models table :=
      List.mem_filter.mpr ⟨h, hwritten⟩
    have hold := (isWritten_providerModels h).mp hwritten
    have hunchanged := unchanged_image hlabel
      (fun stored hstored => ((hold stored hstored).1).trans hprovider.symm)
    have himage := (hall _ (get_syncRows_of_mem hfits (nodup_writes table) hsync hmem)).2
    rw [hunchanged.1] at himage
    cases himage
  · have hnot : row.id ∉ (writes endpoint label options models table).map ModelRow.id := by
      intro hmem
      obtain ⟨other, hother, hid⟩ := List.mem_map.mp hmem
      obtain ⟨hoffered, hotherWritten⟩ := List.mem_filter.mp hother
      have hsame := List.inj_on_of_nodup_map (nodup_offers models) hoffered h hid
      exact hwritten (hsame ▸ hotherWritten)
    rw [get_syncRows_of_not_mem hfits hsync hnot] at hall
    exact hwritten ((isWritten_providerModels h).mpr hall)

/-- After the removals nothing is left to remove. -/
theorem removals_after (laddered : List String)
    (hrounded : ∀ model ∈ models, RoundedModel model)
    (hsync : syncRows (writes endpoint label options models table) table {} =
      some (written, done)) :
    removals endpoint ((written.deleteStale endpoint
        (removals endpoint (table.providerModels endpoint) options models laddered)
        laddered).providerModels endpoint) options models laddered = [] := by
  have hfits : ∀ row ∈ writes endpoint label options models table, Fits row :=
    fun row hrow => fits_of_offers hrounded (List.mem_of_mem_filter hrow)
  rw [List.eq_nil_iff_forall_not_mem]
  intro id hid
  obtain ⟨⟨m, hm, rfl⟩, hnamed, hladder⟩ := mem_removals_iff.mp hid
  obtain ⟨stored, hstored, rfl, hsynced, hprovider, hadmits⟩ := mem_synced_iff.mp hm
  obtain ⟨hmem, hstale⟩ := mem_deleteStale_iff.mp hstored
  have hnot : stored.model.id ∉ (writes endpoint label options models table).map ModelRow.id := by
    intro hwritten
    obtain ⟨row, hrow, hid⟩ := List.mem_map.mp hwritten
    exact hnamed (hid ▸ offers_named (List.mem_of_mem_filter hrow))
  have hget := get_eq_some_iff.mpr ⟨hmem, rfl⟩
  rw [get_syncRows_of_not_mem hfits hsync hnot] at hget
  have hbefore := (get_eq_some_iff.mp hget).1
  have hremoved : stored.model.id ∈
      removals endpoint (table.providerModels endpoint) options models laddered :=
    mem_removals_iff.mpr ⟨⟨stored.model, mem_synced_iff.mpr
      ⟨stored, hbefore, rfl, hsynced, hprovider, hadmits⟩, rfl⟩, hnamed, hladder⟩
  have hgone := stale_iff.mpr ⟨hprovider, hsynced, hremoved, hladder⟩
  rw [hstale] at hgone
  cases hgone

end Again

end EndpointSync

end OpenAIGateway
