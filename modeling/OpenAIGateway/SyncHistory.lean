import OpenAIGateway.SyncAgain

/-!
The catalogue under all its writers. A row that is marked as a sync's is the
endpoint's own, as its sync wrote it, so a list that names a marked row's id
names the model the row is for.
-/

set_option linter.all false

namespace OpenAIGateway

namespace CatalogTable

/-- A row that a sync wrote is an override of its endpoint, under its own name. -/
def Marked (row : StoredModelRow) : Prop :=
  ∀ endpoint, row.syncedBy = some endpoint → row.model.provider = endpoint ∧
    row.model.id = endpoint ++ "/" ++ row.model.upstreamName ∧ row.isOverride = true

def AllMarked (table : CatalogTable) : Prop := ∀ row ∈ table.rows, Marked row

variable {table table' : CatalogTable} {row row' : ModelRow} {id : String}

theorem marked_of_unsynced {row : StoredModelRow} (h : row.syncedBy = none) : Marked row := by
  intro endpoint hsynced
  rw [h] at hsynced
  cases hsynced

theorem AllMarked.put (h : table.AllMarked) {row : StoredModelRow} (hrow : Marked row) :
    (table.put row).AllMarked := by
  intro other hother
  rcases mem_put_iff.mp hother with rfl | ⟨hmem, -⟩
  · exact hrow
  · exact h other hmem

/-- A row that is no override is no sync's. -/
theorem AllMarked.unsynced (h : table.AllMarked) {old : StoredModelRow}
    (hget : table.get id = some old) (hoverride : old.isOverride = false) :
    old.syncedBy = none := by
  cases hsynced : old.syncedBy with
  | none => rfl
  | some endpoint =>
    have hmarked := (h old (get_eq_some_iff.mp hget).1 endpoint hsynced).2.2
    rw [hoverride] at hmarked
    cases hmarked

theorem AllMarked.upsertModel (h : table.AllMarked) {isOverride : Bool}
    (hwrite : table.upsertModel row isOverride = some table') : table'.AllMarked := by
  obtain ⟨row', -, rfl⟩ := Option.map_eq_some_iff.mp hwrite
  cases hget : table.get row'.id with
  | none => exact h.put (marked_of_unsynced rfl)
  | some old =>
    dsimp only
    split_ifs with hoverride
    · exact h
    · have hunsynced := h.unsynced hget (Bool.eq_false_iff.mpr hoverride)
      exact h.put (marked_of_unsynced hunsynced)

theorem AllMarked.overrideModel (h : table.AllMarked)
    (hwrite : table.overrideModel row = some table') : table'.AllMarked := by
  obtain ⟨row', -, rfl⟩ := Option.map_eq_some_iff.mp hwrite
  cases table.get row'.id with
  | none => exact h.put (marked_of_unsynced rfl)
  | some old => exact h.put (marked_of_unsynced rfl)

theorem AllMarked.updateModelPrices (h : table.AllMarked) {input output : Decimal}
    {cacheRead : Option Decimal}
    (hwrite : table.updateModelPrices id input output cacheRead = some table') :
    table'.AllMarked := by
  unfold CatalogTable.updateModelPrices at hwrite
  cases hget : table.get id with
  | none =>
    rw [hget] at hwrite
    cases hwrite
    exact h
  | some old =>
    rw [hget] at hwrite
    dsimp only at hwrite
    split_ifs at hwrite with hoverride
    · cases hwrite
      exact h
    · obtain ⟨row', -, rfl⟩ := Option.map_eq_some_iff.mp hwrite
      have hunsynced := h.unsynced hget (Bool.eq_false_iff.mpr hoverride)
      exact h.put (marked_of_unsynced hunsynced)

theorem AllMarked.setModelLabel (h : table.AllMarked) (id : String) (label : Option String) :
    (table.setModelLabel id label).AllMarked := by
  unfold CatalogTable.setModelLabel
  cases hget : table.get id with
  | none => exact h
  | some old =>
    refine h.put ?_
    exact h old (get_eq_some_iff.mp hget).1

/-- The columns keep whose a row is. -/
theorem stored_eq_some (h : stored row = some row') :
    row'.id = row.id ∧ row'.provider = row.provider ∧ row'.upstreamName = row.upstreamName := by
  obtain ⟨input, -, h⟩ := Option.bind_eq_some_iff.mp h
  obtain ⟨output, -, h⟩ := Option.bind_eq_some_iff.mp h
  obtain ⟨cacheRead, -, h⟩ := Option.bind_eq_some_iff.mp h
  obtain ⟨cacheWrite, -, rfl⟩ := Option.map_eq_some_iff.mp h
  exact ⟨rfl, rfl, rfl⟩

theorem AllMarked.syncModel (h : table.AllMarked) {wrote : Wrote}
    (hrow : row.id = row.provider ++ "/" ++ row.upstreamName)
    (hwrite : syncModel table row = some (table', wrote)) : table'.AllMarked := by
  obtain ⟨row', hstored, heq⟩ := Option.map_eq_some_iff.mp hwrite
  obtain ⟨hid, hprovider, hupstream⟩ := stored_eq_some hstored
  have hmarked : ∀ label,
      Marked ⟨{ row' with displayLabel := label }, true, some row'.provider⟩ := by
    intro label endpoint hsynced
    cases hsynced
    refine ⟨rfl, ?_, rfl⟩
    change row'.id = row'.provider ++ "/" ++ row'.upstreamName
    rw [hid, hprovider, hupstream, hrow]
  cases hget : table.get row'.id with
  | none =>
    rw [hget] at heq
    cases heq
    exact h.put (hmarked row'.displayLabel)
  | some old =>
    rw [hget] at heq
    dsimp only at heq
    split_ifs at heq
    · cases heq
      exact h.put (hmarked _)
    · cases heq
      exact h

theorem AllMarked.syncRows {rows : List ModelRow} {done done' : EndpointSync}
    (h : table.AllMarked)
    (hrows : ∀ row ∈ rows, row.id = row.provider ++ "/" ++ row.upstreamName)
    (hwrite : syncRows rows table done = some (table', done')) : table'.AllMarked := by
  induction rows generalizing table done with
  | nil =>
    cases hwrite
    exact h
  | cons row rows ih =>
    obtain ⟨⟨middle, wrote⟩, hfirst, hrest⟩ := Option.bind_eq_some_iff.mp hwrite
    exact ih (h.syncModel (hrows row List.mem_cons_self) hfirst)
      (fun row hrow => hrows row (List.mem_cons_of_mem _ hrow)) hrest

theorem AllMarked.deleteStale (h : table.AllMarked) (provider : String)
    (ids laddered : List String) : (table.deleteStale provider ids laddered).AllMarked :=
  fun row hrow => h row (mem_deleteStale_iff.mp hrow).1

end CatalogTable

namespace EndpointSync

open ModelList CatalogTable

/-- A catalogue some writers left. A sync may carry out a plan that was made of another
state of the table and of other ladders. -/
inductive Stored : CatalogTable → Prop
  | empty : Stored .empty
  | upserted {table table' : CatalogTable} (row : ModelRow) (isOverride : Bool)
    (h : Stored table) (hwrite : table.upsertModel row isOverride = some table') : Stored table'
  | overridden {table table' : CatalogTable} (row : ModelRow) (h : Stored table)
    (hwrite : table.overrideModel row = some table') : Stored table'
  | repriced {table table' : CatalogTable} (id : String) (input output : Decimal)
    (cacheRead : Option Decimal) (h : Stored table)
    (hwrite : table.updateModelPrices id input output cacheRead = some table') : Stored table'
  | labelled {table : CatalogTable} (id : String) (label : Option String) (h : Stored table) :
    Stored (table.setModelLabel id label)
  | synced {table table' : CatalogTable} {endpoint label : String} {seen : CatalogTable}
    {options : SyncOptions} {models : List ListedModel} {laddered laddered' : List String}
    {p : Plan} {done : CatalogTable.EndpointSync} (h : Stored table)
    (hplan : plan endpoint label (seen.providerModels endpoint) options models laddered = .ok p)
    (hsync : table.syncEndpointModels laddered' endpoint p.writes p.remove =
      some (table', done)) : Stored table'

variable {endpoint label : String} {options : SyncOptions} {models : List ListedModel}
  {laddered : List String} {table table' : CatalogTable} {p : Plan}

theorem Stored.allMarked (h : Stored table) : table.AllMarked := by
  induction h with
  | empty => exact fun row hrow => absurd hrow List.not_mem_nil
  | upserted row isOverride _ hwrite ih => exact ih.upsertModel hwrite
  | overridden row _ hwrite ih => exact ih.overrideModel hwrite
  | repriced id input output cacheRead _ hwrite ih => exact ih.updateModelPrices hwrite
  | labelled id label _ ih => exact ih.setModelLabel id label
  | synced _ hplan hsync ih =>
    obtain ⟨-, -, rfl⟩ := plan_eq_ok_iff.mp hplan
    obtain ⟨hprovider, written, done', hrows, rfl⟩ := syncEndpointModels_eq_some hsync
    refine (ih.syncRows ?_ hrows).deleteStale _ _ _
    intro row hrow
    rw [hprovider row hrow]
    exact (offers_shape (List.mem_of_mem_filter hrow)).1

/-- What a plan may do to a catalogue. -/
structure RemovesOnlyItsOwn (table : CatalogTable) (endpoint : String) (options : SyncOptions)
    (models : List ListedModel) (laddered : List String) (p : Plan) : Prop where
  writes : ∀ row ∈ p.writes, row.provider = endpoint ∧
    ∀ stored, table.get row.id = some stored → stored.model.provider = endpoint
  removes : ∀ id ∈ p.remove, id ∉ laddered ∧
    (∀ model ∈ models, model.upstream.map (modelId endpoint) ≠ some id) ∧
    ∃ stored, table.get id = some stored ∧ stored.syncedBy = some endpoint ∧
      stored.model.provider = endpoint ∧
      options.filter.admits stored.model.upstreamName id = true
  half : p.remove.length * 2 ≤
      (table.rows.filter (fun row => row.syncedBy == some endpoint)).length ∨
    options.allowShrink = true
  places : ∀ model ∈ models, ∀ name, model.upstream = some name →
    options.filter.admits name (modelId endpoint name) = true →
    match choose model options.price with
    | .error skip => (name, skip) ∈ p.report.skipped
    | .ok _ => (p.report.added ++ p.report.updated ++ p.report.unchanged ++ p.report.held).count
        (modelId endpoint name) = 1

/-- A list that names a marked row's id names it past the filters. -/
theorem named_of_marked {stored : StoredModelRow} (hmarked : Marked stored)
    (hsynced : stored.syncedBy = some endpoint)
    (hadmits : options.filter.admits stored.model.upstreamName stored.model.id = true)
    {model : ListedModel} (hmodel : model ∈ models)
    (hid : model.upstream.map (modelId endpoint) = some stored.model.id) :
    stored.model.id ∈ models.filterMap (namedId endpoint options) := by
  obtain ⟨-, hshape, -⟩ := hmarked endpoint hsynced
  obtain ⟨name, hname, hnameId⟩ := Option.map_eq_some_iff.mp hid
  obtain rfl := modelId_inj (hnameId.trans hshape)
  refine List.mem_filterMap.mpr ⟨model, hmodel, ?_⟩
  rw [← hnameId] at hadmits
  unfold namedId
  rw [hname, Option.filter_some, if_pos hadmits, ← hnameId]
  rfl

theorem places_of_plan
    (hplan : plan endpoint label (table.providerModels endpoint) options models laddered = .ok p)
    {model : ListedModel} (hmodel : model ∈ models) {name : String}
    (hname : model.upstream = some name)
    (hadmits : options.filter.admits name (modelId endpoint name) = true) :
    match choose model options.price with
    | .error skip => (name, skip) ∈ p.report.skipped
    | .ok _ => (p.report.added ++ p.report.updated ++ p.report.unchanged ++ p.report.held).count
        (modelId endpoint name) = 1 := by
  obtain ⟨-, -, rfl⟩ := plan_eq_ok_iff.mp hplan
  have hadmitted : admitted endpoint options model = true := by
    simp [admitted, hname, hadmits]
  have hsorts := sorts_progress endpoint label (table.providerModels endpoint) options models
  cases hchoose : choose model options.price with
  | error skip =>
    dsimp only
    rw [progress_skipped]
    refine List.mem_filterMap.mpr ⟨model, hmodel, ?_⟩
    simp [skippedEntry, hadmitted, hchoose, hname]
  | ok offer =>
    dsimp only
    have hupstream : name = offer.upstream :=
      Option.some.inj (hname.symm.trans (choose_ok hchoose).1)
    have hrow : offeredRow endpoint label options model =
        some (catalogRow endpoint label offer) := by
      unfold offeredRow
      rw [if_pos hadmitted, hchoose]
      rfl
    rw [hsorts.added, hsorts.updated, hsorts.unchanged, hsorts.held, count_idsOf, hupstream]
    exact List.count_eq_one_of_mem (nodup_offers models) (id_mem_offers hmodel hrow)

theorem removesOnlyItsOwn_of_plan (hstored : Stored table)
    (hplan : plan endpoint label (table.providerModels endpoint) options models laddered = .ok p) :
    RemovesOnlyItsOwn table endpoint options models laddered p := by
  obtain ⟨-, hshrink, hp⟩ := plan_eq_ok_iff.mp hplan
  refine ⟨?_, ?_, ?_, fun model hmodel name hname hadmits =>
    places_of_plan hplan hmodel hname hadmits⟩
  · intro row hrow
    rw [hp] at hrow
    obtain ⟨hoffered, hwritten⟩ := List.mem_filter.mp hrow
    exact ⟨(offers_shape hoffered).2.1,
      fun stored hget => ((isWritten_providerModels hoffered).mp hwritten stored hget).1⟩
  · intro id hid
    rw [hp] at hid
    obtain ⟨⟨m, hm, rfl⟩, hnamed, hladder⟩ := mem_removals_iff.mp hid
    obtain ⟨stored, hmem, rfl, hsynced, hprovider, hadmits⟩ := mem_synced_iff.mp hm
    refine ⟨hladder, ?_, stored, get_eq_some_iff.mpr ⟨hmem, rfl⟩, hsynced, hprovider, hadmits⟩
    intro model hmodel hmodelId
    exact hnamed (named_of_marked (hstored.allMarked stored hmem) hsynced hadmits hmodel hmodelId)
  · refine hshrink.imp_left (fun hle => ?_)
    rw [hp]
    refine le_trans hle ?_
    unfold synced providerModels
    refine le_trans (List.length_filter_le _ _) ?_
    rw [List.length_map, List.filter_filter]
    refine List.Sublist.length_le (List.monotone_filter_right _ ?_)
    intro row hrow
    exact (Bool.and_eq_true _ _ ▸ hrow : _ ∧ _).1

/-- A plan touches its own endpoint's rows alone, and what it leaves needs no further sync. -/
theorem sync_removes_only_its_own (hstored : Stored table)
    (hrounded : ∀ model ∈ models, RoundedModel model)
    (hplan : plan endpoint label (table.providerModels endpoint) options models laddered = .ok p) :
    RemovesOnlyItsOwn table endpoint options models laddered p ∧
    ∃ table' done, table.syncEndpointModels laddered endpoint p.writes p.remove =
        some (table', done) ∧
      ∃ again, plan endpoint label (table'.providerModels endpoint) options models laddered =
        .ok again ∧ again.writes = [] ∧ again.remove = [] := by
  refine ⟨removesOnlyItsOwn_of_plan hstored hplan, ?_⟩
  obtain ⟨hoffers, -, rfl⟩ := plan_eq_ok_iff.mp hplan
  have hfits : ∀ row ∈ writes endpoint label options models table, Fits row :=
    fun row hrow => fits_of_offers hrounded (List.mem_of_mem_filter hrow)
  have hprovider : ∀ row ∈ writes endpoint label options models table, row.provider = endpoint :=
    fun row hrow => (offers_shape (List.mem_of_mem_filter hrow)).2.1
  obtain ⟨⟨table', done⟩, hsync⟩ := syncEndpointModels_isSome hfits hprovider table
    (removals endpoint (table.providerModels endpoint) options models laddered) laddered
  obtain ⟨-, written, done', hrows, rfl⟩ := syncEndpointModels_eq_some hsync
  have hremovals := removals_after laddered hrounded hrows
  refine ⟨_, done, hsync, _, plan_eq_ok_iff.mpr ⟨hoffers, ?_, rfl⟩, ?_, hremovals⟩
  · left
    rw [hremovals]
    exact Nat.zero_le _
  · rw [List.filter_eq_nil_iff]
    intro row hrow
    rw [not_isWritten_after hrounded hrows hrow]
    decide

/-- One model of one vendor, at a dollar and at five. -/
def listedGlm : ListedModel where
  upstream := some "glm"
  displayName := some "GLM"
  status := none
  accessRequired := false
  vendors := [⟨"particle", none, false, some 131072, none, ["text"], ["text"], true, false,
    some ⟨.new 1 0, .new 5 0, none, none⟩⟩]

/-- A sync of everything, at the cheapest price. -/
def everything : SyncOptions where
  filter := ⟨[], []⟩
  price := .cheapest

theorem rounded_listedGlm : ∀ model ∈ [listedGlm], RoundedModel model := by
  have hfits : ∀ n : ℕ, n < 10 ^ 6 → FitsColumn (.new n 0) := by
    intro n hn
    have habs : |(n : ℤ)| < 2 ^ 96 := by
      rw [abs_of_nonneg (Int.natCast_nonneg n)]
      omega
    refine ⟨n * 10 ^ 6, by omega, ?_⟩
    rw [Decimal.new_val habs (by omega)]
    push_cast
    norm_num
  intro model hmodel vendor hvendor price hprice
  obtain rfl := List.mem_singleton.mp hmodel
  obtain rfl := List.mem_singleton.mp hvendor
  cases hprice
  have hnone : ∀ d ∈ (none : Option Decimal), FitsColumn d :=
    fun d hd => absurd hd (Option.not_mem_none d)
  exact ⟨hfits 1 (by omega), hfits 5 (by omega), hnone, hnone⟩

theorem glm_sync_settles :
    ∃ p, plan "merge" "Merge" (CatalogTable.empty.providerModels "merge") everything [listedGlm] []
        = .ok p ∧
      RemovesOnlyItsOwn .empty "merge" everything [listedGlm] [] p ∧
      ∃ table' done, CatalogTable.empty.syncEndpointModels [] "merge" p.writes p.remove =
          some (table', done) ∧
        ∃ again, plan "merge" "Merge" (table'.providerModels "merge") everything [listedGlm] [] =
          .ok again ∧ again.writes = [] ∧ again.remove = [] := by
  have hok : (plan "merge" "Merge" (CatalogTable.empty.providerModels "merge") everything
      [listedGlm] []).isOk = true := by
    decide +kernel
  cases hplan : plan "merge" "Merge" (CatalogTable.empty.providerModels "merge") everything
      [listedGlm] [] with
  | error refused =>
    rw [hplan] at hok
    cases hok
  | ok p => exact ⟨p, rfl, sync_removes_only_its_own .empty rounded_listedGlm hplan⟩

end EndpointSync

end OpenAIGateway
