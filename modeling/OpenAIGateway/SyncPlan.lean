import OpenAIGateway.Appending
import OpenAIGateway.EndpointSync

/-!
What a sync plans. The offered rows are taken once each, in the order the list
first offers them, and each goes to one place by what the catalogue holds
under its id.
-/

set_option linter.all false

namespace OpenAIGateway.EndpointSync

open ModelList

theorem modelId_inj {endpoint name name' : String}
    (h : modelId endpoint name = modelId endpoint name') : name = name' :=
  (String.append_right_inj _).mp h

variable (endpoint label : String) (existing : List StoredModelRow) (options : SyncOptions)

/-- The id an entry names, where the filters admit it. -/
def namedId (model : ListedModel) : Option String :=
  (model.upstream.filter (fun name => options.filter.admits name (modelId endpoint name))).map
    (modelId endpoint)

/-- The filters do not leave the entry out. -/
def admitted (model : ListedModel) : Bool :=
  model.upstream.all (fun name => options.filter.admits name (modelId endpoint name))

/-- The row an entry offers. -/
def offeredRow (model : ListedModel) : Option ModelRow :=
  if admitted endpoint options model then
    (choose model options.price).toOption.map (catalogRow endpoint label)
  else none

def skippedEntry (model : ListedModel) : Option (String × Skip) :=
  if admitted endpoint options model then
    match choose model options.price with
    | .error skip => some (model.upstream.getD "(unnamed)", skip)
    | .ok _ => none
  else none

/-- A row for an id that has none yet. -/
def addRow (rows : List ModelRow) (row : ModelRow) : List ModelRow :=
  if row.id ∈ rows.map ModelRow.id then rows else rows ++ [row]

/-- The rows a list offers, the first for each id. -/
def offers (models : List ListedModel) : List ModelRow :=
  (models.filterMap (offeredRow endpoint label options)).foldl addRow []

/-- The ids of the rows with a verdict. -/
def idsOf (v : Verdict) (rows : List ModelRow) : List String :=
  (rows.filter (fun row => decide (verdict endpoint existing row = v))).map ModelRow.id

/-- Whether a row is to be written. -/
def isWritten (row : ModelRow) : Bool :=
  decide (verdict endpoint existing row = .added ∨ verdict endpoint existing row = .updated)

/-- The progress holds the rows, each in the place its verdict says. -/
structure Sorts (rows : List ModelRow) (st : Progress) : Prop where
  offered : st.offered = rows.map ModelRow.id
  added : st.report.added = idsOf endpoint existing .added rows
  updated : st.report.updated = idsOf endpoint existing .updated rows
  unchanged : st.report.unchanged = idsOf endpoint existing .unchanged rows
  held : st.report.held = idsOf endpoint existing .held rows
  writes : st.writes = rows.filter (isWritten endpoint existing)

variable {endpoint label existing options} {rows : List ModelRow} {row : ModelRow}
  {st : Progress} {model : ListedModel} {models : List ListedModel}

section Place

theorem idsOf_snoc (v : Verdict) : idsOf endpoint existing v (rows ++ [row]) =
    idsOf endpoint existing v rows ++
      if verdict endpoint existing row = v then [row.id] else [] := by
  unfold idsOf
  rw [List.filter_append, List.map_append]
  congr 1
  by_cases hv : verdict endpoint existing row = v <;> simp [hv]

/-- A row goes to the place its verdict says, unless its id was offered before. -/
theorem Sorts.place (h : Sorts endpoint existing rows st) (row : ModelRow) :
    Sorts endpoint existing (addRow rows row) (place endpoint existing st row) := by
  unfold EndpointSync.place addRow
  rw [h.offered]
  by_cases hmem : row.id ∈ rows.map ModelRow.id
  · rw [if_pos hmem, if_pos hmem]
    exact h
  · rw [if_neg hmem, if_neg hmem]
    cases hverdict : verdict endpoint existing row <;> constructor <;>
      simp [idsOf_snoc, isWritten, hverdict, h.added, h.updated, h.unchanged, h.held, h.writes]

/-- Placing a row touches neither what the list names nor what it skips. -/
theorem place_frame (st : Progress) (row : ModelRow) :
    (place endpoint existing st row).named = st.named ∧
      (place endpoint existing st row).report.skipped = st.report.skipped := by
  unfold place
  by_cases hmem : row.id ∈ st.offered
  · rw [if_pos hmem]
    exact ⟨rfl, rfl⟩
  · rw [if_neg hmem]
    cases verdict endpoint existing row <;> exact ⟨rfl, rfl⟩

end Place

section Visit

theorem visit_named (st : Progress) (model : ListedModel) :
    (visit endpoint label existing options st model).named =
      st.named ++ (namedId endpoint options model).toList := by
  have hoffer : ∀ st, (offer endpoint label existing options st model).named = st.named := by
    intro st
    unfold offer
    cases choose model options.price with
    | error skip => rfl
    | ok offer => exact (place_frame st _).1
  unfold visit namedId
  cases model.upstream with
  | none => simp [hoffer]
  | some name =>
    dsimp only
    by_cases hadmits : options.filter.admits name (modelId endpoint name) = true
    · rw [if_pos hadmits, hoffer, Option.filter_some, if_pos hadmits]
      rfl
    · rw [if_neg hadmits, Option.filter_some, if_neg hadmits]
      exact (List.append_nil _).symm

theorem offer_skipped (st : Progress) (model : ListedModel)
    (hadmitted : admitted endpoint options model = true) :
    (offer endpoint label existing options st model).report.skipped =
      st.report.skipped ++ (skippedEntry endpoint options model).toList := by
  unfold offer skippedEntry
  rw [if_pos hadmitted]
  cases choose model options.price with
  | error skip => rfl
  | ok offer =>
    rw [(place_frame st _).2]
    simp

theorem visit_skipped (st : Progress) (model : ListedModel) :
    (visit endpoint label existing options st model).report.skipped =
      st.report.skipped ++ (skippedEntry endpoint options model).toList := by
  unfold visit
  cases hupstream : model.upstream with
  | none => exact offer_skipped st model (by simp [admitted, hupstream])
  | some name =>
    dsimp only
    by_cases hadmits : options.filter.admits name (modelId endpoint name) = true
    · rw [if_pos hadmits]
      exact offer_skipped _ model (by simp [admitted, hupstream, hadmits])
    · rw [if_neg hadmits]
      simp [skippedEntry, admitted, hupstream, hadmits]

theorem Sorts.offer (h : Sorts endpoint existing rows st)
    (hadmitted : admitted endpoint options model = true) :
    Sorts endpoint existing ((offeredRow endpoint label options model).toList.foldl addRow rows)
      (offer endpoint label existing options st model) := by
  unfold EndpointSync.offer offeredRow
  rw [if_pos hadmitted]
  cases choose model options.price with
  | error skip => exact ⟨h.offered, h.added, h.updated, h.unchanged, h.held, h.writes⟩
  | ok offer => exact h.place (catalogRow endpoint label offer)

theorem Sorts.visit (h : Sorts endpoint existing rows st) (model : ListedModel) :
    Sorts endpoint existing ((offeredRow endpoint label options model).toList.foldl addRow rows)
      (visit endpoint label existing options st model) := by
  unfold EndpointSync.visit
  cases hupstream : model.upstream with
  | none => exact h.offer (by simp [admitted, hupstream])
  | some name =>
    dsimp only
    by_cases hadmits : options.filter.admits name (modelId endpoint name) = true
    · rw [if_pos hadmits]
      have h' : Sorts endpoint existing rows
          { st with named := st.named ++ [modelId endpoint name] } :=
        ⟨h.offered, h.added, h.updated, h.unchanged, h.held, h.writes⟩
      exact h'.offer (by simp [admitted, hupstream, hadmits])
    · rw [if_neg hadmits]
      have hnone : offeredRow endpoint label options model = none := by
        simp [offeredRow, admitted, hupstream, hadmits]
      rw [hnone]
      exact ⟨h.offered, h.added, h.updated, h.unchanged, h.held, h.writes⟩

theorem Sorts.foldl (h : Sorts endpoint existing rows st) (models : List ListedModel) :
    Sorts endpoint existing
      ((models.filterMap (offeredRow endpoint label options)).foldl addRow rows)
      (models.foldl (EndpointSync.visit endpoint label existing options) st) := by
  induction models generalizing rows st with
  | nil => exact h
  | cons model models ih =>
    have hvisit : Sorts endpoint existing
        ((offeredRow endpoint label options model).toList.foldl addRow rows)
        (EndpointSync.visit endpoint label existing options st model) := h.visit model
    have hnext := ih hvisit
    cases hrow : offeredRow endpoint label options model with
    | none =>
      rw [hrow] at hnext
      rwa [List.filterMap_cons_none hrow]
    | some row =>
      rw [hrow] at hnext
      rwa [List.filterMap_cons_some hrow]

end Visit

section Plan

variable (endpoint label existing options) (models : List ListedModel) (laddered : List String)

def progress : Progress :=
  models.foldl (visit endpoint label existing options) (.start endpoint options)

/-- The ids of the managed rows that the list does not name. -/
def gone : List String :=
  ((synced endpoint existing options).filter
    (fun m => !(models.filterMap (namedId endpoint options)).contains m.id)).map ModelRow.id

/-- Of those, the ids that no ladder names. -/
def removals : List String :=
  (gone endpoint existing options models).filter (fun id => !laddered.contains id)

theorem sorts_progress : Sorts endpoint existing (offers endpoint label options models)
    (progress endpoint label existing options models) := by
  have hstart : Sorts endpoint existing [] (.start endpoint options) := by
    constructor <;> rfl
  exact hstart.foldl models

theorem progress_named : (progress endpoint label existing options models).named =
    models.filterMap (namedId endpoint options) := by
  rw [List.filterMap_eq_flatMap_toList]
  exact Appending.foldl_appends visit_named _ models

theorem progress_skipped : (progress endpoint label existing options models).report.skipped =
    models.filterMap (skippedEntry endpoint options) := by
  rw [List.filterMap_eq_flatMap_toList]
  exact Appending.foldl_appends (f := fun st : Progress => st.report.skipped) visit_skipped _ models

theorem plan_eq : plan endpoint label existing options models laddered =
    if offers endpoint label options models = [] then
      .error (.nothing (progress endpoint label existing options models).report.skipped.length
        (progress endpoint label existing options models).report.filtered.length)
    else if (synced endpoint existing options).length <
        (removals endpoint existing options models laddered).length * 2 ∧
        options.allowShrink = false then
      .error (.shrinks (removals endpoint existing options models laddered).length
        (synced endpoint existing options).length)
    else
      .ok ⟨{ (progress endpoint label existing options models).report with
          keptOnLadder :=
            (gone endpoint existing options models).filter (fun id => laddered.contains id)
          removed := removals endpoint existing options models laddered },
        (offers endpoint label options models).filter (isWritten endpoint existing),
        removals endpoint existing options models laddered⟩ := by
  have hsorts := sorts_progress endpoint label existing options models
  have hoffered : ((progress endpoint label existing options models).offered.isEmpty = true) =
      (offers endpoint label options models = []) := by
    rw [hsorts.offered]
    simp
  unfold plan removals gone
  rw [← progress_named endpoint label existing options models]
  change (if (progress endpoint label existing options models).offered.isEmpty = true then _
    else _) = _
  simp only [hoffered, ← hsorts.writes]
  rfl

end Plan

variable {laddered : List String} {p : Plan} {id : String}

theorem plan_eq_ok_iff : plan endpoint label existing options models laddered = .ok p ↔
    offers endpoint label options models ≠ [] ∧
      ((removals endpoint existing options models laddered).length * 2 ≤
        (synced endpoint existing options).length ∨ options.allowShrink = true) ∧
      p = ⟨{ (progress endpoint label existing options models).report with
          keptOnLadder :=
            (gone endpoint existing options models).filter (fun id => laddered.contains id)
          removed := removals endpoint existing options models laddered },
        (offers endpoint label options models).filter (isWritten endpoint existing),
        removals endpoint existing options models laddered⟩ := by
  rw [plan_eq]
  by_cases hempty : offers endpoint label options models = []
  · simp [hempty]
  · rw [if_neg hempty]
    by_cases hshrinks : (synced endpoint existing options).length <
        (removals endpoint existing options models laddered).length * 2 ∧
        options.allowShrink = false
    · rw [if_pos hshrinks]
      constructor
      · exact nofun
      · rintro ⟨-, hle | hallow, -⟩
        · exact absurd hshrinks.1 (Nat.not_lt.mpr hle)
        · rw [hallow] at hshrinks
          exact absurd hshrinks.2 (by decide)
    · rw [if_neg hshrinks]
      constructor
      · intro h
        refine ⟨hempty, ?_, (Except.ok.inj h).symm⟩
        rcases Decidable.not_and_iff_or_not.mp hshrinks with hle | hallow
        · exact Or.inl (Nat.not_lt.mp hle)
        · exact Or.inr (Bool.not_eq_false _ ▸ hallow)
      · rintro ⟨-, -, rfl⟩
        rfl

section Offers

theorem mem_of_chooseVendor {choice : PriceChoice} {paid : List (Vendor × Price)}
    {chosen : Vendor × Price} (h : chooseVendor choice paid = some chosen) : chosen ∈ paid := by
  cases choice with
  | cheapest => exact Extrema.mem_of_maxBy h
  | first => exact List.mem_of_head? h

/-- An offer is under the entry's own name, at a price one of its vendors states and that
is not free. -/
theorem choose_eq_ok {choice : PriceChoice} {offer : Offer} (h : choose model choice = .ok offer) :
    model.upstream = some offer.upstream ∧
      (∃ vendor ∈ model.vendors, vendor.price = some offer.price) ∧
      isFree offer.price = false := by
  unfold choose at h
  split at h
  · cases h
  next upstream hupstream =>
    obtain ⟨hname, -⟩ := Option.filter_eq_some_iff.mp hupstream
    split_ifs at h
    split at h
    · cases h
    split at h
    · cases h
    dsimp only at h
    split_ifs at h
    split at h
    · cases h
    next vendor price hchosen =>
      cases h
      obtain ⟨hpaid, hfree⟩ := List.mem_filter.mp (mem_of_chooseVendor hchosen)
      obtain ⟨v, hv, hprice⟩ := List.mem_filterMap.mp hpaid
      obtain ⟨p, hp, hpair⟩ := Option.map_eq_some_iff.mp hprice
      cases hpair
      have hvendor : vendor ∈ model.vendors :=
        List.mem_of_mem_filter (List.mem_of_mem_filter hv)
      exact ⟨hname, ⟨vendor, hvendor, hp⟩, (Bool.not_eq_true' _).mp hfree⟩

theorem choose_ok {choice : PriceChoice} {offer : Offer} (h : choose model choice = .ok offer) :
    model.upstream = some offer.upstream ∧
      ∃ vendor ∈ model.vendors, vendor.price = some offer.price :=
  ⟨(choose_eq_ok h).1, (choose_eq_ok h).2.1⟩

/-- What an offered row is made from. -/
theorem offeredRow_eq_some (h : offeredRow endpoint label options model = some row) :
    ∃ offer, choose model options.price = .ok offer ∧ row = catalogRow endpoint label offer ∧
      namedId endpoint options model = some row.id := by
  unfold offeredRow at h
  split_ifs at h with hadmitted
  cases hchoose : choose model options.price with
  | error skip =>
    rw [hchoose] at h
    cases h
  | ok offer =>
    rw [hchoose] at h
    cases h
    refine ⟨offer, rfl, rfl, ?_⟩
    have hupstream := (choose_ok hchoose).1
    have hadmits :
        options.filter.admits offer.upstream (modelId endpoint offer.upstream) = true := by
      simpa [admitted, hupstream] using hadmitted
    unfold namedId
    rw [hupstream, Option.filter_some, if_pos hadmits]
    rfl

/-- A row is in the way of a later one with its id. -/
def sameId (row old : ModelRow) : Bool := decide (old.id = row.id)

theorem foldl_addRow (rows rows' : List ModelRow) :
    rows'.foldl addRow rows = Appending.putAll sameId rows rows' := by
  unfold Appending.putAll
  congr 1
  funext rows row
  unfold addRow Appending.put
  apply if_congr _ rfl rfl
  simp [sameId]

theorem nodup_offers (models : List ListedModel) :
    ((offers endpoint label options models).map ModelRow.id).Nodup := by
  unfold offers
  rw [foldl_addRow]
  refine List.pairwise_map.mpr ((Appending.free_putAll List.Pairwise.nil _).imp ?_)
  intro old row hfree
  exact of_decide_eq_false hfree

theorem mem_offers (h : row ∈ offers endpoint label options models) :
    ∃ model ∈ models, offeredRow endpoint label options model = some row := by
  unfold offers at h
  rw [foldl_addRow] at h
  exact List.mem_filterMap.mp ((Appending.mem_of_mem_putAll h).resolve_left List.not_mem_nil)

theorem id_mem_offers (hmodel : model ∈ models)
    (hrow : offeredRow endpoint label options model = some row) :
    row.id ∈ (offers endpoint label options models).map ModelRow.id := by
  unfold offers
  rw [foldl_addRow]
  have hmem : row ∈ models.filterMap (offeredRow endpoint label options) :=
    List.mem_filterMap.mpr ⟨model, hmodel, hrow⟩
  have hthere : ∃ old ∈ Appending.putAll sameId [] (models.filterMap (offeredRow endpoint label
      options)), old = row ∨ sameId row old = true := Appending.placed_putAll [] hmem
  obtain ⟨old, hold, hplaced⟩ := hthere
  refine List.mem_map.mpr ⟨old, hold, ?_⟩
  rcases hplaced with rfl | hsame
  · rfl
  · exact of_decide_eq_true hsame

theorem offers_named (h : row ∈ offers endpoint label options models) :
    row.id ∈ models.filterMap (namedId endpoint options) := by
  obtain ⟨model, hmodel, hrow⟩ := mem_offers h
  obtain ⟨-, -, -, hnamed⟩ := offeredRow_eq_some hrow
  exact List.mem_filterMap.mpr ⟨model, hmodel, hnamed⟩

end Offers

section Verdicts

/-- The four places together hold what the rows do. -/
theorem count_idsOf (endpoint : String) (existing : List StoredModelRow) (rows : List ModelRow)
    (id : String) :
    (idsOf endpoint existing .added rows ++ idsOf endpoint existing .updated rows ++
      idsOf endpoint existing .unchanged rows ++ idsOf endpoint existing .held rows).count id =
      (rows.map ModelRow.id).count id := by
  simp only [List.count_append, idsOf]
  induction rows with
  | nil => rfl
  | cons row rows ih =>
    simp only [List.filter_cons, List.map_cons, List.count_cons]
    cases verdict endpoint existing row <;>
      simp only [reduceCtorEq, decide_true, decide_false, if_true, if_false, Bool.false_eq_true,
        List.map_cons, List.count_cons] <;> omega

theorem isWritten_iff : isWritten endpoint existing row = true ↔
    verdict endpoint existing row = .added ∨ verdict endpoint existing row = .updated := by
  simp [isWritten]

end Verdicts

end OpenAIGateway.EndpointSync
