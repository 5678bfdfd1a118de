import OpenAIGateway.CatalogTable

/-!
The catalogue's table with every column it has: windows as the integers a
listing may state, the reasoning efforts and the time of the last write. What a
refresh does here is what it does to the columns of `CatalogTable`.
-/

set_option linter.all false

namespace OpenAIGateway

/-- One row of the catalogue, as every writer states it. -/
structure CatalogRow where
  id : String
  provider : String
  upstreamName : String
  inputPerMtok : Decimal
  outputPerMtok : Decimal
  cacheReadPerMtok : Option Decimal
  cacheWritePerMtok : Option Decimal
  contextWindow : ℤ
  maxOutputTokens : ℤ
  supportsVision : Bool
  supportsTools : Bool
  supportsReasoning : Bool
  supportsPromptCache : Bool
  displayLabel : Option String
  reasoningEfforts : Option (List String)
  reasoningEffort : Option String
  deriving DecidableEq

/-- A row with the columns the table keeps about it. -/
structure CatalogRecord where
  row : CatalogRow
  isOverride : Bool
  syncedBy : Option String
  updatedAt : ℤ
  deriving DecidableEq

namespace CatalogRow

open CatalogTable

/-- A row as its price columns store it. -/
@[irreducible]
def stored (row : CatalogRow) : Option CatalogRow :=
  (column row.inputPerMtok).bind (fun input => (column row.outputPerMtok).bind (fun output =>
    (optionalColumn row.cacheReadPerMtok).bind (fun cacheRead =>
      (optionalColumn row.cacheWritePerMtok).map (fun cacheWrite =>
        { row with
          inputPerMtok := input
          outputPerMtok := output
          cacheReadPerMtok := cacheRead
          cacheWritePerMtok := cacheWrite }))))

theorem stored_eq_some_iff {row row' : CatalogRow} :
    row.stored = some row' ↔ ∃ input output cacheRead cacheWrite,
      column row.inputPerMtok = some input ∧ column row.outputPerMtok = some output ∧
      optionalColumn row.cacheReadPerMtok = some cacheRead ∧
      optionalColumn row.cacheWritePerMtok = some cacheWrite ∧
      row' = { row with
        inputPerMtok := input
        outputPerMtok := output
        cacheReadPerMtok := cacheRead
        cacheWritePerMtok := cacheWrite } := by
  unfold stored
  constructor
  · intro h
    obtain ⟨input, hinput, h⟩ := Option.bind_eq_some_iff.mp h
    obtain ⟨output, houtput, h⟩ := Option.bind_eq_some_iff.mp h
    obtain ⟨cacheRead, hread, h⟩ := Option.bind_eq_some_iff.mp h
    obtain ⟨cacheWrite, hwrite, h⟩ := Option.map_eq_some_iff.mp h
    exact ⟨input, output, cacheRead, cacheWrite, hinput, houtput, hread, hwrite, h.symm⟩
  · rintro ⟨input, output, cacheRead, cacheWrite, hinput, houtput, hread, hwrite, rfl⟩
    simp [hinput, houtput, hread, hwrite]

/-- Only prices are rounded. -/
theorem stored_keeps {row row' : CatalogRow} (h : row.stored = some row') :
    row'.id = row.id ∧ row'.provider = row.provider ∧ row'.upstreamName = row.upstreamName := by
  obtain ⟨input, output, cacheRead, cacheWrite, -, -, -, -, rfl⟩ := stored_eq_some_iff.mp h
  exact ⟨rfl, rfl, rfl⟩

/-- The columns of `ModelRow`. -/
def toModelRow (row : CatalogRow) : ModelRow where
  id := row.id
  provider := row.provider
  upstreamName := row.upstreamName
  inputPerMtok := row.inputPerMtok
  outputPerMtok := row.outputPerMtok
  cacheReadPerMtok := row.cacheReadPerMtok
  cacheWritePerMtok := row.cacheWritePerMtok
  contextWindow := row.contextWindow.toNat
  maxOutputTokens := row.maxOutputTokens.toNat
  supportsVision := row.supportsVision
  supportsTools := row.supportsTools
  supportsReasoning := row.supportsReasoning
  supportsPromptCache := row.supportsPromptCache
  displayLabel := row.displayLabel

theorem stored_toModelRow (row : CatalogRow) :
    CatalogTable.stored row.toModelRow = row.stored.map toModelRow := by
  unfold stored CatalogTable.stored
  simp only [toModelRow]
  cases column row.inputPerMtok with
  | none => rfl
  | some input =>
    cases column row.outputPerMtok with
    | none => rfl
    | some output =>
      cases optionalColumn row.cacheReadPerMtok with
      | none => rfl
      | some cacheRead => cases optionalColumn row.cacheWritePerMtok <;> rfl

end CatalogRow

def CatalogRecord.toStored (record : CatalogRecord) : StoredModelRow :=
  ⟨record.row.toModelRow, record.isOverride, record.syncedBy⟩

/-- The table's records, one to an id. -/
structure CatalogRecords where
  records : List CatalogRecord
  sorted : Keyed.Sorted (fun record => record.row.id) records

namespace CatalogRecords

@[ext]
theorem ext {table table' : CatalogRecords} (h : table.records = table'.records) :
    table = table' := by
  cases table
  cases table'
  cases h
  rfl

def get (table : CatalogRecords) (id : String) : Option CatalogRecord :=
  Keyed.get? (fun record => record.row.id) table.records id

/-- Insert a record, over the one that had its id. -/
def put (table : CatalogRecords) (record : CatalogRecord) : CatalogRecords :=
  ⟨Keyed.insert (fun record => record.row.id) record table.records,
    Keyed.sorted_insert record table.sorted⟩

/-- What an insert writes; the columns it does not name take their defaults. -/
def inserted (row : CatalogRow) (isOverride : Bool) (now : ℤ) : CatalogRecord where
  row := { row with reasoningEfforts := none, reasoningEffort := none }
  isOverride := isOverride
  syncedBy := none
  updatedAt := now

/-- What the conflict branch writes; the label, the efforts and the marks stay. -/
def refreshed (old : CatalogRecord) (row : CatalogRow) (now : ℤ) : CatalogRecord :=
  { old with
    row := { row with
      displayLabel := old.row.displayLabel
      reasoningEfforts := old.row.reasoningEfforts
      reasoningEffort := old.row.reasoningEffort }
    updatedAt := now }

/-- `UPSERT_MODEL_SQL`: a refresh, which leaves an override as it is. -/
def upsertModel (table : CatalogRecords) (row : CatalogRow) (isOverride : Bool) (now : ℤ) :
    Option CatalogRecords :=
  row.stored.map (fun row =>
    match table.get row.id with
    | none => table.put (inserted row isOverride now)
    | some old => if old.isOverride then table else table.put (refreshed old row now))

variable {table : CatalogRecords} {record : CatalogRecord} {id : String}

theorem get_eq_some_iff : table.get id = some record ↔ record ∈ table.records ∧ record.row.id = id :=
  Keyed.get?_eq_some_iff table.sorted

theorem get_put (table : CatalogRecords) (record : CatalogRecord) (id : String) :
    (table.put record).get id = if id = record.row.id then some record else table.get id :=
  Keyed.get?_insert table.sorted

/-- A table is what its ids give. -/
theorem ext_get {table table' : CatalogRecords} (h : ∀ id, table.get id = table'.get id) :
    table = table' := by
  apply ext
  apply table.sorted.eq_of_mem_iff table'.sorted
  intro record
  have hid := h record.row.id
  constructor
  · intro hmem
    exact (get_eq_some_iff.mp (hid ▸ get_eq_some_iff.mpr ⟨hmem, rfl⟩)).1
  · intro hmem
    exact (get_eq_some_iff.mp (hid ▸ get_eq_some_iff.mpr ⟨hmem, rfl⟩)).1

/-- The record an id has after an upsert of its row, by the record it had. -/
def upserted (old : Option CatalogRecord) (row : CatalogRow) (isOverride : Bool) (now : ℤ) :
    CatalogRecord :=
  match old with
  | none => inserted row isOverride now
  | some old => if old.isOverride then old else refreshed old row now

theorem upsertModel_eq_none_iff (table : CatalogRecords) (row : CatalogRow) (isOverride : Bool)
    (now : ℤ) : table.upsertModel row isOverride now = none ↔ row.stored = none :=
  Option.map_eq_none_iff

/-- An upsert changes what its own id has, and nothing else. -/
theorem get_upsertModel {next : CatalogRecords} {row : CatalogRow} {isOverride : Bool} {now : ℤ}
    (h : table.upsertModel row isOverride now = some next) :
    ∃ row', row.stored = some row' ∧ ∀ id, next.get id =
      if id = row.id then some (upserted (table.get row.id) row' isOverride now)
      else table.get id := by
  obtain ⟨row', hstored, hnext⟩ := Option.map_eq_some_iff.mp h
  refine ⟨row', hstored, ?_⟩
  intro id
  have hid : row'.id = row.id := (CatalogRow.stored_keeps hstored).1
  rw [← hnext, hid]
  unfold upserted
  cases hget : table.get row.id with
  | none =>
    simp only
    rw [get_put]
    simp [inserted, hid]
  | some old =>
    simp only
    cases hold : old.isOverride with
    | true =>
      by_cases heq : id = row.id
      · simp [heq, hget]
      · simp [heq]
    | false =>
      simp only [Bool.false_eq_true, if_false]
      rw [get_put]
      simp [refreshed, hid]

/-! The columns of `CatalogTable` alone. -/

def toTable (table : CatalogRecords) : CatalogTable where
  rows := table.records.map CatalogRecord.toStored
  sorted := List.pairwise_map.mpr table.sorted

theorem get_toTable (table : CatalogRecords) (id : String) :
    table.toTable.get id = (table.get id).map CatalogRecord.toStored := by
  unfold CatalogTable.get get Keyed.get? toTable
  rw [List.find?_map]
  rfl

theorem toTable_put (table : CatalogRecords) (record : CatalogRecord) :
    (table.put record).toTable = table.toTable.put record.toStored := by
  unfold put toTable CatalogTable.put
  congr 1
  apply Keyed.map_insert
  exact fun _ => rfl

theorem toTable_upsertModel (table : CatalogRecords) (row : CatalogRow) (isOverride : Bool)
    (now : ℤ) :
    (table.upsertModel row isOverride now).map toTable =
      table.toTable.upsertModel row.toModelRow isOverride := by
  unfold upsertModel CatalogTable.upsertModel
  rw [CatalogRow.stored_toModelRow, Option.map_map, Option.map_map]
  congr 1
  funext row
  have hid : row.toModelRow.id = row.id := rfl
  simp only [Function.comp_apply, get_toTable, hid]
  cases table.get row.id with
  | none => exact toTable_put table _
  | some old =>
    simp only [Option.map_some]
    cases hold : old.isOverride with
    | true => simp [CatalogRecord.toStored, hold]
    | false =>
      simp only [CatalogRecord.toStored, hold, Bool.false_eq_true, if_false]
      rw [toTable_put]
      simp [refreshed, CatalogRecord.toStored, CatalogRow.toModelRow, hold]

end CatalogRecords

end OpenAIGateway
