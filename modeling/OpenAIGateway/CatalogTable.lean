import OpenAIGateway.Decimal
import OpenAIGateway.Keyed
import Mathlib.Data.Rat.Floor
import Mathlib.Data.String.Basic

/-!
The catalogue's table and the statements that write it. A row may be an
operator's override, which a refresh leaves alone, and may be marked with the
endpoint whose sync last wrote it. A statement that a column refuses writes
nothing.
-/

set_option linter.all false

namespace OpenAIGateway

/-- One row of the catalogue. -/
structure ModelRow where
  id : String
  provider : String
  upstreamName : String
  inputPerMtok : Decimal
  outputPerMtok : Decimal
  cacheReadPerMtok : Option Decimal
  cacheWritePerMtok : Option Decimal
  contextWindow : ℕ
  maxOutputTokens : ℕ
  supportsVision : Bool
  supportsTools : Bool
  supportsReasoning : Bool
  supportsPromptCache : Bool
  displayLabel : Option String
  deriving DecidableEq

structure StoredModelRow where
  model : ModelRow
  isOverride : Bool
  syncedBy : Option String
  deriving DecidableEq

namespace CatalogTable

/-- The value a `numeric(12,6)` column stores: six places, half away from zero. -/
def column (d : Decimal) : Option Decimal :=
  let scaled := d.val * 10 ^ 6
  let m : ℤ := if 0 ≤ scaled then ⌊scaled + 1 / 2⌋ else -⌊-scaled + 1 / 2⌋
  if |m| < 10 ^ 12 then some (.new m 6) else none

def optionalColumn : Option Decimal → Option (Option Decimal)
  | some d => (column d).map some
  | none => some none

/-- A row as its columns store it. -/
def stored (row : ModelRow) : Option ModelRow :=
  (column row.inputPerMtok).bind (fun input => (column row.outputPerMtok).bind (fun output =>
    (optionalColumn row.cacheReadPerMtok).bind (fun cacheRead =>
      (optionalColumn row.cacheWritePerMtok).map (fun cacheWrite =>
        { row with
          inputPerMtok := input
          outputPerMtok := output
          cacheReadPerMtok := cacheRead
          cacheWritePerMtok := cacheWrite }))))

/-- A price the column stores as it is. -/
def FitsColumn (d : Decimal) : Prop := ∃ m : ℕ, m < 10 ^ 12 ∧ d.val = m / 10 ^ 6

theorem column_of_fits {d : Decimal} (h : FitsColumn d) : column d = some d := by
  obtain ⟨m, hm, hd⟩ := h
  have hscaled : d.val * 10 ^ 6 = m := by
    rw [hd]
    field_simp
  have hfloor : ⌊(m : ℚ) + 1 / 2⌋ = m := by
    rw [Int.floor_eq_iff]
    push_cast
    constructor <;> linarith
  have habs : |(m : ℤ)| < 10 ^ 12 := by
    rw [abs_of_nonneg (by positivity)]
    exact_mod_cast hm
  unfold column
  rw [hscaled]
  simp only [if_pos (Nat.cast_nonneg m : (0 : ℚ) ≤ m), hfloor, if_pos habs]
  congr 1
  apply Decimal.ext
  rw [Decimal.new_val (lt_trans habs (by norm_num)) (by norm_num), hd]
  rw [Int.cast_natCast]

/-- Every price of the row is one its column stores as it is. -/
structure Fits (row : ModelRow) : Prop where
  input : FitsColumn row.inputPerMtok
  output : FitsColumn row.outputPerMtok
  cacheRead : ∀ d ∈ row.cacheReadPerMtok, FitsColumn d
  cacheWrite : ∀ d ∈ row.cacheWritePerMtok, FitsColumn d

theorem optionalColumn_of_fits {price : Option Decimal} (h : ∀ d ∈ price, FitsColumn d) :
    optionalColumn price = some price := by
  cases price with
  | none => rfl
  | some d => simp [optionalColumn, column_of_fits (h d rfl)]

theorem stored_of_fits {row : ModelRow} (h : Fits row) : stored row = some row := by
  simp [stored, column_of_fits h.input, column_of_fits h.output,
    optionalColumn_of_fits h.cacheRead, optionalColumn_of_fits h.cacheWrite]

end CatalogTable

/-- The table's rows, one to an id. -/
structure CatalogTable where
  rows : List StoredModelRow
  sorted : Keyed.Sorted (fun row => row.model.id) rows

namespace CatalogTable

def empty : CatalogTable := ⟨[], List.Pairwise.nil⟩

def get (table : CatalogTable) (id : String) : Option StoredModelRow :=
  Keyed.get? (fun row => row.model.id) table.rows id

/-- Insert a row, over the one that had its id. -/
def put (table : CatalogTable) (row : StoredModelRow) : CatalogTable :=
  ⟨Keyed.insert (fun row => row.model.id) row table.rows, Keyed.sorted_insert row table.sorted⟩

/-- `UPSERT_MODEL_SQL`: a refresh, which leaves an override as it is. -/
def upsertModel (table : CatalogTable) (row : ModelRow) (isOverride : Bool) :
    Option CatalogTable :=
  (stored row).map (fun row =>
    match table.get row.id with
    | none => table.put ⟨row, isOverride, none⟩
    | some old =>
      if old.isOverride then table
      else table.put ⟨{ row with displayLabel := old.model.displayLabel }, false, old.syncedBy⟩)

/-- `OVERRIDE_MODEL_SQL`: an operator's own row. -/
def overrideModel (table : CatalogTable) (row : ModelRow) : Option CatalogTable :=
  (stored row).map (fun row =>
    match table.get row.id with
    | none => table.put ⟨row, true, none⟩
    | some old =>
      let label := row.displayLabel.or old.model.displayLabel
      table.put ⟨{ row with displayLabel := label }, true, none⟩)

/-- New prices for a row that is no override. -/
def updateModelPrices (table : CatalogTable) (id : String) (input output : Decimal)
    (cacheRead : Option Decimal) : Option CatalogTable :=
  match table.get id with
  | none => some table
  | some old =>
    if old.isOverride then some table
    else
      let priced := { old.model with
        inputPerMtok := input
        outputPerMtok := output
        cacheReadPerMtok := cacheRead.or old.model.cacheReadPerMtok }
      (stored priced).map (fun row => table.put ⟨row, false, old.syncedBy⟩)

def setModelLabel (table : CatalogTable) (id : String) (label : Option String) : CatalogTable :=
  match table.get id with
  | none => table
  | some old => table.put { old with model := { old.model with displayLabel := label } }

/-- What an endpoint sync's write came to: the id it wrote, or the one another provider holds. -/
inductive Wrote
  | written (id : String)
  | held (id : String)

/-- `SYNC_MODEL_SQL`: every column from the listing, over a row of the same provider alone. -/
def syncModel (table : CatalogTable) (row : ModelRow) : Option (CatalogTable × Wrote) :=
  (stored row).map (fun row =>
    match table.get row.id with
    | none => (table.put ⟨row, true, some row.provider⟩, .written row.id)
    | some old =>
      if old.model.provider = row.provider then
        let label := old.model.displayLabel.or row.displayLabel
        (table.put ⟨{ row with displayLabel := label }, true, some row.provider⟩, .written row.id)
      else (table, .held row.id))

/-- Whether `DELETE_STALE_SQL` removes a row. -/
def stale (provider : String) (ids laddered : List String) (row : StoredModelRow) : Bool :=
  row.model.provider == provider && row.syncedBy == some provider && ids.contains row.model.id &&
    !laddered.contains row.model.id

def deleteStale (table : CatalogTable) (provider : String) (ids laddered : List String) :
    CatalogTable :=
  ⟨table.rows.filter (fun row => !stale provider ids laddered row), table.sorted.filter _⟩

/-- What a sync's transaction did. -/
structure EndpointSync where
  written : List String := []
  held : List String := []
  removed : List String := []

def EndpointSync.add (done : EndpointSync) : Wrote → EndpointSync
  | .written id => { done with written := done.written ++ [id] }
  | .held id => { done with held := done.held ++ [id] }

def syncRows : List ModelRow → CatalogTable → EndpointSync → Option (CatalogTable × EndpointSync)
  | [], table, done => some (table, done)
  | row :: rows, table, done =>
    (syncModel table row).bind (fun (table, wrote) => syncRows rows table (done.add wrote))

/-- Write one endpoint's rows and remove its stale ones, in one transaction; none when it
was handed another provider's row or a column refused one. -/
def syncEndpointModels (table : CatalogTable) (laddered : List String) (provider : String)
    (rows : List ModelRow) (ids : List String) : Option (CatalogTable × EndpointSync) :=
  if rows.any (fun row => row.provider != provider) then none
  else (syncRows rows table {}).map (fun (table, done) =>
    let removed := (table.rows.filter (stale provider ids laddered)).map (fun row => row.model.id)
    (table.deleteStale provider ids laddered, { done with removed := removed }))

/-- `provider_models`: a provider's rows, and any row whose id has its prefix. -/
def providerModels (table : CatalogTable) (provider : String) : List StoredModelRow :=
  table.rows.filter (fun row =>
    row.model.provider == provider || (provider ++ "/").toList.isPrefixOf row.model.id.toList)

variable {table : CatalogTable} {row : StoredModelRow} {id : String}

theorem get_eq_some_iff : table.get id = some row ↔ row ∈ table.rows ∧ row.model.id = id :=
  Keyed.get?_eq_some_iff table.sorted

theorem mem_put_iff {other : StoredModelRow} :
    other ∈ (table.put row).rows ↔
      other = row ∨ (other ∈ table.rows ∧ other.model.id ≠ row.model.id) :=
  Keyed.mem_insert_iff table.sorted

theorem get_put (table : CatalogTable) (row : StoredModelRow) (id : String) :
    (table.put row).get id = if id = row.model.id then some row else table.get id := by
  ext other
  rw [get_eq_some_iff, mem_put_iff]
  by_cases hid : id = row.model.id
  · rw [if_pos hid]
    constructor
    · rintro ⟨rfl | ⟨-, hne⟩, hother⟩
      · rfl
      · exact absurd (hother.trans hid) hne
    · rintro ⟨⟩
      exact ⟨Or.inl rfl, hid.symm⟩
  · rw [if_neg hid, get_eq_some_iff]
    constructor
    · rintro ⟨rfl | ⟨hmem, -⟩, hother⟩
      · exact absurd hother.symm hid
      · exact ⟨hmem, hother⟩
    · rintro ⟨hmem, hother⟩
      exact ⟨Or.inr ⟨hmem, fun heq => hid (hother.symm.trans heq)⟩, hother⟩

theorem mem_deleteStale_iff {provider : String} {ids laddered : List String} :
    row ∈ (table.deleteStale provider ids laddered).rows ↔
      row ∈ table.rows ∧ stale provider ids laddered row = false := by
  unfold deleteStale
  rw [List.mem_filter, Bool.not_eq_true']

theorem stale_iff {provider : String} {ids laddered : List String} :
    stale provider ids laddered row = true ↔ row.model.provider = provider ∧
      row.syncedBy = some provider ∧ row.model.id ∈ ids ∧ row.model.id ∉ laddered := by
  simp [stale, and_assoc]

theorem mem_providerModels_iff {provider : String} :
    row ∈ table.providerModels provider ↔ row ∈ table.rows ∧ (row.model.provider = provider ∨
      (provider ++ "/").toList <+: row.model.id.toList) := by
  simp [providerModels]

/-- An id under the provider's prefix is looked up among its rows as in the whole table. -/
theorem find?_providerModels (table : CatalogTable) (provider name : String) :
    (table.providerModels provider).find?
      (fun row => decide (row.model.id = provider ++ "/" ++ name)) = table.get (provider ++ "/" ++ name) := by
  unfold providerModels get Keyed.get?
  rw [List.find?_filter]
  congr 1
  funext row
  by_cases hid : row.model.id = provider ++ "/" ++ name
  · simp [hid]
  · simp [hid]

end CatalogTable

end OpenAIGateway
