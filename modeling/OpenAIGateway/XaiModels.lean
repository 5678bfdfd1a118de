import OpenAIGateway.CatalogRecords

/-!
Catalogue rows for the models xAI lists and the catalogue has no row for. What
the list does not state about a model is published, or borrowed from the dearest
row the catalogue has.
-/

set_option linter.all false

namespace OpenAIGateway.XaiModels

/-- One model a credential's own list named. -/
structure ListedModel where
  upstreamName : String
  inputPerMtok : Option Decimal
  outputPerMtok : Option Decimal
  cacheReadPerMtok : Option Decimal
  contextWindow : Option ℤ
  maxOutputTokens : Option ℤ
  supportsVision : Option Bool

/-- Enough of an existing row to price a model the list did not price. -/
structure Donor where
  upstreamName : String
  inputPerMtok : Decimal
  outputPerMtok : Decimal
  cacheReadPerMtok : Option Decimal
  contextWindow : ℤ
  maxOutputTokens : ℤ
  supportsVision : Bool
  supportsTools : Bool
  supportsReasoning : Bool
  supportsPromptCache : Bool

/-- A row to insert. -/
structure CatalogInsert where
  upstreamName : String
  inputPerMtok : Decimal
  outputPerMtok : Decimal
  cacheReadPerMtok : Option Decimal
  contextWindow : ℤ
  maxOutputTokens : ℤ
  supportsVision : Bool
  supportsTools : Bool
  supportsReasoning : Bool
  supportsPromptCache : Bool

/-- The list price of a model whose own list states no money. -/
structure Published where
  upstream : String
  input : Decimal
  output : Decimal
  cached : Decimal
  context : ℤ
  maxOutput : ℤ
  vision : Bool
  reasoning : Bool

def publishedModels : List Published :=
  [ { upstream := "grok-4.7", input := .new 2 0, output := .new 6 0, cached := .new 50 2,
      context := 500000, maxOutput := 128000, vision := true, reasoning := true },
    { upstream := "grok-4.7-build", input := .new 2 0, output := .new 6 0, cached := .new 50 2,
      context := 500000, maxOutput := 128000, vision := true, reasoning := true },
    { upstream := "grok-4.7-build-fast", input := .new 4 0, output := .new 12 0, cached := .new 1 0,
      context := 500000, maxOutput := 128000, vision := true, reasoning := true } ]

def published (name : String) : Option Published :=
  publishedModels.find? (fun p => p.upstream == name)

def assumedContext : ℤ := 131072

def assumedMaxOutput : ℤ := 8192

/-- The dearest donor by its input price, the last of equals. -/
def dearest (donors : List Donor) : Option Donor :=
  donors.foldl (fun best d =>
    match best with
    | none => some d
    | some b => if d.inputPerMtok.val < b.inputPerMtok.val then some b else some d) none

/-- The row for one model, unless nothing prices it or it would be free. -/
def insertOne (model : ListedModel) (donor : Option Donor) : Option CatalogInsert :=
  let published := published model.upstreamName
  (model.inputPerMtok.or ((published.map Published.input).or
      (donor.map Donor.inputPerMtok))).bind (fun input =>
    (model.outputPerMtok.or ((published.map Published.output).or
        (donor.map Donor.outputPerMtok))).bind (fun output =>
      if input.val = 0 ∧ output.val = 0 then none
      else
        let cache := model.cacheReadPerMtok.or ((published.map Published.cached).or
          (donor.bind Donor.cacheReadPerMtok))
        some
          { upstreamName := model.upstreamName
            inputPerMtok := input
            outputPerMtok := output
            cacheReadPerMtok := cache
            contextWindow := (model.contextWindow.or ((published.map Published.context).or
              (donor.map Donor.contextWindow))).getD assumedContext
            maxOutputTokens := (model.maxOutputTokens.or ((published.map Published.maxOutput).or
              (donor.map Donor.maxOutputTokens))).getD assumedMaxOutput
            supportsVision := (model.supportsVision.or ((published.map Published.vision).or
              (donor.map Donor.supportsVision))).getD false
            supportsTools := published.isSome || donor.any Donor.supportsTools
            supportsReasoning := ((published.map Published.reasoning).or
              (donor.map Donor.supportsReasoning)).getD false
            supportsPromptCache := cache.isSome || donor.any Donor.supportsPromptCache }))

/-- Rows for the models the list named and the catalogue has never seen; `already` is
upstream names, not ids. -/
def insertsFor (listed : List ListedModel) (already : List String) (donors : List Donor) :
    List CatalogInsert :=
  listed.filterMap (fun model =>
    if already.contains model.upstreamName then none else insertOne model (dearest donors))

def donorOf (row : CatalogRow) : Donor where
  upstreamName := row.upstreamName
  inputPerMtok := row.inputPerMtok
  outputPerMtok := row.outputPerMtok
  cacheReadPerMtok := row.cacheReadPerMtok
  contextWindow := row.contextWindow
  maxOutputTokens := row.maxOutputTokens
  supportsVision := row.supportsVision
  supportsTools := row.supportsTools
  supportsReasoning := row.supportsReasoning
  supportsPromptCache := row.supportsPromptCache

def rowFrom (insert : CatalogInsert) : CatalogRow where
  id := "xai/" ++ insert.upstreamName
  provider := "xai"
  upstreamName := insert.upstreamName
  inputPerMtok := insert.inputPerMtok
  outputPerMtok := insert.outputPerMtok
  cacheReadPerMtok := insert.cacheReadPerMtok
  cacheWritePerMtok := none
  contextWindow := insert.contextWindow
  maxOutputTokens := insert.maxOutputTokens
  supportsVision := insert.supportsVision
  supportsTools := insert.supportsTools
  supportsReasoning := insert.supportsReasoning
  supportsPromptCache := insert.supportsPromptCache
  displayLabel := none
  reasoningEfforts := none
  reasoningEffort := none

/-- A query for the whole catalogue, whose rows come in no order in particular. -/
structure CatalogRead where
  rows : CatalogRecords → List CatalogRow
  perm : ∀ table, (rows table).Perm (table.records.map CatalogRecord.row)

/-- The rows filed under xAI. -/
def xaiRows (rows : List CatalogRow) : List CatalogRow := rows.filter (fun m => m.provider == "xai")

/-- The rows to insert after one reading of the catalogue. -/
def newModels (listed : List ListedModel) (rows : List CatalogRow) : List CatalogInsert :=
  insertsFor listed ((xaiRows rows).map CatalogRow.upstreamName) ((xaiRows rows).map donorOf)

/-- One upsert a row, each at its own time, up to the first the columns refuse;
and whether none was refused. -/
def writeAll (now : ℕ → ℤ) : ℕ → List CatalogInsert → CatalogRecords → CatalogRecords × Bool
  | _, [], table => (table, true)
  | k, insert :: rest, table =>
    match table.upsertModel (rowFrom insert) false (now k) with
    | none => (table, false)
    | some next => writeAll now (k + 1) rest next

/-- The catalogue after a listing, and whether the write succeeded. -/
def insertNewXaiModels (read : CatalogRead) (now : ℕ → ℤ) (listed : List ListedModel)
    (table : CatalogRecords) : CatalogRecords × Bool :=
  writeAll now 0 (newModels listed (read.rows table)) table

end OpenAIGateway.XaiModels
