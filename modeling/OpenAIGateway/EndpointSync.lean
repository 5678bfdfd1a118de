import OpenAIGateway.CatalogTable
import OpenAIGateway.Extrema
import OpenAIGateway.Listing

/-!
Writing an endpoint's priced model list into the catalogue. A plan compares
the list with the endpoint's rows as they stand and says which rows to write
and which to remove, or refuses.
-/

set_option linter.all false

namespace OpenAIGateway.EndpointSync

open ModelList

/-- Which vendor's terms a model is priced by. -/
inductive PriceChoice
  | cheapest
  | first
  deriving DecidableEq

/-- A model a priced list offers for chat, on the terms of one vendor. -/
structure Offer where
  upstream : String
  displayName : Option String
  vendor : String
  price : Price
  contextWindow : ℕ
  maxOutputTokens : ℕ
  vision : Bool
  tools : Bool
  reasoning : Bool
  deriving DecidableEq

/-- Why a priced list's entry is not offered for chat. -/
inductive Skip
  | unnamed
  | accessRequired
  | unavailable (status : String)
  | noVendor
  | notChat (output : String)
  | noCallableVendor
  | noPrice
  | free
  deriving DecidableEq

def assumedContextWindow : ℕ := 131072

def assumedMaxOutputTokens : ℕ := 8192

/-- Text in and text out. -/
def isChat (v : Vendor) : Bool := v.input.contains "text" && v.output.contains "text"

def callable (v : Vendor) : Bool := !v.accessRequired && !ModelList.unavailable v.status

def isFree (p : Price) : Bool := decide (p.input.val = 0) && decide (p.output.val = 0)

def total (p : Price) : ℚ := p.input.val + p.output.val

/-- The vendor whose terms a model is priced by; of two equals the one listed first. -/
def chooseVendor : PriceChoice → List (Vendor × Price) → Option (Vendor × Price)
  | .cheapest, paid => Extrema.maxBy (fun a b => decide (total a.2 ≤ total b.2)) paid
  | .first, paid => paid.head?

/-- Price one entry for chat, or say why not. -/
def choose (model : ListedModel) (choice : PriceChoice) : Except Skip Offer :=
  match model.upstream.filter isWireName with
  | none => .error .unnamed
  | some upstream =>
    if model.accessRequired then .error .accessRequired
    else
      match model.status.filter (fun s => unavailable (some s)) with
      | some status => .error (.unavailable status)
      | none =>
        match model.vendors with
        | [] => .error .noVendor
        | first :: _ =>
          let chat := model.vendors.filter isChat
          let callable := chat.filter callable
          let priced := callable.filterMap (fun v => v.price.map (fun p => (v, p)))
          if chat.isEmpty then
            .error (.notChat (if first.output.isEmpty then "no stated output"
              else String.intercalate " and " first.output))
          else if callable.isEmpty then .error .noCallableVendor
          else if priced.isEmpty then .error .noPrice
          else
            match chooseVendor choice (priced.filter (fun vp => !isFree vp.2)) with
            | none => .error .free
            | some (vendor, price) =>
              .ok
                { upstream := upstream
                  displayName := model.displayName
                  vendor := vendor.name
                  price := price
                  contextWindow := vendor.contextWindow.getD assumedContextWindow
                  maxOutputTokens := vendor.maxOutputTokens.getD assumedMaxOutputTokens
                  vision := vendor.input.contains "image"
                  tools := vendor.tools
                  reasoning := vendor.reasoning }

section Glob

/-- Whether some flag was up so far, flag by flag. -/
def soFar : Bool → List Bool → List Bool
  | _, [] => []
  | before, m :: matched => (before || m) :: soFar (before || m) matched

/-- One pattern character, over which prefixes of the text the pattern before it matches. -/
def globStep (text : List Char) (matched : List Bool) (p : Char) : List Bool :=
  if p = '*' then soFar false matched
  else false :: List.zipWith (fun m c => m && (p == '?' || p == c)) matched text

/-- `*` is any run of characters and `?` any one. -/
def glob (pattern text : String) : Bool :=
  let text := text.toList
  (pattern.toList.foldl (globStep text) (true :: text.map (fun _ => false))).getLastD false

end Glob

/-- Which models a sync manages. -/
structure Filter where
  inclusions : List String
  exclusions : List String

def Filter.admits (filter : Filter) (upstream id : String) : Bool :=
  let hit := fun pattern => glob pattern upstream || glob pattern id
  (filter.inclusions.isEmpty || filter.inclusions.any hit) && !filter.exclusions.any hit

structure SyncOptions where
  filter : Filter
  price : PriceChoice
  dryRun : Bool := false
  allowShrink : Bool := false

/-- What a sync found and would do. -/
structure SyncReport where
  endpoint : String
  price : PriceChoice
  dryRun : Bool
  added : List String := []
  updated : List String := []
  unchanged : List String := []
  removed : List String := []
  keptOnLadder : List String := []
  held : List String := []
  skipped : List (String × Skip) := []
  filtered : List String := []

structure Plan where
  report : SyncReport
  writes : List ModelRow
  remove : List String

/-- Why a sync writes and removes nothing. -/
inductive Refused
  | nothing (skipped filtered : ℕ)
  | shrinks (removing synced : ℕ)
  deriving DecidableEq

/-- The catalogue id of an endpoint's model. -/
def modelId (endpoint upstream : String) : String := endpoint ++ "/" ++ upstream

/-- The catalogue row an offer becomes under an endpoint. -/
def catalogRow (endpoint label : String) (offer : Offer) : ModelRow where
  id := modelId endpoint offer.upstream
  provider := endpoint
  upstreamName := offer.upstream
  inputPerMtok := offer.price.input
  outputPerMtok := offer.price.output
  cacheReadPerMtok := offer.price.cacheRead
  cacheWritePerMtok := offer.price.cacheWrite
  contextWindow := offer.contextWindow
  maxOutputTokens := offer.maxOutputTokens
  supportsVision := offer.vision
  supportsTools := offer.tools
  supportsReasoning := offer.reasoning
  supportsPromptCache := offer.price.cacheRead.isSome
  displayLabel := some (offer.displayName.getD offer.upstream ++ " (" ++ label ++ ")")

/-- Whether writing a row over a stored one would change nothing. -/
def unchanged (stored : StoredModelRow) (row : ModelRow) : Bool :=
  let m := stored.model
  stored.isOverride
    && m.upstreamName == row.upstreamName
    && m.inputPerMtok == row.inputPerMtok
    && m.outputPerMtok == row.outputPerMtok
    && m.cacheReadPerMtok == row.cacheReadPerMtok
    && m.cacheWritePerMtok == row.cacheWritePerMtok
    && m.contextWindow == row.contextWindow
    && m.maxOutputTokens == row.maxOutputTokens
    && m.supportsVision == row.supportsVision
    && m.supportsTools == row.supportsTools
    && m.supportsReasoning == row.supportsReasoning
    && m.supportsPromptCache == row.supportsPromptCache
    && (m.displayLabel.isSome || row.displayLabel.isNone)

/-- A plan half made: the report and the writes so far, every id that was offered, and
every id the list names. -/
structure Progress where
  report : SyncReport
  writes : List ModelRow := []
  offered : List String := []
  named : List String := []

def Progress.start (endpoint : String) (options : SyncOptions) : Progress where
  report := ⟨endpoint, options.price, options.dryRun, [], [], [], [], [], [], [], []⟩

section Plan

variable (endpoint label : String) (existing : List StoredModelRow) (options : SyncOptions)

/-- What becomes of a row that is offered. -/
inductive Verdict
  | added
  | held
  | unchanged
  | updated
  deriving DecidableEq

def verdict (row : ModelRow) : Verdict :=
  match existing.find? (fun stored => decide (stored.model.id = row.id)) with
  | none => .added
  | some stored =>
    if stored.model.provider ≠ endpoint then .held
    else if unchanged stored row then .unchanged
    else .updated

/-- An offered row, listed for the first time or again. -/
def place (st : Progress) (row : ModelRow) : Progress :=
  if row.id ∈ st.offered then st
  else
    let st := { st with offered := st.offered ++ [row.id] }
    let report := st.report
    match verdict endpoint existing row with
    | .added =>
      { st with
        report := { report with added := report.added ++ [row.id] }
        writes := st.writes ++ [row] }
    | .held => { st with report := { report with held := report.held ++ [row.id] } }
    | .unchanged => { st with report := { report with unchanged := report.unchanged ++ [row.id] } }
    | .updated =>
      { st with
        report := { report with updated := report.updated ++ [row.id] }
        writes := st.writes ++ [row] }

def offer (st : Progress) (model : ListedModel) : Progress :=
  match choose model options.price with
  | .error skip =>
    let report := st.report
    let skipped := report.skipped ++ [(model.upstream.getD "(unnamed)", skip)]
    { st with report := { report with skipped := skipped } }
  | .ok offer => place endpoint existing st (catalogRow endpoint label offer)

/-- One entry of the list. -/
def visit (st : Progress) (model : ListedModel) : Progress :=
  match model.upstream with
  | none => offer endpoint label existing options st model
  | some name =>
    let id := modelId endpoint name
    if options.filter.admits name id then
      offer endpoint label existing options { st with named := st.named ++ [id] } model
    else { st with report := { st.report with filtered := st.report.filtered ++ [name] } }

/-- The rows earlier syncs of the endpoint wrote, of those this run manages. -/
def synced : List ModelRow :=
  ((existing.filter (fun row => row.syncedBy == some endpoint)).map StoredModelRow.model).filter
    (fun m => m.provider == endpoint && options.filter.admits m.upstreamName m.id)

/-- Decide a sync against the endpoint's rows as they stand. -/
def plan (models : List ListedModel) (laddered : List String) : Except Refused Plan :=
  let st := models.foldl (visit endpoint label existing options) (.start endpoint options)
  if st.offered.isEmpty then
    .error (.nothing st.report.skipped.length st.report.filtered.length)
  else
    let synced := synced endpoint existing options
    let gone := (synced.filter (fun m => !st.named.contains m.id)).map ModelRow.id
    let kept := gone.filter (fun id => laddered.contains id)
    let remove := gone.filter (fun id => !laddered.contains id)
    if synced.length < remove.length * 2 ∧ options.allowShrink = false then
      .error (.shrinks remove.length synced.length)
    else
      .ok ⟨{ st.report with keptOnLadder := kept, removed := remove }, st.writes, remove⟩

end Plan

end OpenAIGateway.EndpointSync
