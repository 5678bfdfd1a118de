import OpenAIGateway.EndpointMaps
import OpenAIGateway.Listing
import OpenAIGateway.PriceWrites
import OpenAIGateway.SystemOne

/-!
Where the catalogue's prices come from besides an endpoint's own list: a LiteLLM
pricing table, per token; xAI's price list, in ten-thousandths of a dollar a
million tokens; and `catalog add`, as an operator types them.
-/

set_option linter.all false

namespace OpenAIGateway

/-- `i32::try_from`, at the largest `i32` where it fails. -/
def saturatingI32 (n : ℤ) : ℤ := if -2 ^ 31 ≤ n ∧ n < 2 ^ 31 then n else 2 ^ 31 - 1

/-- The text of a number, and the decimal a text spells. -/
structure DecimalText where
  numberText : Number → String
  fromStr : String → Option Decimal

namespace LiteLlm

/-- A JSON number as an exact decimal, through its written form. -/
def decimal (texts : DecimalText) : Json → Option Decimal
  | .num n => texts.fromStr (texts.numberText n)
  | .str s => texts.fromStr s
  | _ => none

/-- An entry that is imported: of a known provider, priced, and not free. -/
structure Entry where
  name : String
  /-- LiteLLM's own word for the provider. -/
  prefixed : String
  known : Provider
  spec : Json
  input : Decimal
  output : Decimal

/-- Whether an entry is imported; the prices looked at are per token, as written. -/
def keep (registry : String → Bool) (texts : DecimalText) (name : String) (spec : Json) :
    Option Entry :=
  if name = "sample_spec" then none
  else
    spec["litellm_provider"].asStr.bind (fun provider =>
      (Provider.fromStr registry provider).bind (fun known =>
        (decimal texts spec["input_cost_per_token"]).bind (fun input =>
          (decimal texts spec["output_cost_per_token"]).bind (fun output =>
            if input.val = 0 ∧ output.val = 0 then none
            else some ⟨name, provider, known, spec, input, output⟩))))

def million : Decimal := .new 1000000 0

/-- An optional price for a million tokens; `none` when the product does not fit. -/
def scaled (arith : Arithmetic) : Option Decimal → Option (Option Decimal)
  | some d => (arith.mul d million).map some
  | none => some none

/-- What `rsplit('/').next()` gives. -/
def lastSegment (name : String) : String := ((Split.rsplitOnce '/' name).map Prod.snd).getD name

def vision (spec : Json) : Bool :=
  spec["supports_vision"].asBool.getD
    ((spec["supported_modalities"].asArray.getD []).any (fun v => v.asStr == some "image"))

/-- The row of an entry; `none` where a product does not fit, which stops the import. -/
def rowOf (arith : Arithmetic) (texts : DecimalText) (entry : Entry) : Option CatalogRow :=
  let spec := entry.spec
  (arith.mul entry.input million).bind (fun input =>
    (arith.mul entry.output million).bind (fun output =>
      (scaled arith (decimal texts spec["cache_read_input_token_cost"])).bind (fun cacheRead =>
        (scaled arith (decimal texts spec["cache_creation_input_token_cost"])).map
          (fun cacheWrite =>
            { id := entry.known.asStr ++ "/" ++ lastSegment entry.name
              provider := entry.known.asStr
              upstreamName := (stripPrefix (entry.prefixed ++ "/") entry.name).getD entry.name
              inputPerMtok := input
              outputPerMtok := output
              cacheReadPerMtok := cacheRead
              cacheWritePerMtok := cacheWrite
              contextWindow := saturatingI32 (spec["max_input_tokens"].asI64.getD 0)
              maxOutputTokens := saturatingI32 (spec["max_output_tokens"].asI64.getD 4096)
              supportsVision := vision spec
              supportsTools := spec["supports_function_calling"].asBool.getD false
              supportsReasoning := spec["supports_reasoning"].asBool.getD false
              supportsPromptCache := spec["supports_prompt_caching"].asBool.getD false
              displayLabel := none
              reasoningEfforts := none
              reasoningEffort := none }))))

/-- The entries of a table that are imported, in its order. -/
def entries (registry : String → Bool) (texts : DecimalText) (members : List (String × Json)) :
    List Entry :=
  members.filterMap (fun member => keep registry texts member.1 member.2)

/-- The rows of a pricing table; `none` where the import stops at a product that does not fit. -/
def fromLitellm (registry : String → Bool) (texts : DecimalText) (arith : Arithmetic) (doc : Json)
    (origin : String) : Option (Except String (List CatalogRow)) :=
  match doc with
  | .obj members =>
    ((entries registry texts members).mapM (rowOf arith texts)).map (fun rows =>
      if rows.isEmpty then
        .error ("no models in " ++ origin ++ " matched a provider this gateway has an adapter for")
      else .ok rows)
  | _ => some (.error "pricing file is not a JSON object")

/-- What a seed writes of what it read. -/
def seedWrites : Option (Except String (List CatalogRow)) → List PriceSync
  | some (.ok rows) => rows.map PriceSync.insert
  | _ => []

end LiteLlm

namespace XaiPrices

/-- A model of the price list. Its prices are in ten-thousandths of a dollar. -/
structure Model where
  id : String
  promptTextTokenPrice : Int64
  completionTextTokenPrice : Int64
  cachedPromptTextTokenPrice : Option Int64
  inputModalities : List String
  outputModalities : List String

/-- What a provider states about a model's money. -/
structure ModelPrice where
  upstreamName : String
  inputPerMtok : Decimal
  outputPerMtok : Decimal
  cacheReadPerMtok : Option Decimal
  supportsVision : Bool

def perMtok (raw : Int64) : Decimal := .new raw.toInt 4

/-- One model's price, unless it cannot answer in text or states no price. -/
def priceOf (m : Model) : Option ModelPrice :=
  if !m.outputModalities.isEmpty && !m.outputModalities.contains "text" then none
  else
    let input := perMtok m.promptTextTokenPrice
    let output := perMtok m.completionTextTokenPrice
    if input.val = 0 ∧ output.val = 0 then none
    else some
      { upstreamName := m.id
        inputPerMtok := input
        outputPerMtok := output
        cacheReadPerMtok := m.cachedPromptTextTokenPrice.map perMtok
        supportsVision := m.inputModalities.contains "image" }

def parse (models : List Model) : List ModelPrice := models.filterMap priceOf

def assumedContextWindow : ℤ := 131072

def assumedMaxOutputTokens : ℤ := 8192

/-- What a stated price does: reprice the row its id has, or add one. -/
def planOne (provider : Provider) (known : List String) (p : ModelPrice) : PriceSync :=
  let id := provider.asStr ++ "/" ++ p.upstreamName
  if known.contains id then .reprice id p.inputPerMtok p.outputPerMtok p.cacheReadPerMtok
  else .insert
    { id := id
      provider := provider.asStr
      upstreamName := p.upstreamName
      inputPerMtok := p.inputPerMtok
      outputPerMtok := p.outputPerMtok
      cacheReadPerMtok := p.cacheReadPerMtok
      cacheWritePerMtok := none
      contextWindow := assumedContextWindow
      maxOutputTokens := assumedMaxOutputTokens
      supportsVision := p.supportsVision
      supportsTools := false
      supportsReasoning := false
      supportsPromptCache := p.cacheReadPerMtok.isSome
      displayLabel := none
      reasoningEfforts := none
      reasoningEffort := none }

def planPriceSync (provider : Provider) (prices : List ModelPrice) (known : List String) :
    List PriceSync :=
  prices.map (planOne provider known)

/-- The writes of a price sync of xAI, against the catalogue it read. -/
def syncWrites (models : List Model) (table : CatalogRecords) : List PriceSync :=
  planPriceSync .xAI (parse models) (table.records.map (fun record => record.row.id))

end XaiPrices

namespace CatalogAdd

/-- What an operator states about a model. -/
structure CatalogAddArgs where
  id : String
  upstream : String
  inputPerMtok : Option Decimal
  outputPerMtok : Option Decimal
  cacheReadPerMtok : Option Decimal
  cacheWritePerMtok : Option Decimal
  context : ℤ
  maxOutput : ℤ
  tools : Bool
  vision : Bool
  reasoning : Bool
  promptCache : Bool
  displayLabel : Option String
  free : Bool

/-- A catalogue id's provider and model, split at the first `/`. -/
def splitModelId (id : String) : Except String (String × String) :=
  match Split.splitOnce '/' id with
  | some (provider, model) =>
    if provider != "" && model != "" &&
        !id.toList.any (fun c => Sse.isWhitespace c || ModelList.isControl c) then
      .ok (provider, model)
    else .error ("model id `" ++ id ++ "` is not `<provider>/<model>`")
  | none => .error ("model id `" ++ id ++ "` is not `<provider>/<model>`")

/-- A price as the catalogue will hold it, or why it cannot. -/
def price (round6 : Decimal → Decimal) (flag : String) (value : Decimal) : Except String Decimal :=
  let value := round6 value
  if value.val < 0 then .error ("--" ++ flag ++ " cannot be negative")
  else if 1000000 ≤ value.val then
    .error ("--" ++ flag ++ " must be under 1000000 USD per million tokens")
  else .ok value

def optionalPrice (round6 : Decimal → Decimal) (flag : String) :
    Option Decimal → Except String (Option Decimal)
  | none => .ok none
  | some value => (price round6 flag value).map some

def zero : Decimal := .new 0 0

def trim (s : String) : String := String.ofList (Sse.trim s.toList)

def displayLabel (label : Option String) : Except String (Option String) :=
  match label.map trim with
  | none => .ok none
  | some label =>
    if label = "" then .ok none
    else if label.toList.any ModelList.isControl then
      .error "--display-label must not contain control characters"
    else .ok (some label)

def refuseIf (c : Bool) (message : String) : Except String Unit :=
  if c then .error message else .ok ()

/-- The row `catalog add` writes for a provider, or the first flag that cannot be stored. -/
def modelRow (round6 : Decimal → Decimal) (args : CatalogAddArgs) (provider : Provider) :
    Except String CatalogRow := do
  let parts ← splitModelId args.id
  refuseIf (provider.asStr != parts.1) ("model id `" ++ args.id ++ "` names its provider as `" ++
    parts.1 ++ "`, which is spelt `" ++ provider.asStr ++ "`: use --id " ++ provider.asStr ++ "/" ++
    parts.2)
  let upstream := trim args.upstream
  refuseIf (upstream == "")
    "--upstream is the name the provider knows the model by, and cannot be empty"
  let input ← price round6 "input-per-mtok" (args.inputPerMtok.getD zero)
  let output ← price round6 "output-per-mtok" (args.outputPerMtok.getD zero)
  let costsNothing := decide (input.val = 0) && decide (output.val = 0)
  refuseIf (costsNothing && !args.free)
    ("a model priced at zero in and zero out wins every cost comparison, so it would " ++
      "take every request its ladder can give it. Pass --free if it really costs nothing")
  refuseIf (args.free && !costsNothing)
    "--free says the model costs nothing, but a price was given: drop one or the other"
  let label ← displayLabel args.displayLabel
  let cacheRead ← optionalPrice round6 "cache-read-per-mtok" args.cacheReadPerMtok
  let cacheWrite ← optionalPrice round6 "cache-write-per-mtok" args.cacheWritePerMtok
  return {
    id := args.id
    provider := provider.asStr
    upstreamName := upstream
    inputPerMtok := input
    outputPerMtok := output
    cacheReadPerMtok := cacheRead
    cacheWritePerMtok := cacheWrite
    contextWindow := args.context
    maxOutputTokens := args.maxOutput
    supportsVision := args.vision
    supportsTools := args.tools
    supportsReasoning := args.reasoning
    supportsPromptCache := args.promptCache
    displayLabel := label
    reasoningEfforts := none
    reasoningEffort := none }

end CatalogAdd

end OpenAIGateway
