import OpenAIGateway.Decimal
import OpenAIGateway.Json
import OpenAIGateway.Naming
import OpenAIGateway.Pager
import OpenAIGateway.Render
import OpenAIGateway.SseFraming

/-!
What an endpoint's model list says: which models a key may use and, where the
list prices them, what each one costs. Discovery reads ids, the catalog sync
reads priced entries, and both follow the list across its pages. Parsing and
rounding a written price are the decimal crate's.
-/

set_option linter.all false

namespace OpenAIGateway.ModelList

/-- The most pages one list may take. -/
def maxPages : ℕ := 20

/-- The page size a priced list is asked for. -/
def pricedPageSize : String := "500"

/-- A URL: where it points, and its query as decoded pairs. -/
structure Url where
  location : String
  query : List (String × String)
  deriving DecidableEq

/-- `name=value` added, unless the URL already names `name`. -/
def Url.withDefault (url : Url) (name value : String) : Url :=
  if url.query.any (fun pair => pair.1 == name) then url
  else { url with query := url.query ++ [(name, value)] }

/-- `name` set to `value`, replacing any value it had. -/
def Url.withParam (url : Url) (name value : String) : Url :=
  { url with query := url.query.filter (fun pair => pair.1 != name) ++ [(name, value)] }

/-- Why one of the places a priced list may be at has none. -/
inductive Failure
  | failed (message : String)
  | notAModelList (url : Url)
  deriving DecidableEq

inductive ListError
  /-- No answer, a status that is no success, a page too long or not JSON. -/
  | request (message : String)
  | noNextCursor
  | pastMaxPages
  | sameNextPage
  | notAModelList (page : Json)
  | namesNoModel (page : Json)
  | unpriced (url : Url)
  | empty (url : Url)
  | noneRead (failures : List Failure)

/-- An answer to one request. -/
abbrev PageAnswer := Except ListError Json

def textAt (v : Json) (key : String) : Option String := (v.get key).bind Json.asStr

/-- The query parameter and value that ask for the page after this one; `none` for the last. -/
def nextPage (page : Json) : Except ListError (Option (String × String)) :=
  let text := fun key => (textAt page key).filter (fun s => s != "")
  match (page.get "has_more").bind Json.asBool with
  | some false => .ok none
  | some true =>
    match ((text "next_cursor").map (fun cursor => ("cursor", cursor))).or
      ((text "last_id").map (fun last => ("after_id", last))) with
    | some link => .ok (some link)
    | none => .error .noNextCursor
  | none =>
    .ok (((text "nextPageToken").map (fun token => ("pageToken", token))).or
      ((text "next_cursor").map (fun cursor => ("cursor", cursor))))

/-- Pages are followed by cursor, and a cursor is not followed twice. -/
def pages : Pager.Policy Json (String × String) String ListError where
  next := nextPage
  key := Prod.snd
  limit := maxPages
  pastLimit := .pastMaxPages
  repeated := .sameNextPage
  gone := .request "no answer"

/-- The URLs asked for when a list is read from its first page on. -/
def requested (first : Url) (walk : Pager.Walk Json (String × String) ListError) : List Url :=
  first :: walk.asked.map (fun link => first.withParam link.1 link.2)

/-- Every page of a list, the first already read when `fetched` holds it. -/
def readPages (fetched : Option Json) (answers : List PageAnswer) :
    Pager.Walk Json (String × String) ListError :=
  match fetched, answers with
  | some page, answers => pages.follow answers [] [] page
  | none, .ok page :: answers => pages.follow answers [] [] page
  | none, .error e :: _ => ⟨[], .error e⟩
  | none, [] => ⟨[], .error pages.gone⟩

/-- A page's entries: under `data`, under `models`, or the page itself. -/
def items : Json → Option (List Json)
  | .arr items => some items
  | .obj members => ((members.lookup "data").or (members.lookup "models")).bind Json.asArray
  | _ => none

/-- The entries of a page, if it is a list. -/
def entries (page : Json) : List Json := (items page).getD []

def isControl (c : Char) : Bool := c.toNat < 0x20 || (0x7F ≤ c.toNat && c.toNat ≤ 0x9F)

/-- A name a request can carry. -/
def isWireName (name : String) : Bool :=
  name != "" && !name.toList.any (fun c => Sse.isWhitespace c || isControl c)

/-- The name an entry gives its model. -/
def modelId (item : Json) : Option String :=
  match item with
  | .str id => (some id).filter isWireName
  | item =>
    let named :=
      if (item.get "vendors").isSome then (textAt item "model").or (textAt item "id")
      else (textAt item "id").or (textAt item "model")
    (named.or ((textAt item "name").map
      (fun name => (stripPrefix "models/" name).getD name))).filter isWireName

def lower (s : String) : String := String.ofList (s.toList.map Char.toLower)

/-- The statuses that say a model cannot be called now. -/
def unavailableStatuses : List String :=
  ["deprecated", "unavailable", "retired", "disabled", "discontinued", "sunset"]

def unavailable (status : Option String) : Bool :=
  status.any (fun s => unavailableStatuses.any (fun u => lower s == lower u))

def callable (item : Json) : Bool :=
  !((item.get "access_required").bind Json.asBool).getD false &&
    !unavailable (textAt item "availability_status")

/-- An entry with its name, if it has one. -/
def named (item : Json) : Option (Json × String) := (modelId item).map (fun id => (item, id))

/-- The callable model ids on one page. -/
def pageIds (page : Json) : Except ListError (List String) :=
  match items page with
  | none => .error (.notAModelList page)
  | some items =>
    let named := items.filterMap named
    if named.isEmpty && !items.isEmpty then .error (.namesNoModel page)
    else .ok ((named.filter (fun entry => callable entry.1)).map Prod.snd)

structure Served where
  url : Url
  pages : ℕ
  models : List String
  deriving DecidableEq

/-- Ask an endpoint which models a key may use. -/
def served (url : Url) (answers : List PageAnswer) : Except ListError Served :=
  match (readPages none answers).result with
  | .error e => .error e
  | .ok read =>
    match read.mapM pageIds with
    | .error e => .error e
    | .ok ids => .ok ⟨url, read.length, Naming.firstSeen ids.flatten⟩

/-- USD for a million tokens, rounded as the catalog rounds. -/
structure Price where
  input : Decimal
  output : Decimal
  cacheRead : Option Decimal
  cacheWrite : Option Decimal
  deriving DecidableEq

/-- One vendor an entry can be served by, with its own terms. -/
structure Vendor where
  name : String
  status : Option String
  accessRequired : Bool
  contextWindow : Option ℕ
  maxOutputTokens : Option ℕ
  input : List String
  output : List String
  tools : Bool
  reasoning : Bool
  price : Option Price
  deriving DecidableEq

/-- One entry of a priced list, before anything is chosen from it. -/
structure ListedModel where
  upstream : Option String
  displayName : Option String
  status : Option String
  accessRequired : Bool
  vendors : List Vendor
  deriving DecidableEq

/-- How amounts are read: a number's text, a text's exact decimal, and rounding to six places. -/
structure Amounts where
  numberText : Number → String
  fromText : String → Option Decimal
  round6 : Decimal → Decimal

/-- `str::parse` of a `u64`. -/
def parseU64 (s : String) : Option ℕ :=
  let digits := if s.toList.head? = some '+' then s.toList.tail else s.toList
  if digits ≠ [] ∧ digits.all Char.isDigit then
    let n := digits.foldl (fun n c => 10 * n + (c.toNat - 48)) 0
    if n < 2 ^ 64 then some n else none
  else none

/-- A count that fits an `i32` and is not zero. -/
def positive (value : Json) : Option ℕ :=
  let n := match value with
    | .num n => Json.asU64 (.num n)
    | .str s => parseU64 (String.ofList (Sse.trim s.toList))
    | _ => none
  n.filter (fun n => 0 < n && n < 2 ^ 31)

def modalities (value : Json) : List String :=
  ((value.asArray.getD []).filterMap Json.asStr).map lower

section Priced

variable (amounts : Amounts)

/-- A price rounded to six places; one that is negative or too large for its column is none. -/
def money (value : Json) : Option Decimal :=
  let written := match value with
    | .num n => some (amounts.numberText n)
    | .str s => some (String.ofList (Sse.trim s.toList))
    | _ => none
  (written.bind amounts.fromText).bind (fun exact =>
    let stored := amounts.round6 exact
    if 0 ≤ stored.val ∧ stored.val < 1000000 then some stored else none)

def price (pricing : Json) : Option Price :=
  (money amounts pricing["input_per_million"]).bind (fun input =>
    (money amounts pricing["output_per_million"]).map (fun output =>
      { input := input
        output := output
        cacheRead := money amounts pricing["cache_read_per_million"]
        cacheWrite := money amounts pricing["cache_write_per_million"] }))

def vendor (name : String) (v : Json) : Vendor :=
  let capabilities := v["capabilities"]
  { name := name
    status := textAt v "availability_status"
    accessRequired := v["access_required"].asBool.getD false
    contextWindow := positive v["context_window"]
    maxOutputTokens := positive v["max_output_tokens"]
    input := modalities capabilities["input"]
    output := modalities capabilities["output"]
    tools := capabilities["supports_tool_calling"].asBool.getD false
    reasoning := capabilities["supports_reasoning"].asBool.getD false
    price := price amounts v["pricing"] }

def members : Json → List (String × Json)
  | .obj members => members
  | _ => []

/-- One entry of a priced list, read leniently. -/
def listedModel (item : Json) : ListedModel where
  upstream := (textAt item "model").or (textAt item "id")
  displayName := (textAt item "display_name").filter
    (fun name => !(Sse.trim name.toList).isEmpty)
  status := textAt item "availability_status"
  accessRequired := item["access_required"].asBool.getD false
  vendors := (((item.get "vendors").map members).getD []).map
    (fun (name, v) => vendor amounts name v)

/-- The entries on one page of a priced list; nothing for a page that is not a list. -/
def pricedEntries (page : Json) : List ListedModel := (entries page).map (listedModel amounts)

/-- What the first page of a list says about the rest. -/
inductive Shape
  | priced
  | unpriced
  | empty
  | notAList
  deriving DecidableEq

def isObject : Json → Bool
  | .obj _ => true
  | _ => false

def shape (page : Json) : Shape :=
  match items page with
  | none => .notAList
  | some [] => .empty
  | some items => if items.any (fun i => (i.get "vendors").any isObject) then .priced else .unpriced

/-- What the places tried so far came to. -/
structure Tried where
  unpriced : Option Url := none
  empty : Option Url := none
  failures : List Failure := []

def Tried.fail (tried : Tried) (failure : Failure) : Tried :=
  { tried with failures := tried.failures ++ [failure] }

def Tried.error (tried : Tried) : ListError :=
  match tried.unpriced, tried.empty with
  | some url, _ => .unpriced url
  | none, some url => .empty url
  | none, none => .noneRead tried.failures

/-- What a failed request says for itself. -/
def failureText : ListError → String
  | .request message => message
  | _ => ""

/-- The pages of the list at the first of some URLs that prices its models. -/
def pricedPages : List Url → List PageAnswer → Tried → Except ListError (Url × List Json)
  | [], _, tried => .error tried.error
  | _ :: urls, [], tried => pricedPages urls [] (tried.fail (.failed (failureText pages.gone)))
  | _ :: urls, .error e :: answers, tried =>
    pricedPages urls answers (tried.fail (.failed (failureText e)))
  | url :: urls, .ok first :: answers, tried =>
    let url := url.withDefault "limit" pricedPageSize
    match shape first with
    | .priced => (readPages (some first) answers).result.map (fun read => (url, read))
    | .unpriced => pricedPages urls answers { tried with unpriced := tried.unpriced.or (some url) }
    | .empty => pricedPages urls answers { tried with empty := tried.empty.or (some url) }
    | .notAList => pricedPages urls answers (tried.fail (.notAModelList url))

structure Listing where
  url : Url
  pages : ℕ
  models : List ListedModel
  deriving DecidableEq

/-- Read an endpoint's priced model list. -/
def priced (candidates : List Url) (answers : List PageAnswer) : Except ListError Listing :=
  (pricedPages candidates answers {}).map (fun (url, read) =>
    ⟨url, read.length, read.flatMap (pricedEntries amounts)⟩)

end Priced

end OpenAIGateway.ModelList
