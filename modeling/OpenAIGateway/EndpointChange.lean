import OpenAIGateway.Alias
import OpenAIGateway.Json
import OpenAIGateway.Listing
import OpenAIGateway.Transition

/-!
Changing a registered endpoint. A change reads the row, checks a draft made from
it, and writes the draft over the row if nobody has written it since. When the
draft moves the base URL the credentials under the endpoint are counted first,
unless their keys may move, and then the new URL's name is looked up. Each of
these is a statement of its own, and other changes and the filing and removing of
credentials come between any two of them.
-/

set_option linter.all false

namespace OpenAIGateway.EndpointChange

def Platform.fromStr : String → Except String Platform
  | "plain" => .ok .plain
  | "aws" => .ok .aws
  | "gcp" => .ok .gcp
  | "azure" => .ok .azure
  | other => .error ("unknown platform `" ++ other ++ "`: use plain, aws, gcp or azure")

/-- A row of `endpoint`. The times are microseconds. -/
structure EndpointRow where
  name : String
  dialect : String
  platform : String
  baseUrl : Option String
  auth : String
  region : Option String
  project : Option String
  apiVersion : Option String
  path : Option String
  extraHeaders : Json
  displayName : Option String
  discoverModels : Bool
  createdAt : ℤ
  updatedAt : ℤ

/-- A row as a writer means to store it: every column but the times. -/
structure Draft where
  name : String
  dialect : String
  platform : String
  baseUrl : Option String
  auth : String
  region : Option String
  project : Option String
  apiVersion : Option String
  path : Option String
  extraHeaders : Json
  displayName : Option String
  discoverModels : Bool

def Draft.fromRow (row : EndpointRow) : Draft where
  name := row.name
  dialect := row.dialect
  platform := row.platform
  baseUrl := row.baseUrl
  auth := row.auth
  region := row.region
  project := row.project
  apiVersion := row.apiVersion
  path := row.path
  extraHeaders := row.extraHeaders
  displayName := row.displayName
  discoverModels := row.discoverModels

/-- Of a row's checked columns, those the writer reads. -/
structure CheckedColumns where
  platform : Platform
  baseUrl : Option String
  extraHeaders : List (String × String)

/-- What the rules for a row's columns, its base URL and its headers answer. Which rows
they accept makes no difference to what a change may write over. -/
structure Rules where
  fromColumns : Draft → Except String CheckedColumns
  endpointBaseUrl : String → Platform → Except String String
  checkExtraHeaders : String → Platform → List (String × String) → Except String Unit

inductive KeysMove
  | refused
  | allowed
  deriving DecidableEq

inductive WriteError
  | invalid (message : String)
  | taken (message : String)
  | notFound
  | changed
  | keysWouldMove (accounts : ℕ)
  | failed (message : String)

inductive StoreError
  | config (message : String)
  | internal (message : String)

def fixed : String :=
  "an endpoint's name, dialect and platform are what it is, and never " ++
    "change: its credentials and models were registered for them. Remove the endpoint and " ++
    "register it again"

def trim (s : String) : String := String.ofList (Sse.trim s.toList)

/-- What a value says once trimmed, if it says anything. -/
def present (value : Option String) : Option String :=
  (value.map trim).filter (fun v => decide (v ≠ ""))

def displayName (raw : Option String) : Except String (Option String) :=
  match present raw with
  | none => .ok none
  | some name =>
    if 128 < name.length then .error "display_name must be 128 characters or fewer"
    else if name.toList.any ModelList.isControl then
      .error "display_name must not contain control characters"
    else .ok (some name)

/-- A draft as it is stored, and its platform, or the first rule it breaks. -/
def checked (rules : Rules) (draft : Draft) : Except String (Draft × Platform) := do
  let draft := { draft with
    baseUrl := present draft.baseUrl
    region := present draft.region
    project := present draft.project
    apiVersion := present draft.apiVersion
    path := present draft.path }
  let name ← displayName draft.displayName
  let draft := { draft with displayName := name }
  let columns ← rules.fromColumns draft
  rules.checkExtraHeaders draft.name columns.platform columns.extraHeaders
  let draft := { draft with baseUrl := columns.baseUrl }
  .ok (draft, columns.platform)

/-- Whether a base URL, as it is stored, is somewhere other than a row's own. A row's
URL that the rules no longer accept is compared as written. -/
def movesBaseUrl (rules : Rules) (stored : EndpointRow) (target : Option String) :
    Bool :=
  let reread := fun url =>
    match Platform.fromStr stored.platform with
    | .error _ => url
    | .ok platform =>
      match rules.endpointBaseUrl url platform with
      | .error _ => url
      | .ok accepted => accepted
  decide (stored.baseUrl.map reread ≠ target)

def writeError : StoreError → WriteError
  | .config message =>
    if "already exists".toList <:+: message.toList then .taken message else .invalid message
  | .internal message => .failed message

/-- A checked draft, the row it was made from and whether that row's keys may move. -/
structure Change where
  stored : EndpointRow
  draft : Draft
  platform : Platform
  keys : KeysMove

/-- Where a change stands between its statements. -/
inductive Phase
  | counting (c : Change)
  | resolving (c : Change)
  | writing (c : Change)
  | rereading (c : Change)
  | answered (answer : Except WriteError EndpointRow)

/-- A change up to its first statement. -/
def change (rules : Rules) (stored : EndpointRow) (draft : Draft) (keys : KeysMove) : Phase :=
  if (draft.name, draft.dialect, draft.platform) ≠
      (stored.name, stored.dialect, stored.platform) then
    .answered (.error (.invalid fixed))
  else
    match checked rules draft with
    | .error message => .answered (.error (.invalid message))
    | .ok (draft, platform) =>
      let c : Change := { stored, draft, platform, keys }
      if movesBaseUrl rules stored draft.baseUrl then
        if keys = .refused then .counting c else .resolving c
      else .writing c

/-- The row an update leaves: stamped now, and always later than the row it replaces. -/
def EndpointRow.updated (row : EndpointRow) (draft : Draft) (now : ℤ) : EndpointRow :=
  { row with
    baseUrl := draft.baseUrl
    auth := draft.auth
    region := draft.region
    project := draft.project
    apiVersion := draft.apiVersion
    path := draft.path
    extraHeaders := draft.extraHeaders
    displayName := draft.displayName
    discoverModels := draft.discoverModels
    updatedAt := max now (row.updatedAt + 1) }

structure Account where
  id : ℕ
  provider : String
  deriving DecidableEq

/-- What is committed, and where each change stands. -/
structure State where
  endpoints : String → Option EndpointRow
  accounts : List Account
  calls : ℕ → Option Phase

inductive Event
  | file (account : Account)
  | remove (id : ℕ)
  | call (i : ℕ) (name : String) (draft : Draft) (keys : KeysMove)
  | count (i : ℕ)
  | resolve (i : ℕ) (answer : Except String Unit)
  | update (i : ℕ) (now : ℤ)
  | reread (i : ℕ)
  | fail (i : ℕ) (e : StoreError)

def endpointAccountCount (s : State) (name : String) : ℕ :=
  s.accounts.countP (fun a => a.provider = name)

def State.file (s : State) (account : Account) : State :=
  { s with accounts := account :: s.accounts }

def State.setPhase (s : State) (i : ℕ) (phase : Phase) : State :=
  { s with calls := Function.update s.calls i (some phase) }

/-- The row a change answers with, committed under its name. -/
def State.commit (s : State) (i : ℕ) (name : String) (row : EndpointRow) : State :=
  { s with
    endpoints := Function.update s.endpoints name (some row)
    calls := Function.update s.calls i (some (.answered (.ok row))) }

/-- The conditional update, and the phase it leaves the change in. -/
def update (s : State) (i : ℕ) (c : Change) (now : ℤ) : State :=
  match s.endpoints c.stored.name with
  | none => s.setPhase i (.rereading c)
  | some row =>
    if row.updatedAt = c.stored.updatedAt then s.commit i c.stored.name (row.updated c.draft now)
    else s.setPhase i (.rereading c)

/-- One statement, or one lookup, of one change, or one committed change of the credentials.
A credential's own statement holds its endpoint's row only against a delete, so an update
never waits for it. -/
def step (rules : Rules) (s : State) : Event → Option State
  | .file account =>
    if account.id ∈ s.accounts.map Account.id then none
    else some (s.file account)
  | .remove id => some { s with accounts := s.accounts.filter (fun a => a.id ≠ id) }
  | .call i name draft keys =>
    match s.calls i with
    | some _ => none
    | none =>
      match s.endpoints name with
      | none => some (s.setPhase i (.answered (.error .notFound)))
      | some stored => some (s.setPhase i (change rules stored draft keys))
  | .count i =>
    match s.calls i with
    | some (.counting c) =>
      let accounts := endpointAccountCount s c.stored.name
      if 0 < accounts then some (s.setPhase i (.answered (.error (.keysWouldMove accounts))))
      else some (s.setPhase i (.resolving c))
    | _ => none
  | .resolve i answer =>
    match s.calls i with
    | some (.resolving c) =>
      match c.draft.baseUrl, answer with
      | some _, .error message => some (s.setPhase i (.answered (.error (.invalid message))))
      | _, _ => some (s.setPhase i (.writing c))
    | _ => none
  | .update i now =>
    match s.calls i with
    | some (.writing c) => some (update s i c now)
    | _ => none
  | .reread i =>
    match s.calls i with
    | some (.rereading c) =>
      match s.endpoints c.stored.name with
      | some _ => some (s.setPhase i (.answered (.error .changed)))
      | none => some (s.setPhase i (.answered (.error .notFound)))
    | _ => none
  | .fail i e =>
    match s.calls i, e with
    | some (.counting _), .internal message =>
      some (s.setPhase i (.answered (.error (.failed message))))
    | some (.writing _), e => some (s.setPhase i (.answered (.error (writeError e))))
    | some (.rereading _), .internal message =>
      some (s.setPhase i (.answered (.error (.failed message))))
    | _, _ => none

/-- A database before any change: each row under its own name, and any credentials. -/
structure Setup where
  endpoints : String → Option EndpointRow
  accounts : List Account
  named : ∀ name row, endpoints name = some row → row.name = name

def Setup.start (setup : Setup) : State :=
  { endpoints := setup.endpoints, accounts := setup.accounts, calls := fun _ => none }

end OpenAIGateway.EndpointChange
