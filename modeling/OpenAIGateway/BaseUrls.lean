import OpenAIGateway.Alias
import OpenAIGateway.Ascii
import OpenAIGateway.Ends
import OpenAIGateway.Listing

/-!
The base URL of an endpoint. Some rules read the text a writer gave and others
the URL it parses to; what is stored is that URL written out, without the
slashes at its end.
-/

set_option linter.all false

namespace OpenAIGateway.BaseUrls

open Ends (trimEnd stripSuffix)
open ModelList (isControl)

abbrev Text := List Char

inductive Host
  | domain (name : Text)
  | ipv4 (address : BitVec 32)
  | ipv6 (address : BitVec 128)
  deriving DecidableEq

structure Url where
  scheme : Text
  username : Text
  password : Option Text
  host : Option Host
  port : Option ℕ
  path : Text
  query : Option Text
  fragment : Option Text

/-- What is used of the `url` crate: its parser, with what it says of a text that is no URL, and
how it writes a host and an origin. -/
structure UrlCrate where
  parse : Text → Except String Url
  hostStr : Host → Text
  origin : Url → Text

def Url.credentials (url : Url) : Text :=
  match url.password with
  | some password => url.username ++ ':' :: password ++ ['@']
  | none => if url.username = [] then [] else url.username ++ ['@']

/-- A URL as it is written, up to its path. -/
def UrlCrate.front (crate : UrlCrate) (url : Url) : Text :=
  url.scheme ++ "://".toList ++ url.credentials ++ (url.host.map crate.hostStr).getD [] ++
    (url.port.map fun port => ':' :: Nat.toDigits 10 port).getD []

/-- `Url::as_str`, of a URL with a host. -/
def UrlCrate.asStr (crate : UrlCrate) (url : Url) : Text :=
  crate.front url ++ url.path ++ (url.query.map ('?' :: ·)).getD [] ++
    (url.fragment.map ('#' :: ·)).getD []

def http : Text := "http".toList

def https : Text := "https".toList

/-! A catalogue's URL. -/

def metadataV4 : List (BitVec 32) := [0x646464C8]

def metadataV6 : List (BitVec 128) :=
  [0xFD000EC2000000000000000000000254, 0xFD2000CE000000000000000000000254]

/-- Link-local, unspecified, broadcast, multicast and metadata addresses. -/
def v4IsDenied (ip : BitVec 32) : Bool :=
  ip >>> 16 == 0xA9FE || ip == 0 || ip == 0xFFFFFFFF || ip >>> 28 == 0xE || metadataV4.contains ip

/-- The same, and the address of an IPv4 one that is. -/
def v6IsDenied (ip : BitVec 128) : Bool :=
  ip >>> 118 == 0x3FA || ip == 0 || ip >>> 120 == 0xFF || metadataV6.contains ip ||
    (ip >>> 32 == 0xFFFF && v4IsDenied (ip.truncate 32))

def metadataHosts : List String :=
  ["metadata", "metadata.google.internal", "metadata.google.com", "metadata.azure.com"]

def isMetadataHost (name : Text) : Bool :=
  metadataHosts.any fun host => decide ((trimEnd '.' name).map Char.toLower = host.toList)

def Host.isDeniedAddress : Host → Bool
  | .ipv4 ip => v4IsDenied ip
  | .ipv6 ip => v6IsDenied ip
  | .domain _ => false

def Host.isDenied : Host → Bool
  | .domain name => isMetadataHost name
  | host => host.isDeniedAddress

def catalogUrl (crate : UrlCrate) (raw : Text) : Except String Url :=
  let trimmed := Sse.trim raw
  if trimmed = [] then .error "URL is empty"
  else if 2048 < (Utf8.encode trimmed).length then .error "URL is too long"
  else
    match crate.parse trimmed with
    | .error e => .error ("not a URL: " ++ e)
    | .ok url =>
      if url.scheme ≠ http ∧ url.scheme ≠ https then
        .error ("URL must be http or https, not '" ++ String.ofList url.scheme ++ "'")
      else if url.username ≠ [] ∨ url.password.isSome then
        .error "URL must not contain credentials"
      else
        match url.host with
        | none => .error "URL is missing a host"
        | some host =>
          if host.isDenied then .error "refusing a link-local or cloud-metadata URL" else .ok url

/-! The rules of an endpoint's. -/

inductive Reason
  | baseUrl
  | compliance
  deriving DecidableEq, Repr

structure Refusal where
  reason : Reason
  message : String
  deriving DecidableEq, Repr

def normaliseBaseUrl (provider : String) (raw : Text) : Except String Text :=
  let trimmed := Sse.trim raw
  let text := String.ofList trimmed
  if trimmed = [] then .error ("the base URL for " ++ provider ++ " is empty")
  else
    match ['?', '#'].find? (fun c => decide (c ∈ trimmed)) with
    | some bad =>
      .error ("the base URL for " ++ provider ++ " contains '" ++ String.singleton bad ++ "': " ++
        text ++ ". Every request path is appended to it, so a query or fragment here would " ++
        "silently change what the resulting URL means.")
    | none =>
      if ¬ "://".toList <:+: trimmed then
        .error ("the base URL for " ++ provider ++ " has no scheme: " ++ text)
      else .ok (trimEnd '/' trimmed)

def plainRefusedHosts : List String :=
  ["anthropic.com", "claude.ai", "claude.com", "chatgpt.com", "openai.com", "x.ai", "grok.com",
    "googleapis.com", "amazonaws.com", "azure.com"]

/-- The refused host is the host, or is at its end after a dot. -/
def isOrIsUnder (host : Text) (refused : String) : Bool :=
  decide (host = refused.toList) ||
    match stripSuffix refused.toList host with
    | some under => decide (under.getLast? = some '.')
    | none => false

def plainRefusedHost (url : Url) (platform : Platform) : Option String :=
  match platform, url.host with
  | .plain, some (.domain host) => plainRefusedHosts.find? (isOrIsUnder (trimEnd '.' host))
  | _, _ => none

def isLoopback : Host → Bool
  | .ipv4 ip => ip >>> 24 == 127
  | .ipv6 ip => ip == 1
  | .domain name => decide (name = "localhost".toList)

def isHttpsOrLoopback (url : Url) : Bool :=
  if url.scheme = https then true
  else if url.scheme = http then (url.host.map isLoopback).getD false
  else false

def azureHosts : List String := ["openai.azure.com", "services.ai.azure.com"]

def lowerOrDigit (b : UInt8) : Bool := (0x61 ≤ b && b ≤ 0x7A) || (0x30 ≤ b && b ≤ 0x39)

/-- `^[a-z0-9][a-z0-9-]{1,62}$`. -/
def isAzureResource (label : String) : Bool :=
  let bytes := Ascii.bytes label
  decide (2 ≤ bytes.length ∧ bytes.length ≤ 63) &&
    match bytes with
    | [] => false
    | first :: rest => lowerOrDigit first && rest.all fun b => lowerOrDigit b || b == 0x2D

/-- What is in front of a host of Azure's. -/
def azureResource : Option Host → Option Text
  | some (.domain name) =>
    azureHosts.findSome? fun azure => (stripSuffix azure.toList name).bind (stripSuffix ['.'])
  | _ => none

def azureRefusal (problem : String) : Refusal :=
  ⟨.baseUrl, problem ++ ": an azure endpoint's base URL is its resource's, " ++
    "https://\x7bresource\x7d.openai.azure.com or " ++
    "https://\x7bresource\x7d.services.ai.azure.com, and nothing more; the gateway adds each " ++
    "request's path itself"⟩

/-- `standIns` are the origins tests have put in a resource's place; a release build has none. -/
def azureBaseUrl (crate : UrlCrate) (standIns : List Text) (url : Url) : Except Refusal Text :=
  let host := (url.host.map crate.hostStr).getD []
  if ¬ url.path.all (· == '/') then
    .error (azureRefusal ("the base URL has a path, " ++ String.ofList url.path))
  else if standIns.any (fun origin => decide (origin = crate.origin url)) then
    .ok (crate.origin url)
  else if url.scheme ≠ https then
    .error (azureRefusal ("the base URL is " ++ String.ofList url.scheme ++ ", not https"))
  else if ¬ (azureResource url.host).any (fun label => isAzureResource (String.ofList label)) then
    .error (azureRefusal (String.ofList host ++ " is not an Azure resource's host"))
  else
    match url.port with
    | some port => .error (azureRefusal ("the base URL names port " ++ toString port))
    | none => .ok ("https://".toList ++ host)

def endpointBaseUrl (crate : UrlCrate) (standIns : List Text) (raw : Text) (platform : Platform) :
    Except Refusal Text :=
  if (Sse.trim raw).any isControl then
    .error ⟨.baseUrl, "the base URL holds a control character, such as a tab, a newline or an " ++
      "escape: a URL parser would drop or escape it, so the URL checked would not be the one " ++
      "stored. Type it again without one"⟩
  else
    match catalogUrl crate raw with
    | .error message => .error ⟨.baseUrl, message⟩
    | .ok url =>
      match plainRefusedHost url platform with
      | some refused =>
        .error ⟨.compliance, "the base URL's host is " ++ refused ++ " or under it, where a " ++
          "plain endpoint may not point: that provider is served by its built-in adapter or by " ++
          "the aws, gcp or azure platform. See docs/compliance.md"⟩
      | none =>
        match normaliseBaseUrl "this endpoint" raw with
        | .error message => .error ⟨.baseUrl, message⟩
        | .ok _ =>
          match platform with
          | .azure => azureBaseUrl crate standIns url
          | .gcp =>
            if isHttpsOrLoopback url then .ok (trimEnd '/' (crate.asStr url))
            else
              .error ⟨.baseUrl, "the base URL is " ++ String.ofList url.scheme ++ ", not https: " ++
                "a gcp endpoint's requests carry a bearer token minted from a service account, " ++
                "which plain http would show to every hop on the way; http is allowed only to " ++
                "this machine's loopback (127.0.0.0/8, [::1] or localhost), for a stand-in or a " ++
                "local proxy"⟩
          | _ => .ok (trimEnd '/' (crate.asStr url))

/-! What each rule passes. -/

variable {crate : UrlCrate} {raw : Text} {url : Url} {platform : Platform}

/-- What a text has to be for the catalogue to take it as a URL. -/
structure Catalogued (crate : UrlCrate) (raw : Text) (url : Url) : Prop where
  nonempty : Sse.trim raw ≠ []
  short : (Utf8.encode (Sse.trim raw)).length ≤ 2048
  parsed : crate.parse (Sse.trim raw) = .ok url
  scheme : url.scheme = http ∨ url.scheme = https
  username : url.username = []
  password : url.password = none
  host : ∃ host, url.host = some host ∧ host.isDenied = false

theorem catalogUrl_eq_ok_iff : catalogUrl crate raw = .ok url ↔ Catalogued crate raw url := by
  constructor
  · intro h
    simp only [catalogUrl] at h
    split at h
    · cases h
    next hnonempty =>
    split at h
    · cases h
    next hshort =>
    split at h
    · cases h
    next parsed hparsed =>
    split at h
    · cases h
    next hscheme =>
    split at h
    · cases h
    next hcredentials =>
    split at h
    · cases h
    next host hhost =>
    split at h
    · cases h
    next hdenied =>
    cases h
    rw [not_and_or, not_not, not_not] at hscheme
    rw [not_or, not_not, Bool.not_eq_true, Option.isSome_eq_false_iff, Option.isNone_iff_eq_none]
      at hcredentials
    exact ⟨hnonempty, Nat.le_of_not_lt hshort, hparsed, hscheme, hcredentials.1, hcredentials.2,
      host, hhost, Bool.eq_false_iff.mpr hdenied⟩
  · intro h
    obtain ⟨host, hhost, hdenied⟩ := h.host
    have hscheme : ¬ (url.scheme ≠ http ∧ url.scheme ≠ https) := by
      rw [not_and_or, not_not, not_not]
      exact h.scheme
    have hcredentials : ¬ (url.username ≠ [] ∨ url.password.isSome = true) := by
      rw [h.username, h.password]
      decide
    simp only [catalogUrl, if_neg h.nonempty, if_neg (Nat.not_lt_of_le h.short), h.parsed,
      if_neg hscheme, if_neg hcredentials, hhost, hdenied]
    rfl

/-- What a text has to be for a path to be appended to it. -/
structure Appendable (raw : Text) : Prop where
  nonempty : Sse.trim raw ≠ []
  noQuery : '?' ∉ Sse.trim raw
  noFragment : '#' ∉ Sse.trim raw
  hasScheme : "://".toList <:+: Sse.trim raw

theorem normaliseBaseUrl_isOk_iff (provider : String) (raw : Text) :
    (∃ text, normaliseBaseUrl provider raw = .ok text) ↔ Appendable raw := by
  have hfind : ['?', '#'].find? (fun c => decide (c ∈ Sse.trim raw)) = none ↔
      '?' ∉ Sse.trim raw ∧ '#' ∉ Sse.trim raw := by
    simp
  constructor
  · intro h
    obtain ⟨text, h⟩ := h
    simp only [normaliseBaseUrl] at h
    split at h
    · cases h
    next hnonempty =>
    split at h
    · cases h
    next hnone =>
    split at h
    · cases h
    next hscheme =>
    obtain ⟨hquery, hfragment⟩ := hfind.mp hnone
    exact ⟨hnonempty, hquery, hfragment, not_not.mp hscheme⟩
  · intro h
    refine ⟨trimEnd '/' (Sse.trim raw), ?_⟩
    simp only [normaliseBaseUrl, if_neg h.nonempty, hfind.mpr ⟨h.noQuery, h.noFragment⟩,
      if_neg (not_not.mpr h.hasScheme)]

/-- A URL that is a resource of Azure's. -/
structure IsResource (url : Url) : Prop where
  path : url.path.all (· == '/') = true
  scheme : url.scheme = https
  resource : ∃ label, azureResource url.host = some label ∧
    isAzureResource (String.ofList label) = true
  port : url.port = none

theorem azureBaseUrl_eq_ok_iff {result : Text} : azureBaseUrl crate [] url = .ok result ↔
    IsResource url ∧ result = "https://".toList ++ (url.host.map crate.hostStr).getD [] := by
  have hresource : (azureResource url.host).any
      (fun label => isAzureResource (String.ofList label)) = true ↔
      ∃ label, azureResource url.host = some label ∧
        isAzureResource (String.ofList label) = true := by
    rw [Option.any_eq_true]
  constructor
  · intro h
    simp only [azureBaseUrl, List.any_nil, Bool.false_eq_true, if_false] at h
    split at h
    · cases h
    next hpath =>
    split at h
    · cases h
    next hscheme =>
    split at h
    · cases h
    next hlabel =>
    split at h
    · cases h
    next hport =>
    cases h
    exact ⟨⟨not_not.mp hpath, not_not.mp hscheme, hresource.mp (not_not.mp hlabel), hport⟩, rfl⟩
  · intro h
    obtain ⟨h, rfl⟩ := h
    simp only [azureBaseUrl, List.any_nil, Bool.false_eq_true, if_false,
      if_neg (not_not.mpr h.path), if_neg (not_not.mpr h.scheme),
      if_neg (not_not.mpr (hresource.mpr h.resource)), h.port]

/-- What is stored for a URL. -/
def stored (crate : UrlCrate) (url : Url) : Platform → Text
  | .azure => "https://".toList ++ (url.host.map crate.hostStr).getD []
  | _ => trimEnd '/' (crate.asStr url)

/-- A text that an endpoint on the platform may have, and the URL it is. -/
structure Accepted (crate : UrlCrate) (raw : Text) (platform : Platform) (url : Url) : Prop where
  noControl : (Sse.trim raw).any isControl = false
  catalogued : Catalogued crate raw url
  allowed : plainRefusedHost url platform = none
  appendable : Appendable raw
  azure : platform = .azure → IsResource url
  gcp : platform = .gcp → isHttpsOrLoopback url = true

theorem endpointBaseUrl_eq_ok_iff {result : Text} :
    endpointBaseUrl crate [] raw platform = .ok result ↔
      ∃ url, Accepted crate raw platform url ∧ result = stored crate url platform := by
  constructor
  · intro h
    simp only [endpointBaseUrl] at h
    split at h
    · cases h
    next hcontrol =>
    split at h
    · cases h
    next url hcatalogued =>
    split at h
    · cases h
    next hallowed =>
    split at h
    · cases h
    next text hnormal =>
    have hcatalogued := catalogUrl_eq_ok_iff.mp hcatalogued
    have happendable := (normaliseBaseUrl_isOk_iff _ raw).mp ⟨text, hnormal⟩
    have hcontrol := Bool.eq_false_iff.mpr hcontrol
    refine ⟨url, ?_⟩
    cases platform with
    | azure =>
      obtain ⟨hresource, rfl⟩ := azureBaseUrl_eq_ok_iff.mp h
      exact ⟨⟨hcontrol, hcatalogued, hallowed, happendable, fun _ => hresource, nofun⟩, rfl⟩
    | gcp =>
      simp only at h
      split at h
      next hhttps =>
        cases h
        exact ⟨⟨hcontrol, hcatalogued, hallowed, happendable, nofun, fun _ => hhttps⟩, rfl⟩
      next => cases h
    | plain =>
      cases h
      exact ⟨⟨hcontrol, hcatalogued, hallowed, happendable, nofun, nofun⟩, rfl⟩
    | aws =>
      cases h
      exact ⟨⟨hcontrol, hcatalogued, hallowed, happendable, nofun, nofun⟩, rfl⟩
  · intro h
    obtain ⟨url, h, rfl⟩ := h
    obtain ⟨text, hnormal⟩ := (normaliseBaseUrl_isOk_iff "this endpoint" raw).mpr h.appendable
    simp only [endpointBaseUrl, h.noControl, Bool.false_eq_true, if_false,
      catalogUrl_eq_ok_iff.mpr h.catalogued, h.allowed, hnormal]
    cases platform with
    | azure => exact azureBaseUrl_eq_ok_iff.mpr ⟨h.azure rfl, rfl⟩
    | gcp =>
      simp only [h.gcp rfl, if_true]
      rfl
    | plain => rfl
    | aws => rfl

end OpenAIGateway.BaseUrls
