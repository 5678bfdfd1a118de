import OpenAIGateway.RoutingPolicy

/-!
Errors, and the classification that drives retry and failover. Durations are
whole seconds.
-/

set_option linter.all false

namespace OpenAIGateway

inductive CredentialKind
  | apiKey
  | oAuth
  | bedrock
  | serviceAccount
  deriving DecidableEq, Repr

/-- What went wrong with a request or with one attempt at it. -/
inductive GatewayError
  | unknownProvider (name : String)
  | config (message : String)
  | noCredential (provider : Provider)
  | unknownModelChannel (qualifier : String)
  | channelNotOffered (provider : Provider) (kind : CredentialKind)
  | noCredentialOfKind (provider : Provider) (kind : CredentialKind)
  | reserveHeld (provider : Provider) (reservePct : ℤ)
  | atCapacity (provider : Provider) (candidates : ℕ)
  | noViableModel (message : String)
  | unauthenticated
  | budgetExhausted (scope : BudgetScope)
  | rateLimited (retryAfter : ℕ)
  | overloaded
  | unsupportedAction (action : String)
  | unsupportedField (field dialect : String)
  | upstream (provider : Provider) (account : String) (status : ℕ) (body : String)
      (retryAfter : Option ℕ)
  | streamIdle (after : ℕ)
  | upstreamTimeout (after : ℕ)
  | upstreamUnavailable (reason : String) (lasting : Bool)
  | systemOneNotConfigured (route : String) (provider : Provider)
  | serde (message : String)
  | internal (message : String)
  deriving DecidableEq

/-- What to do about a failed attempt. -/
inductive Disposition
  | retrySameAccount
  | failoverAccount (cooldown : ℕ)
  | rateLimited (retryAfter : Option ℕ)
  | escalateTier
  | fatal
  deriving DecidableEq, Repr

/-- The phrases by which a provider says a request was too big for the model. -/
def capabilityMarkers : List String :=
  ["context_length_exceeded", "context length", "context window", "prompt is too long",
    "token count", "too many tokens"]

def namesACapabilityLimit (body : String) : Bool :=
  let body := body.toList.map Char.toLower
  capabilityMarkers.any (fun marker => decide (marker.toList <:+: body))

/-- A status an upstream answered with. -/
def statusDisposition (status : ℕ) (body : String) (retryAfter : Option ℕ) : Disposition :=
  if status ∈ [401, 403] then .failoverAccount 600
  else if status = 402 then .failoverAccount 3600
  else if status ∈ [408, 409, 425] then .retrySameAccount
  else if status = 429 then .rateLimited retryAfter
  else if status ∈ [500, 502, 503, 504, 529] then .failoverAccount 30
  else if status ∈ [413, 422] then .escalateTier
  else if status = 400 ∧ namesACapabilityLimit body then .escalateTier
  else .fatal

def GatewayError.disposition : GatewayError → Disposition
  | .upstream _ _ status body retryAfter => statusDisposition status body retryAfter
  | .streamIdle _ => .failoverAccount 60
  | .upstreamTimeout _ => .failoverAccount 30
  | .upstreamUnavailable _ lasting => .failoverAccount (if lasting then 600 else 30)
  | .noCredential _ | .reserveHeld _ _ | .noViableModel _ => .escalateTier
  | .atCapacity _ _ => .retrySameAccount
  | _ => .fatal

end OpenAIGateway
