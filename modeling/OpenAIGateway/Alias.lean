import OpenAIGateway.Errors
import OpenAIGateway.Render
import OpenAIGateway.Split

/-!
Turning the model name a client sent into the one the router knows. A name may
carry a leading `anthropic/`, for a client that keeps no other ids, and a
trailing `@api` or `@sub`, which pins the request to a credential kind. The
listing builds such names and an inference request sends them back.
-/

set_option linter.all false

namespace OpenAIGateway

namespace CredentialKind

/-- The `@` qualifier that pins a model to this kind. -/
def qualifier : CredentialKind → Option String
  | .apiKey => some "api"
  | .oAuth => some "sub"
  | .bedrock | .serviceAccount => none

def qualified : List CredentialKind := [.apiKey, .oAuth]

def fromQualifier (s : String) : Option CredentialKind :=
  qualified.find? (fun kind => decide (kind.qualifier = some s))

theorem fromQualifier_qualifier {kind : CredentialKind} {q : String}
    (h : kind.qualifier = some q) : fromQualifier q = some kind := by
  cases kind <;> cases h <;> decide

end CredentialKind

/-- How an operator's endpoint is reached. -/
inductive Platform
  | plain
  | aws
  | gcp
  | azure

/-- The credential kinds a provider can be registered with; `platform` is what each
endpoint was registered as. -/
def Provider.credentialKinds (platform : String → Platform) : Provider → List CredentialKind
  | .openAI | .xAI => [.apiKey, .oAuth]
  | .bedrock => [.apiKey, .bedrock]
  | .anthropic | .gemini | .kimi | .deepSeek | .zhipu | .jev => [.apiKey]
  | .custom endpoint =>
    match platform endpoint with
    | .plain | .azure => [.apiKey]
    | .aws => [.bedrock]
    | .gcp => [.serviceAccount]

def Provider.accepts (platform : String → Platform) (provider : Provider)
    (kind : CredentialKind) : Bool :=
  (provider.credentialKinds platform).contains kind

namespace Alias

/-- What an id has to start with to survive the client's filter. -/
def discoveryPrefix : String := "anthropic/"

/-- What separates a model from the credential kind it is pinned to. -/
def channelSeparator : Char := '@'

def virtualPrefix : String := "oag/"

/-- An ASCII-case-insensitive prefix test. -/
def startsWithCi (s pat : String) : Bool :=
  (pat.toList.map Char.toLower).isPrefixOf (s.toList.map Char.toLower)

def survivesDiscoveryFilter (id : String) : Bool :=
  startsWithCi id "claude" || startsWithCi id "anthropic"

/-- The extra id to advertise a model under; `none` when its own already passes. -/
def discoveryAlias (id : String) : Option String :=
  if survivesDiscoveryFilter id then none else some (discoveryPrefix ++ id)

/-- The id that names a model on one credential kind. -/
def qualifiedId (id : String) (kind : CredentialKind) : Option String :=
  kind.qualifier.map (fun q => id ++ channelSeparator.toString ++ q)

/-- What an inbound model name turned out to mean; `model` is none when the name was
already canonical. -/
structure Normalised where
  model : Option String
  channel : Option CredentialKind

/-- Split a trailing `@kind` off a model name. The catalog wins over the split. -/
def splitChannel (catalog : Catalog) (model : String) :
    Except GatewayError (String × Option CredentialKind) :=
  match Split.rsplitOnce channelSeparator model with
  | none => .ok (model, none)
  | some (base, qualifier) =>
    if (catalog.resolve model).isSome then .ok (model, none)
    else
      match CredentialKind.fromQualifier qualifier with
      | some kind => .ok (base, some kind)
      | none => .error (.unknownModelChannel qualifier)

/-- Whether the router can do something with this name. -/
def known (catalog : Catalog) (model : String) : Bool :=
  virtualPrefix.toList.isPrefixOf model.toList || (catalog.resolve model).isSome

/-- The name a discovery alias stands for; `none` leaves the string alone. -/
def canonicalise (catalog : Catalog) (model : String) : Option String :=
  if known catalog model then none
  else (stripPrefix discoveryPrefix model).filter (known catalog)

def canonicalOf (catalog : Catalog) (base : String) : String :=
  (canonicalise catalog base).getD base

/-- Whether the model is known and its provider cannot hold the kind it is pinned to. -/
def impossiblePin (platform : String → Platform) (catalog : Catalog) (canonical : String) :
    Option CredentialKind → Option GatewayError
  | some kind => (catalog.resolve canonical).bind (fun spec =>
      if spec.provider.accepts platform kind then none
      else some (.channelNotOffered spec.provider kind))
  | none => none

/-- Strip both decorations off an inbound model name. -/
def normalise (platform : String → Platform) (catalog : Catalog) (model : String) :
    Except GatewayError Normalised :=
  (splitChannel catalog model).bind (fun (base, channel) =>
    let canonical := canonicalOf catalog base
    match impossiblePin platform catalog canonical channel with
    | some error => .error error
    | none => .ok ⟨if canonical = model then none else some canonical, channel⟩)

variable {platform : String → Platform} {catalog : Catalog} {model base id sent : String}
  {channel : Option CredentialKind} {kind : CredentialKind} {spec : ModelSpec}

/-- A sent name is accepted, and means a model and a pin or none. -/
def RoutesTo (platform : String → Platform) (catalog : Catalog) (sent model : String)
    (channel : Option CredentialKind) : Prop :=
  ∃ normalised, normalise platform catalog sent = .ok normalised ∧
    normalised.model.getD sent = model ∧ normalised.channel = channel

/-- What a sent name means is what its split means, unless the pin is impossible. -/
theorem routesTo_iff : RoutesTo platform catalog sent model channel ↔
    ∃ base, splitChannel catalog sent = .ok (base, channel) ∧
      model = canonicalOf catalog base ∧ impossiblePin platform catalog model channel = none := by
  unfold RoutesTo normalise
  cases hsplit : splitChannel catalog sent with
  | error error => simp [Except.bind]
  | ok split =>
    obtain ⟨base, pin⟩ := split
    dsimp only [Except.bind]
    constructor
    · rintro ⟨normalised, hnormal, rfl, rfl⟩
      cases himpossible : impossiblePin platform catalog (canonicalOf catalog base) pin with
      | some error =>
        rw [himpossible] at hnormal
        cases hnormal
      | none =>
        rw [himpossible] at hnormal
        cases hnormal
        by_cases hsame : canonicalOf catalog base = sent
        · exact ⟨base, rfl, by rw [if_pos hsame]; exact hsame.symm,
            by rw [if_pos hsame]; exact hsame ▸ himpossible⟩
        · exact ⟨base, rfl, by rw [if_neg hsame]; rfl, by rw [if_neg hsame]; exact himpossible⟩
    · rintro ⟨base', hbase, rfl, hpin⟩
      cases hbase
      rw [hpin]
      refine ⟨_, rfl, ?_, rfl⟩
      by_cases hsame : canonicalOf catalog base = sent
      · rw [if_pos hsame, hsame]
        rfl
      · rw [if_neg hsame]
        rfl

theorem impossiblePin_accepts (hspec : catalog.resolve model = some spec)
    (haccepts : spec.provider.accepts platform kind = true) :
    impossiblePin platform catalog model (some kind) = none := by
  simp [impossiblePin, hspec, haccepts]

/-- Where the split is known, so is what the name routes to. -/
theorem routesTo_iff_of_split {pin : Option CredentialKind}
    (hsplit : splitChannel catalog sent = .ok (base, pin)) :
    RoutesTo platform catalog sent model channel ↔
      channel = pin ∧ model = canonicalOf catalog base ∧
        impossiblePin platform catalog model channel = none := by
  rw [routesTo_iff, hsplit]
  constructor
  · rintro ⟨base', hbase, hrest⟩
    cases hbase
    exact ⟨rfl, hrest⟩
  · rintro ⟨rfl, hrest⟩
    exact ⟨base, rfl, hrest⟩

section Split

theorem splitChannel_plain (catalog : Catalog) (hmem : channelSeparator ∉ sent.toList) :
    splitChannel catalog sent = .ok (sent, none) := by
  unfold splitChannel
  rw [Split.rsplitOnce_eq_none_iff.mpr hmem]

theorem splitChannel_named (hresolve : (catalog.resolve sent).isSome = true) :
    splitChannel catalog sent = .ok (sent, none) := by
  unfold splitChannel
  cases Split.rsplitOnce channelSeparator sent with
  | none => rfl
  | some parts => exact if_pos hresolve

/-- Where the catalog does not have the name, its last separator starts a pin. -/
theorem splitChannel_pins (hmem : channelSeparator ∈ sent.toList)
    (hresolve : catalog.resolve sent = none) (base : String) :
    splitChannel catalog sent ≠ .ok (base, none) := by
  unfold splitChannel
  cases hsplit : Split.rsplitOnce channelSeparator sent with
  | none => exact absurd hmem (Split.rsplitOnce_eq_none_iff.mp hsplit)
  | some parts =>
    obtain ⟨before, q⟩ := parts
    dsimp only
    rw [hresolve, if_neg (by decide)]
    cases CredentialKind.fromQualifier q with
    | some kind => exact nofun
    | none => exact nofun

theorem separator_not_mem_qualifier {q : String} (h : kind.qualifier = some q) :
    channelSeparator ∉ q.toList := by
  cases kind <;> cases h <;> decide

theorem qualifiedId_eq_some_iff {qualified : String} :
    qualifiedId id kind = some qualified ↔
      ∃ q, kind.qualifier = some q ∧ id ++ channelSeparator.toString ++ q = qualified :=
  Option.map_eq_some_iff

theorem splitChannel_qualified {q : String} (hq : kind.qualifier = some q)
    (hsent : sent = base ++ channelSeparator.toString ++ q)
    (hresolve : catalog.resolve sent = none) :
    splitChannel catalog sent = .ok (base, some kind) := by
  have hsplit : Split.rsplitOnce channelSeparator sent = some (base, q) := by
    refine Split.rsplitOnce_eq_some_iff.mpr ⟨?_, separator_not_mem_qualifier hq⟩
    rw [hsent]
    simp [Char.toString]
  unfold splitChannel
  rw [hsplit]
  dsimp only
  rw [hresolve, if_neg (by decide), CredentialKind.fromQualifier_qualifier hq]

end Split

section Canonical

theorem canonicalOf_known (h : known catalog base = true) : canonicalOf catalog base = base := by
  unfold canonicalOf canonicalise
  rw [if_pos h]
  rfl

theorem known_of_resolve (h : catalog.resolve base = some spec) : known catalog base = true := by
  simp [known, h]

theorem discoveryAlias_eq_some_iff {aliased : String} :
    discoveryAlias id = some aliased ↔
      survivesDiscoveryFilter id = false ∧ discoveryPrefix ++ id = aliased := by
  unfold discoveryAlias
  cases survivesDiscoveryFilter id <;> simp

/-- No alias is a virtual name. -/
theorem known_alias (id : String) :
    known catalog (discoveryPrefix ++ id) = (catalog.resolve (discoveryPrefix ++ id)).isSome := by
  simp [known, virtualPrefix, discoveryPrefix, String.toList_append]

theorem stripPrefix_alias (id : String) :
    stripPrefix discoveryPrefix (discoveryPrefix ++ id) = some id :=
  stripPrefix_append discoveryPrefix id

theorem alias_ne (id : String) : discoveryPrefix ++ id ≠ id := by
  intro heq
  have hlength := congrArg (fun s => s.toList.length) heq
  simp [discoveryPrefix] at hlength
  omega

/-- An alias of a known name stands for it where the catalog has not the alias itself. -/
theorem canonicalOf_alias_iff (hknown : known catalog id = true) :
    id = canonicalOf catalog (discoveryPrefix ++ id) ↔
      catalog.resolve (discoveryPrefix ++ id) = none := by
  cases hresolve : catalog.resolve (discoveryPrefix ++ id) with
  | some spec =>
    rw [canonicalOf_known (known_of_resolve hresolve)]
    exact ⟨fun heq => absurd heq.symm (alias_ne id), nofun⟩
  | none =>
    have hunknown : ¬ known catalog (discoveryPrefix ++ id) = true := by
      rw [known_alias, hresolve]
      decide
    have hcanonical : canonicalOf catalog (discoveryPrefix ++ id) = id := by
      unfold canonicalOf canonicalise
      rw [if_neg hunknown, stripPrefix_alias, Option.filter_some, if_pos hknown]
      rfl
    exact ⟨fun _ => rfl, fun _ => hcanonical.symm⟩

end Canonical

/-- The catalog has an id under its own name. -/
theorem resolve_of_get (h : catalog.get id = some spec) : catalog.resolve id = some spec := by
  unfold Catalog.resolve
  rw [h]

theorem separator_mem_alias_iff :
    channelSeparator ∈ (discoveryPrefix ++ id).toList ↔ channelSeparator ∈ id.toList := by
  simp [discoveryPrefix, channelSeparator]

/-- A catalog id means itself, whatever is in it. -/
theorem routesTo_id (hget : catalog.get id = some spec) :
    RoutesTo platform catalog id id none := by
  have hresolve := resolve_of_get hget
  have hsplit : splitChannel catalog id = .ok (id, none) :=
    splitChannel_named (by rw [hresolve]; rfl)
  rw [routesTo_iff_of_split hsplit, canonicalOf_known (known_of_resolve hresolve)]
  exact ⟨rfl, rfl, rfl⟩

/-- The alias of a known name without a separator means that name where the catalog
has not the alias itself. -/
theorem routesTo_alias_iff (hknown : known catalog id = true)
    (hmem : channelSeparator ∉ id.toList) :
    RoutesTo platform catalog (discoveryPrefix ++ id) id none ↔
      catalog.resolve (discoveryPrefix ++ id) = none := by
  have hsplit := splitChannel_plain catalog
    (fun hmem' => hmem (separator_mem_alias_iff.mp hmem'))
  rw [routesTo_iff_of_split hsplit, ← canonicalOf_alias_iff hknown]
  exact ⟨fun h => h.2.1, fun h => ⟨rfl, h, rfl⟩⟩

/-- A name that the catalog has is pinned to nothing. -/
theorem not_routesTo_pin_of_resolve (hresolve : catalog.resolve sent ≠ none) :
    ¬ RoutesTo platform catalog sent model (some kind) := by
  rw [routesTo_iff_of_split (splitChannel_named (Option.isSome_iff_ne_none.mpr hresolve))]
  exact fun h => nomatch h.1

theorem routesTo_qualified_iff {qualified : String} (hget : catalog.get id = some spec)
    (haccepts : spec.provider.accepts platform kind = true)
    (hqualified : qualifiedId id kind = some qualified) :
    RoutesTo platform catalog qualified id (some kind) ↔ catalog.resolve qualified = none := by
  obtain ⟨q, hq, hsent⟩ := qualifiedId_eq_some_iff.mp hqualified
  have hresolve := resolve_of_get hget
  constructor
  · intro hroutes
    by_contra hnamed
    exact not_routesTo_pin_of_resolve hnamed hroutes
  · intro hfree
    rw [routesTo_iff_of_split (splitChannel_qualified hq hsent.symm hfree),
      canonicalOf_known (known_of_resolve hresolve)]
    exact ⟨rfl, rfl, impossiblePin_accepts hresolve haccepts⟩

theorem routesTo_qualified_alias_iff {qualified : String} (hget : catalog.get id = some spec)
    (haccepts : spec.provider.accepts platform kind = true)
    (hqualified : qualifiedId id kind = some qualified) :
    RoutesTo platform catalog (discoveryPrefix ++ qualified) id (some kind) ↔
      catalog.resolve (discoveryPrefix ++ qualified) = none ∧
        catalog.resolve (discoveryPrefix ++ id) = none := by
  obtain ⟨q, hq, rfl⟩ := qualifiedId_eq_some_iff.mp hqualified
  have hresolve := resolve_of_get hget
  have hsent : discoveryPrefix ++ (id ++ channelSeparator.toString ++ q) =
      (discoveryPrefix ++ id) ++ channelSeparator.toString ++ q := by
    simp only [String.append_assoc]
  rw [← canonicalOf_alias_iff (known_of_resolve hresolve)]
  constructor
  · intro hroutes
    have hfree : catalog.resolve (discoveryPrefix ++ (id ++ channelSeparator.toString ++ q)) =
        none := by
      by_contra hnamed
      exact not_routesTo_pin_of_resolve hnamed hroutes
    rw [routesTo_iff_of_split (splitChannel_qualified hq hsent hfree)] at hroutes
    exact ⟨hfree, hroutes.2.1⟩
  · rintro ⟨hfree, hcanonical⟩
    rw [routesTo_iff_of_split (splitChannel_qualified hq hsent hfree)]
    exact ⟨rfl, hcanonical, impossiblePin_accepts hresolve haccepts⟩

section Virtual

theorem known_virtualName (catalog : Catalog) (rung : Option TierName) :
    known catalog (RoutingPolicy.virtualName rung) = true := by
  cases rung <;> simp [known, virtualPrefix, RoutingPolicy.virtualName]

/-- With a separator that the catalog does not account for, a name has a pin or is refused. -/
theorem not_routesTo_of_separator (hmem : channelSeparator ∈ sent.toList)
    (hresolve : catalog.resolve sent = none) : ¬ RoutesTo platform catalog sent model none := by
  rw [routesTo_iff]
  rintro ⟨base, hsplit, -⟩
  exact splitChannel_pins hmem hresolve base hsplit

theorem routesTo_virtualName_iff (rung : Option TierName) :
    RoutesTo platform catalog (RoutingPolicy.virtualName rung)
        (RoutingPolicy.virtualName rung) none ↔
      channelSeparator ∉ (RoutingPolicy.virtualName rung).toList ∨
        catalog.resolve (RoutingPolicy.virtualName rung) ≠ none := by
  have hcanonical := canonicalOf_known (known_virtualName catalog rung)
  constructor
  · intro hroutes
    by_contra hbad
    rw [not_or, not_not, not_not] at hbad
    exact not_routesTo_of_separator hbad.1 hbad.2 hroutes
  · intro hgood
    have hsplit : splitChannel catalog (RoutingPolicy.virtualName rung) =
        .ok (RoutingPolicy.virtualName rung, none) := by
      rcases hgood with hplain | hnamed
      · exact splitChannel_plain catalog hplain
      · exact splitChannel_named (Option.isSome_iff_ne_none.mpr hnamed)
    rw [routesTo_iff_of_split hsplit, hcanonical]
    exact ⟨rfl, rfl, rfl⟩

theorem routesTo_virtualName_alias_iff (rung : Option TierName) :
    RoutesTo platform catalog (discoveryPrefix ++ RoutingPolicy.virtualName rung)
        (RoutingPolicy.virtualName rung) none ↔
      channelSeparator ∉ (RoutingPolicy.virtualName rung).toList ∧
        catalog.resolve (discoveryPrefix ++ RoutingPolicy.virtualName rung) = none := by
  have hknown := known_virtualName catalog rung
  constructor
  · intro hroutes
    have hfree : catalog.resolve (discoveryPrefix ++ RoutingPolicy.virtualName rung) = none := by
      by_contra hnamed
      have hsplit := splitChannel_named (Option.isSome_iff_ne_none.mpr hnamed)
      rw [routesTo_iff_of_split hsplit] at hroutes
      exact hnamed ((canonicalOf_alias_iff hknown).mp hroutes.2.1)
    refine ⟨?_, hfree⟩
    intro hmem
    exact not_routesTo_of_separator (separator_mem_alias_iff.mpr hmem) hfree hroutes
  · rintro ⟨hplain, hfree⟩
    exact (routesTo_alias_iff hknown hplain).mpr hfree

end Virtual

/-- Every name the listing builds comes back as its model and pin, except where the
catalog has that name, or for a virtual name takes part of it for a pin. -/
theorem advertised_routes_back (platform : String → Platform) (catalog : Catalog) :
    (∀ id spec, catalog.get id = some spec →
      RoutesTo platform catalog id id none ∧
      (∀ aliased, discoveryAlias id = some aliased → channelSeparator ∉ id.toList →
        (RoutesTo platform catalog aliased id none ↔ catalog.resolve aliased = none)) ∧
      ∀ kind qualified, spec.provider.accepts platform kind = true →
        qualifiedId id kind = some qualified →
        (RoutesTo platform catalog qualified id (some kind) ↔ catalog.resolve qualified = none) ∧
        ∀ aliased, discoveryAlias qualified = some aliased →
          (RoutesTo platform catalog aliased id (some kind) ↔
            catalog.resolve aliased = none ∧ catalog.resolve (discoveryPrefix ++ id) = none)) ∧
    ∀ rung : Option TierName,
      (RoutesTo platform catalog (RoutingPolicy.virtualName rung)
          (RoutingPolicy.virtualName rung) none ↔
        channelSeparator ∉ (RoutingPolicy.virtualName rung).toList ∨
          catalog.resolve (RoutingPolicy.virtualName rung) ≠ none) ∧
      ∀ aliased, discoveryAlias (RoutingPolicy.virtualName rung) = some aliased →
        (RoutesTo platform catalog aliased (RoutingPolicy.virtualName rung) none ↔
          channelSeparator ∉ (RoutingPolicy.virtualName rung).toList ∧
            catalog.resolve aliased = none) := by
  refine ⟨?_, ?_⟩
  · intro id spec hget
    refine ⟨routesTo_id hget, ?_, ?_⟩
    · intro aliased haliased hmem
      obtain ⟨-, rfl⟩ := discoveryAlias_eq_some_iff.mp haliased
      exact routesTo_alias_iff (known_of_resolve (resolve_of_get hget)) hmem
    · intro kind qualified haccepts hqualified
      refine ⟨routesTo_qualified_iff hget haccepts hqualified, ?_⟩
      intro aliased haliased
      obtain ⟨-, rfl⟩ := discoveryAlias_eq_some_iff.mp haliased
      exact routesTo_qualified_alias_iff hget haccepts hqualified
  · intro rung
    refine ⟨routesTo_virtualName_iff rung, ?_⟩
    intro aliased haliased
    obtain ⟨-, rfl⟩ := discoveryAlias_eq_some_iff.mp haliased
    exact routesTo_virtualName_alias_iff rung

/-- One vendor's model at its own id. -/
def grokModel : ModelSpec where
  id := "xai/grok"
  provider := .xAI
  upstreamName := "grok"
  pricing := ⟨.new 1 0, .new 5 0, none, none⟩
  contextWindow := 200000
  maxOutputTokens := 64000

/-- The same name under another id, which looks like an alias of the first. -/
def resoldModel : ModelSpec :=
  { grokModel with id := "anthropic/xai/grok", provider := .anthropic, upstreamName := "xai/grok" }

def grokCatalog : Catalog := .fromEntries [grokModel]

def resoldCatalog : Catalog := .fromEntries [grokModel, resoldModel]

theorem grok_seat_alias_routes_back :
    RoutesTo (fun _ => .plain) grokCatalog "anthropic/xai/grok@sub" "xai/grok" (some .oAuth) := by
  have hgrok := (advertised_routes_back (fun _ => .plain) grokCatalog).1 "xai/grok" grokModel rfl
  have hseat := (hgrok.2.2 .oAuth "xai/grok@sub" (by decide) (by decide)).2
  exact (hseat "anthropic/xai/grok@sub" (by decide)).mpr ⟨rfl, rfl⟩

/-- Of two models that are listed under one name, only one can be meant by it. -/
theorem resold_alias_names_another :
    resoldCatalog.get "xai/grok" = some grokModel ∧
      discoveryAlias "xai/grok" = some "anthropic/xai/grok" ∧
      RoutesTo (fun _ => .plain) resoldCatalog "anthropic/xai/grok" "anthropic/xai/grok" none ∧
      ¬ RoutesTo (fun _ => .plain) resoldCatalog "anthropic/xai/grok" "xai/grok" none := by
  refine ⟨rfl, by decide, ⟨_, rfl, rfl, rfl⟩, ?_⟩
  rintro ⟨normalised, hnormal, hmodel, -⟩
  cases hnormal
  exact absurd hmodel (by decide)

end Alias

end OpenAIGateway
