import OpenAIGateway.Alias
import OpenAIGateway.EntryMaps
import OpenAIGateway.Lease
import OpenAIGateway.Transition

/-!
What serves the registered endpoints. A reload replaces the adapters, the System
One upstreams and the registry by five writes, one reload at a time, and a
request may look at the three between any two of them.
-/

set_option linter.all false

namespace OpenAIGateway.EndpointMaps

open EntryMaps

inductive Dialect
  | anthropicMessages
  | openAIChatCompletions
  | openAIResponses
  | geminiGenerateContent
  | systemOne
  | bedrockConverse
  deriving DecidableEq

/-- Lower-case ASCII letters and digits. -/
def isNameStart (c : Char) : Bool := c.isLower || c.isDigit

def reserved : List String := ["oag", "codex"]

/-- One to 32 letters, digits, `_` and `-`, the first a letter or a digit. -/
def wellFormed (name : String) : Bool :=
  decide (name.utf8ByteSize ≤ 32) &&
    match name.toList with
    | [] => false
    | c :: rest => isNameStart c && rest.all (fun c => isNameStart c || c == '_' || c == '-')

/-- Whether a name may name an endpoint; the built-ins are asked and never the registry. -/
def validateName (name : String) : Except String Unit :=
  if !wellFormed name then
    .error ("endpoint name `" ++ name ++ "` must be 1 to 32 characters from a-z, 0-9, `_` " ++
      "and `-`, starting with a letter or a digit")
  else if (Provider.builtin name).isSome || reserved.contains name then
    .error ("endpoint name `" ++ name ++ "` is reserved: a built-in provider, one of its " ++
      "aliases, `oag` or `codex` already means it")
  else .ok ()

/-- An upstream an operator registered. The name alone is its identity. -/
structure Endpoint where
  name : String
  dialect : Dialect
  platform : Platform
  valid : validateName name = .ok ()

def Endpoint.provider (endpoint : Endpoint) : Provider := .custom endpoint.name

theorem Endpoint.builtin_eq_none (endpoint : Endpoint) : Provider.builtin endpoint.name = none := by
  have hvalid := endpoint.valid
  unfold validateName at hvalid
  cases hbuiltin : Provider.builtin endpoint.name with
  | none => rfl
  | some provider =>
    simp only [hbuiltin, Option.isSome_some, Bool.true_or, if_true] at hvalid
    cases hformed : wellFormed endpoint.name with
    | false => simp [hformed] at hvalid
    | true => simp [hformed] at hvalid

/-- The endpoints this process resolves by name, replaced whole. -/
abbrev EndpointRegistry := EntryMap String Endpoint

def EndpointRegistry.install (endpoints : List Endpoint) : EndpointRegistry :=
  insertAll ∅ (endpoints.map (fun e => (e.name, e)))

/-- The provider a name parses to; the built-ins first, then the registry. -/
def resolve (registry : EndpointRegistry) (s : String) : Option Provider :=
  (Provider.builtin s).or ((registry.lookup s).map Endpoint.provider)

variable {Adapter Upstream Row Refusal : Type*}

/-- What serves one endpoint. -/
inductive Served (Adapter Upstream : Type*)
  | chat (adapter : Adapter)
  | systemOne (upstream : Upstream)

def Served.isSystemOne : Served Adapter Upstream → Bool
  | .chat _ => false
  | .systemOne _ => true

/-- An endpoint with what serves it, which is a System One upstream exactly for that dialect. -/
structure ServedEndpoint (Adapter Upstream : Type*) where
  endpoint : Endpoint
  served : Served Adapter Upstream
  kind : served.isSystemOne = decide (endpoint.dialect = .systemOne)

/-- The rules a stored row is held to and the two factories. -/
structure Factory (Row Refusal Adapter Upstream : Type*) where
  toEndpoint : Row → Except Refusal Endpoint
  adapter : Row → Except Refusal Adapter
  systemOne : Row → Except Refusal Upstream

/-- What serves one endpoint row, or why nothing does. -/
def endpointUpstream (factory : Factory Row Refusal Adapter Upstream) (row : Row) :
    Except Refusal (ServedEndpoint Adapter Upstream) :=
  match factory.toEndpoint row with
  | .error refusal => .error refusal
  | .ok endpoint =>
    if h : endpoint.dialect = .systemOne then
      (factory.systemOne row).map (fun upstream =>
        { endpoint := endpoint
          served := .systemOne upstream
          kind := by simp [h, Served.isSystemOne] })
    else
      (factory.adapter row).map (fun adapter =>
        { endpoint := endpoint
          served := .chat adapter
          kind := by simp [h, Served.isSystemOne] })

/-- Every row that passes every rule; the others serve nothing. -/
def loadEndpoints (factory : Factory Row Refusal Adapter Upstream) (rows : List Row) :
    List (ServedEndpoint Adapter Upstream) :=
  rows.filterMap (fun row => (endpointUpstream factory row).toOption)

/-- Every entry in `next`, and every one in `current` that `next` has no entry
for: what a map holds while the registry is being replaced. -/
def bridge {Value : Type*} (next current : EntryMap Provider Value) : EntryMap Provider Value :=
  orInsertAll next current.entries

structure AppState (Adapter Upstream : Type*) where
  builtins : EntryMap Provider Adapter
  jev : Upstream
  adapters : EntryMap Provider Adapter
  systemOneUpstreams : EntryMap Provider Upstream
  registry : EndpointRegistry

/-- The providers with a built-in chat adapter, in the order they are inserted. -/
def chatBuiltins : List Provider :=
  [.anthropic, .bedrock, .gemini, .openAI, .kimi, .deepSeek, .zhipu, .xAI]

def onlyJev (jev : Upstream) : EntryMap Provider Upstream := AList.singleton .jev jev

/-- No endpoint yet: the first reload loads them. -/
def AppState.new (adapter : Provider → Adapter) (jev : Upstream) : AppState Adapter Upstream :=
  let builtins := insertAll ∅ (chatBuiltins.map (fun p => (p, adapter p)))
  { builtins := builtins
    jev := jev
    adapters := builtins
    systemOneUpstreams := onlyJev jev
    registry := ∅ }

theorem lookup_onlyJev (jev : Upstream) (p : Provider) :
    (onlyJev jev).lookup p = if p = .jev then some jev else none := by
  unfold onlyJev
  rw [← AList.insert_empty]
  by_cases hp : p = .jev
  · subst hp
    exact AList.lookup_insert ∅
  · rw [if_neg hp, AList.lookup_insert_ne hp]
    exact AList.lookup_empty p

/-- One write to what requests read. The bridging writes read the map they replace. -/
inductive Write (Adapter Upstream : Type*)
  | bridgeAdapters (next : EntryMap Provider Adapter)
  | bridgeSystemOne (systemOne : EntryMap Provider Upstream)
  | install (endpoints : List Endpoint)
  | setAdapters (next : EntryMap Provider Adapter)
  | setSystemOne (systemOne : EntryMap Provider Upstream)

def AppState.write (s : AppState Adapter Upstream) :
    Write Adapter Upstream → AppState Adapter Upstream
  | .bridgeAdapters next => { s with adapters := bridge next s.adapters }
  | .bridgeSystemOne systemOne =>
    { s with systemOneUpstreams := bridge systemOne s.systemOneUpstreams }
  | .install endpoints => { s with registry := EndpointRegistry.install endpoints }
  | .setAdapters next => { s with adapters := next }
  | .setSystemOne systemOne => { s with systemOneUpstreams := systemOne }

/-- The two maps a reload builds before it writes anything. -/
def sortServed (maps : EntryMap Provider Adapter × EntryMap Provider Upstream)
    (e : ServedEndpoint Adapter Upstream) :
    EntryMap Provider Adapter × EntryMap Provider Upstream :=
  match e.served with
  | .chat adapter => (maps.1.insert e.endpoint.provider adapter, maps.2)
  | .systemOne upstream => (maps.1, maps.2.insert e.endpoint.provider upstream)

/-- The writes that make `served` the endpoints this state serves and the registry resolves. -/
def AppState.applyEndpoints (s : AppState Adapter Upstream)
    (served : List (ServedEndpoint Adapter Upstream)) : List (Write Adapter Upstream) :=
  let maps := served.foldl sortServed (s.builtins, onlyJev s.jev)
  let endpoints := served.map ServedEndpoint.endpoint
  [.bridgeAdapters maps.1, .bridgeSystemOne maps.2, .install endpoints,
    .setAdapters maps.1, .setSystemOne maps.2]

/-- A process: its shared state and the writes left of the reload in progress. -/
structure Process (Adapter Upstream : Type*) where
  state : AppState Adapter Upstream
  pending : List (Write Adapter Upstream)

inductive Event (Adapter Upstream : Type*)
  | reload (served : List (ServedEndpoint Adapter Upstream))
  | write

/-- One reload at a time; a reload begins when the one before has made its last write. -/
def step (p : Process Adapter Upstream) :
    Event Adapter Upstream → Option (Process Adapter Upstream)
  | .reload served =>
    match p.pending with
    | [] => some { p with pending := p.state.applyEndpoints served }
    | _ :: _ => none
  | .write =>
    match p.pending with
    | [] => none
    | w :: rest => some { state := p.state.write w, pending := rest }

def Process.start (adapter : Provider → Adapter) (jev : Upstream) : Process Adapter Upstream :=
  { state := AppState.new adapter jev, pending := [] }

/-! What one reload writes. -/

/-- The chat entries of a reload, and below its System One entries. -/
def chatEntries (served : List (ServedEndpoint Adapter Upstream)) : List (Provider × Adapter) :=
  served.filterMap (fun e =>
    match e.served with
    | .chat adapter => some (e.endpoint.provider, adapter)
    | .systemOne _ => none)

def systemOneEntries (served : List (ServedEndpoint Adapter Upstream)) :
    List (Provider × Upstream) :=
  served.filterMap (fun e =>
    match e.served with
    | .chat _ => none
    | .systemOne upstream => some (e.endpoint.provider, upstream))

theorem foldl_sortServed (served : List (ServedEndpoint Adapter Upstream))
    (maps : EntryMap Provider Adapter × EntryMap Provider Upstream) :
    served.foldl sortServed maps =
      (insertAll maps.1 (chatEntries served), insertAll maps.2 (systemOneEntries served)) := by
  induction served generalizing maps with
  | nil => rfl
  | cons e served ih =>
    rw [List.foldl_cons, ih]
    cases hserved : e.served with
    | chat adapter => simp [sortServed, chatEntries, systemOneEntries, hserved, insertAll]
    | systemOne upstream => simp [sortServed, chatEntries, systemOneEntries, hserved, insertAll]

theorem mem_chatEntries_iff (served : List (ServedEndpoint Adapter Upstream)) (p : Provider)
    (adapter : Adapter) :
    (p, adapter) ∈ chatEntries served ↔
      ∃ e ∈ served, e.served = .chat adapter ∧ e.endpoint.provider = p := by
  unfold chatEntries
  rw [List.mem_filterMap]
  refine exists_congr (fun e => and_congr_right (fun _ => ?_))
  cases e.served with
  | chat a =>
    simp only [Option.some.injEq, Prod.mk.injEq, Served.chat.injEq]
    exact and_comm
  | systemOne u => simp

theorem mem_systemOneEntries_iff (served : List (ServedEndpoint Adapter Upstream)) (p : Provider)
    (upstream : Upstream) :
    (p, upstream) ∈ systemOneEntries served ↔
      ∃ e ∈ served, e.served = .systemOne upstream ∧ e.endpoint.provider = p := by
  unfold systemOneEntries
  rw [List.mem_filterMap]
  refine exists_congr (fun e => and_congr_right (fun _ => ?_))
  cases e.served with
  | chat a => simp
  | systemOne u =>
    simp only [Option.some.injEq, Prod.mk.injEq, Served.systemOne.injEq]
    exact and_comm

/-- No entry of a reload is under a built-in. -/
theorem lastOf_chatEntries_eq_none (served : List (ServedEndpoint Adapter Upstream)) {p : Provider}
    (hp : p.isCustom = false) : lastOf (chatEntries served) p = none := by
  cases hlast : lastOf (chatEntries served) p with
  | none => rfl
  | some adapter =>
    obtain ⟨e, -, -, rfl⟩ := (mem_chatEntries_iff ..).mp (lastOf_eq_some_mem hlast)
    cases hp

theorem lastOf_systemOneEntries_eq_none (served : List (ServedEndpoint Adapter Upstream))
    {p : Provider} (hp : p.isCustom = false) : lastOf (systemOneEntries served) p = none := by
  cases hlast : lastOf (systemOneEntries served) p with
  | none => rfl
  | some upstream =>
    obtain ⟨e, -, -, rfl⟩ := (mem_systemOneEntries_iff ..).mp (lastOf_eq_some_mem hlast)
    cases hp

theorem lookup_install (endpoints : List Endpoint) (name : String) :
    (EndpointRegistry.install endpoints).lookup name =
      lastOf (endpoints.map (fun e => (e.name, e))) name := by
  unfold EndpointRegistry.install
  rw [lookup_insertAll, AList.lookup_empty, Option.or_none]

/-- Whatever the registry resolves a name to is one of the endpoints installed, of that name. -/
theorem mem_of_lookup_install {endpoints : List Endpoint} {name : String} {endpoint : Endpoint}
    (h : (EndpointRegistry.install endpoints).lookup name = some endpoint) :
    endpoint ∈ endpoints ∧ endpoint.name = name := by
  rw [lookup_install] at h
  obtain ⟨e, he, heq⟩ := List.mem_map.mp (lastOf_eq_some_mem h)
  cases heq
  exact ⟨he, rfl⟩

/-! Every endpoint that resolves has something to serve it. -/

/-- The map an endpoint's dialect is served from has an entry for it. -/
def AppState.Serves (s : AppState Adapter Upstream) (endpoint : Endpoint) : Prop :=
  if endpoint.dialect = .systemOne then endpoint.provider ∈ s.systemOneUpstreams
  else endpoint.provider ∈ s.adapters

structure AppState.Covered (s : AppState Adapter Upstream) : Prop where
  resolved : ∀ name endpoint, s.registry.lookup name = some endpoint →
    endpoint.name = name ∧ s.Serves endpoint
  builtins : ∀ p ∈ chatBuiltins, s.adapters.lookup p = s.builtins.lookup p
  jev : s.systemOneUpstreams.lookup .jev = some s.jev

/-- A state whose maps have what another's have covers the endpoints that one does. -/
theorem AppState.Serves.mono {s t : AppState Adapter Upstream} {endpoint : Endpoint}
    (h : s.Serves endpoint) (hadapters : ∀ p ∈ s.adapters, p ∈ t.adapters)
    (hsystemOne : ∀ p ∈ s.systemOneUpstreams, p ∈ t.systemOneUpstreams) : t.Serves endpoint := by
  unfold Serves at h ⊢
  by_cases hdialect : endpoint.dialect = .systemOne
  · rw [if_pos hdialect] at h ⊢
    exact hsystemOne _ h
  · rw [if_neg hdialect] at h ⊢
    exact hadapters _ h

/-- Covered now and after each of the writes. -/
def CoveredThrough (s : AppState Adapter Upstream) : List (Write Adapter Upstream) → Prop
  | [] => s.Covered
  | w :: rest => s.Covered ∧ CoveredThrough (s.write w) rest

theorem CoveredThrough.covered {s : AppState Adapter Upstream}
    {writes : List (Write Adapter Upstream)} (h : CoveredThrough s writes) : s.Covered := by
  cases writes with
  | nil => exact h
  | cons w rest => exact h.1

/-- The registry resolves an endpoint that a reload installed, whose own map has its entry. -/
theorem serves_of_installed {s : AppState Adapter Upstream}
    {served : List (ServedEndpoint Adapter Upstream)}
    (hadapters : ∀ e ∈ chatEntries served, e.1 ∈ s.adapters)
    (hsystemOne : ∀ e ∈ systemOneEntries served, e.1 ∈ s.systemOneUpstreams) {name : String}
    {endpoint : Endpoint}
    (h : (EndpointRegistry.install (served.map ServedEndpoint.endpoint)).lookup name =
      some endpoint) : endpoint.name = name ∧ s.Serves endpoint := by
  obtain ⟨hmem, hname⟩ := mem_of_lookup_install h
  refine ⟨hname, ?_⟩
  obtain ⟨e, he, rfl⟩ := List.mem_map.mp hmem
  have hkind := e.kind
  unfold AppState.Serves
  cases hserved : e.served with
  | chat adapter =>
    have hdialect : e.endpoint.dialect ≠ .systemOne := by
      simpa [hserved, Served.isSystemOne] using hkind
    rw [if_neg hdialect]
    exact hadapters _ ((mem_chatEntries_iff ..).mpr ⟨e, he, hserved, rfl⟩)
  | systemOne upstream =>
    have hdialect : e.endpoint.dialect = .systemOne := by
      simpa [hserved, Served.isSystemOne] using hkind
    rw [if_pos hdialect]
    exact hsystemOne _ ((mem_systemOneEntries_iff ..).mpr ⟨e, he, hserved, rfl⟩)

theorem mem_insertAll_of_mem {α β : Type*} [DecidableEq α] (m : EntryMap α β)
    {entries : List (α × β)} {e : α × β} (h : e ∈ entries) : e.1 ∈ insertAll m entries :=
  (mem_insertAll_iff ..).mpr (.inl ⟨e, h, rfl⟩)

theorem isCustom_of_mem_chatBuiltins {p : Provider} (h : p ∈ chatBuiltins) :
    p.isCustom = false := by
  revert p
  decide

/-- The built-ins keep their adapters in the map a reload builds, and in its bridge. -/
theorem lookup_insertAll_chatEntries (m : EntryMap Provider Adapter)
    (served : List (ServedEndpoint Adapter Upstream)) {p : Provider} (hp : p.isCustom = false) :
    (insertAll m (chatEntries served)).lookup p = m.lookup p := by
  rw [lookup_insertAll, lastOf_chatEntries_eq_none served hp, Option.none_or]

theorem lookup_insertAll_systemOneEntries (m : EntryMap Provider Upstream)
    (served : List (ServedEndpoint Adapter Upstream)) {p : Provider} (hp : p.isCustom = false) :
    (insertAll m (systemOneEntries served)).lookup p = m.lookup p := by
  rw [lookup_insertAll, lastOf_systemOneEntries_eq_none served hp, Option.none_or]

theorem mem_bridge_iff {Value : Type*} (next current : EntryMap Provider Value) (p : Provider) :
    p ∈ bridge next current ↔ p ∈ next ∨ p ∈ current :=
  mem_orInsertAll_entries_iff next current p

theorem lookup_bridge {Value : Type*} (next current : EntryMap Provider Value) (p : Provider) :
    (bridge next current).lookup p = (next.lookup p).or (current.lookup p) :=
  lookup_orInsertAll next current.entries p

/-- No write of a reload leaves an endpoint that resolves with nothing to serve it. -/
theorem coveredThrough_applyEndpoints (s : AppState Adapter Upstream) (h : s.Covered)
    (served : List (ServedEndpoint Adapter Upstream)) :
    CoveredThrough s (s.applyEndpoints served) := by
  unfold AppState.applyEndpoints
  rw [foldl_sortServed]
  have hbuiltins : ∀ p ∈ chatBuiltins,
      (insertAll s.builtins (chatEntries served)).lookup p = s.builtins.lookup p :=
    fun p hp => lookup_insertAll_chatEntries _ _ (isCustom_of_mem_chatBuiltins hp)
  have hjev : (insertAll (onlyJev s.jev) (systemOneEntries served)).lookup .jev = some s.jev := by
    rw [lookup_insertAll_systemOneEntries _ _ rfl]
    exact lookup_onlyJev s.jev .jev
  have hbridged : ∀ p ∈ chatBuiltins,
      (bridge (insertAll s.builtins (chatEntries served)) s.adapters).lookup p =
        s.builtins.lookup p := by
    intro p hp
    rw [lookup_bridge, hbuiltins p hp, h.builtins p hp, Option.or_self]
  have hbridgedJev :
      (bridge (insertAll (onlyJev s.jev) (systemOneEntries served)) s.systemOneUpstreams).lookup
        .jev = some s.jev := by
    rw [lookup_bridge, hjev, Option.some_or]
  -- A bridge has what was there and what comes.
  have hkept : ∀ p ∈ s.adapters,
      p ∈ bridge (insertAll s.builtins (chatEntries served)) s.adapters :=
    fun p hp => (mem_bridge_iff ..).mpr (.inr hp)
  have hkeptUpstreams : ∀ p ∈ s.systemOneUpstreams,
      p ∈ bridge (insertAll (onlyJev s.jev) (systemOneEntries served)) s.systemOneUpstreams :=
    fun p hp => (mem_bridge_iff ..).mpr (.inr hp)
  have hcoming : ∀ e ∈ chatEntries served, e.1 ∈ insertAll s.builtins (chatEntries served) :=
    fun e he => mem_insertAll_of_mem _ he
  have hcomingUpstreams : ∀ e ∈ systemOneEntries served,
      e.1 ∈ insertAll (onlyJev s.jev) (systemOneEntries served) :=
    fun e he => mem_insertAll_of_mem _ he
  refine ⟨h, ⟨?_, hbridged, h.jev⟩, ⟨?_, hbridged, hbridgedJev⟩, ⟨?_, hbridged, hbridgedJev⟩,
    ⟨?_, hbuiltins, hbridgedJev⟩, ⟨?_, hbuiltins, hjev⟩⟩
  · intro name endpoint hname
    exact (h.resolved name endpoint hname).imp_right (·.mono hkept (fun _ hp => hp))
  · intro name endpoint hname
    exact (h.resolved name endpoint hname).imp_right (·.mono hkept hkeptUpstreams)
  · intro name endpoint hname
    apply serves_of_installed _ _ hname
    · exact fun e he => (mem_bridge_iff ..).mpr (.inl (hcoming e he))
    · exact fun e he => (mem_bridge_iff ..).mpr (.inl (hcomingUpstreams e he))
  · intro name endpoint hname
    apply serves_of_installed _ _ hname
    · exact hcoming
    · exact fun e he => (mem_bridge_iff ..).mpr (.inl (hcomingUpstreams e he))
  · intro name endpoint hname
    exact serves_of_installed hcoming hcomingUpstreams hname

/-! Whole runs, from the state of a process that has loaded nothing. -/

@[simp]
theorem write_builtins (s : AppState Adapter Upstream) (w : Write Adapter Upstream) :
    (s.write w).builtins = s.builtins := by
  cases w <;> rfl

@[simp]
theorem write_jev (s : AppState Adapter Upstream) (w : Write Adapter Upstream) :
    (s.write w).jev = s.jev := by
  cases w <;> rfl

/-- The map built once from the config, which no reload rebuilds. -/
def builtinMap (adapter : Provider → Adapter) : EntryMap Provider Adapter :=
  insertAll ∅ (chatBuiltins.map (fun p => (p, adapter p)))

theorem lookup_builtinMap (adapter : Provider → Adapter) (p : Provider) :
    (builtinMap adapter).lookup p = if p ∈ chatBuiltins then some (adapter p) else none := by
  unfold builtinMap
  rw [lookup_insertAll, AList.lookup_empty, Option.or_none]
  cases p <;> rfl

structure Process.Kept (adapter : Provider → Adapter) (jev : Upstream)
    (p : Process Adapter Upstream) : Prop where
  builtins : p.state.builtins = builtinMap adapter
  jev : p.state.jev = jev
  through : CoveredThrough p.state p.pending

variable {adapter : Provider → Adapter} {jev : Upstream}

theorem kept_start : (Process.start adapter jev).Kept adapter jev where
  builtins := rfl
  jev := rfl
  through :=
    { resolved := fun name endpoint h => by
        rw [show (Process.start adapter jev).state.registry = ∅ from rfl, AList.lookup_empty] at h
        cases h
      builtins := fun p _ => rfl
      jev := lookup_onlyJev jev .jev }

theorem kept_step {p p' : Process Adapter Upstream} {event : Event Adapter Upstream}
    (h : p.Kept adapter jev) (hstep : step p event = some p') : p'.Kept adapter jev := by
  obtain ⟨s, pending⟩ := p
  cases event with
  | reload served =>
    cases pending with
    | nil =>
      obtain rfl : _ = p' := Option.some.inj hstep
      exact ⟨h.builtins, h.jev, coveredThrough_applyEndpoints s h.through served⟩
    | cons w rest => cases hstep
  | write =>
    cases pending with
    | nil => cases hstep
    | cons w rest =>
      obtain rfl : _ = p' := Option.some.inj hstep
      exact ⟨(write_builtins s w).trans h.builtins, (write_jev s w).trans h.jev, h.through.2⟩

theorem kept_run {p : Process Adapter Upstream} {events : List (Event Adapter Upstream)}
    (h : Transition.run step (Process.start adapter jev) events = some p) : p.Kept adapter jev :=
  Transition.preserved_run (fun _ _ _ => kept_step) kept_start h

/-- What a name resolves to, when the registry has it, is the endpoint of that name. -/
theorem AppState.Covered.resolve_eq {s : AppState Adapter Upstream} (h : s.Covered) {name : String}
    {endpoint : Endpoint} (hname : s.registry.lookup name = some endpoint) :
    resolve s.registry name = some endpoint.provider := by
  obtain ⟨rfl, -⟩ := h.resolved name endpoint hname
  unfold resolve
  rw [endpoint.builtin_eq_none, hname]
  rfl

/-- The two maps and the registry hold the built-ins and these endpoints, and nothing else. -/
structure AppState.HoldsExactly (s : AppState Adapter Upstream) (adapter : Provider → Adapter)
    (jev : Upstream) (served : List (ServedEndpoint Adapter Upstream)) : Prop where
  adapters : ∀ p, s.adapters.lookup p =
    (lastOf (chatEntries served) p).or (if p ∈ chatBuiltins then some (adapter p) else none)
  systemOneUpstreams : ∀ p, s.systemOneUpstreams.lookup p =
    (lastOf (systemOneEntries served) p).or (if p = .jev then some jev else none)
  registry : ∀ name, s.registry.lookup name =
    lastOf (served.map (fun e => (e.endpoint.name, e.endpoint))) name

/-- The five writes of a reload, one after the other. -/
theorem run_reload (p : Process Adapter Upstream) (h : p.Kept adapter jev) (hidle : p.pending = [])
    (served : List (ServedEndpoint Adapter Upstream)) :
    ∃ p', Transition.run step p (.reload served :: List.replicate 5 .write) = some p' ∧
      p'.pending = [] ∧ p'.state.HoldsExactly adapter jev served := by
  obtain ⟨s, pending⟩ := p
  obtain rfl : pending = [] := hidle
  obtain rfl : s.jev = jev := h.jev
  have hbuiltins : s.builtins = builtinMap adapter := h.builtins
  refine ⟨_, rfl, rfl, ?_⟩
  refine ⟨?_, ?_, ?_⟩
  · intro p
    change AList.lookup p (served.foldl sortServed (s.builtins, onlyJev s.jev)).1 = _
    rw [foldl_sortServed, lookup_insertAll, hbuiltins, lookup_builtinMap]
  · intro p
    change AList.lookup p (served.foldl sortServed (s.builtins, onlyJev s.jev)).2 = _
    rw [foldl_sortServed, lookup_insertAll, lookup_onlyJev]
  · intro name
    change AList.lookup name (EndpointRegistry.install (served.map ServedEndpoint.endpoint)) = _
    rw [lookup_install, List.map_map]
    rfl

/-- Over every sequence of reloads and in every state between their writes, an
endpoint the registry resolves has an entry in the map its dialect is served
from, and the built-ins have theirs. A reload that starts reaches its last
write, after which both maps hold the built-ins and its own endpoints. -/
theorem resolved_endpoints_are_served (adapter : Provider → Adapter) (jev : Upstream)
    (events : List (Event Adapter Upstream)) (p : Process Adapter Upstream)
    (h : Transition.run step (Process.start adapter jev) events = some p) :
    (∀ name endpoint, p.state.registry.lookup name = some endpoint →
      resolve p.state.registry name = some endpoint.provider ∧ p.state.Serves endpoint) ∧
    (∀ q ∈ chatBuiltins, p.state.adapters.lookup q = some (adapter q)) ∧
    p.state.systemOneUpstreams.lookup .jev = some jev ∧
    (p.pending = [] → ∀ served, ∃ p',
      Transition.run step p (.reload served :: List.replicate 5 .write) = some p' ∧
      p'.pending = [] ∧ p'.state.HoldsExactly adapter jev served) := by
  have hkept := kept_run h
  have hcovered := hkept.through.covered
  refine ⟨?_, ?_, ?_, fun hidle served => run_reload p hkept hidle served⟩
  · intro name endpoint hname
    exact ⟨hcovered.resolve_eq hname, (hcovered.resolved name endpoint hname).2⟩
  · intro q hq
    rw [hcovered.builtins q hq, hkept.builtins, lookup_builtinMap, if_pos hq]
  · rw [hcovered.jev, hkept.jev]

/-- A chat endpoint registered again as a System One one, before the last two writes. -/
def movedEndpoint : List (Event Bool ℕ) :=
  [.reload [{
      endpoint := ⟨"groq", .openAIChatCompletions, .plain, by decide⟩
      served := .chat false
      kind := rfl }]] ++ List.replicate 5 .write ++
    [.reload [{
      endpoint := ⟨"groq", .systemOne, .plain, by decide⟩
      served := .systemOne 1
      kind := rfl }]] ++ List.replicate 3 .write

theorem moved_endpoint_is_served : ∃ p : Process Bool ℕ,
    Transition.run step (Process.start (fun _ => true) 0) movedEndpoint = some p ∧
    p.state.adapters.lookup (.custom "groq") = some false ∧
    ∀ name endpoint, p.state.registry.lookup name = some endpoint → p.state.Serves endpoint := by
  refine ⟨_, rfl, rfl, ?_⟩
  intro name endpoint h
  exact ((resolved_endpoints_are_served (fun _ => true) 0 movedEndpoint _ rfl).1 name endpoint h).2

end OpenAIGateway.EndpointMaps
