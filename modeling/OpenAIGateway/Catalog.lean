import OpenAIGateway.Decimal
import OpenAIGateway.Extrema
import OpenAIGateway.Keyed
import OpenAIGateway.Usage
import Mathlib.Data.String.Basic

/-!
What models exist, what they cost and what they can do. The catalogue keeps
its models in the order of their ids and an index by upstream name that
`insert` maintains.
-/

set_option linter.all false

namespace OpenAIGateway

/-- A canonical `provider/name`. -/
abbrev ModelId := String

/-- A provider; an operator's endpoint is known by its name. -/
inductive Provider
  | anthropic
  | openAI
  | gemini
  | kimi
  | deepSeek
  | zhipu
  | xAI
  | bedrock
  | jev
  | custom (endpoint : String)
  deriving DecidableEq

def Provider.isCustom : Provider → Bool
  | .custom _ => true
  | _ => false

/-- Prices for a million tokens. -/
structure Pricing where
  inputPerMtok : Decimal
  outputPerMtok : Decimal
  cacheReadPerMtok : Option Decimal
  cacheWritePerMtok : Option Decimal
  deriving DecidableEq

structure Capabilities where
  vision : Bool := false
  tools : Bool := false
  reasoning : Bool := false
  promptCache : Bool := false
  deriving DecidableEq

structure ModelSpec where
  id : ModelId
  provider : Provider
  upstreamName : String
  pricing : Pricing
  contextWindow : ℕ
  maxOutputTokens : ℕ
  capabilities : Capabilities := {}
  deriving DecidableEq

/-- What a request needs from whatever model serves it. -/
structure Requirements where
  promptTokens : ℕ
  maxOutputTokens : ℕ
  vision : Bool
  tools : Bool
  reasoning : Bool
  deriving DecidableEq

/-- The sum of two `u64` values, held at the largest one. -/
def saturatingAddU64 (a b : ℕ) : ℕ := min (a + b) u64Max

/-- Whether this model can serve a request with these requirements. -/
def ModelSpec.satisfies (spec : ModelSpec) (need : Requirements) : Bool :=
  if need.vision && !spec.capabilities.vision then false
  else if need.tools && !spec.capabilities.tools then false
  else if need.reasoning && !spec.capabilities.reasoning then false
  else decide (saturatingAddU64 need.promptTokens need.maxOutputTokens ≤ spec.contextWindow)

/-- Input plus output for a million tokens, the scalar models are ranked by. -/
def ModelSpec.price (spec : ModelSpec) : ℚ :=
  spec.pricing.inputPerMtok.val + spec.pricing.outputPerMtok.val

/-- Every model the gateway knows about, and the ids that share an upstream name. -/
structure Catalog where
  models : List ModelSpec
  byUpstream : String → List ModelId
  sorted : Keyed.Sorted ModelSpec.id models
  indexed : ∀ name id, id ∈ byUpstream name ↔
    ∃ spec ∈ models, spec.id = id ∧ spec.upstreamName = name
  once : ∀ name, (byUpstream name).Nodup

namespace Catalog

def new : Catalog where
  models := []
  byUpstream := fun _ => []
  sorted := List.Pairwise.nil
  indexed := by simp
  once := fun _ => List.nodup_nil

def get (catalog : Catalog) (id : ModelId) : Option ModelSpec :=
  Keyed.get? ModelSpec.id catalog.models id

theorem get_eq_some_iff (catalog : Catalog) (id : ModelId) (spec : ModelSpec) :
    catalog.get id = some spec ↔ spec ∈ catalog.models ∧ spec.id = id :=
  Keyed.get?_eq_some_iff catalog.sorted

theorem id_eq_of_get {catalog : Catalog} {id : ModelId} {spec : ModelSpec}
    (h : catalog.get id = some spec) : spec.id = id := ((catalog.get_eq_some_iff id spec).mp h).2

/-- The index without an id under its old upstream name, when that name changes. -/
def dropPrevious (catalog : Catalog) (spec : ModelSpec) : String → List ModelId :=
  match catalog.get spec.id with
  | some previous =>
    if previous.upstreamName ≠ spec.upstreamName then
      Function.update catalog.byUpstream previous.upstreamName
        ((catalog.byUpstream previous.upstreamName).filter (fun id => decide (id ≠ spec.id)))
    else catalog.byUpstream
  | none => catalog.byUpstream

/-- The index with an id under an upstream name, once. -/
def addUpstream (index : String → List ModelId) (name : String) (id : ModelId) :
    String → List ModelId :=
  if id ∈ index name then index else Function.update index name (index name ++ [id])

theorem upstreamName_of_mem {catalog : Catalog} {name : String} {id : ModelId} {spec : ModelSpec}
    (h : id ∈ catalog.byUpstream name) (hget : catalog.get id = some spec) :
    spec.upstreamName = name := by
  obtain ⟨spec', hmem, hid, hname⟩ := (catalog.indexed name id).mp h
  have hget' : catalog.get id = some spec' := (catalog.get_eq_some_iff id spec').mpr ⟨hmem, hid⟩
  rw [Option.some.inj (hget.symm.trans hget')]
  exact hname

theorem mem_dropPrevious_iff (catalog : Catalog) (spec : ModelSpec) (name : String) (id : ModelId) :
    id ∈ catalog.dropPrevious spec name ↔
      id ∈ catalog.byUpstream name ∧ (id = spec.id → name = spec.upstreamName) := by
  unfold dropPrevious
  cases hget : catalog.get spec.id with
  | none =>
    have hfresh : id ∈ catalog.byUpstream name → id ≠ spec.id := by
      intro hmem hid
      obtain ⟨spec', hspec', hid', -⟩ := (catalog.indexed name id).mp hmem
      have := (catalog.get_eq_some_iff spec.id spec').mpr ⟨hspec', hid'.trans hid⟩
      rw [hget] at this
      cases this
    exact ⟨fun h => ⟨h, fun hid => absurd hid (hfresh h)⟩, fun h => h.1⟩
  | some previous =>
    have hname : id ∈ catalog.byUpstream name → id = spec.id → name = previous.upstreamName := by
      intro hmem hid
      rw [hid] at hmem
      exact (upstreamName_of_mem hmem hget).symm
    by_cases hsame : previous.upstreamName = spec.upstreamName
    · simp only [hsame, ne_eq, not_true_eq_false, if_false]
      exact ⟨fun h => ⟨h, fun hid => (hname h hid).trans hsame⟩, fun h => h.1⟩
    · simp only [ne_eq, hsame, not_false_eq_true, if_true]
      by_cases hkey : name = previous.upstreamName
      · subst hkey
        rw [Function.update_self, List.mem_filter, decide_eq_true_eq]
        exact and_congr_right (fun _ => ⟨fun h hid => absurd hid h, fun h hid => hsame (h hid)⟩)
      · rw [Function.update_of_ne hkey]
        exact ⟨fun h => ⟨h, fun hid => absurd (hname h hid) hkey⟩, fun h => h.1⟩

theorem nodup_dropPrevious (catalog : Catalog) (spec : ModelSpec) (name : String) :
    (catalog.dropPrevious spec name).Nodup := by
  unfold dropPrevious
  cases catalog.get spec.id with
  | none => exact catalog.once name
  | some previous =>
    by_cases hsame : previous.upstreamName = spec.upstreamName
    · simp only [hsame, ne_eq, not_true_eq_false, if_false]
      exact catalog.once name
    · simp only [ne_eq, hsame, not_false_eq_true, if_true, Function.update_apply]
      by_cases hkey : name = previous.upstreamName
      · rw [if_pos hkey]
        exact (catalog.once _).filter _
      · rw [if_neg hkey]
        exact catalog.once name

theorem mem_addUpstream_iff (index : String → List ModelId) (name name' : String)
    (id id' : ModelId) :
    id' ∈ addUpstream index name id name' ↔ id' ∈ index name' ∨ (name' = name ∧ id' = id) := by
  unfold addUpstream
  by_cases hmem : id ∈ index name
  · rw [if_pos hmem]
    exact ⟨Or.inl, fun h => h.elim (fun h => h) (fun h => by rw [h.1, h.2]; exact hmem)⟩
  · rw [if_neg hmem, Function.update_apply]
    by_cases hname : name' = name
    · simp [hname]
    · simp [hname]

theorem nodup_addUpstream {index : String → List ModelId} (name : String) (id : ModelId)
    {name' : String} (h : (index name').Nodup) : (addUpstream index name id name').Nodup := by
  unfold addUpstream
  by_cases hmem : id ∈ index name
  · rw [if_pos hmem]
    exact h
  · rw [if_neg hmem, Function.update_apply]
    by_cases hname : name' = name
    · subst hname
      rw [if_pos rfl]
      exact List.nodup_append.mpr ⟨h, List.nodup_singleton id, by
        intro x hx y hy heq
        rw [List.mem_singleton.mp hy] at heq
        exact hmem (heq ▸ hx)⟩
    · rw [if_neg hname]
      exact h

def insert (catalog : Catalog) (spec : ModelSpec) : Catalog where
  models := Keyed.insert ModelSpec.id spec catalog.models
  byUpstream := addUpstream (catalog.dropPrevious spec) spec.upstreamName spec.id
  sorted := Keyed.sorted_insert spec catalog.sorted
  indexed := by
    intro name id
    rw [mem_addUpstream_iff, mem_dropPrevious_iff, catalog.indexed]
    constructor
    · intro h
      rcases h with ⟨⟨other, hmem, hid, hname⟩, hkeep⟩ | ⟨hname, hid⟩
      · by_cases hsame : other.id = spec.id
        · exact ⟨spec, (Keyed.mem_insert_iff catalog.sorted).mpr (Or.inl rfl),
            hsame.symm.trans hid, (hkeep (hid.symm.trans hsame)).symm⟩
        · exact ⟨other, (Keyed.mem_insert_iff catalog.sorted).mpr (Or.inr ⟨hmem, hsame⟩), hid, hname⟩
      · exact ⟨spec, (Keyed.mem_insert_iff catalog.sorted).mpr (Or.inl rfl), hid.symm, hname.symm⟩
    · intro h
      obtain ⟨other, hmem, hid, hname⟩ := h
      rcases (Keyed.mem_insert_iff catalog.sorted).mp hmem with rfl | ⟨hmem, hne⟩
      · exact Or.inr ⟨hname.symm, hid.symm⟩
      · exact Or.inl ⟨⟨other, hmem, hid, hname⟩, fun hspec => absurd (hid.trans hspec) hne⟩
  once := fun name => nodup_addUpstream _ _ (catalog.nodup_dropPrevious spec name)

def fromEntries (entries : List ModelSpec) : Catalog := entries.foldl insert new

/-- The models whose upstream name this is, in the order of the index. -/
def upstreamModels (catalog : Catalog) (name : String) : List ModelSpec :=
  (catalog.byUpstream name).filterMap catalog.get

/-- Resolve a name a client sent: an id, or the upstream name of one built-in's model. -/
def resolve (catalog : Catalog) (name : String) : Option ModelSpec :=
  match catalog.get name with
  | some spec => some spec
  | none =>
    match (catalog.upstreamModels name).filter (fun spec => !spec.provider.isCustom) with
    | [only] => some only
    | _ => none

theorem mem_upstreamModels_iff (catalog : Catalog) (name : String) (spec : ModelSpec) :
    spec ∈ catalog.upstreamModels name ↔ spec ∈ catalog.models ∧ spec.upstreamName = name := by
  unfold upstreamModels
  rw [List.mem_filterMap]
  constructor
  · intro h
    obtain ⟨id, hid, hget⟩ := h
    exact ⟨((catalog.get_eq_some_iff id spec).mp hget).1, upstreamName_of_mem hid hget⟩
  · intro h
    exact ⟨spec.id, (catalog.indexed name spec.id).mpr ⟨spec, h.1, rfl, h.2⟩,
      (catalog.get_eq_some_iff spec.id spec).mpr ⟨h.1, rfl⟩⟩

/-- The order of the baseline: the dearer model, and of two equals the one with the smaller id. -/
def dearer (a b : ModelSpec) : Bool :=
  decide (b.price < a.price) || (decide (a.price = b.price) && decide (a.id < b.id))

def priced (spec : ModelSpec) : Bool :=
  decide (0 < spec.pricing.inputPerMtok.val) || decide (0 < spec.pricing.outputPerMtok.val)

/-- The models under the served names that can do the request and have a price.
`served` is the served set in the order its iterator happens to have. -/
def servedCandidates (catalog : Catalog) (served : List String) (need : Requirements) :
    List ModelSpec :=
  (served.flatMap catalog.upstreamModels).filter (fun spec => spec.satisfies need && priced spec)

def dearestServed (catalog : Catalog) (served : List String) (need : Requirements) :
    Option ModelSpec :=
  if served.isEmpty then none else Extrema.maxBy dearer (catalog.servedCandidates served need)

theorem mem_servedCandidates_iff (catalog : Catalog) (served : List String) (need : Requirements)
    (spec : ModelSpec) :
    spec ∈ catalog.servedCandidates served need ↔ spec ∈ catalog.models ∧
      spec.upstreamName ∈ served ∧ spec.satisfies need = true ∧ priced spec = true := by
  unfold servedCandidates
  simp only [List.mem_filter, List.mem_flatMap, mem_upstreamModels_iff, Bool.and_eq_true]
  constructor
  · intro h
    obtain ⟨⟨name, hname, hmem, rfl⟩, hneed⟩ := h
    exact ⟨hmem, hname, hneed⟩
  · intro h
    exact ⟨⟨spec.upstreamName, h.2.1, h.1, rfl⟩, h.2.2⟩

theorem dearer_iff (a b : ModelSpec) :
    dearer a b = true ↔ b.price < a.price ∨ (a.price = b.price ∧ a.id < b.id) := by
  simp [dearer]

theorem dearer_weakOrder : Extrema.WeakOrder dearer where
  asymm := by
    intro a b h
    rw [← Bool.not_eq_true]
    intro h'
    rw [dearer_iff] at h h'
    rcases h with h | ⟨h, hid⟩ <;> rcases h' with h' | ⟨h', hid'⟩
    · exact absurd h (not_lt_of_gt h')
    · exact absurd h' (ne_of_lt h)
    · exact absurd h (ne_of_lt h')
    · exact absurd hid (not_lt_of_gt hid')
  cotrans := by
    intro a b c h
    rw [dearer_iff] at h
    rw [dearer_iff, dearer_iff]
    rcases lt_trichotomy b.price a.price with hab | hab | hab
    · exact Or.inl (Or.inl hab)
    · rcases h with h | ⟨h, hid⟩
      · exact Or.inr (Or.inl (by rw [hab]; exact h))
      · by_cases hba : a.id < b.id
        · exact Or.inl (Or.inr ⟨hab.symm, hba⟩)
        · exact Or.inr (Or.inr ⟨hab.trans h, lt_of_le_of_lt (not_lt.mp hba) hid⟩)
    · rcases h with h | ⟨h, hid⟩
      · exact Or.inr (Or.inl (lt_trans h hab))
      · exact Or.inr (Or.inl (h ▸ hab))

/-- The dearest of the served models that can do the request and have a price,
by the smaller id where prices tie. -/
def Dearest (catalog : Catalog) (served : List String) (need : Requirements) (spec : ModelSpec) :
    Prop :=
  spec ∈ catalog.servedCandidates served need ∧
    ∀ other ∈ catalog.servedCandidates served need,
      ¬ (spec.price < other.price ∨ (other.price = spec.price ∧ other.id < spec.id))

/-- Two models neither of which is dearer are one. -/
theorem eq_of_level (catalog : Catalog) {a b : ModelSpec} (ha : a ∈ catalog.models)
    (hb : b ∈ catalog.models) (hab : dearer a b = false) (hba : dearer b a = false) : a = b := by
  rw [← Bool.not_eq_true, dearer_iff, not_or, not_and] at hab hba
  have hprice : a.price = b.price := le_antisymm (not_lt.mp hab.1) (not_lt.mp hba.1)
  have hid : a.id = b.id :=
    le_antisymm (not_lt.mp (hba.2 hprice.symm)) (not_lt.mp (hab.2 hprice))
  exact Keyed.eq_of_key_eq catalog.sorted ha hb hid

theorem dearestServed_eq_some_iff (catalog : Catalog) (served : List String) (need : Requirements)
    (spec : ModelSpec) :
    catalog.dearestServed served need = some spec ↔ catalog.Dearest served need spec := by
  have hlevel : ∀ a ∈ catalog.servedCandidates served need,
      ∀ b ∈ catalog.servedCandidates served need, dearer a b = false → dearer b a = false → a = b := by
    intro a ha b hb
    exact catalog.eq_of_level ((catalog.mem_servedCandidates_iff served need a).mp ha).1
      ((catalog.mem_servedCandidates_iff served need b).mp hb).1
  have hmax : Extrema.maxBy dearer (catalog.servedCandidates served need) = some spec ↔
      catalog.Dearest served need spec := by
    rw [Extrema.maxBy_eq_some_iff dearer_weakOrder hlevel]
    unfold Dearest
    refine and_congr_right (fun _ => forall₂_congr (fun other _ => ?_))
    rw [← Bool.not_eq_true, dearer_iff]
  unfold dearestServed
  cases served with
  | nil =>
    rw [← hmax]
    rfl
  | cons name served => exact hmax

end Catalog

end OpenAIGateway
