import OpenAIGateway.Catalog
import OpenAIGateway.Numeric
import Mathlib.Data.List.Nodup
import Mathlib.Data.List.Perm.Basic

/-!
The lookups of a catalogue, said in terms of the entries that were put into it.
An id has the last entry put in under it, the index of an upstream name is
exactly the ids whose last entry spells that name, and the walk through the
index finds what a plain scan of the catalogue finds.
-/

set_option linter.all false

namespace OpenAIGateway.Catalog

/-- The spec an id has after these inserts: the last one put in under it. -/
def current (entries : List ModelSpec) (id : ModelId) : Option ModelSpec :=
  entries.reverse.find? (fun spec => decide (spec.id = id))

theorem current_append (entries : List ModelSpec) (spec : ModelSpec) (id : ModelId) :
    current (entries ++ [spec]) id = if id = spec.id then some spec else current entries id := by
  unfold current
  rw [List.reverse_append, List.reverse_singleton, List.singleton_append, List.find?_cons]
  by_cases h : id = spec.id
  · rw [if_pos h, decide_eq_true h.symm]
  · rw [if_neg h, decide_eq_false (fun heq => h heq.symm)]

theorem mem_of_current {entries : List ModelSpec} {id : ModelId} {spec : ModelSpec}
    (h : current entries id = some spec) : spec ∈ entries ∧ spec.id = id := by
  constructor
  · exact List.mem_reverse.mp (List.mem_of_find?_eq_some h)
  · have hid := List.find?_some (p := fun s : ModelSpec => decide (s.id = id)) h
    exact of_decide_eq_true hid

/-- An insert changes what its own id has, and nothing else. -/
theorem get_insert (catalog : Catalog) (spec : ModelSpec) (id : ModelId) :
    (catalog.insert spec).get id = if id = spec.id then some spec else catalog.get id :=
  Keyed.get?_insert catalog.sorted

theorem get_fromEntries (entries : List ModelSpec) (id : ModelId) :
    (fromEntries entries).get id = current entries id := by
  induction entries using List.reverseRecOn with
  | nil => rfl
  | append_singleton entries spec ih =>
    have hsnoc : fromEntries (entries ++ [spec]) = (fromEntries entries).insert spec := by
      unfold fromEntries
      rw [List.foldl_append]
      rfl
    rw [hsnoc, get_insert, current_append, ih]

theorem mem_byUpstream_iff (catalog : Catalog) (name : String) (id : ModelId) :
    id ∈ catalog.byUpstream name ↔ ∃ spec, catalog.get id = some spec ∧ spec.upstreamName = name := by
  rw [catalog.indexed]
  constructor
  · rintro ⟨spec, hmem, hid, hname⟩
    exact ⟨spec, (catalog.get_eq_some_iff id spec).mpr ⟨hmem, hid⟩, hname⟩
  · rintro ⟨spec, hget, hname⟩
    obtain ⟨hmem, hid⟩ := (catalog.get_eq_some_iff id spec).mp hget
    exact ⟨spec, hmem, hid, hname⟩

theorem mem_models_iff (catalog : Catalog) (spec : ModelSpec) :
    spec ∈ catalog.models ↔ catalog.get spec.id = some spec := by
  rw [get_eq_some_iff]
  exact ⟨fun h => ⟨h, rfl⟩, fun h => h.1⟩

/-- A built-in's model that an upstream name could mean. -/
def BuiltInNamed (catalog : Catalog) (name : String) (spec : ModelSpec) : Prop :=
  catalog.get spec.id = some spec ∧ spec.upstreamName = name ∧ spec.provider.isCustom = false

theorem nodup_upstreamModels (catalog : Catalog) (name : String) :
    (catalog.upstreamModels name).Nodup := by
  unfold upstreamModels
  apply (catalog.once name).filterMap
  intro id id' spec hget hget'
  rw [Option.mem_def] at hget hget'
  exact (id_eq_of_get hget).symm.trans (id_eq_of_get hget')

/-- The built-ins' models under an upstream name, as the fallback of `resolve` walks them. -/
def builtInModels (catalog : Catalog) (name : String) : List ModelSpec :=
  (catalog.upstreamModels name).filter (fun spec => !spec.provider.isCustom)

theorem mem_builtInModels_iff (catalog : Catalog) (name : String) (spec : ModelSpec) :
    spec ∈ catalog.builtInModels name ↔ catalog.BuiltInNamed name spec := by
  unfold builtInModels BuiltInNamed
  rw [List.mem_filter, mem_upstreamModels_iff, mem_models_iff, Bool.not_eq_true', and_assoc]

/-- A list without repetitions is one value exactly when that value is all its members. -/
theorem eq_singleton_iff_of_nodup {α : Type*} {xs : List α} (h : xs.Nodup) (x : α) :
    xs = [x] ↔ x ∈ xs ∧ ∀ y ∈ xs, y = x := by
  constructor
  · intro heq
    subst heq
    exact ⟨List.mem_singleton_self x, fun y hy => List.mem_singleton.mp hy⟩
  · rintro ⟨hmem, hall⟩
    have hrep : xs = List.replicate xs.length x := List.eq_replicate_iff.mpr ⟨rfl, hall⟩
    have hone : xs.length = 1 := by
      have hpos := List.length_pos_of_mem hmem
      rw [hrep, List.nodup_replicate] at h
      omega
    rw [hrep, hone]
    rfl

/-- The exact id, or the one built-in's model of that upstream name. -/
theorem resolve_eq_some_iff (catalog : Catalog) (name : String) (spec : ModelSpec) :
    catalog.resolve name = some spec ↔
      catalog.get name = some spec ∨
        (catalog.get name = none ∧ catalog.BuiltInNamed name spec ∧
          ∀ other, catalog.BuiltInNamed name other → other = spec) := by
  have hnodup : (catalog.builtInModels name).Nodup := (catalog.nodup_upstreamModels name).filter _
  have hone := eq_singleton_iff_of_nodup hnodup spec
  simp only [mem_builtInModels_iff] at hone
  unfold resolve
  cases hget : catalog.get name with
  | some exactly => simp
  | none =>
    have hbuiltIn : (catalog.upstreamModels name).filter (fun spec => !spec.provider.isCustom) =
        catalog.builtInModels name := rfl
    simp only [reduceCtorEq, true_and, false_or]
    rw [← hone, hbuiltIn]
    cases catalog.builtInModels name with
    | nil => simp
    | cons first rest =>
      cases rest with
      | nil => simp
      | cons second rest => simp

/-- The index after any inserts, and what a name then resolves to: the id it
is, or else the one built-in's model whose last entry spells it. -/
theorem index_and_resolve (entries : List ModelSpec) (name : String) :
    ((fromEntries entries).byUpstream name).Nodup ∧
      (∀ id, id ∈ (fromEntries entries).byUpstream name ↔
        ∃ spec, current entries id = some spec ∧ spec.upstreamName = name) ∧
      ∀ spec, (fromEntries entries).resolve name = some spec ↔
        current entries name = some spec ∨
          (current entries name = none ∧
            (current entries spec.id = some spec ∧ spec.upstreamName = name ∧
              spec.provider.isCustom = false) ∧
            ∀ other, current entries other.id = some other → other.upstreamName = name →
              other.provider.isCustom = false → other = spec) := by
  refine ⟨(fromEntries entries).once name, ?_, ?_⟩
  · intro id
    simp only [mem_byUpstream_iff, get_fromEntries]
  · intro spec
    rw [resolve_eq_some_iff]
    unfold BuiltInNamed
    simp only [get_fromEntries, and_imp]

/-- A model that the baseline may be: served, able to do the request, and priced. -/
def Reachable (catalog : Catalog) (served : List String) (need : Requirements)
    (spec : ModelSpec) : Prop :=
  spec ∈ catalog.models ∧ spec.upstreamName ∈ served ∧ spec.satisfies need = true ∧
    priced spec = true

/-- The baseline by a walk of the whole catalogue. -/
def scan (catalog : Catalog) (served : List String) (need : Requirements) : Option ModelSpec :=
  Extrema.maxBy dearer (catalog.models.filter (fun spec =>
    decide (spec.upstreamName ∈ served) && spec.satisfies need && priced spec))

/-- The dearest reachable model, by the smallest id where prices tie. -/
theorem dearestServed_iff (catalog : Catalog) (served : List String) (need : Requirements)
    (spec : ModelSpec) :
    catalog.dearestServed served need = some spec ↔
      catalog.Reachable served need spec ∧ ∀ other, catalog.Reachable served need other →
        other.price < spec.price ∨ (other.price = spec.price ∧ spec.id ≤ other.id) := by
  rw [dearestServed_eq_some_iff]
  unfold Dearest
  simp only [mem_servedCandidates_iff]
  refine and_congr_right (fun _ => forall₂_congr (fun other _ => ?_))
  constructor
  · intro h
    rw [not_or, not_lt, not_and, not_lt] at h
    rcases lt_or_eq_of_le h.1 with hlt | heq
    · exact Or.inl hlt
    · exact Or.inr ⟨heq, h.2 heq⟩
  · intro h
    rcases h with hlt | ⟨heq, hle⟩
    · rintro (hgt | ⟨heq, -⟩)
      · exact absurd hgt (not_lt_of_gt hlt)
      · exact absurd heq (ne_of_lt hlt)
    · rintro (hgt | ⟨-, hlt⟩)
      · exact absurd heq (ne_of_gt hgt)
      · exact absurd hlt (not_lt_of_ge hle)

theorem mem_scanned_iff (catalog : Catalog) (served : List String) (need : Requirements)
    (spec : ModelSpec) :
    spec ∈ catalog.models.filter (fun spec =>
        decide (spec.upstreamName ∈ served) && spec.satisfies need && priced spec) ↔
      catalog.Reachable served need spec := by
  unfold Reachable
  rw [List.mem_filter, Bool.and_eq_true, Bool.and_eq_true, decide_eq_true_eq, and_assoc]

/-- The walk through the index and the walk of the catalogue find one model. -/
theorem dearestServed_eq_scan (catalog : Catalog) (served : List String) (need : Requirements) :
    catalog.dearestServed served need = catalog.scan served need := by
  apply Option.ext
  intro spec
  have hlevel : ∀ a ∈ catalog.models.filter (fun spec =>
        decide (spec.upstreamName ∈ served) && spec.satisfies need && priced spec),
      ∀ b ∈ catalog.models.filter (fun spec =>
        decide (spec.upstreamName ∈ served) && spec.satisfies need && priced spec),
      dearer a b = false → dearer b a = false → a = b := by
    intro a ha b hb
    exact catalog.eq_of_level (List.mem_of_mem_filter ha) (List.mem_of_mem_filter hb)
  unfold scan
  rw [Extrema.maxBy_eq_some_iff dearer_weakOrder hlevel, dearestServed_eq_some_iff]
  unfold Dearest
  simp only [mem_servedCandidates_iff, mem_scanned_iff, Reachable, ← Bool.not_eq_true, dearer_iff]

theorem dearestServed_eq_none_iff (catalog : Catalog) (served : List String)
    (need : Requirements) :
    catalog.dearestServed served need = none ↔ ∀ spec, ¬ catalog.Reachable served need spec := by
  rw [dearestServed_eq_scan, scan, Extrema.maxBy_eq_none_iff, List.eq_nil_iff_forall_not_mem]
  exact forall_congr' (fun spec => not_congr (catalog.mem_scanned_iff served need spec))

/-- Prices as their columns hold them are summed without rounding, so the order of
the sums is the order of the prices. -/
theorem price_added (A : Arithmetic) {spec : ModelSpec} {input output : Numeric 12 6}
    (hinput : spec.pricing.inputPerMtok = input.toDecimal)
    (houtput : spec.pricing.outputPerMtok = output.toDecimal) :
    ∃ d, A.add spec.pricing.inputPerMtok spec.pricing.outputPerMtok = some d ∧ d.val = spec.price := by
  unfold ModelSpec.price
  rw [hinput, houtput]
  exact input.add_exact A output (by omega) (by omega)

/-- Two catalogues with the same models, asked for the same names, have one baseline. -/
theorem dearestServed_congr {catalog catalog' : Catalog} {served served' : List String}
    (hget : ∀ id, catalog'.get id = catalog.get id) (hserved : ∀ name, name ∈ served' ↔ name ∈ served)
    (need : Requirements) :
    catalog'.dearestServed served' need = catalog.dearestServed served need := by
  have hreach : ∀ spec, catalog'.Reachable served' need spec ↔ catalog.Reachable served need spec := by
    intro spec
    unfold Reachable
    rw [mem_models_iff, mem_models_iff, hget, hserved]
  apply Option.ext
  intro spec
  simp only [dearestServed_iff, hreach]

/-- Where no id is put in twice, the order of the inserts is no matter. -/
theorem current_perm {entries entries' : List ModelSpec} (hperm : entries'.Perm entries)
    (hids : (entries.map ModelSpec.id).Nodup) (id : ModelId) :
    current entries' id = current entries id := by
  have hcurrent : ∀ xs : List ModelSpec, (xs.map ModelSpec.id).Nodup → ∀ spec,
      current xs id = some spec ↔ spec ∈ xs ∧ spec.id = id := by
    intro xs hxs spec
    refine ⟨mem_of_current, ?_⟩
    rintro ⟨hmem, hid⟩
    cases hfind : current xs id with
    | none =>
      have hno := List.find?_eq_none.mp hfind spec (List.mem_reverse.mpr hmem)
      exact absurd (decide_eq_true hid) hno
    | some other =>
      obtain ⟨hother, hid'⟩ := mem_of_current hfind
      rw [List.inj_on_of_nodup_map hxs hother hmem (hid'.trans hid.symm)]
  apply Option.ext
  intro spec
  rw [hcurrent entries' ((hperm.map ModelSpec.id).nodup_iff.mpr hids), hcurrent entries hids,
    hperm.mem_iff]

/-- The baseline among the served models is the plain scan's: the dearest that
can do the request and has a price, by the smallest id where prices tie, and
none exactly when there is none. Neither the order in which the served names
come nor the order in which the models were put in has a part in it. -/
theorem dearest_served (catalog : Catalog) (served : List String) (need : Requirements) :
    catalog.dearestServed served need = catalog.scan served need ∧
      (∀ spec, catalog.dearestServed served need = some spec ↔
        catalog.Reachable served need spec ∧ ∀ other, catalog.Reachable served need other →
          other.price < spec.price ∨ (other.price = spec.price ∧ spec.id ≤ other.id)) ∧
      (catalog.dearestServed served need = none ↔
        ∀ spec, ¬ catalog.Reachable served need spec) ∧
      (∀ served', (∀ name, name ∈ served' ↔ name ∈ served) →
        catalog.dearestServed served' need = catalog.dearestServed served need) ∧
      ∀ entries entries', entries'.Perm entries → (entries.map ModelSpec.id).Nodup →
        (fromEntries entries').dearestServed served need =
          (fromEntries entries).dearestServed served need := by
  refine ⟨catalog.dearestServed_eq_scan served need, catalog.dearestServed_iff served need,
    catalog.dearestServed_eq_none_iff served need, ?_, ?_⟩
  · intro served' hserved
    exact dearestServed_congr (fun _ => rfl) hserved need
  · intro entries entries' hperm hids
    apply dearestServed_congr _ (fun _ => Iff.rfl) need
    intro id
    rw [get_fromEntries, get_fromEntries, current_perm hperm hids]

end OpenAIGateway.Catalog
