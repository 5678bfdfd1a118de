import OpenAIGateway.SystemOne

/-!
Which host a System One request goes to. A registered endpoint is asked only by
the id of one of its rows, or by its own name and one of its rows' upstream
names, and either way a row of it prices the answer.
-/

set_option linter.all false

namespace OpenAIGateway.SystemOne

variable {catalog : Catalog} {hosts : List Provider} {target : Target}

/-- The catalogue System One resolves in: Jev's rows and endpoints', each filed under its
provider's name. -/
structure Filed (catalog : Catalog) : Prop where
  systemOne : ∀ spec ∈ catalog.models,
    spec.provider = .jev ∨ ∃ endpoint, spec.provider = .custom endpoint
  filed : ∀ spec ∈ catalog.models, ∃ name, spec.id = spec.provider.asStr ++ "/" ++ name

/-- A row carries the request: to the row's provider, by the row's own name. -/
structure Carries (catalog : Catalog) (asked : String) (target : Target) (spec : ModelSpec) :
    Prop where
  row : spec ∈ catalog.models
  provider : target.provider = spec.provider
  carried : target.spec = some spec
  sent : target.upstreamModel.getD asked = spec.upstreamName

/-- A name with no provider in it, or with Jev's. -/
def NamesJev (asked : String) : Prop :=
  '/' ∉ asked.toList ∨
    ∃ vendor name, asked = vendor ++ "/" ++ name ∧ Provider.builtin vendor = some .jev

theorem splitOnce_slash {asked vendor name : String}
    (h : Split.splitOnce '/' asked = some (vendor, name)) : asked = vendor ++ "/" ++ name := by
  obtain ⟨htext, -⟩ := Split.splitOnce_eq_some_iff.mp h
  apply String.toList_inj.mp
  rw [htext]
  simp

theorem notMem_of_splitOnce {asked : String} (h : Split.splitOnce '/' asked = none) :
    '/' ∉ asked.toList := by
  unfold Split.splitOnce at h
  exact Split.first_eq_none_iff.mp (Option.map_eq_none_iff.mp h)

theorem hostNamed_eq_some {name : String} {host : Provider}
    (h : hostNamed hosts name = some host) : host = .custom name := by
  have hnamed := List.find?_some h
  rw [Bool.and_eq_true, beq_iff_eq] at hnamed
  cases host with
  | custom endpoint => exact congrArg Provider.custom hnamed.2
  | _ => exact absurd hnamed.1 (by decide)

/-- A row found by its id carries the request. -/
theorem carries_of_get {asked : String} {spec : ModelSpec} (h : catalog.get asked = some spec) :
    Carries catalog asked ⟨spec.provider,
      if spec.upstreamName ≠ asked then some spec.upstreamName else none, some spec⟩ spec where
  row := ((catalog.get_eq_some_iff asked spec).mp h).1
  provider := rfl
  carried := rfl
  sent := by
    split
    next => rfl
    next hsame => exact (not_not.mp hsame).symm

/-- The five rules: a row carries the request, or Jev is asked by the name as it arrived, or the
request is refused. -/
theorem resolve_cases (asked : String) (catalog : Catalog) (hosts : List Provider) :
    (∃ target spec, resolve (some asked) catalog hosts = .ok target ∧
      Carries catalog asked target spec ∧
      (asked = spec.id ∨ ∃ endpoint, spec.provider = .custom endpoint ∧
        asked = endpoint ++ "/" ++ spec.upstreamName)) ∨
    (resolve (some asked) catalog hosts = .ok jev ∧ NamesJev asked) ∨
    ∃ text, resolve (some asked) catalog hosts = .error (.noViableModel text) := by
  cases hget : catalog.get asked with
  | some spec =>
    have hid := Catalog.id_eq_of_get hget
    refine .inl ⟨_, spec, ?_, carries_of_get hget, .inl hid.symm⟩
    simp only [resolve, hget]
  | none =>
    cases hsplit : Split.splitOnce '/' asked with
    | none =>
      refine .inr (.inl ⟨?_, .inl (notMem_of_splitOnce hsplit)⟩)
      simp only [resolve, hget, hsplit]
    | some parts =>
      obtain ⟨vendor, name⟩ := parts
      have hasked := splitOnce_slash hsplit
      cases hhost : hostNamed hosts vendor with
      | some host =>
        obtain rfl := hostNamed_eq_some hhost
        cases hfound : catalog.models.find?
            (fun s => s.provider = .custom vendor ∧ s.upstreamName = name) with
        | none =>
          have hrefused : resolve (some asked) catalog hosts =
              .error (unpricedModel asked vendor name) := by
            simp only [resolve, hget, hsplit, hhost, hfound]
          exact .inr (.inr ⟨_, hrefused⟩)
        | some spec =>
          have hrow := List.mem_of_find?_eq_some hfound
          obtain ⟨hprovider, hname⟩ :
              spec.provider = .custom vendor ∧ spec.upstreamName = name := by
            simpa using List.find?_some hfound
          refine .inl ⟨⟨.custom vendor, some name, some spec⟩, spec, ?_,
            ⟨hrow, hprovider.symm, rfl, hname.symm⟩, .inr ⟨vendor, hprovider, ?_⟩⟩
          · simp only [resolve, hget, hsplit, hhost, hfound]
          · rw [hasked, hname]
      | none =>
        by_cases hjev : Provider.builtin vendor = some .jev
        · refine .inr (.inl ⟨?_, .inr ⟨vendor, name, hasked, hjev⟩⟩)
          simp only [resolve, hget, hsplit, hhost, if_pos hjev]
        · have hrefused : resolve (some asked) catalog hosts = .error (notServed asked) := by
            simp only [resolve, hget, hsplit, hhost, if_neg hjev]
          exact .inr (.inr ⟨_, hrefused⟩)

/-- An answer of an endpoint's is priced by a row filed under the endpoint. -/
theorem priced_of_carried (hcatalog : Filed catalog) {asked endpoint : String} {spec : ModelSpec}
    (h : Carries catalog asked target spec) (hprovider : target.provider = .custom endpoint)
    (reported : String) :
    priced catalog target.provider reported target.spec ∈ catalog.models ∧
      ∃ name, (priced catalog target.provider reported target.spec).id =
        endpoint ++ "/" ++ name := by
  rw [hprovider, h.carried]
  cases hget : catalog.get ((Provider.custom endpoint).asStr ++ "/" ++ reported) with
  | some found =>
    obtain ⟨hmem, hid⟩ := (catalog.get_eq_some_iff _ found).mp hget
    have hpriced : priced catalog (.custom endpoint) reported (some spec) = found := by
      simp only [priced, hget, Option.some_or, Option.getD_some]
    rw [hpriced]
    exact ⟨hmem, reported, hid⟩
  | none =>
    have hpriced : priced catalog (.custom endpoint) reported (some spec) = spec := by
      simp only [priced, hget, Option.none_or, Option.getD_some]
    obtain ⟨name, hname⟩ := hcatalog.filed spec h.row
    rw [← h.provider, hprovider] at hname
    rw [hpriced]
    exact ⟨h.row, name, hname⟩

/-- A request goes to an endpoint by a row of the endpoint's, which prices whatever it answers;
to Jev without a model, by a row of Jev's, or by a name that is no other provider's; and
nowhere else. -/
theorem resolve_goes_where_named (model : Option String) (catalog : Catalog)
    (hosts : List Provider) (hcatalog : Filed catalog) :
    (∃ target endpoint asked spec, resolve model catalog hosts = .ok target ∧
      target.provider = .custom endpoint ∧ model = some asked ∧
      Carries catalog asked target spec ∧
      (asked = spec.id ∨ asked = endpoint ++ "/" ++ spec.upstreamName) ∧
      ∀ reported, priced catalog target.provider reported target.spec ∈ catalog.models ∧
        ∃ name, (priced catalog target.provider reported target.spec).id =
          endpoint ++ "/" ++ name) ∨
    (∃ target, resolve model catalog hosts = .ok target ∧ target.provider = .jev ∧
      (model = none ∨ ∃ asked, model = some asked ∧
        ((∃ spec, Carries catalog asked target spec ∧ asked = spec.id) ∨
          (target = jev ∧ NamesJev asked)))) ∨
    ∃ text, resolve model catalog hosts = .error (.noViableModel text) := by
  cases model with
  | none => exact .inr (.inl ⟨jev, rfl, rfl, .inl rfl⟩)
  | some asked =>
    obtain ⟨target, spec, hok, hcarries, hasked⟩ | ⟨hok, hjev⟩ | hrefused :=
      resolve_cases asked catalog hosts
    · obtain hjev | ⟨endpoint, hcustom⟩ := hcatalog.systemOne spec hcarries.row
      · refine .inr (.inl ⟨target, hok, hcarries.provider.trans hjev, .inr ⟨asked, rfl, ?_⟩⟩)
        obtain hid | ⟨endpoint, hcustom, -⟩ := hasked
        · exact .inl ⟨spec, hcarries, hid⟩
        · rw [hjev] at hcustom
          exact absurd hcustom (by simp)
      · have hprovider := hcarries.provider.trans hcustom
        refine .inl ⟨target, endpoint, asked, spec, hok, hprovider, rfl, hcarries, ?_,
          priced_of_carried hcatalog hcarries hprovider⟩
        obtain hid | ⟨other, hother, hname⟩ := hasked
        · exact .inl hid
        · obtain rfl : endpoint = other := Provider.custom.inj (hcustom.symm.trans hother)
          exact .inr hname
    · exact .inr (.inl ⟨jev, hok, rfl, .inr ⟨asked, rfl, .inr ⟨rfl, hjev⟩⟩⟩)
    · exact .inr (.inr hrefused)

/-- A model of Jev's that an endpoint sells, whose name has a slash of its own. -/
def resoldJev : ModelSpec where
  id := "merge/typesafe/jev-1.13"
  provider := .custom "merge"
  upstreamName := "typesafe/jev-1.13"
  pricing := ⟨.new 1 0, .new 5 0, none, none⟩
  contextWindow := 200000
  maxOutputTokens := 64000

theorem filed_resoldJev : Filed (.fromEntries [resoldJev]) where
  systemOne := by
    intro spec hspec
    obtain rfl := List.mem_singleton.mp hspec
    exact .inr ⟨"merge", rfl⟩
  filed := by
    intro spec hspec
    obtain rfl := List.mem_singleton.mp hspec
    exact ⟨"typesafe/jev-1.13", rfl⟩

/-- The endpoint may report a name no row spells. -/
theorem resoldJev_priced :
    Filed (.fromEntries [resoldJev]) ∧
      ∃ target, resolve (some "merge/typesafe/jev-1.13") (.fromEntries [resoldJev])
          [.custom "merge"] = .ok target ∧
        ∀ reported, priced (.fromEntries [resoldJev]) target.provider reported target.spec ∈
          (Catalog.fromEntries [resoldJev]).models := by
  refine ⟨filed_resoldJev, ?_⟩
  have hresolved : resolve (some "merge/typesafe/jev-1.13") (.fromEntries [resoldJev])
      [.custom "merge"] = .ok ⟨.custom "merge", some "typesafe/jev-1.13", some resoldJev⟩ := rfl
  obtain ⟨target, endpoint, asked, spec, hok, -, -, -, -, hpriced⟩ | ⟨target, hok, hjev, -⟩ |
      ⟨text, hrefused⟩ :=
    resolve_goes_where_named (some "merge/typesafe/jev-1.13") (.fromEntries [resoldJev])
      [.custom "merge"] filed_resoldJev
  · exact ⟨target, hok, fun reported => (hpriced reported).1⟩
  · obtain rfl := Except.ok.inj (hresolved.symm.trans hok)
    exact absurd hjev (by decide)
  · exact absurd (hresolved.symm.trans hrefused) (by simp)

end OpenAIGateway.SystemOne
