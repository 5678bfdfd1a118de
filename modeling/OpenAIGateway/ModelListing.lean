import OpenAIGateway.ManagedRouting

/-!
The listing against the decision: whether a model marked as honoured is the
one a request that names it is decided onto.
-/

set_option linter.all false

namespace OpenAIGateway.RoutingPolicy

open TierLadder (clampToFloor floorRank specs)

section Entries

variable (catalog : Catalog) (providers : Provider → Bool) (honoured : Bool)

/-- A rung adds entries for its own models alone, and every one it may name is listed after it. -/
theorem rungEntitled_spec (rung : Rung) (out : List Entitlement) :
    (∀ e ∈ rungEntitled catalog providers honoured rung out,
      e ∈ out ∨ (e.spec ∈ specs catalog rung ∧ e.honoured = honoured)) ∧
    (∀ e ∈ out, e ∈ rungEntitled catalog providers honoured rung out) ∧
    (∀ spec ∈ specs catalog rung, providers spec.provider = true →
      ∃ e ∈ rungEntitled catalog providers honoured rung out, e.spec.id = spec.id) := by
  unfold rungEntitled
  induction specs catalog rung generalizing out with
  | nil => simp
  | cons spec rest ih =>
    rw [List.foldl_cons]
    set out' := if !providers spec.provider || out.any (fun e => e.spec.id == spec.id) then out
      else out ++ [⟨spec, some rung.name, honoured⟩] with hout'
    obtain ⟨hsound, hmono, hcomplete⟩ := ih out'
    have hadd : ∀ e ∈ out', e ∈ out ∨ (e.spec = spec ∧ e.honoured = honoured) := by
      intro e he
      rw [hout'] at he
      split_ifs at he
      · exact Or.inl he
      · rcases List.mem_append.mp he with he | he
        · exact Or.inl he
        · rw [List.mem_singleton.mp he]
          exact Or.inr ⟨rfl, rfl⟩
    have hkeep : ∀ e ∈ out, e ∈ out' := by
      intro e he
      rw [hout']
      split_ifs
      · exact he
      · exact List.mem_append_left _ he
    refine ⟨?_, fun e he => hmono e (hkeep e he), ?_⟩
    · intro e he
      rcases hsound e he with he | ⟨hmem, hhon⟩
      · rcases hadd e he with he | ⟨hspec, hhon⟩
        · exact Or.inl he
        · exact Or.inr ⟨by rw [hspec]; exact List.mem_cons_self, hhon⟩
      · exact Or.inr ⟨List.mem_cons_of_mem _ hmem, hhon⟩
    · intro spec' hmem hprov
      rcases List.mem_cons.mp hmem with heq | hmem
      · subst heq
        by_cases hseen : out.any (fun e => e.spec.id == spec'.id) = true
        · obtain ⟨e, he, hid⟩ := List.any_eq_true.mp hseen
          exact ⟨e, hmono e (hkeep e he), by simpa using hid⟩
        · refine ⟨⟨spec', some rung.name, honoured⟩, hmono _ ?_, rfl⟩
          rw [hout', if_neg (by simp [hprov, hseen])]
          simp
      · exact hcomplete spec' hmem hprov

/-- The passes over some rungs, from what is listed already. -/
theorem foldl_rungEntitled_spec (rungs : List Rung) (out : List Entitlement) :
    let result := rungs.foldl (fun out rung => rungEntitled catalog providers honoured rung out) out
    (∀ e ∈ result, e ∈ out ∨ ((∃ rung ∈ rungs, e.spec ∈ specs catalog rung) ∧
      e.honoured = honoured)) ∧
    (∀ e ∈ out, e ∈ result) ∧
    (∀ rung ∈ rungs, ∀ spec ∈ specs catalog rung, providers spec.provider = true →
      ∃ e ∈ result, e.spec.id = spec.id) := by
  induction rungs generalizing out with
  | nil => simp
  | cons rung rungs ih =>
    obtain ⟨hsound, hmono, hcomplete⟩ := ih (rungEntitled catalog providers honoured rung out)
    obtain ⟨hrsound, hrmono, hrcomplete⟩ := rungEntitled_spec catalog providers honoured rung out
    refine ⟨?_, fun e he => hmono e (hrmono e he), ?_⟩
    · intro e he
      rcases hsound e he with he | ⟨⟨rung', hrung', hspec⟩, hhon⟩
      · rcases hrsound e he with he | ⟨hspec, hhon⟩
        · exact Or.inl he
        · exact Or.inr ⟨⟨rung, List.mem_cons_self, hspec⟩, hhon⟩
      · exact Or.inr ⟨⟨rung', List.mem_cons_of_mem _ hrung', hspec⟩, hhon⟩
    · intro rung' hrung' spec hspec hprov
      rcases List.mem_cons.mp hrung' with rfl | hrung'
      · obtain ⟨e, he, hid⟩ := hrcomplete spec hspec hprov
        exact ⟨e, hmono e he, hid⟩
      · exact hcomplete rung' hrung' spec hspec hprov

/-- The rungs of a stretch of the ladder that are at or above the floor, with a rank. -/
def servedRungs (policy : RoutingPolicy) (rungs : List (Rung × ℕ)) : List Rung :=
  (rungs.filter (fun p => Decidable.decide (p.2 < 256 ∧ floorRank policy.floor ≤ p.2))).map Prod.fst

/-- The other rungs are passed over. -/
theorem foldl_servedRungs (policy : RoutingPolicy) (rungs : List (Rung × ℕ))
    (out : List Entitlement) :
    rungs.foldl (fun out (rung, i) =>
      match u8TryFrom i with
      | none => out
      | some rank =>
        if rank.val < floorRank policy.floor then out
        else rungEntitled catalog providers honoured rung out) out =
    (policy.servedRungs rungs).foldl
      (fun out rung => rungEntitled catalog providers honoured rung out) out := by
  induction rungs generalizing out with
  | nil => rfl
  | cons pair rungs ih =>
    obtain ⟨rung, i⟩ := pair
    rw [List.foldl_cons, ih]
    unfold servedRungs
    by_cases hrung : i < 256 ∧ floorRank policy.floor ≤ i
    · have hrank : u8TryFrom i = some ⟨i, hrung.1⟩ := u8TryFrom_eq_some_iff.mpr rfl
      simp only [hrank, if_neg (not_lt.mpr hrung.2)]
      rw [List.filter_cons_of_pos (by simpa using hrung), List.map_cons, List.foldl_cons]
    · rw [List.filter_cons_of_neg (by simpa using hrung)]
      cases hrank : u8TryFrom i with
      | none => simp only [hrank]
      | some rank =>
        have hval := u8TryFrom_eq_some_iff.mp hrank
        have hlt := rank.isLt
        have hlow : rank.val < floorRank policy.floor := by omega
        simp only [hrank, if_pos hlow]

end Entries

/-- A rung at or above the floor lists this model. -/
def OnServedRung (policy : RoutingPolicy) (id : ModelId) : Prop :=
  ∃ rung r, policy.ladder.rungs[r]? = some rung ∧ r < 256 ∧ floorRank policy.floor ≤ r ∧
    id ∈ rung.models

/-- A rung below the floor lists this model. -/
def OnLowerRung (policy : RoutingPolicy) (id : ModelId) : Prop :=
  ∃ rung r, policy.ladder.rungs[r]? = some rung ∧ r < floorRank policy.floor ∧ id ∈ rung.models

theorem onServedRung_iff (policy : RoutingPolicy) (id : ModelId) :
    policy.OnServedRung id ↔
      ∃ rung ∈ policy.servedRungs policy.ladder.rungs.zipIdx, id ∈ rung.models := by
  unfold OnServedRung servedRungs
  constructor
  · intro h
    obtain ⟨rung, r, hrung, hr, hfloor, hid⟩ := h
    refine ⟨rung, List.mem_map.mpr ⟨(rung, r), List.mem_filter.mpr ⟨?_, ?_⟩, rfl⟩, hid⟩
    · exact List.mem_zipIdx_iff_getElem?.mpr hrung
    · simpa using ⟨hr, hfloor⟩
  · intro h
    obtain ⟨rung, hmem, hid⟩ := h
    obtain ⟨⟨rung', r⟩, hpair, rfl⟩ := List.mem_map.mp hmem
    obtain ⟨hzip, hserved⟩ := List.mem_filter.mp hpair
    obtain ⟨hr, hfloor⟩ := of_decide_eq_true hserved
    exact ⟨rung', r, List.mem_zipIdx_iff_getElem?.mp hzip, hr, hfloor, hid⟩

/-- In passthrough an entry is honoured when its model is on a rung at or above
the floor, or when the floor excludes no rung. -/
theorem entitled_honoured_iff {policy : RoutingPolicy} {catalog : Catalog}
    {providers : Provider → Bool} {pressure : BudgetPressure} {e : Entitlement}
    (he : e ∈ policy.entitled .passthrough catalog providers pressure) :
    pressure ≠ .exhausted ∧ e.spec ∈ catalog.models ∧
      (e.honoured = true ↔ policy.OnServedRung e.spec.id ∨ floorRank policy.floor = 0) := by
  unfold entitled at he
  by_cases hpressure : pressure = .exhausted
  · rw [if_pos hpressure] at he
    cases he
  · rw [if_neg hpressure] at he
    refine ⟨hpressure, ?_⟩
    have hladder := foldl_servedRungs catalog providers true policy policy.ladder.rungs.zipIdx []
    obtain ⟨hsound, -, hcomplete⟩ := foldl_rungEntitled_spec catalog providers true
      (policy.servedRungs policy.ladder.rungs.zipIdx) []
    rw [← hladder] at hsound hcomplete
    rcases List.mem_append.mp he with he | he
    · rcases hsound e he with he | ⟨⟨rung, hrung, hspec⟩, hhon⟩
      · cases he
      · obtain ⟨hmem, hid⟩ := (TierLadder.mem_specs_iff catalog rung e.spec).mp hspec
        have hon := (policy.onServedRung_iff e.spec.id).mpr ⟨rung, hrung, hid⟩
        exact ⟨hmem, fun _ => Or.inl hon, fun _ => hhon⟩
    · obtain ⟨spec, hspec, rfl⟩ := List.mem_map.mp he
      obtain ⟨hmem, hfilter⟩ := List.mem_filter.mp hspec
      obtain ⟨hprov, hnew⟩ := Bool.and_eq_true_iff.mp hfilter
      refine ⟨hmem, ?_⟩
      have hoff : ¬ policy.OnServedRung spec.id := by
        intro hon
        obtain ⟨rung, hrung, hid⟩ := (policy.onServedRung_iff spec.id).mp hon
        obtain ⟨e, he, hid⟩ := hcomplete rung hrung spec
          ((TierLadder.mem_specs_iff catalog rung spec).mpr ⟨hmem, hid⟩) hprov
        rw [Bool.not_eq_true'] at hnew
        have hany := List.any_eq_false.mp hnew e he
        exact hany (by simpa using hid)
      simp [hoff]

/-- The first rung a model is on is below every other rung it is on. -/
theorem tierOf_eq_some {policy : RoutingPolicy} {id : ModelId} {tier : Tier}
    (h : policy.tierOf id = some tier) :
    (∃ rung, policy.ladder.rungs[tier.rank.val]? = some rung ∧ id ∈ rung.models) ∧
      ∀ r rung, policy.ladder.rungs[r]? = some rung → id ∈ rung.models → tier.rank.val ≤ r := by
  unfold tierOf at h
  obtain ⟨i, hfind, h⟩ := Option.bind_eq_some_iff.mp h
  obtain ⟨rung, hrung, h⟩ := Option.bind_eq_some_iff.mp h
  obtain ⟨rank, hrank, rfl⟩ := Option.map_eq_some_iff.mp h
  obtain rfl : rank.val = i := u8TryFrom_eq_some_iff.mp hrank
  obtain ⟨hlt, hmem, hbefore⟩ := List.findIdx?_eq_some_iff_getElem.mp hfind
  have hget := List.getElem?_eq_getElem hlt
  refine ⟨⟨_, hget, by simpa using hmem⟩, ?_⟩
  intro r rung' hrung' hid
  by_contra hlow
  have hr : r < rank.val := not_le.mp hlow
  have hno := hbefore r hr
  obtain ⟨hlen, heq⟩ := List.getElem?_eq_some_iff.mp hrung'
  rw [heq] at hno
  simp [hid] at hno

theorem tierOf_eq_none {policy : RoutingPolicy} {id : ModelId} (h : policy.tierOf id = none)
    {r : ℕ} {rung : Rung} (hrung : policy.ladder.rungs[r]? = some rung) (hr : r < 256) :
    id ∉ rung.models := by
  intro hid
  unfold tierOf at h
  obtain ⟨hlen, heq⟩ := List.getElem?_eq_some_iff.mp hrung
  cases hfind : policy.ladder.rungs.findIdx? (fun r => Decidable.decide (id ∈ r.models)) with
  | none =>
    have hno := List.findIdx?_eq_none_iff.mp hfind rung (heq ▸ List.getElem_mem hlen)
    simp [hid] at hno
  | some i =>
    obtain ⟨hi, hmem, hbefore⟩ := List.findIdx?_eq_some_iff_getElem.mp hfind
    have hle : i ≤ r := by
      by_contra hlt
      have hno := hbefore r (not_le.mp hlt)
      rw [heq] at hno
      simp [hid] at hno
    have hrank : u8TryFrom i = some ⟨i, by omega⟩ := u8TryFrom_eq_some_iff.mpr rfl
    simp [hfind, List.getElem?_eq_getElem hi, hrank] at h

/-- A capable model that a walk comes to is on a rung of that walk. -/
theorem FirstCapable.mem {policy : RoutingPolicy} {catalog : Catalog} {need : Requirements} {r : ℕ}
    {spec : ModelSpec} (h : policy.FirstCapable catalog need r spec) :
    ∃ rung, policy.ladder.rungs[r]? = some rung ∧ spec.id ∈ rung.models := by
  obtain ⟨rung, hrung, before, id, after, heq, hget, -⟩ := h
  refine ⟨rung, hrung, ?_⟩
  rw [heq, Catalog.id_eq_of_get hget]
  simp

/-- Whether a walk from the floor comes to this very model. -/
theorem resolveFrom_eq_model_iff {policy : RoutingPolicy} {catalog : Catalog} {need : Requirements}
    (tier : Tier) (reason : SelectionReason) (ceilingModel : Option ModelSpec) (spec : ModelSpec) :
    (∃ d, policy.resolveFrom tier reason catalog need ceilingModel = .ok d ∧ d.model = spec) ↔
      ∃ r, policy.Lowest catalog need tier.rank.val r spec := by
  rcases resolveFrom_resolves policy catalog need tier reason ceilingModel with
    ⟨d, t, hd, -, -, hlow⟩ | ⟨herr, hnone⟩
  · rw [hd]
    constructor
    · intro h
      obtain ⟨d', hd', hmodel⟩ := h
      obtain rfl : d = d' := Except.ok.inj hd'
      exact ⟨t.rank.val, hmodel ▸ hlow⟩
    · intro h
      obtain ⟨r, h⟩ := h
      exact ⟨d, rfl, (hlow.unique h).2⟩
  · rw [herr]
    constructor
    · intro h
      obtain ⟨d, hd, -⟩ := h
      cases hd
    · intro h
      obtain ⟨r, h⟩ := h
      exact absurd hnone h.not_noneFrom

/-- A named model is honoured outright, unless it is on a rung below the floor
or on none: then the floor's walk decides. -/
theorem decideNamed_cases {policy : RoutingPolicy} {catalog : Catalog} (need : Requirements)
    {name : String} {spec : ModelSpec} (ceilingModel : Option ModelSpec)
    (hname : catalog.resolve name = some spec) :
    (¬ policy.OnLowerRung spec.id ∧ (policy.OnServedRung spec.id ∨ floorRank policy.floor = 0) ∧
      ∃ d, policy.decideNamed name catalog need ceilingModel = .ok d ∧ d.model = spec) ∨
    (0 < floorRank policy.floor ∧ (policy.OnLowerRung spec.id ∨ ¬ policy.OnServedRung spec.id) ∧
      ((∃ d, policy.decideNamed name catalog need ceilingModel = .ok d ∧ d.model = spec) ↔
        ∃ r, policy.Lowest catalog need (floorRank policy.floor) r spec)) := by
  unfold decideNamed
  simp only [hname]
  cases htier : policy.tierOf spec.id with
  | some tier =>
    obtain ⟨⟨rung, hrung, hid⟩, hlowest⟩ := tierOf_eq_some htier
    have hclamp := TierLadder.clampToFloor_rank tier policy.floor
    by_cases hfloor : floorRank policy.floor ≤ tier.rank.val
    · refine Or.inl ⟨?_, Or.inl ⟨rung, tier.rank.val, hrung, tier.rank.isLt, hfloor, hid⟩, ?_⟩
      · intro hlower
        obtain ⟨rung', r, hrung', hr, hid'⟩ := hlower
        have := hlowest r rung' hrung' hid'
        omega
      · have hsame : (clampToFloor tier policy.floor).rank = tier.rank := Fin.ext (by omega)
        simp only [hsame, if_true]
        exact ⟨_, rfl, rfl⟩
    · have hmoved : (clampToFloor tier policy.floor).rank ≠ tier.rank := by
        intro hsame
        rw [hsame] at hclamp
        omega
      refine Or.inr ⟨by omega, Or.inl ⟨rung, tier.rank.val, hrung, by omega, hid⟩, ?_⟩
      simp only [hmoved, if_false]
      rw [resolveFrom_eq_model_iff, hclamp, Nat.max_eq_right (by omega)]
  | none =>
    have hoff : ¬ policy.OnServedRung spec.id := by
      intro hon
      obtain ⟨rung, r, hrung, hr, -, hid⟩ := hon
      exact tierOf_eq_none htier hrung hr hid
    have hlower : ∀ f, policy.floor = some f → ¬ policy.OnLowerRung spec.id := by
      intro f hf hon
      obtain ⟨rung, r, hrung, hr, hid⟩ := hon
      have hrank : floorRank policy.floor = f.rank.val := by rw [hf]; rfl
      have := f.rank.isLt
      exact tierOf_eq_none htier hrung (by omega) hid
    cases hfloor : policy.floor with
    | none =>
      refine Or.inl ⟨?_, Or.inr rfl, _, rfl, rfl⟩
      intro hon
      obtain ⟨rung, r, -, hr, -⟩ := hon
      rw [hfloor] at hr
      exact absurd hr (Nat.not_lt_zero r)
    | some f =>
      have hrank : floorRank (some f) = f.rank.val := rfl
      by_cases hzero : 0 < f.rank.val
      · refine Or.inr ⟨hzero, Or.inr hoff, ?_⟩
        simp only [hzero, if_true, hrank]
        exact resolveFrom_eq_model_iff f .floorPinned ceilingModel spec
      · refine Or.inl ⟨hlower f hfloor, Or.inr (by omega), ?_⟩
        simp only [hzero, if_false]
        exact ⟨_, rfl, rfl⟩

/-- The walk from the floor comes to a capable model other than this one. -/
def Preempted (policy : RoutingPolicy) (catalog : Catalog) (need : Requirements)
    (spec : ModelSpec) : Prop :=
  ∃ r other, policy.Lowest catalog need (floorRank policy.floor) r other ∧ other ≠ spec

/-- In passthrough the listing says of a model what the decision does with a
request that names it, except for a model that is both below and above the
floor when another capable model comes first from the floor up. -/
theorem entitled_agrees_iff (policy : RoutingPolicy) (catalog : Catalog)
    (providers : Provider → Bool) (e : Entitlement) (name : String) (signal : RequestSignal)
    (budget : Budgets) (maxOutputTokens : ℕ) (served : List String)
    (he : e ∈ policy.entitled .passthrough catalog providers budget.pressure)
    (hname : catalog.resolve name = some e.spec)
    (hneed : e.spec.satisfies (signal.requirements maxOutputTokens) = true) :
    (e.honoured = true ↔ ∃ d, policy.decide .passthrough (some name) signal budget catalog
        maxOutputTokens served = .ok d ∧ d.model = e.spec) ↔
      ¬ (policy.OnLowerRung e.spec.id ∧ policy.OnServedRung e.spec.id ∧
        policy.Preempted catalog (signal.requirements maxOutputTokens) e.spec) := by
  obtain ⟨hpressure, hmem, hhonoured⟩ := entitled_honoured_iff he
  have hdecide : policy.decide .passthrough (some name) signal budget catalog maxOutputTokens
      served = policy.decideNamed name catalog (signal.requirements maxOutputTokens)
        (policy.baseline catalog served (signal.requirements maxOutputTokens)) := by
    unfold decide
    rw [if_neg hpressure]
  rw [hdecide, hhonoured]
  generalize signal.requirements maxOutputTokens = need at hneed
  rcases decideNamed_cases need (policy.baseline catalog served need) hname with
    ⟨hlower, hlisted, hmodel⟩ | ⟨hfloor, hplace, hmodel⟩
  · exact ⟨fun _ hbad => hlower hbad.1, fun _ => ⟨fun _ => hmodel, fun _ => hlisted⟩⟩
  · have hzero : ¬ floorRank policy.floor = 0 := by omega
    rw [hmodel, or_iff_left hzero]
    by_cases hon : policy.OnServedRung e.spec.id
    · have hlower : policy.OnLowerRung e.spec.id := hplace.resolve_right (fun h => h hon)
      obtain ⟨rung, r, hrung, hr, hle, hid⟩ := hon
      have hcap : policy.HasCapable catalog need r :=
        ⟨rung, hrung, e.spec.id, hid, e.spec, (catalog.get_eq_some_iff _ _).mpr ⟨hmem, rfl⟩, hneed⟩
      obtain ⟨r', other, hlow⟩ := exists_lowest hle hr hcap
      have hon : policy.OnServedRung e.spec.id := ⟨rung, r, hrung, hr, hle, hid⟩
      constructor
      · intro h hbad
        obtain ⟨r₁, h₁⟩ := h.mp hon
        obtain ⟨r₂, other₂, h₂, hne⟩ := hbad.2.2
        exact hne (h₂.unique h₁).2
      · intro h
        refine ⟨fun _ => ?_, fun _ => hon⟩
        by_cases hother : other = e.spec
        · exact ⟨r', hother ▸ hlow⟩
        · exact absurd ⟨hlower, hon, r', other, hlow, hother⟩ h
    · refine ⟨fun _ hbad => hon hbad.2.1, fun _ => ⟨fun h => absurd h hon, ?_⟩⟩
      intro h
      obtain ⟨r, hlow⟩ := h
      obtain ⟨rung, hrung, hid⟩ := hlow.first.mem
      exact absurd ⟨rung, r, hrung, hlow.rank_lt, hlow.start_le, hid⟩ hon

theorem entitled_agrees_short :
    (⟨onlyModel, some "frontier", true⟩ : Entitlement) ∈
        shortPolicy.entitled .passthrough onlyCatalog (fun _ => true) noBudget.pressure ∧
      ∃ d, shortPolicy.decide .passthrough (some "anthropic/opus") {} noBudget onlyCatalog 100 [] =
        .ok d ∧ d.model = onlyModel := by
  have hlisted : (⟨onlyModel, some "frontier", true⟩ : Entitlement) ∈
      shortPolicy.entitled .passthrough onlyCatalog (fun _ => true) noBudget.pressure := by
    decide +kernel
  refine ⟨hlisted, ((entitled_agrees_iff shortPolicy onlyCatalog (fun _ => true) _
    "anthropic/opus" {} noBudget 100 [] hlisted rfl rfl).mpr ?_).mp rfl⟩
  intro hbad
  obtain ⟨rung, r, -, hr, -⟩ := hbad.1
  exact absurd hr (Nat.not_lt_zero r)

/-- A second model as capable as the first. -/
def otherModel : ModelSpec := { onlyModel with id := "anthropic/sonnet", upstreamName := "sonnet" }

def pairCatalog : Catalog := Catalog.fromEntries [onlyModel, otherModel]

/-- One model on both rungs, behind another on the second. -/
def twiceLadder : TierLadder :=
  .ofRungs ⟨"cheap", ["anthropic/opus"]⟩ [⟨"frontier", ["anthropic/sonnet", "anthropic/opus"]⟩]

/-- A floor on the second rung. -/
def twicePolicy : RoutingPolicy where
  ladder := twiceLadder
  classifier := heuristicClassifier {}
  floor := twiceLadder.tier "frontier"

/-- The listing promises the model and the decision puts another in its place. -/
theorem honoured_model_is_replaced :
    (⟨onlyModel, some "frontier", true⟩ : Entitlement) ∈
        twicePolicy.entitled .passthrough pairCatalog (fun _ => true) noBudget.pressure ∧
      pairCatalog.resolve "anthropic/opus" = some onlyModel ∧
      onlyModel.satisfies (RequestSignal.requirements {} 100) = true ∧
      (twicePolicy.decide .passthrough (some "anthropic/opus") {} noBudget pairCatalog 100
        []).toOption.map RoutingDecision.model = some otherModel ∧
      otherModel ≠ onlyModel :=
  ⟨by decide +kernel, rfl, rfl, rfl, by decide +kernel⟩

end OpenAIGateway.RoutingPolicy
