import OpenAIGateway.RoutingPolicy

/-!
What a managed request is decided onto. The ladder is looked at from outside:
which rungs hold a capable model and which model of a rung comes first. The
walk up returns the first capable model of the lowest such rung from where it
starts, as far as ranks reach.
-/

set_option linter.all false

namespace OpenAIGateway.RoutingPolicy

open TierLadder (clampToFloor floorRank specs)

variable (policy : RoutingPolicy) (catalog : Catalog) (need : Requirements)

/-- A model the catalogue has under this id can serve the request. -/
def Capable (id : ModelId) : Prop := ∃ spec, catalog.get id = some spec ∧ spec.satisfies need = true

/-- The rung at this place of the ladder has a model that can serve the request. -/
def HasCapable (r : ℕ) : Prop :=
  ∃ rung, policy.ladder.rungs[r]? = some rung ∧ ∃ id ∈ rung.models, Capable catalog need id

/-- The first model of the rung at this place that can serve the request. -/
def FirstCapable (r : ℕ) (spec : ModelSpec) : Prop :=
  ∃ rung, policy.ladder.rungs[r]? = some rung ∧
    ∃ before id after, rung.models = before ++ id :: after ∧ catalog.get id = some spec ∧
      spec.satisfies need = true ∧ ∀ other ∈ before, ¬ Capable catalog need other

/-- A model the catalogue has under this id can serve the request and passes `also`. -/
def CapableWhere (also : ModelSpec → Bool) (id : ModelId) : Prop :=
  ∃ spec, catalog.get id = some spec ∧ spec.satisfies need = true ∧ also spec = true

/-- The rung at this place has a model that can serve the request and passes `also`. -/
def HasWhere (also : ModelSpec → Bool) (r : ℕ) : Prop :=
  ∃ rung, policy.ladder.rungs[r]? = some rung ∧
    ∃ id ∈ rung.models, CapableWhere catalog need also id

/-- The first model of the rung at this place that can serve the request and passes `also`. -/
def FirstWhere (also : ModelSpec → Bool) (r : ℕ) (spec : ModelSpec) : Prop :=
  ∃ rung, policy.ladder.rungs[r]? = some rung ∧
    ∃ before id after, rung.models = before ++ id :: after ∧ catalog.get id = some spec ∧
      (spec.satisfies need = true ∧ also spec = true) ∧
        ∀ other ∈ before, ¬ CapableWhere catalog need also other

/-- The first capable model of the lowest rung from `start` on that has one. -/
structure Lowest (start r : ℕ) (spec : ModelSpec) : Prop where
  start_le : start ≤ r
  rank_lt : r < 256
  first : policy.FirstCapable catalog need r spec
  below : ∀ r', start ≤ r' → r' < r → ¬ policy.HasCapable catalog need r'

/-- No rung from `start` on has a capable model, as far as ranks reach. -/
def NoneFrom (start : ℕ) : Prop := ∀ r, start ≤ r → r < 256 → ¬ policy.HasCapable catalog need r

/-- The place of the classified rung: the first of its name among those with a
rank, and the cheapest rung for a name that is not there. -/
def classifiedRank (signal : RequestSignal) : ℕ :=
  ((policy.ladder.rungs.findIdx? (fun r => r.name == policy.classifier signal)).filter
    (fun i => i < 256)).getD 0

/-- The higher of the classified rung and the floor; under a constrained
budget, the cheapest rung at or above the floor. -/
def startRank (signal : RequestSignal) (pressure : BudgetPressure) : ℕ :=
  if pressure = .constrained then floorRank policy.floor
  else max (policy.classifiedRank signal) (floorRank policy.floor)

variable {policy catalog need}

theorem pickWhere_eq_some_iff {tier : Tier} {also : ModelSpec → Bool} {spec : ModelSpec} :
    policy.ladder.pickWhere tier catalog need also = some spec ↔
      policy.FirstWhere catalog need also tier.rank.val spec := by
  unfold TierLadder.pickWhere
  rw [Option.bind_eq_some_iff]
  refine exists_congr (fun rung => and_congr_right (fun _ => ?_))
  unfold specs
  rw [List.find?_filterMap, Option.bind_eq_some_iff]
  have hany : ∀ id, ((catalog.get id).any (fun spec => spec.satisfies need && also spec)) = true ↔
      CapableWhere catalog need also id := by
    intro id
    simp only [Option.any_eq_true, Bool.and_eq_true, CapableWhere]
  constructor
  · intro h
    obtain ⟨id, hfind, hget⟩ := h
    obtain ⟨hid, before, after, heq, hbefore⟩ := List.find?_eq_some_iff_append.mp hfind
    obtain ⟨spec', hget', hspec⟩ := (hany id).mp hid
    obtain rfl : spec = spec' := Option.some.inj (hget.symm.trans hget')
    refine ⟨before, id, after, heq, hget, hspec, ?_⟩
    intro other hother hcap
    have := hbefore other hother
    rw [(hany other).mpr hcap] at this
    cases this
  · intro h
    obtain ⟨before, id, after, heq, hget, hspec, hbefore⟩ := h
    refine ⟨id, List.find?_eq_some_iff_append.mpr
      ⟨(hany id).mpr ⟨spec, hget, hspec⟩, before, after, heq, ?_⟩, hget⟩
    intro other hother
    rw [Bool.not_eq_true', Bool.eq_false_iff]
    exact fun hcap => hbefore other hother ((hany other).mp hcap)

theorem pickWhere_eq_none_iff {tier : Tier} {also : ModelSpec → Bool} :
    policy.ladder.pickWhere tier catalog need also = none ↔
      ¬ policy.HasWhere catalog need also tier.rank.val := by
  unfold TierLadder.pickWhere
  rw [Option.bind_eq_none_iff]
  constructor
  · intro h hcap
    obtain ⟨rung, hrung, id, hid, spec, hget, hspec⟩ := hcap
    have hmem : spec ∈ specs catalog rung := List.mem_filterMap.mpr ⟨id, hid, hget⟩
    exact List.find?_eq_none.mp (h rung hrung) spec hmem (Bool.and_eq_true_iff.mpr hspec)
  · intro h rung hrung
    apply List.find?_eq_none.mpr
    intro spec hmem hspec
    obtain ⟨id, hid, hget⟩ := List.mem_filterMap.mp hmem
    exact h ⟨rung, hrung, id, hid, spec, hget, Bool.and_eq_true_iff.mp hspec⟩

theorem capableWhere_true_iff {id : ModelId} :
    CapableWhere catalog need (fun _ => true) id ↔ Capable catalog need id := by
  simp only [CapableWhere, Capable, and_true]

theorem pick_eq_some_iff {tier : Tier} {spec : ModelSpec} :
    policy.ladder.pick tier catalog need = some spec ↔
      policy.FirstCapable catalog need tier.rank.val spec := by
  unfold TierLadder.pick
  rw [pickWhere_eq_some_iff]
  simp only [FirstWhere, FirstCapable, capableWhere_true_iff, and_true]

theorem pick_eq_none_iff {tier : Tier} :
    policy.ladder.pick tier catalog need = none ↔
      ¬ policy.HasCapable catalog need tier.rank.val := by
  unfold TierLadder.pick
  rw [pickWhere_eq_none_iff]
  simp only [HasWhere, HasCapable, capableWhere_true_iff]

theorem FirstCapable.hasCapable {r : ℕ} {spec : ModelSpec}
    (h : policy.FirstCapable catalog need r spec) : policy.HasCapable catalog need r := by
  obtain ⟨rung, hrung, before, id, after, heq, hget, hspec, -⟩ := h
  exact ⟨rung, hrung, id, by rw [heq]; simp, spec, hget, hspec⟩

/-- What a walk that starts at `start` comes to. -/
def Resolves (policy : RoutingPolicy) (catalog : Catalog) (need : Requirements) (start : ℕ)
    (ceilingModel : Option ModelSpec) (result : Except RoutingError RoutingDecision) : Prop :=
  (∃ d tier, result = .ok d ∧ d.tier = some tier ∧ d.ceilingModel = ceilingModel ∧
    policy.Lowest catalog need start tier.rank.val d.model) ∨
  (result = .error .noModel ∧ policy.NoneFrom catalog need start)

/-- The walk up, by induction on the ranks that are left above it. -/
theorem climb_resolves {startedAt : TierName} {reason : SelectionReason}
    {ceilingModel : Option ModelSpec} {passes : ℕ} {tier : Tier}
    (hpasses : passes = 256 - tier.rank.val) :
    Resolves policy catalog need tier.rank.val ceilingModel
      (policy.climb startedAt reason catalog need ceilingModel passes tier) := by
  induction passes generalizing tier with
  | zero =>
    have := tier.rank.isLt
    omega
  | succ passes ih =>
    unfold climb
    cases hpick : policy.ladder.pick tier catalog need with
    | some spec =>
      refine Or.inl ⟨_, tier, rfl, rfl, rfl, le_refl _, tier.rank.isLt,
        pick_eq_some_iff.mp hpick, ?_⟩
      intro r' hle hlt
      omega
    | none =>
      have hhere := pick_eq_none_iff.mp hpick
      cases hnext : policy.ladder.escalate tier with
      | none =>
        refine Or.inr ⟨rfl, ?_⟩
        intro r hle hlt hcap
        have htop := (policy.ladder.escalate_eq_none_iff tier).mp hnext
        by_cases heq : r = tier.rank.val
        · exact hhere (heq ▸ hcap)
        · obtain ⟨rung, hrung, -⟩ := hcap
          have hlen := (List.getElem?_eq_some_iff.mp hrung).1
          omega
      | some next =>
        obtain ⟨rung, -, -, hrank⟩ := (policy.ladder.escalate_eq_some_iff tier next).mp hnext
        -- The rung just left has nothing capable, so the walk may as well start on it.
        have hskip : ∀ r, tier.rank.val ≤ r → policy.HasCapable catalog need r →
            next.rank.val ≤ r := by
          intro r hle hcap
          by_cases heq : r = tier.rank.val
          · exact absurd (heq ▸ hcap) hhere
          · omega
        have hleft : passes = 256 - next.rank.val := by omega
        rcases ih hleft with ⟨d, t, hd, ht, hceil, hlow⟩ | ⟨herr, hnone⟩
        · have hle := hlow.start_le
          refine Or.inl ⟨d, t, hd, ht, hceil, by omega, hlow.rank_lt, hlow.first, ?_⟩
          intro r' hr' hlt hcap
          exact hlow.below r' (hskip r' hr' hcap) hlt hcap
        · exact Or.inr ⟨herr, fun r hr hlt hcap => hnone r (hskip r hr hcap) hlt hcap⟩

theorem resolveFrom_resolves (policy : RoutingPolicy) (catalog : Catalog) (need : Requirements)
    (tier : Tier) (reason : SelectionReason) (ceilingModel : Option ModelSpec) :
    Resolves policy catalog need tier.rank.val ceilingModel
      (policy.resolveFrom tier reason catalog need ceilingModel) := climb_resolves rfl

theorem classifiedTier_rank (policy : RoutingPolicy) (signal : RequestSignal) :
    (policy.classifiedTier signal).rank.val = policy.classifiedRank signal := by
  unfold classifiedTier classifiedRank TierLadder.tier
  cases hfind : policy.ladder.rungs.findIdx? (fun r => r.name == policy.classifier signal) with
  | none => rfl
  | some i =>
    by_cases hlt : i < 256
    · have hrank : u8TryFrom i = some ⟨i, hlt⟩ := u8TryFrom_eq_some_iff.mpr rfl
      simp [hrank, Option.filter_some, hlt]
    · have hrank : u8TryFrom i = none := u8TryFrom_eq_none_iff.mpr (not_lt.mp hlt)
      simp [hrank, Option.filter_some, hlt, TierLadder.floor]

/-- A managed request walks up from its start rung. -/
theorem decideManaged_resolves (policy : RoutingPolicy) (catalog : Catalog) (need : Requirements)
    (signal : RequestSignal) (pressure : BudgetPressure) (ceilingModel : Option ModelSpec) :
    Resolves policy catalog need (policy.startRank signal pressure) ceilingModel
      (policy.decideManaged signal pressure catalog need ceilingModel) := by
  have hfloored : (clampToFloor (policy.classifiedTier signal) policy.floor).rank.val =
      max (policy.classifiedRank signal) (floorRank policy.floor) := by
    rw [TierLadder.clampToFloor_rank, classifiedTier_rank]
  have hcheapest : (clampToFloor policy.ladder.floor policy.floor).rank.val =
      floorRank policy.floor := by
    rw [TierLadder.clampToFloor_rank]
    exact Nat.max_eq_right (Nat.zero_le _)
  unfold decideManaged startRank
  simp only [Fin.lt_def, hfloored, hcheapest]
  by_cases hpressure : pressure = .constrained
  · rw [if_pos hpressure]
    by_cases hlt : floorRank policy.floor <
        max (policy.classifiedRank signal) (floorRank policy.floor)
    · rw [if_pos ⟨hpressure, hlt⟩, ← hcheapest]
      exact resolveFrom_resolves policy catalog need _ _ _
    · have heq : max (policy.classifiedRank signal) (floorRank policy.floor) =
          floorRank policy.floor := by omega
      rw [if_neg (fun h => hlt h.2), ← heq, ← hfloored]
      exact resolveFrom_resolves policy catalog need _ _ _
  · rw [if_neg hpressure, if_neg (fun h => hpressure h.1), ← hfloored]
    exact resolveFrom_resolves policy catalog need _ _ _

theorem decide_managed_eq {policy : RoutingPolicy} {mode : RoutingMode}
    {requestedModel : Option String} {signal : RequestSignal} {budget : Budgets} {catalog : Catalog}
    {maxOutputTokens : ℕ} {served : List String} (hpressure : budget.pressure ≠ .exhausted)
    (hmanaged : ¬ (mode = .passthrough ∧ requestedModel.isSome)) :
    policy.decide mode requestedModel signal budget catalog maxOutputTokens served =
      policy.decideManaged signal budget.pressure catalog (signal.requirements maxOutputTokens)
        (policy.baseline catalog served (signal.requirements maxOutputTokens)) := by
  unfold decide
  rw [if_neg hpressure]
  cases mode with
  | managed => rfl
  | passthrough =>
    cases requestedModel with
    | none => rfl
    | some name => exact absurd ⟨rfl, rfl⟩ hmanaged

/-- Two walks from one start come to one rung and one model. -/
theorem Lowest.unique {start r r' : ℕ} {spec spec' : ModelSpec}
    (h : policy.Lowest catalog need start r spec) (h' : policy.Lowest catalog need start r' spec') :
    r = r' ∧ spec = spec' := by
  have hr : r = r' := by
    by_contra hne
    rcases lt_or_gt_of_ne hne with hlt | hlt
    · exact h'.below r h.start_le hlt h.first.hasCapable
    · exact h.below r' h'.start_le hlt h'.first.hasCapable
  subst hr
  have hpick : policy.ladder.pick ⟨"", ⟨r, h.rank_lt⟩⟩ catalog need = some spec :=
    pick_eq_some_iff.mpr h.first
  have hpick' : policy.ladder.pick ⟨"", ⟨r, h.rank_lt⟩⟩ catalog need = some spec' :=
    pick_eq_some_iff.mpr h'.first
  exact ⟨rfl, Option.some.inj (hpick.symm.trans hpick')⟩

theorem Lowest.not_noneFrom {start r : ℕ} {spec : ModelSpec}
    (h : policy.Lowest catalog need start r spec) : ¬ policy.NoneFrom catalog need start :=
  fun hnone => hnone r h.start_le h.rank_lt h.first.hasCapable

theorem exists_lowest {start r : ℕ} (hle : start ≤ r) (hlt : r < 256)
    (h : policy.HasCapable catalog need r) : ∃ r' spec, policy.Lowest catalog need start r' spec := by
  have hstart : start < 256 := by omega
  rcases resolveFrom_resolves policy catalog need ⟨"", ⟨start, hstart⟩⟩ .classified none with
    ⟨d, tier, -, -, -, hlow⟩ | ⟨-, hnone⟩
  · exact ⟨tier.rank.val, d.model, hlow⟩
  · exact absurd h (hnone r hle hlt)

theorem floorRank_le_startRank (policy : RoutingPolicy) (signal : RequestSignal)
    (pressure : BudgetPressure) : floorRank policy.floor ≤ policy.startRank signal pressure := by
  unfold startRank
  by_cases h : pressure = .constrained
  · rw [if_pos h]
  · rw [if_neg h]
    exact Nat.le_max_right _ _

/-- With budget left, a managed request is decided onto the first capable model
of the lowest rung from its start that has one, never below the floor, and
fails exactly when none of the rungs with a rank from the start on has one. -/
theorem decide_managed (policy : RoutingPolicy) (mode : RoutingMode)
    (requestedModel : Option String) (signal : RequestSignal) (budget : Budgets) (catalog : Catalog)
    (maxOutputTokens : ℕ) (served : List String) (hpressure : budget.pressure ≠ .exhausted)
    (hmanaged : ¬ (mode = .passthrough ∧ requestedModel.isSome)) :
    (∀ d, policy.decide mode requestedModel signal budget catalog maxOutputTokens served = .ok d →
      ∃ tier, d.tier = some tier ∧ floorRank policy.floor ≤ tier.rank.val ∧
        policy.Lowest catalog (signal.requirements maxOutputTokens)
          (policy.startRank signal budget.pressure) tier.rank.val d.model) ∧
    (∀ r spec, policy.Lowest catalog (signal.requirements maxOutputTokens)
        (policy.startRank signal budget.pressure) r spec →
      ∃ d tier, policy.decide mode requestedModel signal budget catalog maxOutputTokens served =
        .ok d ∧ d.model = spec ∧ d.tier = some tier ∧ tier.rank.val = r) ∧
    ((∃ message, policy.decide mode requestedModel signal budget catalog maxOutputTokens served =
        .error (.noViableModel message)) ↔
      policy.NoneFrom catalog (signal.requirements maxOutputTokens)
        (policy.startRank signal budget.pressure)) := by
  rw [decide_managed_eq hpressure hmanaged]
  have hfloor := policy.floorRank_le_startRank signal budget.pressure
  rcases policy.decideManaged_resolves catalog (signal.requirements maxOutputTokens) signal
    budget.pressure (policy.baseline catalog served (signal.requirements maxOutputTokens)) with
    ⟨d, tier, hd, htier, -, hlow⟩ | ⟨herr, hnone⟩
  · rw [hd]
    refine ⟨?_, ?_, ?_⟩
    · intro d' hd'
      obtain rfl : d = d' := Except.ok.inj hd'
      exact ⟨tier, htier, le_trans hfloor hlow.start_le, hlow⟩
    · intro r spec h
      obtain ⟨hr, hspec⟩ := hlow.unique h
      exact ⟨d, tier, rfl, hspec, htier, hr⟩
    · constructor
      · intro h
        obtain ⟨message, h⟩ := h
        cases h
      · intro h
        exact absurd h hlow.not_noneFrom
  · rw [herr]
    refine ⟨?_, ?_, ?_⟩
    · intro d hd
      cases hd
    · intro r spec h
      exact absurd hnone h.not_noneFrom
    · exact ⟨fun _ => hnone, fun _ => ⟨_, rfl⟩⟩

/-- One capable model, and nothing spent against no cap. -/
def onlyModel : ModelSpec where
  id := "anthropic/opus"
  provider := .anthropic
  upstreamName := "opus"
  pricing := ⟨.new 5 0, .new 25 0, none, none⟩
  contextWindow := 200000
  maxOutputTokens := 32000

def onlyCatalog : Catalog := Catalog.fromEntries [onlyModel]

def uncapped : BudgetState := ⟨.new 0 0, none, .new 1 0⟩

def noBudget : Budgets := ⟨uncapped, uncapped, uncapped⟩

/-- A ladder with the model on its second rung. -/
def shortLadder : TierLadder := .ofRungs ⟨"cheap", []⟩ [⟨"frontier", ["anthropic/opus"]⟩]

/-- A floor on the first rung. -/
def shortPolicy : RoutingPolicy where
  ladder := shortLadder
  classifier := heuristicClassifier {}
  floor := some shortLadder.floor

/-- A cheap model below the dear one. -/
def twoRungs : RoutingPolicy where
  ladder := .ofRungs ⟨"cheap", ["kimi/k2"]⟩ [⟨"frontier", ["anthropic/opus"]⟩]
  classifier := heuristicClassifier {}
  floor := none

theorem decide_managed_short :
    noBudget.pressure ≠ .exhausted ∧
      ∃ d tier, shortPolicy.decide .managed none {} noBudget onlyCatalog 100 [] = .ok d ∧
        d.model = onlyModel ∧ d.tier = some tier ∧ tier.rank.val = 1 := by
  have hpressure : noBudget.pressure ≠ .exhausted := by decide
  refine ⟨hpressure, (decide_managed shortPolicy .managed none {} noBudget onlyCatalog 100 []
    hpressure (by simp)).2.1 1 onlyModel ⟨Nat.zero_le _, by decide, ?_, ?_⟩⟩
  · exact ⟨_, rfl, [], "anthropic/opus", [], rfl, rfl, rfl, by simp⟩
  · intro r' _ hlt hcap
    obtain rfl : r' = 0 := by omega
    obtain ⟨rung, hrung, id, hid, -⟩ := hcap
    cases hrung
    cases hid

/-- 256 rungs without a model, and the model on the rung above them. -/
def longPolicy : RoutingPolicy where
  ladder := ⟨List.replicate 256 ⟨"cheap", []⟩ ++ [⟨"frontier", ["anthropic/opus"]⟩], by
    intro h
    cases (List.append_eq_nil_iff.mp h).2⟩
  classifier := heuristicClassifier {}
  floor := none

theorem longPolicy_empty {need : Requirements} {r : ℕ} (h : r < 256) :
    ¬ longPolicy.HasCapable onlyCatalog need r := by
  intro hcap
  obtain ⟨rung, hrung, id, hid, -⟩ := hcap
  have hcheap : longPolicy.ladder.rungs[r]? = some ⟨"cheap", []⟩ := by
    show (List.replicate 256 _ ++ _)[r]? = _
    rw [List.getElem?_append_left (by rw [List.length_replicate]; exact h),
      List.getElem?_replicate, if_pos h]
  rw [hcheap] at hrung
  cases hrung
  cases hid

theorem longPolicy_top :
    longPolicy.ladder.rungs[256]? = some ⟨"frontier", ["anthropic/opus"]⟩ := by
  show (List.replicate 256 _ ++ _)[256]? = _
  rw [List.getElem?_append_right (by rw [List.length_replicate]), List.length_replicate]
  rfl

/-- The walk ends at the last rank, below a rung that could serve the request. -/
theorem capable_rung_beyond_ranks :
    longPolicy.decide .managed none {} noBudget onlyCatalog 100 [] = .error .noModel ∧
      longPolicy.startRank {} noBudget.pressure ≤ 256 ∧
      longPolicy.HasCapable onlyCatalog (RequestSignal.requirements {} 100) 256 := by
  refine ⟨?_, ?_, ?_⟩
  · rw [decide_managed_eq (by decide) (by simp)]
    rcases longPolicy.decideManaged_resolves onlyCatalog (RequestSignal.requirements {} 100) {}
      noBudget.pressure _ with ⟨d, tier, -, -, -, hlow⟩ | ⟨herr, -⟩
    · exact absurd hlow.first.hasCapable (longPolicy_empty hlow.rank_lt)
    · exact herr
  · rw [startRank, if_neg (by decide), ← classifiedTier_rank]
    exact max_le (le_of_lt (Fin.isLt _)) (Nat.zero_le _)
  · exact ⟨_, longPolicy_top, "anthropic/opus", List.mem_singleton.mpr rfl, onlyModel, rfl, rfl⟩

end OpenAIGateway.RoutingPolicy
