import OpenAIGateway.Keyed
import OpenAIGateway.Presence
import Mathlib.Data.List.Perm.Basic

/-!
The status panel: every credential's row, grouped by provider and summed up in
one entry each. Rows come in no order, and of seats that tie for being shown the
first is. So an entry is the same in every order exactly when tied seats agree on
what is shown of them, and it then names what will move first.
-/

set_option linter.all false

namespace OpenAIGateway

/-- The built-ins in the order they are declared, then the endpoints by name. -/
def Provider.sortKey : Provider → ℕ ×ₗ String
  | .anthropic => toLex (0, "")
  | .openAI => toLex (1, "")
  | .gemini => toLex (2, "")
  | .kimi => toLex (3, "")
  | .deepSeek => toLex (4, "")
  | .zhipu => toLex (5, "")
  | .xAI => toLex (6, "")
  | .bedrock => toLex (7, "")
  | .jev => toLex (8, "")
  | .custom endpoint => toLex (9, endpoint)

theorem Provider.sortKey_injective : Function.Injective Provider.sortKey := by
  intro p q h
  cases p <;> cases q <;> simp_all [Provider.sortKey]

namespace StatusPanel

section Grouping

variable (registry : String → Bool)

/-- The rows of each provider so far, in the order of the providers. -/
abbrev Groups := List (Provider × List ChannelStatusRow)

/-- A row goes to its provider's group; one of no known provider is not listed. -/
def Groups.push (groups : Groups) (row : ChannelStatusRow) : Groups :=
  match Provider.fromStr registry row.provider with
  | some provider =>
    let group := (Keyed.get? (fun g => g.1.sortKey) groups provider.sortKey).elim [] Prod.snd
    Keyed.insert (fun g => g.1.sortKey) (provider, group ++ [row]) groups
  | none => groups

/-- One entry per provider. -/
def diagnose (rows : List ChannelStatusRow) (pressure : BudgetPressure)
    (modelCounts : Provider → Option ℕ) (now : ℤ) : List ProviderPresence :=
  (rows.foldl (Groups.push registry) []).map fun g =>
    summarise g.1 g.2 pressure modelCounts now

/-- The seats of a provider among the rows. -/
def seats (provider : Provider) (rows : List ChannelStatusRow) : List ChannelStatusRow :=
  rows.filter fun row => Provider.fromStr registry row.provider = some provider

end Grouping

/-- A seat that no other is better than: of those that serve, the most of an
allowance left, and where none serves, the most recoverable reason. -/
def Contender (now : ℤ) (group : List ChannelStatusRow) (row : ChannelStatusRow) : Prop :=
  row ∈ group ∧
    ((classify row now = .serving ∧ ∀ other ∈ group, classify other now = .serving →
        servingRank other.usageRemainingPct ≤ servingRank row.usageRemainingPct) ∨
      ∀ other ∈ group, classify other now ≠ .serving ∧
        (classify row now).rank ≤ (classify other now).rank)

/-- Tied seats show the same. -/
def Agreed (now : ℤ) (group : List ChannelStatusRow) : Prop :=
  ∀ row other, Contender now group row → Contender now group other →
    untilFor (classify row now) row now = untilFor (classify other now) other now ∧
      row.usageRemainingPct = other.usageRemainingPct ∧
      row.usageReservePct = other.usageReservePct

/-- The seat a group shows: one that serves, else the most recoverable of the others. -/
def shown (best : BestFacts) : Facts :=
  (best.serving.or best.blocked).getD ⟨.noCredential, none, none, none⟩

/-- The kinds of a group's seats. -/
def kindsOf (group : List ChannelStatusRow) : List String :=
  group.foldl (fun kinds row =>
    (kindLabel row.kind).elim kinds (fun label => Keyed.insert id label kinds)) []

/-- What a group shows of its seats, before the caller's money is asked after. -/
def pick (now : ℤ) (group : List ChannelStatusRow) : Facts :=
  shown (group.foldl (BestFacts.add now) ⟨none, none⟩)

section Grouping

variable (registry : String → Bool)

theorem seats_append (provider : Provider) (rows rows' : List ChannelStatusRow) :
    seats registry provider (rows ++ rows') =
      seats registry provider rows ++ seats registry provider rows' :=
  List.filter_append rows rows'

/-- The groups are in order, one for each provider that has seats, and hold them all. -/
theorem groups_spec (rows : List ChannelStatusRow) :
    Keyed.Sorted (fun g => g.1.sortKey) (rows.foldl (Groups.push registry) []) ∧
      ∀ g, g ∈ rows.foldl (Groups.push registry) [] ↔
        g.2 = seats registry g.1 rows ∧ g.2 ≠ [] := by
  induction rows using List.reverseRecOn with
  | nil => exact ⟨List.Pairwise.nil, fun g => by simp +contextual [seats]⟩
  | append_singleton rows row ih =>
    obtain ⟨hsorted, hmem⟩ := ih
    rw [List.foldl_append, List.foldl_cons, List.foldl_nil]
    generalize rows.foldl (Groups.push registry) [] = groups at hsorted hmem
    unfold Groups.push
    cases hp : Provider.fromStr registry row.provider with
    | none =>
      refine ⟨hsorted, fun g => ?_⟩
      rw [hmem g, seats_append]
      simp [seats, hp]
    | some provider =>
      have hgroup : (Keyed.get? (fun g => g.1.sortKey) groups provider.sortKey).elim [] Prod.snd =
          seats registry provider rows := by
        cases hget : Keyed.get? (fun g => g.1.sortKey) groups provider.sortKey with
        | some g =>
          obtain ⟨hg, hkey⟩ := (Keyed.get?_eq_some_iff hsorted).mp hget
          rw [← Provider.sortKey_injective hkey]
          exact ((hmem g).mp hg).1
        | none =>
          by_contra hseats
          have hin := (hmem (provider, seats registry provider rows)).mpr
            ⟨rfl, fun hnil => hseats hnil.symm⟩
          rw [(Keyed.get?_eq_some_iff hsorted).mpr ⟨hin, rfl⟩] at hget
          cases hget
      refine ⟨Keyed.sorted_insert _ hsorted, fun g => ?_⟩
      simp only [hgroup]
      rw [Keyed.mem_insert_iff hsorted, hmem g, seats_append]
      by_cases hg : g.1 = provider
      · have hlast : seats registry g.1 [row] = [row] := by
          simp [seats, hp, hg]
        rw [hlast, hg]
        constructor
        · rintro (rfl | ⟨-, hne⟩)
          · exact ⟨rfl, by simp⟩
          · exact absurd rfl hne
        · rintro ⟨hseats, -⟩
          exact Or.inl (Prod.ext hg hseats)
      · have hlast : seats registry g.1 [row] = [] := by
          simp [seats, hp, Ne.symm hg]
        rw [hlast, List.append_nil]
        constructor
        · rintro (rfl | ⟨hin, -⟩)
          · exact absurd rfl hg
          · exact hin
        · intro hin
          exact Or.inr ⟨hin, fun hkey => hg (Provider.sortKey_injective hkey)⟩

variable (pressure : BudgetPressure) (modelCounts : Provider → Option ℕ) (now : ℤ)

/-- The panel holds the summary of every provider that has seats, and nothing else. -/
theorem mem_diagnose_iff (rows : List ChannelStatusRow) (entry : ProviderPresence) :
    entry ∈ diagnose registry rows pressure modelCounts now ↔
      ∃ provider, seats registry provider rows ≠ [] ∧
        entry = summarise provider (seats registry provider rows) pressure modelCounts now := by
  unfold diagnose
  rw [List.mem_map]
  constructor
  · rintro ⟨g, hg, rfl⟩
    obtain ⟨hseats, hne⟩ := ((groups_spec registry rows).2 g).mp hg
    rw [hseats] at hne ⊢
    exact ⟨g.1, hne, rfl⟩
  · rintro ⟨provider, hne, rfl⟩
    exact ⟨(provider, seats registry provider rows),
      ((groups_spec registry rows).2 _).mpr ⟨rfl, hne⟩, rfl⟩

theorem sorted_diagnose (rows : List ChannelStatusRow) :
    Keyed.Sorted (fun entry => entry.provider.sortKey)
      (diagnose registry rows pressure modelCounts now) :=
  List.pairwise_map.mpr (groups_spec registry rows).1

end Grouping

section Picking

variable {now : ℤ} {group : List ChannelStatusRow} {row : ChannelStatusRow}

/-- What the best facts say of the seats so far. -/
structure Best (now : ℤ) (group : List ChannelStatusRow) (best : BestFacts) : Prop where
  serving : ∀ f ∈ best.serving, ∃ row ∈ group, f = factsOf now row ∧ classify row now = .serving ∧
    ∀ other ∈ group, classify other now = .serving →
      servingRank other.usageRemainingPct ≤ servingRank row.usageRemainingPct
  blocked : ∀ f ∈ best.blocked, ∃ row ∈ group, f = factsOf now row ∧
    ∀ other ∈ group, classify other now ≠ .serving →
      (classify row now).rank ≤ (classify other now).rank
  none_serves : best.serving = none → ∀ row ∈ group, classify row now ≠ .serving
  none_blocked : best.blocked = none → ∀ row ∈ group, classify row now = .serving

theorem add_of_serving {best : BestFacts} (h : classify row now = .serving) :
    BestFacts.add now best row =
      { best with serving := some (betterServing best.serving (factsOf now row)) } := if_pos h

theorem add_of_blocked {best : BestFacts} (h : classify row now ≠ .serving) :
    BestFacts.add now best row =
      { best with blocked := some (moreRecoverable best.blocked (factsOf now row)) } := if_neg h

/-- The better of two, the earlier one where they tie. -/
theorem betterServing_cases (current : Option Facts) (candidate : Facts) :
    (betterServing current candidate = candidate ∧ ∀ f ∈ current,
      servingRank f.remainingPct < servingRank candidate.remainingPct) ∨
    ∃ f ∈ current, betterServing current candidate = f ∧
      servingRank candidate.remainingPct ≤ servingRank f.remainingPct := by
  cases current with
  | none => exact Or.inl ⟨rfl, by simp⟩
  | some f =>
    by_cases h : servingRank f.remainingPct < servingRank candidate.remainingPct
    · exact Or.inl ⟨if_pos h, by simpa using h⟩
    · exact Or.inr ⟨f, rfl, if_neg h, not_lt.mp h⟩

theorem moreRecoverable_cases (current : Option Facts) (candidate : Facts) :
    (moreRecoverable current candidate = candidate ∧ ∀ f ∈ current,
      candidate.reason.rank < f.reason.rank) ∨
    ∃ f ∈ current, moreRecoverable current candidate = f ∧
      f.reason.rank ≤ candidate.reason.rank := by
  cases current with
  | none => exact Or.inl ⟨rfl, by simp⟩
  | some f =>
    by_cases h : candidate.reason.rank < f.reason.rank
    · exact Or.inl ⟨if_pos h, by simpa using h⟩
    · exact Or.inr ⟨f, rfl, if_neg h, not_lt.mp h⟩

theorem Best.add_serving {best : BestFacts} (h : Best now group best)
    (hrow : classify row now = .serving) : Best now (group ++ [row]) (BestFacts.add now best row) := by
  rw [add_of_serving hrow]
  constructor
  · intro f hf
    obtain rfl := Option.some.inj hf
    rcases betterServing_cases best.serving (factsOf now row) with ⟨heq, hless⟩ | ⟨f, hin, heq, hle⟩
    · refine ⟨row, by simp, heq, hrow, ?_⟩
      intro other hother hserves
      rcases List.mem_append.mp hother with hother | hother
      · cases hbest : best.serving with
        | none => exact absurd hserves (h.none_serves hbest other hother)
        | some f =>
          obtain ⟨seat, -, rfl, -, hmost⟩ := h.serving f hbest
          exact (hmost other hother hserves).trans (hless _ hbest).le
      · rw [List.mem_singleton.mp hother]
    · obtain ⟨seat, hseat, rfl, hserves, hmost⟩ := h.serving f hin
      refine ⟨seat, List.mem_append_left _ hseat, heq, hserves, ?_⟩
      intro other hother hother'
      rcases List.mem_append.mp hother with hother | hother
      · exact hmost other hother hother'
      · rw [List.mem_singleton.mp hother]
        exact hle
  · intro f hf
    obtain ⟨seat, hseat, heq, hleast⟩ := h.blocked f hf
    refine ⟨seat, List.mem_append_left _ hseat, heq, ?_⟩
    intro other hother hblocked
    rcases List.mem_append.mp hother with hother | hother
    · exact hleast other hother hblocked
    · rw [List.mem_singleton.mp hother] at hblocked
      exact absurd hrow hblocked
  · intro hnone
    cases hnone
  · intro hnone other hother
    rcases List.mem_append.mp hother with hother | hother
    · exact h.none_blocked hnone other hother
    · rw [List.mem_singleton.mp hother]
      exact hrow

theorem Best.add_blocked {best : BestFacts} (h : Best now group best)
    (hrow : classify row now ≠ .serving) : Best now (group ++ [row]) (BestFacts.add now best row) := by
  rw [add_of_blocked hrow]
  constructor
  · intro f hf
    obtain ⟨seat, hseat, heq, hserves, hmost⟩ := h.serving f hf
    refine ⟨seat, List.mem_append_left _ hseat, heq, hserves, ?_⟩
    intro other hother hother'
    rcases List.mem_append.mp hother with hother | hother
    · exact hmost other hother hother'
    · rw [List.mem_singleton.mp hother] at hother'
      exact absurd hother' hrow
  · intro f hf
    obtain rfl := Option.some.inj hf
    rcases moreRecoverable_cases best.blocked (factsOf now row) with
      ⟨heq, hless⟩ | ⟨f, hin, heq, hle⟩
    · refine ⟨row, by simp, heq, ?_⟩
      intro other hother hblocked
      rcases List.mem_append.mp hother with hother | hother
      · cases hbest : best.blocked with
        | none => exact absurd (h.none_blocked hbest other hother) hblocked
        | some f =>
          obtain ⟨seat, -, rfl, hleast⟩ := h.blocked f hbest
          exact (hless _ hbest).le.trans (hleast other hother hblocked)
      · rw [List.mem_singleton.mp hother]
    · obtain ⟨seat, hseat, rfl, hleast⟩ := h.blocked f hin
      refine ⟨seat, List.mem_append_left _ hseat, heq, ?_⟩
      intro other hother hblocked
      rcases List.mem_append.mp hother with hother | hother
      · exact hleast other hother hblocked
      · rw [List.mem_singleton.mp hother]
        exact hle
  · intro hnone other hother
    rcases List.mem_append.mp hother with hother | hother
    · exact h.none_serves hnone other hother
    · rw [List.mem_singleton.mp hother]
      exact hrow
  · intro hnone
    cases hnone

theorem best_foldl (now : ℤ) (group : List ChannelStatusRow) :
    Best now group (group.foldl (BestFacts.add now) ⟨none, none⟩) := by
  induction group using List.reverseRecOn with
  | nil => constructor <;> simp
  | append_singleton group row ih =>
    rw [List.foldl_append, List.foldl_cons, List.foldl_nil]
    by_cases hrow : classify row now = .serving
    · exact ih.add_serving hrow
    · exact ih.add_blocked hrow

theorem shown_of_serving {best : BestFacts} {f : Facts} (h : best.serving = some f) :
    shown best = f := by
  unfold shown
  rw [h, Option.some_or, Option.getD_some]

theorem shown_of_blocked {best : BestFacts} {f : Facts} (hserving : best.serving = none)
    (h : best.blocked = some f) : shown best = f := by
  unfold shown
  rw [hserving, Option.none_or, h, Option.getD_some]

/-- What is shown of a group is shown of a contender. -/
theorem exists_contender (now : ℤ) (hne : group ≠ []) :
    ∃ row, Contender now group row ∧ pick now group = factsOf now row := by
  have hbest := best_foldl now group
  unfold pick
  cases hserving : (group.foldl (BestFacts.add now) ⟨none, none⟩).serving with
  | some f =>
    obtain ⟨row, hrow, heq, hserves, hmost⟩ := hbest.serving f hserving
    exact ⟨row, ⟨hrow, Or.inl ⟨hserves, hmost⟩⟩, (shown_of_serving hserving).trans heq⟩
  | none =>
    have hnone := hbest.none_serves hserving
    cases hblocked : (group.foldl (BestFacts.add now) ⟨none, none⟩).blocked with
    | some f =>
      obtain ⟨row, hrow, heq, hleast⟩ := hbest.blocked f hblocked
      exact ⟨row, ⟨hrow, Or.inr fun other hother =>
        ⟨hnone other hother, hleast other hother (hnone other hother)⟩⟩,
        (shown_of_blocked hserving hblocked).trans heq⟩
    | none =>
      obtain ⟨row, hrow⟩ := List.exists_mem_of_ne_nil group hne
      exact absurd (hbest.none_blocked hblocked row hrow) (hnone row hrow)

/-- A contender that comes first is the one shown. -/
theorem pick_of_head {rest : List ChannelStatusRow} (h : Contender now (row :: rest) row) :
    pick now (row :: rest) = factsOf now row := by
  unfold pick
  rw [List.foldl_cons]
  rcases h.2 with ⟨hserves, hmost⟩ | hleast
  · refine shown_of_serving (List.foldlRecOn rest _
      (motive := fun best : BestFacts => best.serving = some (factsOf now row)) ?_ ?_)
    · rw [add_of_serving hserves]
      rfl
    · intro best hbest other hother
      by_cases hother' : classify other now = .serving
      · have hle := hmost other (List.mem_cons_of_mem _ hother) hother'
        rw [add_of_serving hother', hbest]
        exact congrArg some (if_neg (not_lt.mpr hle))
      · rw [add_of_blocked hother']
        exact hbest
  · have hkept : rest.foldl (BestFacts.add now) (BestFacts.add now ⟨none, none⟩ row) =
        ⟨none, some (factsOf now row)⟩ := by
      refine List.foldlRecOn rest _
        (motive := fun best : BestFacts => best = ⟨none, some (factsOf now row)⟩) ?_ ?_
      · rw [add_of_blocked (hleast row List.mem_cons_self).1]
        rfl
      · intro best hbest other hother
        obtain ⟨hblocked, hle⟩ := hleast other (List.mem_cons_of_mem _ hother)
        rw [add_of_blocked hblocked, hbest]
        exact congrArg (fun f => BestFacts.mk none (some f)) (if_neg (not_lt.mpr hle))
    rw [hkept]
    rfl

end Picking

section Order

variable {now : ℤ} {group group' rows : List ChannelStatusRow}

theorem kindsOf_spec (group : List ChannelStatusRow) :
    Keyed.Sorted id (kindsOf group) ∧
      ∀ label, label ∈ kindsOf group ↔ ∃ row ∈ group, kindLabel row.kind = some label := by
  unfold kindsOf
  induction group using List.reverseRecOn with
  | nil => exact ⟨List.Pairwise.nil, by simp⟩
  | append_singleton group row ih =>
    obtain ⟨hsorted, hmem⟩ := ih
    rw [List.foldl_append, List.foldl_cons, List.foldl_nil]
    cases hlabel : kindLabel row.kind with
    | none => exact ⟨hsorted, fun label => by simp [hmem, or_and_right, exists_or, hlabel]⟩
    | some k =>
      refine ⟨Keyed.sorted_insert k hsorted, fun label => ?_⟩
      rw [Option.elim_some, Keyed.mem_insert_iff hsorted, hmem]
      simp only [List.mem_append, List.mem_singleton, or_and_right, exists_or,
        exists_eq_left, hlabel, Option.some.injEq, id_eq]
      by_cases heq : label = k
      · simp [heq]
      · simp [heq, Ne.symm heq]

theorem Contender.perm (hperm : group.Perm group') {row : ChannelStatusRow}
    (h : Contender now group row) : Contender now group' row := by
  refine ⟨hperm.mem_iff.mp h.1, h.2.imp ?_ ?_⟩
  · exact fun hserves => ⟨hserves.1, fun other hother => hserves.2 other (hperm.mem_iff.mpr hother)⟩
  · exact fun hleast other hother => hleast other (hperm.mem_iff.mpr hother)

theorem rank_injective : Function.Injective PresenceReason.rank := by
  intro r r' h
  cases r <;> cases r' <;> first | rfl | cases h

/-- Contenders are there for the same reason. -/
theorem Contender.classify_eq {row other : ChannelStatusRow} (h : Contender now group row)
    (h' : Contender now group other) : classify row now = classify other now := by
  rcases h.2 with ⟨hserves, -⟩ | hleast
  · rcases h'.2 with ⟨hserves', -⟩ | hleast'
    · rw [hserves, hserves']
    · exact absurd hserves (hleast' row h.1).1
  · rcases h'.2 with ⟨hserves', -⟩ | hleast'
    · exact absurd hserves' (hleast other h'.1).1
    · exact rank_injective (le_antisymm (hleast other h'.1).2 (hleast' row h.1).2)

theorem Agreed.factsOf_eq (hagreed : Agreed now group) {row other : ChannelStatusRow}
    (h : Contender now group row) (h' : Contender now group other) :
    factsOf now row = factsOf now other := by
  obtain ⟨huntil, hleft, hreserve⟩ := hagreed row other h h'
  unfold factsOf
  rw [huntil, hleft, hreserve, h.classify_eq h']

/-- Seats that agree are summed up the same in any order. -/
theorem Agreed.summarise_perm (hagreed : Agreed now group) (hperm : group.Perm group')
    (provider : Provider) (pressure : BudgetPressure) (modelCounts : Provider → Option ℕ) :
    summarise provider group' pressure modelCounts now =
      summarise provider group pressure modelCounts now := by
  have hpick : pick now group' = pick now group := by
    by_cases hne : group = []
    · rw [hne] at hperm
      rw [hne, List.nil_perm.mp hperm]
    · have hne' : group' ≠ [] := by
        rintro rfl
        exact hne (List.perm_nil.mp hperm)
      obtain ⟨row, hrow, heq⟩ := exists_contender now hne
      obtain ⟨other, hother, heq'⟩ := exists_contender now hne'
      rw [heq, heq', hagreed.factsOf_eq (hother.perm hperm.symm) hrow]
  have hserves : (group'.foldl (BestFacts.add now) ⟨none, none⟩).serving.isSome =
      (group.foldl (BestFacts.add now) ⟨none, none⟩).serving.isSome := by
    rw [Bool.eq_iff_iff, isSome_serving_foldl_add, isSome_serving_foldl_add]
    simp only [hperm.mem_iff]
  have hkinds : kindsOf group' = kindsOf group := by
    refine Keyed.ext_of_mem_iff (kindsOf_spec group').1 (kindsOf_spec group).1 fun label => ?_
    rw [(kindsOf_spec group').2, (kindsOf_spec group).2]
    simp only [hperm.mem_iff]
  unfold pick shown at hpick
  unfold kindsOf at hkinds
  unfold summarise
  simp only [hpick, hserves, hkinds]

/-- Rows that are moved leave the panel as it is where tied seats agree. -/
theorem diagnose_perm {registry : String → Bool} {rows' : List ChannelStatusRow}
    (hagreed : ∀ provider, Agreed now (seats registry provider rows)) (hperm : rows.Perm rows')
    (pressure : BudgetPressure) (modelCounts : Provider → Option ℕ) :
    diagnose registry rows' pressure modelCounts now =
      diagnose registry rows pressure modelCounts now := by
  refine Keyed.ext_of_mem_iff (sorted_diagnose registry pressure modelCounts now rows')
    (sorted_diagnose registry pressure modelCounts now rows) fun entry => ?_
  rw [mem_diagnose_iff, mem_diagnose_iff]
  refine exists_congr fun provider => ?_
  have hseats : (seats registry provider rows).Perm (seats registry provider rows') :=
    hperm.filter _
  rw [(hagreed provider).summarise_perm hseats]
  refine and_congr_left fun _ => not_congr ?_
  rw [← List.length_eq_zero_iff, ← List.length_eq_zero_iff, hseats.length_eq]

theorem seats_cons {registry : String → Bool} {provider : Provider} {row : ChannelStatusRow}
    (h : row ∈ seats registry provider rows) (rest : List ChannelStatusRow) :
    seats registry provider (row :: rest) = row :: seats registry provider rest :=
  List.filter_cons_of_pos (List.mem_filter.mp h).2

/-- The entry of a provider is its seats' alone. -/
theorem summarise_of_diagnose_eq {registry : String → Bool} {rows' : List ChannelStatusRow}
    {pressure : BudgetPressure} {modelCounts : Provider → Option ℕ} {provider : Provider}
    (h : diagnose registry rows' pressure modelCounts now =
      diagnose registry rows pressure modelCounts now)
    (hne : seats registry provider rows' ≠ []) :
    summarise provider (seats registry provider rows') pressure modelCounts now =
      summarise provider (seats registry provider rows) pressure modelCounts now := by
  have hmem := (mem_diagnose_iff registry pressure modelCounts now rows' _).mpr
    ⟨provider, hne, rfl⟩
  rw [h, mem_diagnose_iff] at hmem
  obtain ⟨provider', -, heq⟩ := hmem
  have hprovider : provider = provider' := congrArg ProviderPresence.provider heq
  rw [heq, hprovider]

/-- Where no seat serves, the seat shown is shown as it is. -/
theorem summarise_of_blocked (h : (pick now group).reason ≠ .serving) (provider : Provider)
    (pressure : BudgetPressure) (modelCounts : Provider → Option ℕ) :
    (summarise provider group pressure modelCounts now).reason = (pick now group).reason ∧
      (summarise provider group pressure modelCounts now).untilAt = (pick now group).untilAt := by
  have hbroke : ¬ (decide (pressure = .exhausted) &&
      decide ((pick now group).reason = .serving)) = true := by
    simp [h]
  exact ⟨if_neg hbroke, if_neg hbroke⟩

/-- A panel that no order of the rows changes shows seats that agree. -/
theorem agreed_of_settled {registry : String → Bool} {pressure : BudgetPressure}
    {modelCounts : Provider → Option ℕ}
    (hsettled : ∀ rows', rows.Perm rows' → diagnose registry rows' pressure modelCounts now =
      diagnose registry rows pressure modelCounts now) (provider : Provider) :
    Agreed now (seats registry provider rows) := by
  intro row other hrow hother
  have hshown : ∀ row, Contender now (seats registry provider rows) row →
      ∃ group, pick now group = factsOf now row ∧
        summarise provider group pressure modelCounts now =
          summarise provider (seats registry provider rows) pressure modelCounts now := by
    intro row hrow
    have hin : row ∈ rows := (List.mem_filter.mp hrow.1).1
    have hperm : rows.Perm (row :: rows.erase row) := List.perm_cons_erase hin
    have hcons := seats_cons hrow.1 (rows.erase row)
    have hhead := hrow.perm (hperm.filter _)
    change Contender now (seats registry provider (row :: rows.erase row)) row at hhead
    have hsame := summarise_of_diagnose_eq (hsettled _ hperm) (by rw [hcons]; simp)
    rw [hcons] at hhead hsame
    exact ⟨_, pick_of_head hhead, hsame⟩
  obtain ⟨group, hpick, hsame⟩ := hshown row hrow
  obtain ⟨group', hpick', hsame'⟩ := hshown other hother
  have heq := hsame.trans hsame'.symm
  have hreason := hrow.classify_eq hother
  have hleft := congrArg ProviderPresence.remainingPct heq
  have hreserve := congrArg ProviderPresence.reservePct heq
  change (pick now group).remainingPct = (pick now group').remainingPct at hleft
  change (pick now group).reservePct = (pick now group').reservePct at hreserve
  rw [hpick, hpick'] at hleft hreserve
  refine ⟨?_, hleft, hreserve⟩
  -- A seat that serves shows no time; any other shows it whatever the caller's money.
  by_cases hserves : classify row now = .serving
  · rw [← hreason, hserves]
    rfl
  · have huntil := congrArg ProviderPresence.untilAt heq
    have hblocked : (pick now group).reason ≠ .serving := by
      rw [hpick]
      exact hserves
    have hblocked' : (pick now group').reason ≠ .serving := by
      rw [hpick']
      exact fun hserves' => hserves (hreason.trans hserves')
    rw [(summarise_of_blocked hblocked _ _ _).2, (summarise_of_blocked hblocked' _ _ _).2, hpick,
      hpick'] at huntil
    exact huntil

/-- When the seats with this reason move: the times ahead of them. -/
def movesAt (now : ℤ) (reason : PresenceReason) (group : List ChannelStatusRow) : List ℤ :=
  group.filterMap fun row =>
    if classify row now = reason then untilFor reason row now else none

/-- Of seats that agree, none serving, what is shown is what will move first. -/
theorem Agreed.soonest (hagreed : Agreed now group) (hne : group ≠ [])
    (hblocked : ∀ row ∈ group, classify row now ≠ .serving) (provider : Provider)
    (pressure : BudgetPressure) (modelCounts : Provider → Option ℕ) :
    let entry := summarise provider group pressure modelCounts now
    (∃ row ∈ group, classify row now = entry.reason) ∧
      (∀ row ∈ group, entry.reason.rank ≤ (classify row now).rank) ∧
      entry.untilAt = (movesAt now entry.reason group).min? := by
  obtain ⟨row, hrow, hpick⟩ := exists_contender now hne
  have hleast : ∀ other ∈ group, (classify row now).rank ≤ (classify other now).rank := by
    intro other hother
    rcases hrow.2 with ⟨hserves, -⟩ | hleast
    · exact absurd hserves (hblocked row hrow.1)
    · exact (hleast other hother).2
  have hreason : (pick now group).reason ≠ .serving := by
    rw [hpick]
    exact hblocked row hrow.1
  have hshown := summarise_of_blocked hreason provider pressure modelCounts
  rw [hpick] at hshown
  -- Every seat with the reason shown ties for being shown.
  have htied : ∀ other ∈ group, classify other now = classify row now →
      untilFor (classify row now) other now = untilFor (classify row now) row now := by
    intro other hother heq
    have hcontender : Contender now group other :=
      ⟨hother, Or.inr fun third hthird => ⟨hblocked third hthird, heq ▸ hleast third hthird⟩⟩
    rw [← (hagreed other row hcontender hrow).1, heq]
  have hall : ∀ t ∈ movesAt now (classify row now) group,
      some t = untilFor (classify row now) row now := by
    intro t ht
    obtain ⟨other, hother, heq⟩ := List.mem_filterMap.mp ht
    rw [Option.ite_none_right_eq_some] at heq
    rw [← htied other hother heq.1, heq.2]
  refine ⟨⟨row, hrow.1, hshown.1.symm⟩, ?_, ?_⟩
  · intro other hother
    rw [hshown.1]
    exact hleast other hother
  · rw [hshown.2, hshown.1]
    change untilFor (classify row now) row now = (movesAt now (classify row now) group).min?
    cases huntil : untilFor (classify row now) row now with
    | none =>
      have hnil : movesAt now (classify row now) group = [] := by
        rw [List.eq_nil_iff_forall_not_mem]
        intro t ht
        rw [huntil] at hall
        cases hall t ht
      rw [hnil, List.min?_nil]
    | some t =>
      rw [huntil] at hall
      refine (List.min?_eq_some_iff.mpr ⟨?_, fun t' ht' => ?_⟩).symm
      · exact List.mem_filterMap.mpr ⟨row, hrow.1, by rw [if_pos rfl, huntil]⟩
      · exact le_of_eq (Option.some.inj (hall t' ht')).symm

end Order

section Settled

/-- A limited seat that moves at this time. -/
def limitedUntil (t : ℤ) : ChannelStatusRow where
  provider := "xai"
  kind := "oauth"
  schedulable := true
  rateLimitedUntil := some t
  windowResetsAt := none
  usageRemainingPct := none
  usageReservePct := none

/-- The panel lists every known provider once. It is the same in every order of the
rows, and names what will move first where nothing serves, exactly when the seats of
each provider that tie for being shown agree on what is shown of them. -/
theorem diagnose_settled_iff (registry : String → Bool) (rows : List ChannelStatusRow)
    (pressure : BudgetPressure) (modelCounts : Provider → Option ℕ) (now : ℤ) :
    (((diagnose registry rows pressure modelCounts now).map ProviderPresence.provider).Nodup ∧
      (∀ provider, provider ∈
          (diagnose registry rows pressure modelCounts now).map ProviderPresence.provider ↔
        ∃ row ∈ rows, Provider.fromStr registry row.provider = some provider) ∧
      (∀ rows', rows.Perm rows' → diagnose registry rows' pressure modelCounts now =
        diagnose registry rows pressure modelCounts now) ∧
      ∀ entry ∈ diagnose registry rows pressure modelCounts now,
        (∀ row ∈ seats registry entry.provider rows, classify row now ≠ .serving) →
        (∃ row ∈ seats registry entry.provider rows, classify row now = entry.reason) ∧
          (∀ row ∈ seats registry entry.provider rows,
            entry.reason.rank ≤ (classify row now).rank) ∧
          entry.untilAt =
            (movesAt now entry.reason (seats registry entry.provider rows)).min?) ↔
      ∀ provider, Agreed now (seats registry provider rows) := by
  constructor
  · rintro ⟨-, -, hsettled, -⟩
    exact agreed_of_settled hsettled
  · intro hagreed
    refine ⟨?_, fun provider => ?_, fun rows' hperm => diagnose_perm hagreed hperm _ _, ?_⟩
    · refine List.pairwise_map.mpr ((sorted_diagnose registry pressure modelCounts now rows).imp ?_)
      exact fun hlt heq => absurd (congrArg Provider.sortKey heq) (ne_of_lt hlt)
    · have hseats : seats registry provider rows ≠ [] ↔
          ∃ row ∈ rows, Provider.fromStr registry row.provider = some provider := by
        simp [seats, List.filter_eq_nil_iff]
      rw [List.mem_map, ← hseats]
      constructor
      · rintro ⟨entry, hentry, rfl⟩
        obtain ⟨provider, hne, rfl⟩ :=
          (mem_diagnose_iff registry pressure modelCounts now rows entry).mp hentry
        exact hne
      · intro hne
        exact ⟨_, (mem_diagnose_iff registry pressure modelCounts now rows _).mpr
          ⟨provider, hne, rfl⟩, rfl⟩
    · intro entry hentry hblocked
      obtain ⟨provider, hne, rfl⟩ :=
        (mem_diagnose_iff registry pressure modelCounts now rows entry).mp hentry
      exact (hagreed provider).soonest hne hblocked provider pressure modelCounts

/-- Two limited seats of one provider: which time the panel shows is which row came first. -/
theorem order_shows :
    [limitedUntil 10, limitedUntil 5].Perm [limitedUntil 5, limitedUntil 10] ∧
      (diagnose (fun _ => false) [limitedUntil 10, limitedUntil 5] .normal
        (fun _ => none) 0).map ProviderPresence.untilAt = [some 10] ∧
      (diagnose (fun _ => false) [limitedUntil 5, limitedUntil 10] .normal
        (fun _ => none) 0).map ProviderPresence.untilAt = [some 5] := by
  refine ⟨List.Perm.swap _ _ [], ?_, ?_⟩
  · decide
  · decide

end Settled

end StatusPanel

end OpenAIGateway
