import OpenAIGateway.Grouping
import OpenAIGateway.LedgerReads
import OpenAIGateway.SseFraming
import Mathlib.Data.List.Sort
import Mathlib.Data.Prod.Lex
import Mathlib.Data.String.Basic

/-!
Points, whichever way they are read. A row earns points alone, so the reads of a
key, of its models, of a principal and of a pool are sums over the same rows,
cut up differently.
-/

set_option linter.all false

namespace OpenAIGateway.LedgerReads

open Grouping

/-- The wire spelling. -/
def UsageWindow.parse (text : String) : Option UsageWindow :=
  let trimmed := String.ofList (Sse.trim text.toList)
  if trimmed = "5h" then some .fiveHours
  else if trimmed = "24h" then some .day
  else if trimmed = "7d" then some .sevenDays
  else if trimmed = "month" then some .month
  else none

def UsageWindow.asStr : UsageWindow → String
  | .fiveHours => "5h"
  | .day => "24h"
  | .sevenDays => "7d"
  | .month => "month"

/-- One model's share of a key's window, on one rung. -/
structure ModelUsage where
  modelId : String
  tier : Option String
  attempts : ℕ
  requests : ℕ
  inputTokens : ℤ
  outputTokens : ℤ
  cacheReadTokens : ℤ
  cacheWriteTokens : ℤ
  costUsd : ℚ
  listUsd : ℚ
  points : Option ℤ

/-- A principal's points, and what it paid for attempts nobody was served. -/
structure PrincipalPoints where
  points : Option ℤ
  unbilledCostUsd : ℚ
  totalCostUsd : ℚ
  unservedAttempts : ℕ

/-- An issued key. -/
structure ApiKey (Id : Type*) where
  id : Id
  principalId : Id

section Reads

variable {Id : Type*} [LinearOrder Id] (calendar : Calendar) (ledger : List (UsageEvent Id))

/-- The rows of one model on one rung; an empty rung is no rung. -/
def modelUsage (reference : Option ℚ) (group : String ×ₗ String) (rows : List (UsageEvent Id)) :
    ModelUsage where
  modelId := (ofLex group).1
  tier := if (ofLex group).2 = "" then none else some (ofLex group).2
  attempts := rows.length
  requests := rows.countP fun row => !row.unserved
  inputTokens := (rows.map UsageEvent.inputTokens).sum
  outputTokens := (rows.map UsageEvent.outputTokens).sum
  cacheReadTokens := (rows.map UsageEvent.cacheReadTokens).sum
  cacheWriteTokens := (rows.map UsageEvent.cacheWriteTokens).sum
  costUsd := (rows.map UsageEvent.costUsd).sum
  listUsd := (rows.map UsageEvent.counterfactualApiUsd).sum
  points := reference.map fun reference => (rows.map (UsageEvent.points reference)).sum

/-- A key's window per model and rung, the dearest first. -/
def keyUsageByModel (key : Id) (w : UsageWindow) (reference : Option ℚ) (now : ℤ) :
    List ModelUsage :=
  (groupBy (fun row => toLex (row.modelId, row.tier)) (modelUsage reference)
    (ofKey ledger key (w.since calendar now))).insertionSort
      fun first second => second.listUsd ≤ first.listUsd

/-- The rows of a principal since an instant, whatever key they name. -/
def ofPrincipal (principal : Id) (since : ℤ) : List (UsageEvent Id) :=
  ledger.filter fun row => decide (row.principalId = some principal ∧ since ≤ row.occurredAt)

def pointsForPrincipal (principal : Id) (w : UsageWindow) (reference : Option ℚ) (now : ℤ) :
    PrincipalPoints :=
  let rows := ofPrincipal ledger principal (w.since calendar now)
  { points := reference.map fun reference => (rows.map (UsageEvent.points reference)).sum
    unbilledCostUsd := ((rows.filter UsageEvent.unserved).map UsageEvent.costUsd).sum
    totalCostUsd := (rows.map UsageEvent.costUsd).sum
    unservedAttempts := rows.countP UsageEvent.unserved }

/-- The rows that name one of some keys since an instant, each beside its key. -/
def ofKeys (keys : List Id) (since : ℤ) : List (Id × UsageEvent Id) :=
  (ledger.filterMap fun row => row.apiKeyId.map fun key => (key, row)).filter
    fun keyed => decide (keyed.1 ∈ keys ∧ since ≤ keyed.2.occurredAt)

/-- The points of each key that has a row. -/
def pointsForKeys (keys : List Id) (w : UsageWindow) (reference : ℚ) (now : ℤ) :
    List (Id × ℤ) :=
  groupBy Prod.fst
    (fun key rows => (key, (rows.map fun keyed => keyed.2.points reference).sum))
    (ofKeys ledger keys (w.since calendar now))

/-- A key's entry, and zero without one. -/
def entryOf (spent : List (Id × ℤ)) (key : Id) : ℤ :=
  ((spent.find? fun entry => decide (entry.1 = key)).map Prod.snd).getD 0

end Reads

section Sums

variable {Id : Type*} [LinearOrder Id] {calendar : Calendar} {ledger : List (UsageEvent Id)}
  {reference : ℚ} {now : ℤ}

/-- The points of some rows. -/
def earned (reference : ℚ) (rows : List (UsageEvent Id)) : ℤ :=
  (rows.map (UsageEvent.points reference)).sum

theorem keyUsage_points (key : Id) (w : UsageWindow) :
    ((keyUsage calendar ledger key (some reference) now).window w).points =
      some (earned reference (ofKey ledger key (w.since calendar now))) := by
  rw [keyUsage_window]
  rfl

/-- The models of a key share out what its rows earn. -/
theorem keyUsageByModel_points (calendar : Calendar) (ledger : List (UsageEvent Id))
    (reference : ℚ) (now : ℤ) (key : Id) (w : UsageWindow) :
    ∃ spent : List ℤ,
      (keyUsageByModel calendar ledger key w (some reference) now).map ModelUsage.points =
        spent.map some ∧
      spent.sum = earned reference (ofKey ledger key (w.since calendar now)) := by
  unfold keyUsageByModel
  set groups := groupBy (fun row : UsageEvent Id => toLex (row.modelId, row.tier))
    (modelUsage (some reference)) (ofKey ledger key (w.since calendar now)) with hgroups
  refine ⟨(groups.insertionSort fun first second => second.listUsd ≤ first.listUsd).map
    fun usage => usage.points.getD 0, ?_, ?_⟩
  · rw [List.map_map]
    apply List.map_congr_left
    intro usage husage
    rw [List.mem_insertionSort, hgroups] at husage
    obtain ⟨group, -, rfl⟩ := List.mem_map.mp husage
    rfl
  · rw [((List.perm_insertionSort _ groups).map _).sum_eq, hgroups]
    exact sum_groupBy (UsageEvent.points reference) (fun usage : ModelUsage => usage.points.getD 0)
      (fun _ _ => rfl) _

/-- The rows a pool reads for a key are the key's. -/
theorem ofKeys_filter {keys : List Id} {key : Id} (hkey : key ∈ keys) (since : ℤ) :
    ((ofKeys ledger keys since).filter fun keyed => decide (keyed.1 = key)).map Prod.snd =
      ofKey ledger key since := by
  unfold ofKeys ofKey
  induction ledger with
  | nil => rfl
  | cons row ledger ih =>
    cases hrow : row.apiKeyId with
    | none => simpa [hrow] using ih
    | some named =>
      by_cases hnamed : named = key
      · by_cases hsince : since ≤ row.occurredAt
        · simpa [hrow, hnamed, hkey, hsince] using ih
        · simpa [hrow, hnamed, hkey, hsince] using ih
      · by_cases hread : named ∈ keys ∧ since ≤ row.occurredAt
        · simpa [hrow, hnamed, hread] using ih
        · simpa [hrow, hnamed, hread] using ih

/-- A key's entry in a pool is what its rows earn. -/
theorem entryOf_pointsForKeys {keys : List Id} {key : Id} (hkey : key ∈ keys) (w : UsageWindow) :
    entryOf (pointsForKeys calendar ledger keys w reference now) key =
      earned reference (ofKey ledger key (w.since calendar now)) := by
  have hrows : ((ofKeys ledger keys (w.since calendar now)).filter
      fun keyed => decide (keyed.1 = key)).map Prod.snd =
      ofKey ledger key (w.since calendar now) := ofKeys_filter hkey _
  unfold entryOf pointsForKeys earned
  rw [find?_groupBy, ← hrows, List.map_map]
  by_cases hnamed : key ∈ (ofKeys ledger keys (w.since calendar now)).map Prod.fst
  · rw [if_pos hnamed]
    rfl
  · have hnone : (ofKeys ledger keys (w.since calendar now)).filter
        (fun keyed => decide (keyed.1 = key)) = [] := by
      rw [List.filter_eq_nil_iff]
      intro keyed hkeyed heq
      exact hnamed (List.mem_map.mpr ⟨keyed, hkeyed, of_decide_eq_true heq⟩)
    rw [if_neg hnamed, hnone]
    rfl

/-- The keys a principal was issued. -/
def poolOf (apiKeys : List (ApiKey Id)) (principal : Id) : List Id :=
  (apiKeys.filter fun key => decide (key.principalId = principal)).map ApiKey.id

/-- A ledger whose rows name keys that were issued, and their principals. -/
def NamesPrincipals (apiKeys : List (ApiKey Id)) (ledger : List (UsageEvent Id)) : Prop :=
  ∀ row ∈ ledger, ∀ named ∈ row.apiKeyId,
    ∃ key ∈ apiKeys, key.id = named ∧ row.principalId = some key.principalId

/-- The rows of a principal that name no key. -/
def keyless (principal : Id) (since : ℤ) (ledger : List (UsageEvent Id)) : List (UsageEvent Id) :=
  (ofPrincipal ledger principal since).filter fun row => decide (row.apiKeyId = none)

theorem mem_poolOf {apiKeys : List (ApiKey Id)} {principal named : Id} :
    named ∈ poolOf apiKeys principal ↔
      ∃ key ∈ apiKeys, key.id = named ∧ key.principalId = principal := by
  unfold poolOf
  simp only [List.mem_map, List.mem_filter, decide_eq_true_eq]
  constructor
  · rintro ⟨key, ⟨hkey, hprincipal⟩, hid⟩
    exact ⟨key, hkey, hid, hprincipal⟩
  · rintro ⟨key, hkey, hid, hprincipal⟩
    exact ⟨key, ⟨hkey, hprincipal⟩, hid⟩

/-- What a principal's rows name a key of theirs for, that key's rows have. -/
theorem ofPrincipal_filter {apiKeys : List (ApiKey Id)} (hids : (apiKeys.map ApiKey.id).Nodup)
    (hrows : NamesPrincipals apiKeys ledger) {principal named : Id}
    (hnamed : named ∈ poolOf apiKeys principal) (since : ℤ) :
    (ofPrincipal ledger principal since).filter (fun row => decide (row.apiKeyId = some named)) =
      ofKey ledger named since := by
  obtain ⟨key, hkey, hid, hprincipal⟩ := mem_poolOf.mp hnamed
  unfold ofPrincipal ofKey
  rw [List.filter_filter]
  refine List.filter_congr fun row hrow => ?_
  rw [← Bool.decide_and, decide_eq_decide]
  constructor
  · exact fun h => ⟨h.1, h.2.2⟩
  · intro h
    obtain ⟨other, hother, hotherId, hotherPrincipal⟩ := hrows row hrow named h.1
    have hsame : other = key :=
      List.inj_on_of_nodup_map hids hother hkey (hotherId.trans hid.symm)
    rw [hsame, hprincipal] at hotherPrincipal
    exact ⟨h.1, hotherPrincipal, h.2⟩

/-- What a principal's rows earn is what its keys' rows and its keyless rows do. -/
theorem earned_ofPrincipal {apiKeys : List (ApiKey Id)} (hids : (apiKeys.map ApiKey.id).Nodup)
    (hrows : NamesPrincipals apiKeys ledger) (principal : Id) (since : ℤ) :
    earned reference (ofPrincipal ledger principal since) =
      ((poolOf apiKeys principal).map fun key => earned reference (ofKey ledger key since)).sum +
        earned reference (keyless principal since ledger) := by
  have hpool : (poolOf apiKeys principal).Nodup := hids.sublist (List.filter_sublist.map _)
  have hgroups : (none :: (poolOf apiKeys principal).map some).Nodup := by
    refine List.nodup_cons.mpr ⟨?_, hpool.map (Option.some_injective Id)⟩
    simp
  have hcover : ∀ row ∈ ofPrincipal ledger principal since,
      row.apiKeyId ∈ none :: (poolOf apiKeys principal).map some := by
    intro row hrow
    obtain ⟨hledger, hread⟩ := List.mem_filter.mp hrow
    cases hnamed : row.apiKeyId with
    | none => exact List.mem_cons_self
    | some named =>
      obtain ⟨key, hkey, hid, hprincipal⟩ := hrows row hledger named hnamed
      have hsame : key.principalId = principal := by
        rw [(of_decide_eq_true hread).1] at hprincipal
        exact (Option.some.inj hprincipal).symm
      exact List.mem_cons_of_mem _
        (List.mem_map_of_mem (mem_poolOf.mpr ⟨key, hkey, hid, hsame⟩))
  have hsum := sum_map_sum_filter UsageEvent.apiKeyId (UsageEvent.points reference) hgroups _ hcover
  rw [List.map_cons, List.sum_cons, List.map_map, add_comm] at hsum
  unfold earned
  rw [← hsum]
  congr 1
  apply congrArg List.sum
  apply List.map_congr_left
  intro named hnamed
  exact congrArg (fun rows => (rows.map (UsageEvent.points reference)).sum)
    (ofPrincipal_filter hids hrows hnamed since)

end Sums

section Order

variable {Id : Type*} [LinearOrder Id] {calendar : Calendar} {ledger ledger' : List (UsageEvent Id)}

theorem min?_perm {xs ys : List ℤ} (h : xs.Perm ys) : xs.min? = ys.min? := by
  apply Option.ext
  intro least
  rw [List.min?_eq_some_iff, List.min?_eq_some_iff]
  simp only [h.mem_iff]

theorem keyUsage_perm (h : ledger.Perm ledger') (key : Id) (reference : Option ℚ) (w : UsageWindow)
    (now : ℤ) :
    (keyUsage calendar ledger key reference now).window w =
      (keyUsage calendar ledger' key reference now).window w := by
  have hrows : (ofKey ledger key (w.since calendar now)).Perm
      (ofKey ledger' key (w.since calendar now)) := h.filter _
  rw [keyUsage_window, keyUsage_window]
  unfold totals freesAt
  rw [(hrows.map _).sum_eq, (hrows.map UsageEvent.counterfactualApiUsd).sum_eq, hrows.countP_eq,
    min?_perm (hrows.map _)]
  congr 1
  cases reference with
  | none => rfl
  | some reference => exact congrArg some (hrows.map _).sum_eq

omit [LinearOrder Id] in
theorem modelUsage_perm (reference : Option ℚ) (group : String ×ₗ String)
    {rows rows' : List (UsageEvent Id)} (h : rows.Perm rows') :
    modelUsage reference group rows = modelUsage reference group rows' := by
  unfold modelUsage
  rw [h.length_eq, h.countP_eq, (h.map UsageEvent.inputTokens).sum_eq,
    (h.map UsageEvent.outputTokens).sum_eq, (h.map UsageEvent.cacheReadTokens).sum_eq,
    (h.map UsageEvent.cacheWriteTokens).sum_eq, (h.map UsageEvent.costUsd).sum_eq,
    (h.map UsageEvent.counterfactualApiUsd).sum_eq]
  congr 1
  cases reference with
  | none => rfl
  | some reference => exact congrArg some (h.map _).sum_eq

theorem keyUsageByModel_perm (h : ledger.Perm ledger') (key : Id) (w : UsageWindow)
    (reference : Option ℚ) (now : ℤ) :
    keyUsageByModel calendar ledger key w reference now =
      keyUsageByModel calendar ledger' key w reference now := by
  have hrows : (ofKey ledger key (w.since calendar now)).Perm
      (ofKey ledger' key (w.since calendar now)) := h.filter _
  unfold keyUsageByModel
  rw [groupBy_perm hrows fun group _ _ hperm => modelUsage_perm reference group hperm]

theorem pointsForPrincipal_perm (h : ledger.Perm ledger') (principal : Id) (w : UsageWindow)
    (reference : Option ℚ) (now : ℤ) :
    pointsForPrincipal calendar ledger principal w reference now =
      pointsForPrincipal calendar ledger' principal w reference now := by
  have hrows : (ofPrincipal ledger principal (w.since calendar now)).Perm
      (ofPrincipal ledger' principal (w.since calendar now)) := h.filter _
  unfold pointsForPrincipal
  simp only [((hrows.filter _).map UsageEvent.costUsd).sum_eq,
    (hrows.map UsageEvent.costUsd).sum_eq, hrows.countP_eq,
    fun reference => (hrows.map (UsageEvent.points reference)).sum_eq]

theorem pointsForKeys_perm (h : ledger.Perm ledger') (keys : List Id) (w : UsageWindow)
    (reference : ℚ) (now : ℤ) :
    pointsForKeys calendar ledger keys w reference now =
      pointsForKeys calendar ledger' keys w reference now := by
  have hrows : (ofKeys ledger keys (w.since calendar now)).Perm
      (ofKeys ledger' keys (w.since calendar now)) := (h.filterMap _).filter _
  unfold pointsForKeys
  apply groupBy_perm hrows
  intro key keyed keyed' hperm
  rw [(hperm.map _).sum_eq]

/-- A pool is read by what it holds. -/
theorem pointsForKeys_congr {keys keys' : List Id} (h : ∀ key, key ∈ keys ↔ key ∈ keys')
    (w : UsageWindow) (reference : ℚ) (now : ℤ) :
    pointsForKeys calendar ledger keys w reference now =
      pointsForKeys calendar ledger keys' w reference now := by
  unfold pointsForKeys ofKeys
  simp only [h]

end Order

namespace Admin

/-- How many keys one pool read may name. -/
def maxPoolKeys : ℕ := 500

structure PointsInput (Id : Type*) where
  keys : List Id
  window : Option String

structure PoolPoints (Id : Type*) where
  window : String
  keys : List (Id × ℤ)
  total : ℤ

inductive Reply (Id : Type*)
  | invalid (message : String)
  | notFound (message : String)
  | ok (points : PoolPoints Id)

/-- The window a query names, month by default; the sentence for a 400 otherwise. -/
def windowOf (raw : Option String) : Except String UsageWindow :=
  let raw := raw.getD "month"
  match UsageWindow.parse raw with
  | some w => .ok w
  | none => .error ("'" ++ raw ++ "' is not a window; one of 5h, 24h, 7d, month")

variable {Id : Type*} [LinearOrder Id] (calendar : Calendar) (ledger : List (UsageEvent Id))

/-- The keys one by one, under a running total that saturates. -/
def poolPoints (w : UsageWindow) (spent : List (Id × ℤ)) (keys : List Id) : PoolPoints Id where
  window := UsageWindow.asStr w
  keys := keys.map fun key => (key, entryOf spent key)
  total := keys.foldl (fun total key => saturatingAddI64 total (entryOf spent key)) 0

/-- The pool read: keys are counted as they are listed, and read once each. -/
def pointsForKeys (reference : Option ℚ) (body : PointsInput Id) (now : ℤ) : Reply Id :=
  match windowOf body.window with
  | .error message => .invalid message
  | .ok w =>
    if maxPoolKeys < body.keys.length then
      .invalid ("at most " ++ toString maxPoolKeys ++ " keys per read")
    else
      match reference with
      | none => .notFound "no reference price set; PUT /admin/api/points/reference first"
      | some reference =>
        let keys := distinct body.keys
        .ok (poolPoints w (LedgerReads.pointsForKeys calendar ledger keys w reference now) keys)

variable {calendar ledger}

/-- An answered pool read is the pool's points, each key once. -/
theorem pointsForKeys_eq_ok {reference : ℚ} {body : PointsInput Id} {now : ℤ}
    {answered : PoolPoints Id}
    (h : pointsForKeys calendar ledger (some reference) body now = .ok answered) :
    ∃ w, windowOf body.window = .ok w ∧
      answered = poolPoints w
        (LedgerReads.pointsForKeys calendar ledger (distinct body.keys) w reference now)
        (distinct body.keys) := by
  unfold pointsForKeys at h
  cases hwindow : windowOf body.window with
  | error message =>
    rw [hwindow] at h
    cases h
  | ok w =>
    rw [hwindow] at h
    by_cases hmany : maxPoolKeys < body.keys.length
    · simp only [hmany, if_true] at h
      cases h
    · simp only [hmany, if_false, Reply.ok.injEq] at h
      exact ⟨w, rfl, h.symm⟩

/-- However a pool is listed, what is answered of it is the same. -/
theorem pointsForKeys_listing {reference : ℚ} {body body' : PointsInput Id} {now : ℤ}
    {answered answered' : PoolPoints Id} (hwindow : body.window = body'.window)
    (hkeys : ∀ key, key ∈ body.keys ↔ key ∈ body'.keys)
    (h : pointsForKeys calendar ledger (some reference) body now = .ok answered)
    (h' : pointsForKeys calendar ledger (some reference) body' now = .ok answered') :
    answered = answered' := by
  obtain ⟨w, hw, rfl⟩ := pointsForKeys_eq_ok h
  obtain ⟨w', hw', rfl⟩ := pointsForKeys_eq_ok h'
  rw [hwindow, hw', Except.ok.injEq] at hw
  rw [distinct_eq_of_mem_iff hkeys, hw]

theorem pointsForKeys_perm {ledger' : List (UsageEvent Id)} (h : ledger.Perm ledger')
    (reference : Option ℚ) (body : PointsInput Id) (now : ℤ) :
    pointsForKeys calendar ledger reference body now =
      pointsForKeys calendar ledger' reference body now := by
  unfold pointsForKeys
  simp only [LedgerReads.pointsForKeys_perm h]

/-- A listed key is answered with its points. -/
theorem mem_answered {reference : ℚ} {body : PointsInput Id} {now : ℤ} {answered : PoolPoints Id}
    (h : pointsForKeys calendar ledger (some reference) body now = .ok answered)
    {w : UsageWindow} (hw : windowOf body.window = .ok w) {key : Id} (hkey : key ∈ body.keys) :
    (key, earned reference (ofKey ledger key (w.since calendar now))) ∈ answered.keys := by
  obtain ⟨w', hw', rfl⟩ := pointsForKeys_eq_ok h
  rw [hw, Except.ok.injEq] at hw'
  have hlisted : key ∈ distinct body.keys := mem_distinct.mpr hkey
  rw [← hw', ← entryOf_pointsForKeys hlisted w]
  exact List.mem_map.mpr ⟨key, hlisted, rfl⟩

end Admin

/-- Points add up whichever way they are read: a key's panel, its models and its entry in
a pool agree; a principal's are its keys' and its keyless rows'; and no read sees the order
of the rows, nor how a pool is listed. -/
theorem points_add_up {Id : Type*} [LinearOrder Id] (calendar : Calendar)
    (apiKeys : List (ApiKey Id)) (ledger : List (UsageEvent Id)) (reference : ℚ) (w : UsageWindow)
    (now : ℤ) (hids : (apiKeys.map ApiKey.id).Nodup) (hrows : NamesPrincipals apiKeys ledger) :
    (∀ key, ∃ spent : List ℤ,
      (keyUsageByModel calendar ledger key w (some reference) now).map ModelUsage.points =
        spent.map some ∧
      ((keyUsage calendar ledger key (some reference) now).window w).points = some spent.sum) ∧
    (∀ keys, ∀ key ∈ keys,
      ((keyUsage calendar ledger key (some reference) now).window w).points =
        some (entryOf (pointsForKeys calendar ledger keys w reference now) key)) ∧
    (∀ body answered,
      Admin.pointsForKeys calendar ledger (some reference) body now = .ok answered →
      Admin.windowOf body.window = .ok w → ∀ key ∈ body.keys, ∃ points,
        (key, points) ∈ answered.keys ∧
        ((keyUsage calendar ledger key (some reference) now).window w).points = some points) ∧
    (∀ principal,
      (pointsForPrincipal calendar ledger principal w (some reference) now).points =
        some (((poolOf apiKeys principal).map (entryOf (pointsForKeys calendar ledger
            (poolOf apiKeys principal) w reference now))).sum +
          earned reference (keyless principal (w.since calendar now) ledger))) ∧
    (∀ ledger', ledger.Perm ledger' →
      (∀ key, (keyUsage calendar ledger key (some reference) now).window w =
          (keyUsage calendar ledger' key (some reference) now).window w ∧
        keyUsageByModel calendar ledger key w (some reference) now =
          keyUsageByModel calendar ledger' key w (some reference) now) ∧
      (∀ principal, pointsForPrincipal calendar ledger principal w (some reference) now =
        pointsForPrincipal calendar ledger' principal w (some reference) now) ∧
      (∀ keys, pointsForKeys calendar ledger keys w reference now =
        pointsForKeys calendar ledger' keys w reference now) ∧
      ∀ body, Admin.pointsForKeys calendar ledger (some reference) body now =
        Admin.pointsForKeys calendar ledger' (some reference) body now) ∧
    (∀ keys keys', (∀ key, key ∈ keys ↔ key ∈ keys') →
      pointsForKeys calendar ledger keys w reference now =
        pointsForKeys calendar ledger keys' w reference now) ∧
    ∀ body body' answered answered', body.window = body'.window →
      (∀ key, key ∈ body.keys ↔ key ∈ body'.keys) →
      Admin.pointsForKeys calendar ledger (some reference) body now = .ok answered →
      Admin.pointsForKeys calendar ledger (some reference) body' now = .ok answered' →
      answered = answered' := by
  refine ⟨fun key => ?_, fun keys key hkey => ?_, fun body answered h hw key hkey => ?_,
    fun principal => ?_, fun ledger' h => ⟨fun key => ?_, fun principal => ?_, fun keys => ?_,
      fun body => ?_⟩, fun keys keys' h => ?_, fun body body' answered answered' => ?_⟩
  · obtain ⟨spent, hspent, hsum⟩ := keyUsageByModel_points calendar ledger reference now key w
    exact ⟨spent, hspent, by rw [keyUsage_points, hsum]⟩
  · rw [keyUsage_points, entryOf_pointsForKeys hkey]
  · exact ⟨_, Admin.mem_answered h hw hkey, keyUsage_points key w⟩
  · have hentries : (poolOf apiKeys principal).map (entryOf (pointsForKeys calendar ledger
        (poolOf apiKeys principal) w reference now)) =
        (poolOf apiKeys principal).map fun key =>
          earned reference (ofKey ledger key (w.since calendar now)) :=
      List.map_congr_left fun key hkey => entryOf_pointsForKeys hkey w
    rw [hentries, ← earned_ofPrincipal hids hrows]
    rfl
  · exact ⟨keyUsage_perm h key (some reference) w now,
      keyUsageByModel_perm h key w (some reference) now⟩
  · exact pointsForPrincipal_perm h principal w (some reference) now
  · exact pointsForKeys_perm h keys w reference now
  · exact Admin.pointsForKeys_perm h (some reference) body now
  · exact pointsForKeys_congr h w reference now
  · exact Admin.pointsForKeys_listing

/-- A row of principal 0, an hour in. -/
def rowOf (key : Option ℕ) (price : ℚ) : UsageEvent ℕ where
  occurredAt := microsPerHour
  principalId := some 0
  apiKeyId := key
  modelId := "claude-opus-4-5"
  tier := "deep"
  selectionReason := "pinned"
  inputTokens := 0
  outputTokens := 0
  cacheReadTokens := 0
  cacheWriteTokens := 0
  costUsd := 0
  counterfactualApiUsd := price

/-- Two keys' rows and a keyless one, at half a point, are each rounded and then summed. -/
theorem three_halves_make_three :
    let ledger := [rowOf (some 1) (1 / 2000000), rowOf (some 2) (1 / 2000000),
      rowOf none (1 / 2000000)]
    (pointsForPrincipal Gregorian.calendar ledger 0 .day (some 1) (2 * microsPerHour)).points =
      some 3 := by
  intro ledger
  have hrows : NamesPrincipals [⟨1, 0⟩, ⟨2, 0⟩] ledger := by
    intro row hrow named hnamed
    simp only [ledger, List.mem_cons, List.not_mem_nil, or_false] at hrow
    rcases hrow with rfl | rfl | rfl
    · exact ⟨⟨1, 0⟩, List.mem_cons_self, Option.some.inj hnamed, rfl⟩
    · exact ⟨⟨2, 0⟩, List.mem_cons_of_mem _ List.mem_cons_self, Option.some.inj hnamed, rfl⟩
    · cases hnamed
  have hsum := (points_add_up Gregorian.calendar [⟨1, 0⟩, ⟨2, 0⟩] ledger 1 .day
    (2 * microsPerHour) (by decide) hrows).2.2.2.1 0
  rw [hsum]
  decide +kernel

end OpenAIGateway.LedgerReads
