import OpenAIGateway.Marking
import OpenAIGateway.UsagePlan

/-!
Which model an import prices a slug against: the one row of the provider that
answers to it, whatever order the catalogue is read in.
-/

set_option linter.all false

namespace OpenAIGateway.UsageImport.Prices

/-- A row answers to its upstream name, to its id and to the last segment of its id. -/
def answersTo (row : ModelRow) : List String := [row.upstreamName, row.id, slugTail row.id]

/-- Every name of every row of a provider, with what it would be priced as. -/
def names (rows : List ModelRow) (provider : String) : List (String × (String × Pricing)) :=
  (rows.filter (fun row => row.provider = provider)).flatMap
    (fun row => (answersTo row).map (fun key => (key, ofRow row)))

theorem name_eq_mark (row : ModelRow) (prices : Marking.Index String (String × Pricing))
    (key : String) : name row prices key = Marking.mark Prod.fst prices (key, ofRow row) := by
  unfold Marking.mark
  cases hkey : prices key with
  | none =>
    unfold name
    rw [hkey]
    rfl
  | some entry =>
    have hname : name row prices key = if entry.any (fun e => e.1 ≠ row.id) then
        Function.update prices key (some none) else prices := by
      unfold name
      rw [hkey]
      rfl
    have hclaim : Marking.claim Prod.fst (some entry) (ofRow row) =
        if entry.any (fun e => e.1 ≠ row.id) then some none else some entry := rfl
    rw [hname, hclaim]
    split
    · rfl
    · rw [← hkey, Function.update_eq_self]

theorem foldl_name (row : ModelRow) (keys : List String)
    (prices : Marking.Index String (String × Pricing)) :
    keys.foldl (name row) prices =
      (keys.map (fun key => (key, ofRow row))).foldl (Marking.mark Prod.fst) prices := by
  induction keys generalizing prices with
  | nil => rfl
  | cons key keys ih =>
    change keys.foldl (name row) (name row prices key) =
      (keys.map (fun key => (key, ofRow row))).foldl (Marking.mark Prod.fst)
        (Marking.mark Prod.fst prices (key, ofRow row))
    rw [← name_eq_mark]
    exact ih _

theorem foldl_rows (rows : List ModelRow) (prices : Marking.Index String (String × Pricing)) :
    rows.foldl (fun prices row => (answersTo row).foldl (name row) prices) prices =
      (rows.flatMap (fun row => (answersTo row).map (fun key => (key, ofRow row)))).foldl
        (Marking.mark Prod.fst) prices := by
  induction rows generalizing prices with
  | nil => rfl
  | cons row rows ih =>
    rw [List.flatMap_cons, List.foldl_append, ← foldl_name]
    exact ih _

theorem index_eq_mark (rows : List ModelRow) (provider : String) :
    index rows provider = (names rows provider).foldl (Marking.mark Prod.fst) (fun _ => none) :=
  foldl_rows (rows.filter (fun row => row.provider = provider)) (fun _ => none)

theorem mem_names {rows : List ModelRow} {provider slug : String} {m : String × Pricing} :
    (slug, m) ∈ names rows provider ↔
      ∃ row ∈ rows, row.provider = provider ∧ slug ∈ answersTo row ∧ ofRow row = m := by
  unfold names
  simp only [List.mem_flatMap, List.mem_filter, List.mem_map, decide_eq_true_eq, Prod.mk.injEq]
  constructor
  · rintro ⟨row, ⟨hrow, hprovider⟩, key, hkey, rfl, rfl⟩
    exact ⟨row, hrow, hprovider, hkey, rfl⟩
  · rintro ⟨row, hrow, hprovider, hkey, rfl⟩
    exact ⟨row, ⟨hrow, hprovider⟩, slug, hkey, rfl, rfl⟩

/-- With distinct ids, rows of one id are one row. -/
theorem eq_of_id_eq {rows : List ModelRow} (hids : (rows.map (·.id)).Nodup) {a b : ModelRow}
    (ha : a ∈ rows) (hb : b ∈ rows) (h : a.id = b.id) : a = b :=
  List.inj_on_of_nodup_map hids ha hb h

/-- A slug is priced exactly when one row of the provider answers to it, and as that row is. -/
theorem get_index_eq_some_iff (rows order : List ModelRow) (provider slug : String)
    (m : String × Pricing) (hids : (rows.map (·.id)).Nodup) (horder : order.Perm rows) :
    (index order provider).get slug = some m ↔
      ∃ row ∈ rows, ofRow row = m ∧ ∀ other ∈ rows,
        other.provider = provider ∧ slug ∈ answersTo other ↔ other = row := by
  have hident : ∀ a ∈ Marking.claimants (names order provider) slug,
      ∀ b ∈ Marking.claimants (names order provider) slug, a.1 = b.1 → a = b := by
    intro a ha b hb hid
    obtain ⟨ra, hra, -, -, rfl⟩ := mem_names.mp (Marking.mem_claimants.mp ha)
    obtain ⟨rb, hrb, -, -, rfl⟩ := mem_names.mp (Marking.mem_claimants.mp hb)
    rw [eq_of_id_eq hids (horder.mem_iff.mp hra) (horder.mem_iff.mp hrb) hid]
  rw [index_eq_mark]
  apply (Marking.foldl_mark_eq_some_iff hident).trans
  simp only [mem_names, horder.mem_iff]
  constructor
  · rintro ⟨⟨row, hrow, hprovider, hslug, rfl⟩, honly⟩
    refine ⟨row, hrow, rfl, ?_⟩
    intro other hother
    constructor
    · rintro ⟨hp, hs⟩
      have hsame := honly _ ⟨other, hother, hp, hs, rfl⟩
      exact eq_of_id_eq hids hother hrow (congrArg Prod.fst hsame)
    · rintro rfl
      exact ⟨hprovider, hslug⟩
  · rintro ⟨row, hrow, rfl, honly⟩
    obtain ⟨hprovider, hslug⟩ := (honly row hrow).mpr rfl
    refine ⟨⟨row, hrow, hprovider, hslug, rfl⟩, ?_⟩
    rintro _ ⟨other, hother, hp, hs, rfl⟩
    rw [(honly other hother).mp ⟨hp, hs⟩]

def xaiRow (id upstreamName : String) : ModelRow where
  id := id
  provider := "xai"
  upstreamName := upstreamName
  inputPerMtok := .new 3 0
  outputPerMtok := .new 15 0
  cacheReadPerMtok := none
  cacheWritePerMtok := none
  contextWindow := 256000
  maxOutputTokens := 64000
  supportsVision := false
  supportsTools := true
  supportsReasoning := true
  supportsPromptCache := false
  displayLabel := none

/-- Two rows read against their order; `grok-4` alone would be both. -/
theorem get_index_of_upstreamName :
    let newest := xaiRow "xai/grok-4" "grok-4-0709"
    let pinned := xaiRow "xai/grok-4-fast" "grok-4"
    ([newest, pinned].map (·.id)).Nodup ∧ [pinned, newest].Perm [newest, pinned] ∧
      (index [pinned, newest] "xai").get "grok-4-0709" = some (ofRow newest) := by
  intro newest pinned
  have hids : ([newest, pinned].map (·.id)).Nodup := by decide
  have horder : [pinned, newest].Perm [newest, pinned] := List.Perm.swap ..
  have hother : ¬ "grok-4-0709" ∈ answersTo pinned := by decide
  refine ⟨hids, horder, ?_⟩
  apply (get_index_eq_some_iff [newest, pinned] [pinned, newest] "xai" "grok-4-0709"
    (ofRow newest) hids horder).mpr
  refine ⟨newest, List.mem_cons_self, rfl, ?_⟩
  intro other hmem
  rcases List.mem_pair.mp hmem with rfl | rfl
  · exact iff_of_true ⟨rfl, List.mem_cons_self⟩ rfl
  · exact iff_of_false (fun h => hother h.2) (by decide)

end OpenAIGateway.UsageImport.Prices
