import OpenAIGateway.Listing

/-!
A list that cannot be read to its end is an error, never a shorter list. This
holds of discovery always. The priced reader takes a later page that is not a
list for one without entries, and then returns a shorter list.
-/

set_option linter.all false

namespace OpenAIGateway.ModelList

open Pager.Policy

/-- Every page is a list, and the last names no next one. -/
structure Whole (read : List Json) : Prop where
  lists : ∀ page ∈ read, items page ≠ none
  last : ∃ page, read.getLast? = some page ∧ nextPage page = .ok none

/-- The callable named ids of some entries, each once. -/
def servedIds (entries : List Json) : List String :=
  Naming.firstSeen ((entries.filter callable).filterMap modelId)

/-- Discovery answers with the whole list or not at all. -/
def ServedWhole (url : Url) (answers : List PageAnswer) : Prop :=
  ∀ listing, served url answers = .ok listing → ∃ read,
    (readPages none answers).result = .ok read ∧ Whole read ∧
      listing = ⟨url, read.length, servedIds (read.flatMap entries)⟩

/-- The priced reader answers with the whole list or not at all. -/
def PricedWhole (amounts : Amounts) (candidates : List Url) (answers : List PageAnswer) : Prop :=
  ∀ listing, priced amounts candidates answers = .ok listing → ∃ url read,
    pricedPages candidates answers {} = .ok (url, read) ∧ Whole read ∧
      listing = ⟨url, read.length, (read.flatMap entries).map (listedModel amounts)⟩

/-- The first priced page among the answers at some URLs, and the answers after it. -/
def firstPriced : List Url → List PageAnswer → Option (Json × List PageAnswer)
  | _ :: urls, .ok page :: answers =>
    if shape page = .priced then some (page, answers) else firstPriced urls answers
  | _ :: urls, .error _ :: answers => firstPriced urls answers
  | _, _ => none

/-- No complete walk from the first priced page has a page that is not a list. -/
def Readable (candidates : List Url) (answers : List PageAnswer) : Prop :=
  ∀ first rest more, firstPriced candidates answers = some (first, rest) →
    more.map .ok <+: rest → pages.Complete [] (first :: more) → more.length < maxPages →
    ∀ page ∈ more, items page ≠ none

theorem of_readPages_some {first : Json} {answers : List PageAnswer} {read : List Json}
    (h : (readPages (some first) answers).result = .ok read) :
    ∃ more, read = first :: more ∧ more.map .ok <+: answers ∧
      pages.Complete [] (first :: more) ∧ more.length < maxPages := by
  obtain ⟨more, rfl, hanswered, hcomplete, hlen⟩ := of_follow_eq_ok h
  refine ⟨more, rfl, hanswered, hcomplete, ?_⟩
  have hlimit : pages.limit = maxPages := rfl
  have hmax : maxPages = 20 := rfl
  rcases hlen with rfl | hlen
  · simp only [List.length_nil]
    omega
  · simp only [List.length_nil] at hlen
    omega

theorem readPages_some_of_complete {first : Json} {answers : List PageAnswer} {more : List Json}
    (hanswered : more.map .ok <+: answers) (hcomplete : pages.Complete [] (first :: more))
    (hlen : more.length < maxPages) :
    (readPages (some first) answers).result = .ok (first :: more) := by
  have hlimit : pages.limit = maxPages := rfl
  apply follow_of_complete hanswered hcomplete
  right
  simp only [List.length_nil]
  omega

/-- A walk that ends has read a complete list. -/
theorem complete_of_readPages {fetched : Option Json} {answers : List PageAnswer}
    {read : List Json} (h : (readPages fetched answers).result = .ok read) :
    pages.Complete [] read := by
  cases fetched with
  | some first =>
    obtain ⟨more, rfl, -, hcomplete, -⟩ := of_readPages_some h
    exact hcomplete
  | none =>
    cases answers with
    | nil => cases h
    | cons answer answers =>
      cases answer with
      | error e => cases h
      | ok first =>
        obtain ⟨more, rfl, -, hcomplete, -⟩ := of_readPages_some h
        exact hcomplete

/-- A read asks for at most the limit of pages, whatever cursors they name. -/
theorem length_requested_readPages (first : Url) (fetched : Option Json)
    (answers : List PageAnswer) :
    (requested first (readPages fetched answers)).length ≤ maxPages := by
  have hlimit : pages.limit = maxPages := rfl
  have hmax : maxPages = 20 := rfl
  have hfollow : ∀ answers page, (pages.follow answers [] [] page).asked.length + 1 ≤ maxPages := by
    intro answers page
    have h := length_asked_follow (p := pages) answers [] [] page
    rw [List.length_nil] at h
    omega
  unfold requested
  rw [List.length_cons, List.length_map]
  cases fetched with
  | some page => exact hfollow answers page
  | none =>
    cases answers with
    | nil =>
      change 0 + 1 ≤ maxPages
      omega
    | cons answer answers =>
      cases answer with
      | error e =>
        change 0 + 1 ≤ maxPages
        omega
      | ok page => exact hfollow answers page

/-- Naming the entries first and keeping the callable ones after is the same. -/
theorem map_filter_named (found : List Json) :
    ((found.filterMap named).filter (fun entry => callable entry.1)).map Prod.snd =
      (found.filter callable).filterMap modelId := by
  induction found with
  | nil => rfl
  | cons item found ih =>
    cases hid : modelId item with
    | none =>
      have hnamed : named item = none := by rw [named, hid, Option.map_none]
      rw [List.filterMap_cons_none hnamed, ih, List.filter_cons]
      by_cases hcall : callable item = true
      · rw [if_pos hcall, List.filterMap_cons_none hid]
      · rw [if_neg hcall]
    | some id =>
      have hnamed : named item = some (item, id) := by rw [named, hid, Option.map_some]
      rw [List.filterMap_cons_some hnamed, List.filter_cons, List.filter_cons]
      by_cases hcall : callable item = true
      · rw [if_pos hcall, if_pos hcall, List.filterMap_cons_some hid, List.map_cons, ih]
      · rw [if_neg hcall, if_neg hcall, ih]

/-- What discovery takes of a page. -/
theorem of_pageIds {page : Json} {ids : List String} (h : pageIds page = .ok ids) :
    items page ≠ none ∧ ids = ((entries page).filter callable).filterMap modelId := by
  unfold pageIds at h
  cases hitems : items page with
  | none => simp [hitems] at h
  | some found =>
    refine ⟨Option.some_ne_none found, ?_⟩
    simp only [hitems] at h
    split_ifs at h
    cases h
    unfold entries
    rw [hitems, Option.getD_some, map_filter_named]

/-- And of every page of a list. -/
theorem of_mapM_pageIds {read : List Json} {ids : List (List String)}
    (h : read.mapM pageIds = .ok ids) :
    (∀ page ∈ read, items page ≠ none) ∧
      ids.flatten = ((read.flatMap entries).filter callable).filterMap modelId := by
  induction read generalizing ids with
  | nil =>
    rw [List.mapM_nil] at h
    cases h
    simp
  | cons page read ih =>
    rw [List.mapM_cons] at h
    cases hpage : pageIds page with
    | error e => rw [hpage] at h; cases h
    | ok first =>
      cases hrest : read.mapM pageIds with
      | error e => rw [hpage, hrest] at h; cases h
      | ok others =>
        rw [hpage, hrest] at h
        cases h
        obtain ⟨hlist, rfl⟩ := of_pageIds hpage
        obtain ⟨hlists, hothers⟩ := ih hrest
        constructor
        · intro other hother
          rcases List.mem_cons.mp hother with rfl | hother
          · exact hlist
          · exact hlists other hother
        · rw [List.flatten_cons, hothers, List.flatMap_cons, List.filter_append,
            List.filterMap_append]

/-- Discovery never answers with a part of a list. -/
theorem servedWhole (url : Url) (answers : List PageAnswer) : ServedWhole url answers := by
  intro listing h
  unfold served at h
  cases hread : (readPages none answers).result with
  | error e => simp [hread] at h
  | ok read =>
    cases hids : read.mapM pageIds with
    | error e => simp [hread, hids] at h
    | ok ids =>
      simp only [hread, hids, Except.ok.injEq] at h
      obtain ⟨hlists, hflat⟩ := of_mapM_pageIds hids
      refine ⟨read, rfl, ⟨hlists, (complete_of_readPages hread).last⟩, ?_⟩
      rw [← h, hflat]
      rfl

/-- The list the priced reader settles on is the one at the first priced page. -/
theorem pricedPages_eq_ok {candidates : List Url} {answers : List PageAnswer} {tried : Tried}
    {url : Url} {read : List Json} (h : pricedPages candidates answers tried = .ok (url, read)) :
    ∃ first rest, firstPriced candidates answers = some (first, rest) ∧
      (readPages (some first) rest).result = .ok read := by
  induction candidates generalizing answers tried with
  | nil => cases h
  | cons candidate candidates ih =>
    cases answers with
    | nil =>
      obtain ⟨first, rest, hfirst, -⟩ := ih h
      cases candidates <;> cases hfirst
    | cons answer answers =>
      cases answer with
      | error e => exact ih h
      | ok page =>
        rw [pricedPages] at h
        rw [firstPriced]
        cases hshape : shape page with
        | priced =>
          simp only [hshape] at h
          cases hread : (readPages (some page) answers).result with
          | error e => rw [hread] at h; cases h
          | ok found =>
            rw [hread] at h
            cases h
            exact ⟨page, answers, if_pos rfl, hread⟩
        | unpriced | empty | notAList =>
          simp only [hshape] at h
          rw [if_neg (by decide)]
          exact ih h

/-- Where there is a priced page and its walk ends, that is what is returned. -/
theorem pricedPages_of_firstPriced {candidates : List Url} {answers rest : List PageAnswer}
    {first : Json} {read : List Json} (hfirst : firstPriced candidates answers = some (first, rest))
    (hread : (readPages (some first) rest).result = .ok read) (tried : Tried) :
    ∃ url, pricedPages candidates answers tried = .ok (url, read) := by
  induction candidates generalizing answers tried with
  | nil => cases answers <;> cases hfirst
  | cons candidate candidates ih =>
    cases answers with
    | nil => cases hfirst
    | cons answer answers =>
      cases answer with
      | error e => exact ih hfirst _
      | ok page =>
        rw [firstPriced] at hfirst
        rw [pricedPages]
        cases hshape : shape page with
        | priced =>
          rw [if_pos hshape] at hfirst
          cases hfirst
          exact ⟨_, by simp only [hread]; rfl⟩
        | unpriced | empty | notAList =>
          rw [if_neg (by rw [hshape]; decide)] at hfirst
          exact ih hfirst _

theorem items_ne_none_of_priced {page : Json} (h : shape page = .priced) : items page ≠ none := by
  intro hnone
  simp [shape, hnone] at h

theorem shape_of_firstPriced {candidates : List Url} {answers rest : List PageAnswer}
    {first : Json} (h : firstPriced candidates answers = some (first, rest)) :
    shape first = .priced := by
  induction candidates generalizing answers with
  | nil => cases answers <;> cases h
  | cons candidate candidates ih =>
    cases answers with
    | nil => cases h
    | cons answer answers =>
      cases answer with
      | error e => exact ih h
      | ok page =>
        rw [firstPriced] at h
        by_cases hshape : shape page = .priced
        · rw [if_pos hshape] at h
          cases h
          exact hshape
        · rw [if_neg hshape] at h
          exact ih h

/-- The priced reader answers with whole lists alone exactly where no walk it
completes has a later page that is not a list. -/
theorem pricedWhole_iff_readable (amounts : Amounts) (candidates : List Url)
    (answers : List PageAnswer) :
    PricedWhole amounts candidates answers ↔ Readable candidates answers := by
  have hpriced : ∀ url read, pricedPages candidates answers {} = .ok (url, read) →
      priced amounts candidates answers =
        .ok ⟨url, read.length, (read.flatMap entries).map (listedModel amounts)⟩ := by
    intro url read h
    unfold priced
    rw [h]
    simp only [Except.map, List.map_flatMap]
    rfl
  constructor
  · intro hwhole first rest more hfirst hanswered hcomplete hlen page hpage
    have hread := readPages_some_of_complete hanswered hcomplete hlen
    obtain ⟨url, hpages⟩ := pricedPages_of_firstPriced hfirst hread {}
    obtain ⟨url', read', hpages', hlists, -⟩ := hwhole _ (hpriced url _ hpages)
    rw [hpages] at hpages'
    cases hpages'
    exact hlists.lists page (List.mem_cons_of_mem first hpage)
  · intro hreadable listing h
    cases hpages : pricedPages candidates answers {} with
    | error e =>
      unfold priced at h
      rw [hpages] at h
      cases h
    | ok found =>
      obtain ⟨url, read⟩ := found
      rw [hpriced url read hpages] at h
      obtain ⟨first, rest, hfirst, hread⟩ := pricedPages_eq_ok hpages
      obtain ⟨more, rfl, hanswered, hcomplete, hlen⟩ := of_readPages_some hread
      refine ⟨url, first :: more, rfl, ⟨?_, hcomplete.last⟩, (Except.ok.inj h).symm⟩
      intro page hpage
      rcases List.mem_cons.mp hpage with rfl | hpage
      · exact items_ne_none_of_priced (shape_of_firstPriced hfirst)
      · exact hreadable first rest more hfirst hanswered hcomplete hlen page hpage

/-- The two readers and their pager, for every answers an endpoint may give. -/
def NeverShorter (amounts : Amounts) (url : Url) (answers : List PageAnswer)
    (candidates : List Url) (pricedAnswers : List PageAnswer) : Prop :=
  ServedWhole url answers ∧ PricedWhole amounts candidates pricedAnswers ∧
    ∀ first fetched answers, (requested first (readPages fetched answers)).length ≤ maxPages

theorem neverShorter_iff_readable (amounts : Amounts) (url : Url) (answers : List PageAnswer)
    (candidates : List Url) (pricedAnswers : List PageAnswer) :
    NeverShorter amounts url answers candidates pricedAnswers ↔
      Readable candidates pricedAnswers := by
  unfold NeverShorter
  rw [pricedWhole_iff_readable]
  constructor
  · intro h
    exact h.2.1
  · intro h
    exact ⟨servedWhole url answers, h, length_requested_readPages⟩

def modelsUrl : Url := ⟨"https://merge.example/v1/models", []⟩

/-- A priced page that names a second one. -/
def firstPage : Json := .obj [("data", .arr [.obj [("model", .str "glm"), ("vendors", .obj [])]]),
  ("has_more", .bool true), ("next_cursor", .str "2")]

/-- An error said with a 200. -/
def errorPage : Json := .obj [("error", .str "overloaded")]

/-- Amounts of a list that states none. -/
def noAmounts : Amounts := ⟨fun _ => "", fun _ => none, id⟩

/-- The second page is an error, and the first is returned as the whole list. -/
theorem errorPage_shortens :
    ¬ NeverShorter noAmounts modelsUrl [] [modelsUrl] [.ok firstPage, .ok errorPage] := by
  rw [neverShorter_iff_readable]
  intro h
  refine h firstPage [.ok errorPage] [errorPage] rfl (List.prefix_refl _) ?_ (by decide) errorPage
    (List.mem_singleton_self _) rfl
  exact ⟨("cursor", "2"), rfl, List.not_mem_nil, rfl⟩

end OpenAIGateway.ModelList
