import Mathlib.Data.List.Infix
import Mathlib.Tactic.Common

/-!
Reading a document page after page. A page names the next one or is the last;
the reader keeps the pages it has, stops at a limit and does not follow a
cursor twice. What it returns is a complete walk of the answers or nothing.
-/

set_option linter.all false

namespace OpenAIGateway.Pager

variable {P C K ε : Type*} [DecidableEq K]

/-- How pages are followed: the link a page names, what of it must not repeat, the
most pages, and the errors of a walk that does not end. -/
structure Policy (P C K ε : Type*) where
  next : P → Except ε (Option C)
  key : C → K
  limit : ℕ
  pastLimit : ε
  repeated : ε
  gone : ε

/-- The links asked for and what came of it. -/
structure Walk (P C ε : Type*) where
  asked : List C
  result : Except ε (List P)

namespace Policy

variable (p : Policy P C K ε)

/-- From a page on, with the pages before it and the cursors followed so far. -/
def follow : List (Except ε P) → List P → List K → P → Walk P C ε
  | answers, read, seen, page =>
    match p.next page with
    | .error e => ⟨[], .error e⟩
    | .ok none => ⟨[], .ok (read ++ [page])⟩
    | .ok (some link) =>
      if p.limit ≤ read.length + 1 then ⟨[], .error p.pastLimit⟩
      else if p.key link ∈ seen then ⟨[], .error p.repeated⟩
      else
        match answers with
        | [] => ⟨[link], .error p.gone⟩
        | .error e :: _ => ⟨[link], .error e⟩
        | .ok following :: answers =>
          let walk := follow answers (read ++ [page]) (p.key link :: seen) following
          { walk with asked := link :: walk.asked }

/-- Each page but the last names the next one, by cursors that do not repeat, and the last none. -/
def Complete : List K → List P → Prop
  | _, [] => False
  | _, [page] => p.next page = .ok none
  | seen, page :: following :: pages =>
    ∃ link, p.next page = .ok (some link) ∧ p.key link ∉ seen ∧
      Complete (p.key link :: seen) (following :: pages)

variable {p}

omit [DecidableEq K] in
/-- The last page names no next one. -/
theorem Complete.last {seen : List K} {pages : List P} (h : p.Complete seen pages) :
    ∃ page, pages.getLast? = some page ∧ p.next page = .ok none := by
  induction pages generalizing seen with
  | nil => exact absurd h id
  | cons page pages ih =>
    cases pages with
    | nil => exact ⟨page, rfl, h⟩
    | cons following pages =>
      obtain ⟨link, -, -, hrest⟩ := h
      obtain ⟨page', hlast, hnext⟩ := ih hrest
      exact ⟨page', by rw [List.getLast?_cons_cons, hlast], hnext⟩

/-- What a walk returns is complete, within the limit, and what was answered. -/
theorem of_follow_eq_ok {answers : List (Except ε P)} {read : List P} {seen : List K} {page : P}
    {pages : List P} (h : (p.follow answers read seen page).result = .ok pages) :
    ∃ more, pages = read ++ page :: more ∧ more.map .ok <+: answers ∧
      p.Complete seen (page :: more) ∧ (more = [] ∨ read.length + 1 + more.length ≤ p.limit) := by
  induction answers generalizing read seen page with
  | nil =>
    rw [follow] at h
    cases hnext : p.next page with
    | error e => simp [hnext] at h
    | ok link =>
      cases link with
      | none =>
        simp only [hnext, Except.ok.injEq] at h
        exact ⟨[], h.symm, List.nil_prefix, hnext, Or.inl rfl⟩
      | some link =>
        simp only [hnext] at h
        split_ifs at h
  | cons answer answers ih =>
    rw [follow] at h
    cases hnext : p.next page with
    | error e => simp [hnext] at h
    | ok link =>
      cases link with
      | none =>
        simp only [hnext, Except.ok.injEq] at h
        exact ⟨[], h.symm, List.nil_prefix, hnext, Or.inl rfl⟩
      | some link =>
        simp only [hnext] at h
        split_ifs at h with hlimit hseen
        cases answer with
        | error e => cases h
        | ok following =>
          obtain ⟨more, rfl, hanswered, hcomplete, hlen⟩ := ih h
          rw [List.length_append, List.length_singleton] at hlen
          refine ⟨following :: more, by simp, ?_, ⟨link, hnext, hseen, hcomplete⟩, Or.inr ?_⟩
          · rw [List.map_cons]
            exact (List.prefix_cons_inj _).mpr hanswered
          · rw [List.length_cons]
            rcases hlen with rfl | hlen
            · simp only [List.length_nil]
              omega
            · omega

/-- A complete walk within the limit is returned. -/
theorem follow_of_complete {answers : List (Except ε P)} {read more : List P} {seen : List K}
    {page : P} (hanswered : more.map .ok <+: answers) (hcomplete : p.Complete seen (page :: more))
    (hlen : more = [] ∨ read.length + 1 + more.length ≤ p.limit) :
    (p.follow answers read seen page).result = .ok (read ++ page :: more) := by
  induction more generalizing answers read seen page with
  | nil =>
    have hnext : p.next page = .ok none := hcomplete
    rw [follow.eq_def]
    simp only [hnext]
  | cons following more ih =>
    obtain ⟨link, hnext, hseen, hrest⟩ := hcomplete
    obtain ⟨answers, rfl⟩ := hanswered
    have hlen : read.length + 1 + (more.length + 1) ≤ p.limit := by simpa using hlen
    have hlimit : ¬ p.limit ≤ read.length + 1 := by omega
    have hleft : more = [] ∨ (read ++ [page]).length + 1 + more.length ≤ p.limit := by
      rw [List.length_append, List.length_singleton]
      omega
    have hwalk := ih (List.prefix_append (more.map .ok) answers) hrest hleft
    rw [List.append_assoc, List.singleton_append] at hwalk
    rw [follow.eq_def]
    simp only [hnext, if_neg hlimit, if_neg hseen, List.map_cons, List.cons_append]
    exact hwalk

/-- No walk asks for more pages than the limit leaves. -/
theorem length_asked_follow (answers : List (Except ε P)) (read : List P) (seen : List K)
    (page : P) : (p.follow answers read seen page).asked.length ≤ p.limit - (read.length + 1) := by
  induction answers generalizing read seen page with
  | nil =>
    rw [follow]
    split
    · simp
    · simp
    · split_ifs
      · simp
      · simp
      · simp only [List.length_singleton]
        omega
  | cons answer answers ih =>
    rw [follow]
    split
    next => simp
    next => simp
    next link _ =>
      split_ifs
      · simp
      · simp
      · cases answer with
        | error e =>
          simp only [List.length_singleton]
          omega
        | ok following =>
          have hwalk := ih (read ++ [page]) (p.key link :: seen) following
          rw [List.length_append, List.length_singleton] at hwalk
          simp only [List.length_cons]
          omega

end Policy

end OpenAIGateway.Pager
