import Mathlib.Data.List.Induction
import Mathlib.Data.List.Nodup
import Mathlib.Tactic.Common

/-!
Lifecycles of numbered items: each is opened once, used while it is open and
closed once. A trace is well formed when every action is allowed after the
actions before it. The same condition is decided by a checker that carries
the next free number and the items open so far. Nothing here knows what the
items are; a kind is attached to each when it opens, and a use or a close
that says a kind must say that one.
-/

set_option linter.all false

namespace OpenAIGateway.Lifecycle

variable {K : Type*}

/-- A close may say what it closes, or only which number. -/
inductive Act (K : Type*)
  | opened (index : ℕ) (kind : K)
  | used (index : ℕ) (kind : K)
  | closed (index : ℕ) (said : Option K)
  deriving DecidableEq

def Act.openedIndex? : Act K → Option ℕ
  | .opened index _ => some index
  | _ => none

/-- The numbers opened by a trace, in order. -/
def opens (acts : List (Act K)) : List ℕ := acts.filterMap Act.openedIndex?

/-- Item `i` was opened as a `k` and has not been closed. -/
def OpenIn (acts : List (Act K)) (i : ℕ) (k : K) : Prop :=
  .opened i k ∈ acts ∧ ∀ said, .closed i said ∉ acts

/-- What may follow `acts`: the next number opens, and only an open item is
used or closed. -/
def Allowed (acts : List (Act K)) : Act K → Prop
  | .opened i _ => i = (opens acts).length
  | .used i k => OpenIn acts i k
  | .closed i said => ∃ k, OpenIn acts i k ∧ (said = none ∨ said = some k)

def WellFormed (acts : List (Act K)) : Prop :=
  ∀ pre a post, acts = pre ++ a :: post → Allowed pre a

/-- Every item opened is closed somewhere in the trace. -/
def AllClosed (acts : List (Act K)) : Prop :=
  ∀ i k, .opened i k ∈ acts → ∃ said, .closed i said ∈ acts

theorem wellFormed_nil : WellFormed ([] : List (Act K)) := by
  intro pre a post h
  simp at h

theorem wellFormed_snoc (acts : List (Act K)) (a : Act K) :
    WellFormed (acts ++ [a]) ↔ WellFormed acts ∧ Allowed acts a := by
  constructor
  · intro h
    refine ⟨?_, h acts a [] rfl⟩
    intro pre b post heq
    exact h pre b (post ++ [a]) (by simp [heq])
  · rintro ⟨h, ha⟩ pre b post heq
    rcases List.eq_nil_or_concat' post with rfl | ⟨rest, c, rfl⟩
    · obtain ⟨rfl, hb⟩ := List.append_inj' heq rfl
      cases hb
      exact ha
    · rw [← List.cons_append, ← List.append_assoc] at heq
      exact h pre b rest (List.append_inj' heq rfl).1

theorem opens_snoc (acts : List (Act K)) (a : Act K) :
    opens (acts ++ [a]) = opens acts ++ a.openedIndex?.toList := by
  unfold opens
  rw [List.filterMap_append]
  cases a <;> rfl

/-- Numbers are fresh and consecutive: the trace opens `0, 1, 2, …`. -/
theorem WellFormed.opens_eq_range {acts : List (Act K)} (h : WellFormed acts) :
    opens acts = List.range (opens acts).length := by
  induction acts using List.reverseRecOn with
  | nil => rfl
  | append_singleton acts a ih =>
    obtain ⟨hacts, ha⟩ := (wellFormed_snoc acts a).mp h
    rw [opens_snoc]
    cases a with
    | opened i k =>
      have hi : i = (opens acts).length := ha
      simp only [Act.openedIndex?, Option.toList_some, List.length_append, List.length_singleton,
        List.range_succ]
      rw [← ih hacts, hi]
    | used i k => simpa [Act.openedIndex?] using ih hacts
    | closed i said => simpa [Act.openedIndex?] using ih hacts

/-- A closed item is not closed again later in the trace. -/
theorem WellFormed.closed_once {acts : List (Act K)} (h : WellFormed acts)
    (pre mid post : List (Act K)) (i : ℕ) (said said' : Option K)
    (heq : acts = pre ++ .closed i said :: mid ++ .closed i said' :: post) : False := by
  obtain ⟨k, hopen, -⟩ := h (pre ++ .closed i said :: mid) (.closed i said') post heq
  exact hopen.2 said (by simp)

/-- The checker's state: the next free number and the items open now. -/
structure Live (K : Type*) where
  next : ℕ
  items : List (ℕ × K)

def Live.empty : Live K := ⟨0, []⟩

/-- The state a trace leads to holds exactly the items it leaves open. -/
structure Tracks (acts : List (Act K)) (s : Live K) : Prop where
  next_eq : s.next = (opens acts).length
  mem_items : ∀ i k, (i, k) ∈ s.items ↔ OpenIn acts i k
  closed_lt : ∀ i said, .closed i said ∈ acts → i < s.next
  opened_lt : ∀ i k, .opened i k ∈ acts → i < s.next

theorem tracks_nil : Tracks ([] : List (Act K)) Live.empty where
  next_eq := rfl
  mem_items := by simp [Live.empty, OpenIn]
  closed_lt := by simp
  opened_lt := by simp

theorem Tracks.opened {acts : List (Act K)} {s : Live K} (h : Tracks acts s) (k : K) :
    Tracks (acts ++ [.opened s.next k]) ⟨s.next + 1, s.items ++ [(s.next, k)]⟩ where
  next_eq := by simp [opens_snoc, Act.openedIndex?, h.next_eq]
  mem_items i k' := by
    have hfresh : ∀ said, Act.closed s.next said ∉ acts := by
      intro said hmem
      exact absurd (h.closed_lt s.next said hmem) (Nat.lt_irrefl _)
    simp only [List.mem_append, List.mem_singleton, h.mem_items, OpenIn, Act.opened.injEq,
      Prod.mk.injEq, reduceCtorEq, or_false]
    constructor
    · rintro (⟨hopen, hclosed⟩ | ⟨rfl, rfl⟩)
      · exact ⟨Or.inl hopen, hclosed⟩
      · exact ⟨Or.inr ⟨rfl, rfl⟩, hfresh⟩
    · rintro ⟨hopen | heq, hclosed⟩
      · exact Or.inl ⟨hopen, hclosed⟩
      · exact Or.inr heq
  closed_lt i said hmem := by
    have hold : Act.closed i said ∈ acts := by simpa using hmem
    exact Nat.lt_succ_of_lt (h.closed_lt i said hold)
  opened_lt i k' hmem := by
    rcases List.mem_append.mp hmem with hold | hnew
    · exact Nat.lt_succ_of_lt (h.opened_lt i k' hold)
    · have hi : i = s.next ∧ k' = k := by simpa using hnew
      rw [hi.1]
      exact Nat.lt_succ_self _

theorem Tracks.used {acts : List (Act K)} {s : Live K} (h : Tracks acts s) (i : ℕ) (k : K) :
    Tracks (acts ++ [.used i k]) s where
  next_eq := by simp [opens_snoc, Act.openedIndex?, h.next_eq]
  mem_items j k' := by simp [h.mem_items, OpenIn]
  closed_lt j said hmem := h.closed_lt j said (by simpa using hmem)
  opened_lt j k' hmem := h.opened_lt j k' (by simpa using hmem)

theorem Tracks.closed {acts : List (Act K)} {s : Live K} (h : Tracks acts s) {i : ℕ} {k : K}
    (hmem : (i, k) ∈ s.items) (said : Option K) :
    Tracks (acts ++ [.closed i said]) ⟨s.next, s.items.filter (fun item => item.1 ≠ i)⟩ where
  next_eq := by simp [opens_snoc, Act.openedIndex?, h.next_eq]
  mem_items j k' := by
    simp only [List.mem_filter, h.mem_items, OpenIn, List.mem_append, List.mem_singleton,
      reduceCtorEq, or_false, Act.closed.injEq, not_or, decide_eq_true_eq]
    constructor
    · rintro ⟨⟨hopen, hclosed⟩, hne⟩
      exact ⟨hopen, fun said' => ⟨hclosed said', fun heq => hne heq.1⟩⟩
    · rintro ⟨hopen, hclosed⟩
      refine ⟨⟨hopen, fun said' => (hclosed said').1⟩, fun heq => ?_⟩
      exact (hclosed said).2 ⟨heq, rfl⟩
  closed_lt j said' hj := by
    rcases List.mem_append.mp hj with hold | hnew
    · exact h.closed_lt j said' hold
    · have heq : j = i ∧ said' = said := by simpa using hnew
      rw [heq.1]
      exact h.opened_lt i k ((h.mem_items i k).mp hmem).1
  opened_lt j k' hj := h.opened_lt j k' (by simpa using hj)

variable [DecidableEq K]

def step (s : Live K) : Act K → Option (Live K)
  | .opened i k => if i = s.next then some ⟨s.next + 1, s.items ++ [(i, k)]⟩ else none
  | .used i k => if (i, k) ∈ s.items then some s else none
  | .closed i said =>
      if s.items.any (fun item => item.1 = i ∧ (said = none ∨ said = some item.2)) then
        some ⟨s.next, s.items.filter (fun item => item.1 ≠ i)⟩
      else none

def run (s : Live K) (acts : List (Act K)) : Option (Live K) := acts.foldlM step s

@[simp] theorem run_nil (s : Live K) : run s [] = some s := rfl

@[simp] theorem run_cons (s : Live K) (a : Act K) (acts : List (Act K)) :
    run s (a :: acts) = (step s a).bind (fun t => run t acts) := by
  simp [run, List.foldlM_cons, bind]

theorem run_append (s : Live K) (xs ys : List (Act K)) :
    run s (xs ++ ys) = (run s xs).bind (fun t => run t ys) := by
  simp [run, List.foldlM_append, bind]

theorem step_opened (s : Live K) (k : K) :
    step s (.opened s.next k) = some ⟨s.next + 1, s.items ++ [(s.next, k)]⟩ := by
  simp [step]

theorem step_used {s : Live K} {i : ℕ} {k : K} (h : (i, k) ∈ s.items) :
    step s (.used i k) = some s := by
  simp [step, h]

theorem step_used_none {s : Live K} {i : ℕ} {k : K} (h : (i, k) ∉ s.items) :
    step s (.used i k) = none := by
  simp [step, h]

theorem step_closed {s : Live K} {i : ℕ} {k : K} {said : Option K} (h : (i, k) ∈ s.items)
    (hsaid : said = none ∨ said = some k) :
    step s (.closed i said) = some ⟨s.next, s.items.filter (fun item => item.1 ≠ i)⟩ := by
  have hany : s.items.any (fun item => item.1 = i ∧ (said = none ∨ said = some item.2)) = true :=
    List.any_eq_true.mpr ⟨(i, k), h, by simpa using hsaid⟩
  simp only [step]
  rw [if_pos hany]

/-- Closing one of several items with distinct numbers leaves the others. -/
theorem step_closed_of_nodup (next : ℕ) (pre post : List (ℕ × K)) (i : ℕ) (k : K)
    {said : Option K} (hnodup : ((pre ++ (i, k) :: post).map Prod.fst).Nodup)
    (hsaid : said = none ∨ said = some k) :
    step ⟨next, pre ++ (i, k) :: post⟩ (.closed i said) = some ⟨next, pre ++ post⟩ := by
  rw [List.map_append, List.map_cons, List.nodup_middle] at hnodup
  have hfresh : i ∉ (pre ++ post).map Prod.fst := by
    rw [List.map_append]
    exact (List.nodup_cons.mp hnodup).1
  have hkeep : ∀ items : List (ℕ × K), (∀ item ∈ items, item ∈ pre ++ post) →
      items.filter (fun item => decide (item.1 ≠ i)) = items := by
    intro items hitems
    apply List.filter_eq_self.mpr
    intro item hitem
    have hne : item.1 ≠ i := by
      intro heq
      apply hfresh
      rw [← heq]
      exact List.mem_map_of_mem (hitems item hitem)
    simpa using hne
  have hmem : (i, k) ∈ pre ++ (i, k) :: post := by simp
  rw [step_closed (s := ⟨next, pre ++ (i, k) :: post⟩) hmem hsaid]
  simp only [List.filter_append]
  rw [List.filter_cons_of_neg (by simp), hkeep pre (fun item h => List.mem_append_left _ h),
    hkeep post (fun item h => List.mem_append_right _ h)]

/-- One step of the checker decides whether the action is allowed. -/
theorem Tracks.step {acts : List (Act K)} {s : Live K} (h : Tracks acts s) (a : Act K) :
    (Allowed acts a ∧ ∃ t, step s a = some t ∧ Tracks (acts ++ [a]) t) ∨
      (¬ Allowed acts a ∧ step s a = none) := by
  cases a with
  | opened i k =>
    by_cases hi : i = s.next
    · subst i
      exact Or.inl ⟨h.next_eq, _, step_opened s k, h.opened k⟩
    · refine Or.inr ⟨?_, by simp [Lifecycle.step, hi]⟩
      intro heq
      exact hi (heq.trans h.next_eq.symm)
  | used i k =>
    by_cases hmem : (i, k) ∈ s.items
    · exact Or.inl ⟨(h.mem_items i k).mp hmem, s, step_used hmem, h.used i k⟩
    · exact Or.inr ⟨fun ha => hmem ((h.mem_items i k).mpr ha), step_used_none hmem⟩
  | closed i said =>
    by_cases hany : ∃ k, (i, k) ∈ s.items ∧ (said = none ∨ said = some k)
    · obtain ⟨k, hmem, hsaid⟩ := hany
      exact Or.inl ⟨⟨k, (h.mem_items i k).mp hmem, hsaid⟩, _, step_closed hmem hsaid,
        h.closed hmem said⟩
    · refine Or.inr ⟨?_, ?_⟩
      · rintro ⟨k, hopen, hsaid⟩
        exact hany ⟨k, (h.mem_items i k).mpr hopen, hsaid⟩
      · simp only [Lifecycle.step]
        rw [if_neg]
        intro hsome
        obtain ⟨⟨j, k⟩, hmem, hjk⟩ := List.any_eq_true.mp hsome
        have hjk' : j = i ∧ (said = none ∨ said = some k) := by simpa using hjk
        obtain ⟨rfl, hsaid⟩ := hjk'
        exact hany ⟨k, hmem, hsaid⟩

/-- The checker accepts exactly the well-formed traces. -/
theorem run_empty_cases (acts : List (Act K)) :
    (WellFormed acts ∧ ∃ s, run Live.empty acts = some s ∧ Tracks acts s) ∨
      (¬ WellFormed acts ∧ run Live.empty acts = none) := by
  induction acts using List.reverseRecOn with
  | nil => exact Or.inl ⟨wellFormed_nil, _, rfl, tracks_nil⟩
  | append_singleton acts a ih =>
    rw [wellFormed_snoc, run_append]
    rcases ih with ⟨hwf, s, hrun, htracks⟩ | ⟨hwf, hrun⟩
    · rw [hrun]
      rcases htracks.step a with ⟨hallowed, t, hstep, ht⟩ | ⟨hnot, hstep⟩
      · exact Or.inl ⟨⟨hwf, hallowed⟩, t, by simp [hstep], ht⟩
      · exact Or.inr ⟨fun h => hnot h.2, by simp [hstep]⟩
    · exact Or.inr ⟨fun h => hwf h.1, by simp [hrun]⟩

theorem run_empty_eq_none_iff (acts : List (Act K)) :
    run Live.empty acts = none ↔ ¬ WellFormed acts := by
  rcases run_empty_cases acts with ⟨hwf, s, hrun, -⟩ | ⟨hwf, hrun⟩
  · simp [hrun, hwf]
  · simp [hrun, hwf]

theorem wellFormed_of_run {acts : List (Act K)} {s : Live K}
    (hrun : run Live.empty acts = some s) : WellFormed acts := by
  by_contra hbad
  rw [← run_empty_eq_none_iff, hrun] at hbad
  cases hbad

/-- Everything opened is closed exactly when the checker ends with nothing open. -/
theorem allClosed_iff_of_run {acts : List (Act K)} {s : Live K}
    (hrun : run Live.empty acts = some s) : AllClosed acts ↔ s.items = [] := by
  rcases run_empty_cases acts with ⟨-, t, ht, htracks⟩ | ⟨-, hnone⟩
  · obtain rfl : s = t := Option.some.inj (hrun.symm.trans ht)
    constructor
    · intro hclosed
      by_contra hne
      obtain ⟨⟨i, k⟩, hmem⟩ := List.exists_mem_of_ne_nil s.items hne
      obtain ⟨hopen, hnot⟩ := (htracks.mem_items i k).mp hmem
      obtain ⟨said, hsaid⟩ := hclosed i k hopen
      exact hnot said hsaid
    · intro hnil i k hopen
      by_contra hnot
      have hmem : (i, k) ∈ s.items :=
        (htracks.mem_items i k).mpr ⟨hopen, fun said hsaid => hnot ⟨said, hsaid⟩⟩
      rw [hnil] at hmem
      simp at hmem
  · rw [hnone] at hrun
    cases hrun

end OpenAIGateway.Lifecycle
