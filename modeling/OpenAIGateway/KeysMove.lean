import OpenAIGateway.EndpointChange

/-!
Whether a change that may not move keys can move one. The count and the write are
separate statements, and the write is conditioned on the endpoint's own row: a
credential committed between the two is not counted and does not stop the write.
-/

set_option linter.all false

namespace OpenAIGateway.EndpointChange

open Transition

variable {rules : Rules}

/-- The change a phase has still to write or to answer. -/
def Phase.pending : Phase → Option Change
  | .counting c | .resolving c | .writing c | .rereading c => some c
  | .answered _ => none

/-- The change a phase is past the count of. -/
def Phase.counted : Phase → Option Change
  | .resolving c | .writing c => some c
  | _ => none

/-- A change that moves the base URL and was told to refuse to while keys are filed. -/
def Change.Guarded (rules : Rules) (c : Change) : Prop :=
  c.keys = .refused ∧ movesBaseUrl rules c.stored c.draft.baseUrl = true

/-- Nobody has written the row since the change read it. -/
def State.Current (s : State) (c : Change) : Prop := s.endpoints c.stored.name = some c.stored

/-- The row a change read is still there, or a later one is in its place. -/
def State.Read (s : State) (c : Change) : Prop :=
  ∃ row, s.endpoints c.stored.name = some row ∧
    (c.stored.updatedAt < row.updatedAt ∨ row = c.stored)

structure Sound (rules : Rules) (s : State) : Prop where
  named : ∀ name row, s.endpoints name = some row → row.name = name
  read : ∀ i phase c, s.calls i = some phase → phase.pending = some c → s.Read c
  counted : ∀ i phase c, s.calls i = some phase → phase.counted = some c → c.Guarded rules →
    s.Current c → endpointAccountCount s c.stored.name = 0

theorem Phase.pending_of_counted {phase : Phase} {c : Change} (h : phase.counted = some c) :
    phase.pending = some c := by
  cases phase with
  | resolving | writing => exact h
  | counting | rereading | answered => cases h

theorem State.Read.current_iff {s : State} {c : Change} (h : s.Read c) {row : EndpointRow}
    (hrow : s.endpoints c.stored.name = some row) :
    row.updatedAt = c.stored.updatedAt ↔ row = c.stored := by
  obtain ⟨row', hrow', hlater⟩ := h
  obtain rfl : row = row' := Option.some.inj (hrow.symm.trans hrow')
  constructor
  · intro heq
    exact hlater.resolve_left (by omega)
  · intro heq
    rw [heq]

/-- A change that begins stands on the row it read; past the count it is not guarded. -/
theorem change_spec (rules : Rules) (stored : EndpointRow) (draft : Draft) (keys : KeysMove)
    {c : Change} (h : (change rules stored draft keys).pending = some c) :
    c.stored = stored ∧
      ((change rules stored draft keys).counted = some c → ¬ c.Guarded rules) := by
  unfold change at h ⊢
  split at h
  · cases h
  · rename_i hsame
    rw [if_neg hsame]
    cases hchecked : checked rules draft with
    | error message => simp [hchecked, Phase.pending] at h
    | ok result =>
      obtain ⟨draft', platform⟩ := result
      simp only [hchecked] at h ⊢
      by_cases hmoves : movesBaseUrl rules stored draft'.baseUrl = true
      · rw [if_pos hmoves] at h ⊢
        by_cases hkeys : keys = .refused
        · rw [if_pos hkeys] at h ⊢
          obtain rfl := Option.some.inj h
          exact ⟨rfl, fun hcounted => nomatch hcounted⟩
        · rw [if_neg hkeys] at h ⊢
          obtain rfl := Option.some.inj h
          exact ⟨rfl, fun _ hguarded => hkeys hguarded.1⟩
      · rw [if_neg hmoves] at h ⊢
        obtain rfl := Option.some.inj h
        exact ⟨rfl, fun _ hguarded => hmoves hguarded.2⟩

/-- What a change's phase may become by a statement that writes nothing. -/
inductive Turn (rules : Rules) (s : State) (i : ℕ) : Phase → Prop
  | answer (answer : Except WriteError EndpointRow) (refused : ∀ row, answer ≠ .ok row) :
    Turn rules s i (.answered answer)
  | begin (name : String) (stored : EndpointRow) (draft : Draft) (keys : KeysMove)
    (read : s.endpoints name = some stored) : Turn rules s i (change rules stored draft keys)
  | count (c : Change) (counting : s.calls i = some (.counting c))
    (unfiled : endpointAccountCount s c.stored.name = 0) : Turn rules s i (.resolving c)
  | resolve (c : Change) (resolving : s.calls i = some (.resolving c)) : Turn rules s i (.writing c)
  | miss (c : Change) (writing : s.calls i = some (.writing c)) : Turn rules s i (.rereading c)

/-- Everything a step can do. -/
inductive Effect (rules : Rules) (s : State) : Event → State → Prop
  | file (account : Account) :
    Effect rules s (.file account) (s.file account)
  | remove (id : ℕ) :
    Effect rules s (.remove id) { s with accounts := s.accounts.filter (fun a => a.id ≠ id) }
  | turn (e : Event) (i : ℕ) (phase : Phase) (turn : Turn rules s i phase) :
    Effect rules s e (s.setPhase i phase)
  | write (i : ℕ) (now : ℤ) (c : Change) (row : EndpointRow)
    (writing : s.calls i = some (.writing c)) (found : s.endpoints c.stored.name = some row)
    (same : row.updatedAt = c.stored.updatedAt) :
    Effect rules s (.update i now) (s.commit i c.stored.name (row.updated c.draft now))

theorem step_effect {s s' : State} {e : Event} (h : step rules s e = some s') :
    Effect rules s e s' := by
  cases e with
  | file account =>
    simp only [step, Option.ite_none_left_eq_some, Option.some.injEq] at h
    obtain ⟨-, rfl⟩ := h
    exact .file account
  | remove id =>
    obtain rfl := Option.some.inj h
    exact .remove id
  | call i name draft keys =>
    simp only [step] at h
    split at h
    · cases h
    · split at h
      · obtain rfl := Option.some.inj h
        exact .turn _ i _ (.answer _ (fun _ h => nomatch h))
      · rename_i stored hread
        obtain rfl := Option.some.inj h
        exact .turn _ i _ (.begin name stored draft keys hread)
  | count i =>
    simp only [step] at h
    split at h
    · rename_i c hcounting
      split at h
      · obtain rfl := Option.some.inj h
        exact .turn _ i _ (.answer _ (fun _ h => nomatch h))
      · rename_i hnone
        obtain rfl := Option.some.inj h
        exact .turn _ i _ (.count c hcounting (Nat.eq_zero_of_not_pos hnone))
    · cases h
  | resolve i answer =>
    simp only [step] at h
    split at h
    · rename_i c hresolving
      split at h
      · obtain rfl := Option.some.inj h
        exact .turn _ i _ (.answer _ (fun _ h => nomatch h))
      · obtain rfl := Option.some.inj h
        exact .turn _ i _ (.resolve c hresolving)
    · cases h
  | update i now =>
    simp only [step] at h
    split at h
    · rename_i c hwriting
      obtain rfl := Option.some.inj h
      unfold update
      split
      · exact .turn _ i _ (.miss c hwriting)
      · rename_i row hfound
        split
        · rename_i hsame
          exact .write i now c row hwriting hfound hsame
        · exact .turn _ i _ (.miss c hwriting)
    · cases h
  | reread i =>
    simp only [step] at h
    split at h
    · split at h <;>
        · obtain rfl := Option.some.inj h
          exact .turn _ i _ (.answer _ (fun _ h => nomatch h))
    · cases h
  | fail i e =>
    simp only [step] at h
    split at h
    all_goals first
      | cases h
        done
      | obtain rfl := Option.some.inj h
        exact .turn _ i _ (.answer _ (fun _ h => nomatch h))

/-- A change is never answered with a row before it has written one. -/
theorem change_ne_ok (rules : Rules) (stored : EndpointRow) (draft : Draft) (keys : KeysMove)
    (row : EndpointRow) : change rules stored draft keys ≠ .answered (.ok row) := by
  unfold change
  split
  · exact fun h => nomatch h
  · split
    · exact fun h => nomatch h
    · dsimp only
      split
      · split <;> exact fun h => nomatch h
      · exact fun h => nomatch h

@[simp] theorem State.setPhase_calls (s : State) (i j : ℕ) (phase : Phase) :
    (s.setPhase i phase).calls j = if j = i then some phase else s.calls j :=
  Function.update_apply ..

@[simp] theorem State.commit_calls (s : State) (i j : ℕ) (name : String) (row : EndpointRow) :
    (s.commit i name row).calls j = if j = i then some (.answered (.ok row)) else s.calls j :=
  Function.update_apply ..

@[simp] theorem State.commit_endpoints (s : State) (i : ℕ) (name other : String)
    (row : EndpointRow) : (s.commit i name row).endpoints other =
      if other = name then some row else s.endpoints other :=
  Function.update_apply ..

theorem Sound.turn {s : State} {i : ℕ} {phase : Phase} (hs : Sound rules s)
    (h : Turn rules s i phase) : Sound rules (s.setPhase i phase) where
  named := hs.named
  read := by
    intro j phase' c hphase hpending
    rw [State.setPhase_calls] at hphase
    by_cases hj : j = i
    · rw [if_pos hj] at hphase
      obtain rfl := Option.some.inj hphase
      change s.Read c
      cases h with
      | answer => cases hpending
      | begin name stored draft keys hread =>
        obtain ⟨rfl, -⟩ := change_spec rules stored draft keys hpending
        have hname := hs.named name c.stored hread
        exact ⟨c.stored, by rw [hname, hread], Or.inr rfl⟩
      | count c' hcounting =>
        obtain rfl := Option.some.inj hpending
        exact hs.read i _ c' hcounting rfl
      | resolve c' hresolving =>
        obtain rfl := Option.some.inj hpending
        exact hs.read i _ c' hresolving rfl
      | miss c' hwriting =>
        obtain rfl := Option.some.inj hpending
        exact hs.read i _ c' hwriting rfl
    · rw [if_neg hj] at hphase
      exact hs.read j phase' c hphase hpending
  counted := by
    intro j phase' c hphase hcounted hguarded hcurrent
    rw [State.setPhase_calls] at hphase
    by_cases hj : j = i
    · rw [if_pos hj] at hphase
      obtain rfl := Option.some.inj hphase
      change endpointAccountCount s c.stored.name = 0
      cases h with
      | answer => cases hcounted
      | begin name stored draft keys =>
        obtain ⟨-, hnot⟩ := change_spec rules stored draft keys (Phase.pending_of_counted hcounted)
        exact absurd hguarded (hnot hcounted)
      | count c' hcounting hunfiled =>
        obtain rfl := Option.some.inj hcounted
        exact hunfiled
      | resolve c' hresolving =>
        obtain rfl := Option.some.inj hcounted
        exact hs.counted i _ c' hresolving rfl hguarded hcurrent
      | miss => cases hcounted
    · rw [if_neg hj] at hphase
      exact hs.counted j phase' c hphase hcounted hguarded hcurrent

/-- A committed row is later than what any change in progress has read of it. -/
theorem Sound.commit {s : State} {i : ℕ} {now : ℤ} {c : Change} {row : EndpointRow}
    (hs : Sound rules s) (hfound : s.endpoints c.stored.name = some row) :
    Sound rules (s.commit i c.stored.name (row.updated c.draft now)) := by
  have hlater : row.updatedAt < (row.updated c.draft now).updatedAt :=
    lt_of_lt_of_le (by omega) (le_max_right now (row.updatedAt + 1))
  have hpast : ∀ j phase d, s.calls j = some phase → phase.pending = some d →
      d.stored.name = c.stored.name →
      d.stored.updatedAt < (row.updated c.draft now).updatedAt := by
    intro j phase d hphase hpending hname
    obtain ⟨row', hrow', hread⟩ := hs.read j phase d hphase hpending
    rw [hname, hfound] at hrow'
    obtain rfl := Option.some.inj hrow'
    rcases hread with hread | hread
    · omega
    · rw [← hread]
      exact hlater
  refine ⟨?_, ?_, ?_⟩
  · intro name row' hrow'
    rw [State.commit_endpoints] at hrow'
    by_cases hname : name = c.stored.name
    · rw [if_pos hname] at hrow'
      obtain rfl := Option.some.inj hrow'
      rw [hname]
      exact hs.named _ row hfound
    · rw [if_neg hname] at hrow'
      exact hs.named name row' hrow'
  · intro j phase d hphase hpending
    rw [State.commit_calls] at hphase
    by_cases hj : j = i
    · rw [if_pos hj] at hphase
      obtain rfl := Option.some.inj hphase
      cases hpending
    · rw [if_neg hj] at hphase
      unfold State.Read
      rw [State.commit_endpoints]
      by_cases hname : d.stored.name = c.stored.name
      · rw [if_pos hname]
        exact ⟨_, rfl, Or.inl (hpast j phase d hphase hpending hname)⟩
      · rw [if_neg hname]
        exact hs.read j phase d hphase hpending
  · intro j phase d hphase hcounted hguarded hcurrent
    rw [State.commit_calls] at hphase
    by_cases hj : j = i
    · rw [if_pos hj] at hphase
      obtain rfl := Option.some.inj hphase
      cases hcounted
    · rw [if_neg hj] at hphase
      have hpending := Phase.pending_of_counted hcounted
      unfold State.Current at hcurrent
      rw [State.commit_endpoints] at hcurrent
      by_cases hname : d.stored.name = c.stored.name
      · rw [if_pos hname] at hcurrent
        have hearlier := hpast j phase d hphase hpending hname
        rw [Option.some.inj hcurrent] at hearlier
        exact absurd hearlier (lt_irrefl _)
      · rw [if_neg hname] at hcurrent
        exact hs.counted j phase d hphase hcounted hguarded hcurrent

/-- No credential is filed under an endpoint while a guarded change of it stands between its
count and its write, over the row as it read it. Any other event may come at any time. -/
def FiledOutside (rules : Rules) (s : State) : Event → Prop
  | .file account => ∀ i phase c, s.calls i = some phase → phase.counted = some c →
      c.Guarded rules → c.stored.name = account.provider → ¬ s.Current c
  | _ => True

theorem Sound.step {s s' : State} {e : Event} (hs : Sound rules s) (hfiled : FiledOutside rules s e)
    (h : Effect rules s e s') : Sound rules s' := by
  cases h with
  | file account =>
    refine ⟨hs.named, hs.read, ?_⟩
    intro i phase c hphase hcounted hguarded hcurrent
    have hapart : c.stored.name ≠ account.provider := fun hname =>
      hfiled i phase c hphase hcounted hguarded hname hcurrent
    have hzero := hs.counted i phase c hphase hcounted hguarded hcurrent
    simpa [endpointAccountCount, State.file, List.countP_cons, hapart.symm] using hzero
  | remove id =>
    refine ⟨hs.named, hs.read, ?_⟩
    intro i phase c hphase hcounted hguarded hcurrent
    have hzero := hs.counted i phase c hphase hcounted hguarded hcurrent
    exact Nat.le_zero.mp (hzero ▸ List.filter_sublist.countP_le)
  | turn e i phase hturn => exact hs.turn hturn
  | write i now c row hwriting hfound hsame => exact hs.commit hfound

theorem Setup.sound (setup : Setup) : Sound rules setup.start where
  named := setup.named
  read := fun _ _ _ h => nomatch h
  counted := fun _ _ _ h => nomatch h

/-- A step that commits, for a change told to refuse, a base URL apart from the stored one
while a credential is filed under the endpoint. -/
def MovesKeys (rules : Rules) (s s' : State) : Prop :=
  ∃ i c row row', s.calls i = some (.writing c) ∧ c.keys = .refused ∧
    s'.calls i = some (.answered (.ok row')) ∧ s.endpoints c.stored.name = some row ∧
    s'.endpoints c.stored.name = some row' ∧ movesBaseUrl rules row row'.baseUrl = true ∧
    0 < endpointAccountCount s' c.stored.name

def KeepsKeys (rules : Rules) (s : State) (e : Event) : Prop :=
  ∀ s', step rules s e = some s' → ¬ MovesKeys rules s s'

theorem Sound.keepsKeys {s : State} {e : Event} (hs : Sound rules s) : KeepsKeys rules s e := by
  rintro s' hstep ⟨j, c, row, row', hwriting, hkeys, hanswer, hfound, -, hmoves, hfiled⟩
  cases step_effect hstep with
  | file account => cases hwriting.symm.trans hanswer
  | remove id => cases hwriting.symm.trans hanswer
  | turn e i phase hturn =>
    rw [State.setPhase_calls] at hanswer
    by_cases hj : j = i
    · rw [if_pos hj] at hanswer
      obtain rfl := Option.some.inj hanswer
      generalize hphase : Phase.answered (.ok row') = phase at hturn
      cases hturn with
      | answer answer hrefused =>
        obtain rfl := Phase.answered.inj hphase
        exact hrefused row' rfl
      | begin name stored draft keys => exact change_ne_ok rules stored draft keys row' hphase.symm
      | count | resolve | miss => cases hphase
    · rw [if_neg hj] at hanswer
      cases hwriting.symm.trans hanswer
  | write i now d drow hwriting' hfound' hsame =>
    rw [State.commit_calls] at hanswer
    by_cases hj : j = i
    · subst hj
      rw [if_pos rfl] at hanswer
      obtain rfl := Phase.writing.inj (Option.some.inj (hwriting.symm.trans hwriting'))
      obtain rfl := Option.some.inj (hfound.symm.trans hfound')
      cases hanswer
      have hrow := ((hs.read j _ c hwriting rfl).current_iff hfound).mp hsame
      have hcurrent : s.Current c := hfound.trans (congrArg some hrow)
      have hzero := hs.counted j _ c hwriting rfl ⟨hkeys, hrow ▸ hmoves⟩ hcurrent
      exact absurd (hzero ▸ hfiled) (lt_irrefl 0)
    · rw [if_neg hj] at hanswer
      cases hwriting.symm.trans hanswer

/-- A write over the row as a change read it moves what the draft moves. -/
theorem State.Current.movesKeys {s : State} {i : ℕ} {c : Change} (hcurrent : s.Current c)
    (hwriting : s.calls i = some (.writing c)) (hguarded : c.Guarded rules)
    (hfiled : 0 < endpointAccountCount s c.stored.name) (now : ℤ) :
    ¬ KeepsKeys rules s (.update i now) := by
  intro hkeeps
  have hstep : step rules s (.update i now) =
      some (s.commit i c.stored.name (c.stored.updated c.draft now)) := by
    unfold State.Current at hcurrent
    simp [step, update, hwriting, hcurrent]
  refine hkeeps _ hstep ⟨i, c, c.stored, c.stored.updated c.draft now, hwriting, hguarded.1, ?_,
    hcurrent, ?_, hguarded.2, hfiled⟩
  · rw [State.commit_calls, if_pos rfl]
  · rw [State.commit_endpoints, if_pos rfl]

/-- A credential filed between a guarded change's count and its write goes with the write. -/
theorem moves_of_filed_inside {s : State} {account : Account}
    (hfiled : ¬ FiledOutside rules s (.file account)) :
    ∃ rest, AllSteps (step rules) (FiledOutside rules) (s.file account) rest ∧
      ¬ AllSteps (step rules) (KeepsKeys rules) (s.file account) rest := by
  simp only [FiledOutside, not_forall, not_not] at hfiled
  obtain ⟨i, phase, c, hphase, hcounted, hguarded, hname, hcurrent⟩ := hfiled
  have hpositive : 0 < endpointAccountCount (s.file account) c.stored.name := by
    simp [endpointAccountCount, State.file, hname]
  have hfiled : (s.file account).Current c := hcurrent
  cases phase with
  | counting | rereading | answered => cases hcounted
  | writing d =>
    obtain rfl : d = c := Option.some.inj hcounted
    refine ⟨[.update i 0], ⟨trivial, fun _ _ => trivial⟩, ?_⟩
    intro hkeeps
    exact hfiled.movesKeys hphase hguarded hpositive 0 hkeeps.1
  | resolving d =>
    obtain rfl : d = c := Option.some.inj hcounted
    have hphase' : (s.file account).calls i = some (.resolving d) := hphase
    have hstep : step rules (s.file account) (.resolve i (.ok ())) =
        some ((s.file account).setPhase i (.writing d)) := by
      cases hurl : d.draft.baseUrl <;> simp [step, hphase', hurl]
    refine ⟨[.resolve i (.ok ()), .update i 0],
      ⟨trivial, fun _ _ => ⟨trivial, fun _ _ => trivial⟩⟩, ?_⟩
    intro hkeeps
    have hwriting : ((s.file account).setPhase i (.writing d)).calls i = some (.writing d) := by
      rw [State.setPhase_calls, if_pos rfl]
    have hresolved : ((s.file account).setPhase i (.writing d)).Current d := hfiled
    exact hresolved.movesKeys hwriting hguarded hpositive 0 (hkeeps.2 _ hstep).1

/-- A change told to refuse moves no filed key in a run where no credential is committed between
its count and its write, and any credential that is can go with the write. -/
theorem refused_change_keeps_keys (rules : Rules) (setup : Setup) :
    (∀ events, AllSteps (step rules) (FiledOutside rules) setup.start events →
      AllSteps (step rules) (KeepsKeys rules) setup.start events) ∧
    ∀ past s account s', run (step rules) setup.start past = some s →
      AllSteps (step rules) (FiledOutside rules) setup.start past →
      step rules s (.file account) = some s' → ¬ FiledOutside rules s (.file account) →
      ∃ rest, AllSteps (step rules) (FiledOutside rules) s' rest ∧
        ¬ AllSteps (step rules) (KeepsKeys rules) s' rest := by
  constructor
  · intro events hfiled
    exact allSteps_of_invariant (fun s e s' hs hok hstep => hs.step hok (step_effect hstep))
      (fun s e hs _ => hs.keepsKeys) setup.sound hfiled
  · intro past s account s' _ _ hstep hinside
    simp only [step, Option.ite_none_left_eq_some, Option.some.injEq] at hstep
    obtain ⟨-, rfl⟩ := hstep
    exact moves_of_filed_inside hinside

/-! A key filed under `lab` while its base URL's name is looked up. -/

def labRow : EndpointRow where
  name := "lab"
  dialect := "openai"
  platform := "plain"
  baseUrl := some "https://one.example"
  auth := "bearer"
  region := none
  project := none
  apiVersion := none
  path := none
  extraHeaders := .obj []
  displayName := none
  discoverModels := false
  createdAt := 0
  updatedAt := 0

/-- The rules' answers to rows and URLs that are already as they are stored. -/
def plainRules : Rules where
  fromColumns := fun draft => .ok ⟨.plain, draft.baseUrl, []⟩
  endpointBaseUrl := fun url _ => .ok url
  checkExtraHeaders := fun _ _ _ => .ok ()

def labSetup : Setup where
  endpoints := fun name => if name = "lab" then some labRow else none
  accounts := []
  named := by
    intro name row h
    rw [Option.ite_none_right_eq_some] at h
    rw [← Option.some.inj h.2, h.1]
    rfl

def movedDraft : Draft := { Draft.fromRow labRow with baseUrl := some "https://two.example" }

def movedChange : Change := ⟨labRow, movedDraft, .plain, .refused⟩

def labRun : List Event :=
  [.call 0 "lab" movedDraft .refused, .count 0, .file ⟨1, "lab"⟩, .resolve 0 (.ok ()), .update 0 1]

theorem filed_key_moves :
    ¬ ∀ rules (setup : Setup) events,
      AllSteps (step rules) (KeepsKeys rules) setup.start events := by
  intro hall
  have hrun := hall plainRules labSetup labRun
  let read := labSetup.start.setPhase 0 (.counting movedChange)
  let counted := read.setPhase 0 (.resolving movedChange)
  let resolved := (counted.file ⟨1, "lab"⟩).setPhase 0 (.writing movedChange)
  have hread : step plainRules labSetup.start (.call 0 "lab" movedDraft .refused) = some read := rfl
  have hcounted : step plainRules read (.count 0) = some counted := rfl
  have hfiled : step plainRules counted (.file ⟨1, "lab"⟩) = some (counted.file ⟨1, "lab"⟩) := rfl
  have hresolved : step plainRules (counted.file ⟨1, "lab"⟩) (.resolve 0 (.ok ())) =
      some resolved := rfl
  have hkeeps := ((((hrun.2 _ hread).2 _ hcounted).2 _ hfiled).2 _ hresolved).1
  have hcurrent : resolved.Current movedChange := rfl
  have hguarded : movedChange.Guarded plainRules := ⟨rfl, by decide⟩
  exact hcurrent.movesKeys rfl hguarded (by decide) 1 hkeeps

end OpenAIGateway.EndpointChange
