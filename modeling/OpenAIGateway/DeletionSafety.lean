import OpenAIGateway.EndpointDeletion

/-!
Why a delete strands no reference. A lock is only ever on the registered row, a row
whose trigger found the endpoint is committed under its own lock, and a delete that
has counted nothing holds the lock that conflicts with every such write.
-/

set_option linter.all false

namespace OpenAIGateway.EndpointDeletion

open Transition RowLocks

theorem conflicts_symm (a b : Mode) : conflicts a b = conflicts b a := by
  cases a <;> cases b <;> rfl

theorem update_conflicts (mode : Mode) : conflicts .update mode = true := by
  cases mode <;> rfl

@[simp] theorem State.set_transactions (s : State) (i j : ℕ) (t : Transaction) :
    (s.set i t).transactions j = if j = i then some t else s.transactions j :=
  Function.update_apply ..

@[simp] theorem State.finish_transactions (s : State) (i j : ℕ) (t : Transaction) :
    (s.finish i t).transactions j = if j = i then some t else s.transactions j :=
  Function.update_apply ..

@[simp] theorem State.grant_transactions (s : State) (lock : Lock ℕ ℕ Mode) (j : ℕ)
    (t : Transaction) :
    (s.grant lock t).transactions j = if j = lock.owner then some t else s.transactions j :=
  Function.update_apply ..

theorem mem_apply {r : Row} {rows : List Row} {edit : Edit} (h : r ∈ edit.apply rows) :
    r ∈ rows ∨ edit = .put r := by
  cases edit with
  | put row =>
    rcases List.mem_cons.mp h with rfl | h
    · exact Or.inr rfl
    · exact Or.inl (List.mem_of_mem_filter h)
  | remove key => exact Or.inl (List.mem_of_mem_filter h)

theorem mem_foldl_apply {r : Row} {rows : List Row} {edits : List Edit}
    (h : r ∈ edits.foldl Edit.apply rows) : r ∈ rows ∨ .put r ∈ edits := by
  induction edits generalizing rows with
  | nil => exact Or.inl h
  | cons edit edits ih =>
    rcases ih h with hrows | hput
    · rcases mem_apply hrows with hrows | rfl
      · exact Or.inl hrows
      · exact Or.inr List.mem_cons_self
    · exact Or.inr (List.mem_cons_of_mem _ hput)

/-- Every row naming the endpoint is an account's or a catalog model's. -/
theorem State.rows_eq_nil {s : State} (haccounts : s.naming .account = 0)
    (hmodels : s.naming .modelCatalog = 0) : s.rows = [] := by
  apply List.eq_nil_iff_forall_not_mem.mpr
  intro r hr
  cases htable : r.key.table with
  | account => exact absurd htable (by simpa using List.countP_eq_zero.mp haccounts r hr)
  | modelCatalog => exact absurd htable (by simpa using List.countP_eq_zero.mp hmodels r hr)

/-- A transaction with no statement left. -/
def Transaction.Over : Transaction → Prop
  | .ended | .deleter (.answered _) => True
  | _ => False

def State.Going (s : State) (i : ℕ) : Prop := ∀ t, s.transactions i = some t → ¬ t.Over

theorem State.going_of_none {s : State} {i : ℕ} (h : s.transactions i = none) : s.Going i :=
  fun _ ht => nomatch h.symm.trans ht

theorem State.going_of_some {s : State} {i : ℕ} {t : Transaction} (h : s.transactions i = some t)
    (ht : ¬ t.Over) : s.Going i := by
  intro u hu
  obtain rfl := Option.some.inj (h.symm.trans hu)
  exact ht

/-- A statement that takes no lock and commits nothing. -/
inductive Turn (s : State) (i : ℕ) : Transaction → Prop
  | begin (absent : s.transactions i = none) : Turn s i (.writer .idle [])
  | unfound (key : Key) (edits : List Edit) (idle : s.transactions i = some (.writer .idle edits)) :
    Turn s i (.writer .idle (edits ++ [.put ⟨key, none⟩]))
  | remove (key : Key) (edits : List Edit) (idle : s.transactions i = some (.writer .idle edits)) :
    Turn s i (.writer .idle (edits ++ [.remove key]))
  | trigger (before after : Trigger) (edits : List Edit)
    (writing : s.transactions i = some (.writer before edits)) : Turn s i (.writer after edits)
  | locking (version : ℕ) (absent : s.transactions i = none) :
    Turn s i (.deleter (.locking version))
  | count (version : ℕ) (counting : s.transactions i = some (.deleter (.counting version)))
    (unnamed : s.rows = []) : Turn s i (.deleter (.deleting version))
  | delete (version : ℕ) (deleting : s.transactions i = some (.deleter (.deleting version))) :
    Turn s i (.deleter (.committing version))

/-- What a lock is taken for. -/
inductive Granted (s : State) (i version : ℕ) : Mode → Transaction → Prop
  | write (key : Key) (edits : List Edit)
    (waiting : s.transactions i = some (.writer (.waiting key version) edits)) :
    Granted s i version .keyShare (.writer .idle (edits ++ [.put ⟨key, some version⟩]))
  | delete (locking : s.transactions i = some (.deleter (.locking version))) :
    Granted s i version .update (.deleter (.counting version))

/-- Everything a step can do. -/
inductive Effect (s : State) : Event → State → Prop
  | register (absent : s.endpoint = none) :
    Effect s .register s.register
  | turn (e : Event) (i : ℕ) (t : Transaction) (turn : Turn s i t) : Effect s e (s.set i t)
  | grant (e : Event) (i version : ℕ) (mode : Mode) (t : Transaction)
    (granted : Granted s i version mode t) (free : free conflicts s.locks ⟨i, version, mode⟩ = true)
    (live : s.endpoint = some version) : Effect s e (s.grant ⟨i, version, mode⟩ t)
  | finish (e : Event) (i : ℕ) (t : Transaction) (going : s.Going i) (ended : t.Over) :
    Effect s e (s.finish i t)
  | commit (i : ℕ) (edits : List Edit)
    (idle : s.transactions i = some (.writer .idle edits)) :
    Effect s (.commit i) (s.commit i edits)
  | commitDelete (i version : ℕ)
    (committing : s.transactions i = some (.deleter (.committing version))) :
    Effect s (.commitDelete i) (s.commitDelete i)

theorem step_effect {s s' : State} {e : Event} (h : step s e = some s') : Effect s e s' := by
  cases e with
  | register =>
    simp only [step] at h
    split at h
    · cases h
    · rename_i habsent
      obtain rfl := Option.some.inj h
      exact .register habsent
  | begin i =>
    simp only [step] at h
    split at h
    · rename_i habsent
      obtain rfl := Option.some.inj h
      exact .turn _ i _ (.begin habsent)
    · cases h
  | put i key =>
    simp only [step] at h
    split at h
    · rename_i edits hidle
      split at h
      · obtain rfl := Option.some.inj h
        exact .turn _ i _ (.unfound key edits hidle)
      · obtain rfl := Option.some.inj h
        exact .turn _ i _ (.trigger _ _ edits hidle)
    · cases h
  | perform i =>
    simp only [step] at h
    split at h
    · rename_i key edits hperforming
      split at h
      · obtain rfl := Option.some.inj h
        exact .finish _ i _ (State.going_of_some hperforming id) trivial
      · obtain rfl := Option.some.inj h
        exact .turn _ i _ (.trigger _ _ edits hperforming)
    · cases h
  | lockShare i =>
    simp only [step] at h
    split at h
    · rename_i key version edits hwaiting
      split at h
      · rename_i hfree
        split at h
        · rename_i hlive
          obtain rfl := Option.some.inj h
          exact .grant _ i version .keyShare _ (.write key edits hwaiting) hfree hlive
        · obtain rfl := Option.some.inj h
          exact .finish _ i _ (State.going_of_some hwaiting id) trivial
      · cases h
    · cases h
  | remove i key =>
    simp only [step] at h
    split at h
    · rename_i edits hidle
      obtain rfl := Option.some.inj h
      exact .turn _ i _ (.remove key edits hidle)
    · cases h
  | commit i =>
    simp only [step] at h
    split at h
    · rename_i edits hidle
      obtain rfl := Option.some.inj h
      exact .commit i edits hidle
    · cases h
  | delete i =>
    simp only [step] at h
    split at h
    · rename_i habsent _
      obtain rfl := Option.some.inj h
      exact .finish _ i _ (State.going_of_none habsent) trivial
    · rename_i version habsent _
      obtain rfl := Option.some.inj h
      exact .turn _ i _ (.locking version habsent)
    · cases h
  | lockUpdate i =>
    simp only [step] at h
    split at h
    · rename_i version hlocking
      split at h
      · rename_i hfree
        split at h
        · rename_i hlive
          obtain rfl := Option.some.inj h
          exact .grant _ i version .update _ (.delete hlocking) hfree hlive
        · obtain rfl := Option.some.inj h
          exact .finish _ i _ (State.going_of_some hlocking id) trivial
      · cases h
    · cases h
  | count i =>
    simp only [step] at h
    split at h
    · rename_i version hcounting
      split at h
      · obtain rfl := Option.some.inj h
        exact .finish _ i _ (State.going_of_some hcounting id) trivial
      · rename_i hnone
        obtain rfl := Option.some.inj h
        have hunnamed : s.rows = [] := State.rows_eq_nil (by omega) (by omega)
        exact .turn _ i _ (.count version hcounting hunnamed)
    · cases h
  | deleteRow i =>
    simp only [step] at h
    split at h
    · rename_i version hdeleting
      obtain rfl := Option.some.inj h
      exact .turn _ i _ (.delete version hdeleting)
    · cases h
  | commitDelete i =>
    simp only [step] at h
    split at h
    · rename_i version hcommitting
      obtain rfl := Option.some.inj h
      exact .commitDelete i version hcommitting
    · cases h
  | abort i =>
    simp only [step] at h
    split at h
    · rename_i hwriter
      obtain rfl := Option.some.inj h
      exact .finish _ i _ (State.going_of_some hwriter id) trivial
    · cases h
    · rename_i phase hanswered hdeleter
      obtain rfl := Option.some.inj h
      refine .finish _ i _ (State.going_of_some hdeleter ?_) trivial
      cases phase with
      | answered answer => exact absurd rfl (hanswered answer)
      | locking | counting | deleting | committing => exact id
    · cases h

theorem Turn.going {s : State} {i : ℕ} {t : Transaction} (h : Turn s i t) : s.Going i := by
  cases h with
  | begin habsent | locking _ habsent => exact State.going_of_none habsent
  | unfound _ _ h | remove _ _ h | trigger _ _ _ h | count _ h | delete _ h =>
    exact State.going_of_some h id

theorem Granted.going {s : State} {i version : ℕ} {mode : Mode} {t : Transaction}
    (h : Granted s i version mode t) : s.Going i := by
  cases h with
  | write _ _ h | delete h => exact State.going_of_some h id

/-- A transaction that is over takes no more steps. -/
theorem Effect.stays {s s' : State} {e : Event} (h : Effect s e s') {i : ℕ} {t : Transaction}
    (ht : s.transactions i = some t) (hover : t.Over) : s'.transactions i = some t := by
  have hstays : ∀ j u, s.Going j → (if i = j then some u else s.transactions i) = some t := by
    intro j u hgoing
    have hne : i ≠ j := by
      rintro rfl
      exact hgoing t ht hover
    rw [if_neg hne]
    exact ht
  cases h with
  | register => exact ht
  | turn e j u hturn => exact (State.set_transactions ..).trans (hstays j u hturn.going)
  | grant e j version mode u hgranted =>
    exact (State.grant_transactions ..).trans (hstays j u hgranted.going)
  | finish e j u hgoing => exact (State.finish_transactions ..).trans (hstays j u hgoing)
  | commit j edits hidle =>
    exact (Function.update_apply ..).trans (hstays j _ (State.going_of_some hidle id))
  | commitDelete j version hcommitting =>
    exact (Function.update_apply ..).trans (hstays j _ (State.going_of_some hcommitting id))

/-- What the locks a transaction holds stand for. -/
def Owns (s : State) (i : ℕ) : Transaction → Prop
  | .writer _ edits => ∀ row version, .put row ∈ edits → row.found = some version →
      ⟨i, version, .keyShare⟩ ∈ s.locks
  | .deleter (.counting version) => ⟨i, version, .update⟩ ∈ s.locks
  | .deleter (.deleting version) | .deleter (.committing version) =>
      ⟨i, version, .update⟩ ∈ s.locks ∧ ∀ r ∈ s.rows, r.found = none
  | _ => True

structure Sound (s : State) : Prop where
  refs : ∀ r ∈ s.rows, ∀ version, r.found = some version → s.endpoint = some version
  compatible : Compatible conflicts s.locks
  held : ∀ lock ∈ s.locks, s.endpoint = some lock.row
  owns : ∀ i t, s.transactions i = some t → Owns s i t

variable {s s' : State} {i : ℕ} {t : Transaction}

/-- A transaction keeps what it owns while its own locks stay and no row that was found
appears. -/
theorem Owns.mono (h : Owns s i t) (hlocks : ∀ lock ∈ s.locks, lock.owner = i → lock ∈ s'.locks)
    (hrows : ∀ version, ⟨i, version, .update⟩ ∈ s.locks → (∀ r ∈ s.rows, r.found = none) →
      ∀ r ∈ s'.rows, r.found = none) : Owns s' i t := by
  cases t with
  | writer trigger edits =>
    intro row version hput hfound
    exact hlocks _ (h row version hput hfound) rfl
  | deleter phase =>
    cases phase with
    | locking | answered => trivial
    | counting version => exact hlocks _ h rfl
    | deleting version | committing version => exact ⟨hlocks _ h.1 rfl, hrows version h.1 h.2⟩
  | ended => trivial

theorem Owns.of_over (h : t.Over) : Owns s i t := by
  cases t with
  | writer => cases h
  | deleter phase =>
    cases phase with
    | answered => trivial
    | locking | counting | deleting | committing => cases h
  | ended => trivial

/-- A transaction that holds the endpoint's row for its delete holds it alone. -/
theorem Sound.alone (hs : Sound s) {version : ℕ} (hlock : ⟨i, version, .update⟩ ∈ s.locks)
    {lock : Lock ℕ ℕ Mode} (hmem : lock ∈ s.locks) : lock.owner = i := by
  have hrow : version = lock.row := Option.some.inj ((hs.held _ hlock).symm.trans (hs.held _ hmem))
  exact (hs.compatible _ hlock _ hmem hrow (update_conflicts _)).symm

theorem Turn.owns (hs : Sound s) (h : Turn s i t) : Owns s i t := by
  cases h with
  | begin habsent => exact fun _ _ hput => nomatch hput
  | unfound key edits hidle =>
    intro row version hput hfound
    rcases List.mem_append.mp hput with hput | hput
    · exact hs.owns i _ hidle row version hput hfound
    · obtain rfl := Edit.put.inj (List.mem_singleton.mp hput)
      cases hfound
  | remove key edits hidle =>
    intro row version hput hfound
    rcases List.mem_append.mp hput with hput | hput
    · exact hs.owns i _ hidle row version hput hfound
    · cases List.mem_singleton.mp hput
  | trigger before after edits hwriting =>
    have howns : Owns s i (.writer before edits) := hs.owns i _ hwriting
    exact howns
  | locking version habsent => trivial
  | count version hcounting hunnamed =>
    refine ⟨hs.owns i _ hcounting, ?_⟩
    rw [hunnamed]
    exact fun r hr => nomatch hr
  | delete version hdeleting =>
    have howns : Owns s i (.deleter (.deleting version)) := hs.owns i _ hdeleting
    exact howns

theorem Sound.set (hs : Sound s) (ht : Owns s i t) : Sound (s.set i t) where
  refs := hs.refs
  compatible := hs.compatible
  held := hs.held
  owns := by
    intro j u hu
    rw [State.set_transactions] at hu
    by_cases hj : j = i
    · rw [if_pos hj] at hu
      obtain rfl := Option.some.inj hu
      rw [hj]
      exact ht
    · rw [if_neg hj] at hu
      exact hs.owns j u hu

theorem Sound.grant (hs : Sound s) {version : ℕ} {mode : Mode}
    (hgranted : Granted s i version mode t)
    (hfree : free conflicts s.locks ⟨i, version, mode⟩ = true)
    (hlive : s.endpoint = some version) : Sound (s.grant ⟨i, version, mode⟩ t) where
  refs := hs.refs
  compatible := hs.compatible.grant conflicts_symm hfree
  held := by
    intro lock hlock
    rcases List.mem_cons.mp hlock with rfl | hlock
    · exact hlive
    · exact hs.held lock hlock
  owns := by
    intro j u hu
    rw [State.grant_transactions] at hu
    have hmore : ∀ lock ∈ s.locks, lock ∈ (s.grant ⟨i, version, mode⟩ t).locks :=
      fun lock hlock => List.mem_cons_of_mem _ hlock
    by_cases hj : j = i
    · rw [if_pos hj] at hu
      obtain rfl := Option.some.inj hu
      rw [hj]
      cases hgranted with
      | write key edits hwaiting =>
        intro row version' hput hfound
        rcases List.mem_append.mp hput with hput | hput
        · exact hmore _ (hs.owns i _ hwaiting row version' hput hfound)
        · obtain rfl := Edit.put.inj (List.mem_singleton.mp hput)
          obtain rfl := Option.some.inj hfound
          exact List.mem_cons_self
      | delete hlocking => exact List.mem_cons_self
    · rw [if_neg hj] at hu
      exact (hs.owns j u hu).mono (fun lock hlock _ => hmore lock hlock) (fun _ _ h => h)

/-- The transactions still going when one ends keep what they own. -/
theorem Sound.owns_rest (hs : Sound s) (ht : t.Over)
    (htransactions : s'.transactions = (s.finish i t).transactions)
    (hlocks : s'.locks = release s.locks i)
    (hrows : ∀ j version, j ≠ i → ⟨j, version, .update⟩ ∈ s.locks →
      (∀ r ∈ s.rows, r.found = none) → ∀ r ∈ s'.rows, r.found = none) :
    ∀ j u, s'.transactions j = some u → Owns s' j u := by
  intro j u hu
  rw [htransactions, State.finish_transactions] at hu
  by_cases hj : j = i
  · rw [if_pos hj] at hu
    obtain rfl := Option.some.inj hu
    exact Owns.of_over ht
  · rw [if_neg hj] at hu
    apply (hs.owns j u hu).mono
    · intro lock hlock howner
      rw [hlocks]
      exact mem_release.mpr ⟨hlock, howner ▸ hj⟩
    · intro version hlock
      exact hrows j version hj hlock

theorem Sound.finish (hs : Sound s) (ht : t.Over) : Sound (s.finish i t) where
  refs := hs.refs
  compatible := hs.compatible.release
  held := fun lock hlock => hs.held lock (mem_release.mp hlock).1
  owns := hs.owns_rest ht rfl rfl (fun _ _ _ _ h => h)

/-- A transaction commits what its triggers found under locks it holds. -/
theorem Sound.commit (hs : Sound s) {edits : List Edit}
    (hidle : s.transactions i = some (.writer .idle edits)) :
    Sound (s.commit i edits) where
  refs := by
    intro r hr version hfound
    rcases mem_foldl_apply hr with hr | hput
    · exact hs.refs r hr version hfound
    · exact hs.held _ (hs.owns i _ hidle r version hput hfound)
  compatible := hs.compatible.release
  held := fun lock hlock => hs.held lock (mem_release.mp hlock).1
  owns := by
    refine hs.owns_rest (i := i) (t := .ended) trivial ?_ ?_ ?_
    · rfl
    · rfl
    · intro j version hj hlock hrows r hr
      rcases mem_foldl_apply hr with hr | hput
      · exact hrows r hr
      · cases hfound : r.found with
        | none => rfl
        | some version' =>
          -- The two locks would be on one row, and they conflict.
          have howner := hs.alone hlock (hs.owns i _ hidle r version' hput hfound)
          exact absurd howner.symm hj

/-- A delete removes the row when it alone holds it and nothing that was found names it. -/
theorem Sound.commitDelete (hs : Sound s) {version : ℕ}
    (hcommitting : s.transactions i = some (.deleter (.committing version))) :
    Sound (s.commitDelete i) where
  refs := by
    intro r hr version' hfound
    have hnone := (hs.owns i _ hcommitting).2 r hr
    exact absurd (hnone.symm.trans hfound) (fun h => nomatch h)
  compatible := hs.compatible.release
  held := by
    intro lock hlock
    obtain ⟨hmem, howner⟩ := mem_release.mp hlock
    exact absurd (hs.alone (hs.owns i _ hcommitting).1 hmem) howner
  owns := by
    refine hs.owns_rest (i := i) (t := .deleter (.answered .deleted)) trivial ?_ ?_ ?_
    · rfl
    · rfl
    · exact fun _ _ _ _ h => h

/-- With nothing registered no row is locked and no committed row was found. -/
theorem Sound.register (hs : Sound s) (habsent : s.endpoint = none) :
    Sound s.register where
  refs := fun r hr version hfound => nomatch habsent.symm.trans (hs.refs r hr version hfound)
  compatible := hs.compatible
  held := fun lock hlock => nomatch habsent.symm.trans (hs.held lock hlock)
  owns := hs.owns

theorem Sound.step {e : Event} (hs : Sound s) (h : Effect s e s') : Sound s' := by
  cases h with
  | register habsent => exact hs.register habsent
  | turn e i t hturn => exact hs.set (hturn.owns hs)
  | grant e i version mode t hgranted hfree hlive => exact hs.grant hgranted hfree hlive
  | finish e i t hgoing hover => exact hs.finish hover
  | commit i edits hidle => exact hs.commit hidle
  | commitDelete i version hcommitting => exact hs.commitDelete hcommitting

theorem Setup.sound (setup : Setup) : Sound setup.start where
  refs := setup.held
  compatible := compatible_nil
  held := fun _ h => nomatch h
  owns := fun _ _ h => nomatch h

/-- The transaction an event is a statement of. -/
def Event.transaction : Event → Option ℕ
  | .register => none
  | .begin i | .put i _ | .perform i | .lockShare i | .remove i _ | .commit i | .delete i
  | .lockUpdate i | .count i | .deleteRow i | .commitDelete i | .abort i => some i

/-- Only a delete that answers that it deleted removes the endpoint, and no delete removes
anything else. -/
theorem Effect.removes {e : Event} (h : Effect s e s') (htransaction : e.transaction = some i) :
    (s'.endpoint = s.endpoint ∧ s'.rows = s.rows) ∨ s'.transactions i = some .ended ∨
      s'.transactions i = some (.deleter (.answered .deleted)) := by
  cases h with
  | register => cases htransaction
  | turn | grant | finish => exact Or.inl ⟨rfl, rfl⟩
  | commit j edits =>
    obtain rfl := Option.some.inj htransaction
    exact Or.inr (Or.inl (Function.update_self ..))
  | commitDelete j version =>
    obtain rfl := Option.some.inj htransaction
    exact Or.inr (Or.inr (Function.update_self ..))

/-- The endpoint stays away until it is registered again. -/
theorem Effect.stays_absent {e : Event} (h : Effect s e s') (habsent : s.endpoint = none)
    (hregister : e ≠ .register) : s'.endpoint = none := by
  cases h with
  | register => exact absurd rfl hregister
  | turn | grant | finish | commit => exact habsent
  | commitDelete => rfl

theorem Sound.unfound (hs : Sound s) (habsent : s.endpoint = none) :
    ∀ r ∈ s.rows, r.found = none := by
  intro r hr
  cases hfound : r.found with
  | none => rfl
  | some version => exact nomatch habsent.symm.trans (hs.refs r hr version hfound)

theorem absent_run {events : List Event} (habsent : s.endpoint = none)
    (hregister : .register ∉ events) (hrun : run step s events = some s') :
    s'.endpoint = none := by
  have hok : AllSteps step (fun _ e => e ≠ .register) s events :=
    allSteps_of_forall_mem s (fun e he heq => hregister (heq ▸ he))
  exact invariant_run (I := fun s => s.endpoint = none)
    (fun s e s' h hne hstep => (step_effect hstep).stays_absent h hne) habsent hok hrun

/-- When a delete commits no row that was found is committed under its name, none is afterwards
until the name is registered again, and a delete that is refused has removed nothing. -/
theorem delete_strands_no_reference (setup : Setup) {events : List Event} {s : State}
    (hrun : run step setup.start events = some s) :
    (∀ i s', step s (.commitDelete i) = some s' →
      s'.endpoint = none ∧ ∀ r ∈ s'.rows, r.found = none) ∧
    (∀ more s', s.endpoint = none → .register ∉ more → run step s more = some s' →
      s'.endpoint = none ∧ ∀ r ∈ s'.rows, r.found = none) ∧
    ∀ i answer past e rest before after, events = past ++ e :: rest →
      run step setup.start past = some before → step before e = some after →
      e.transaction = some i → s.transactions i = some (.deleter (.answered answer)) →
      answer ≠ .deleted → after.endpoint = before.endpoint ∧ after.rows = before.rows := by
  have hkept : ∀ s e s', Sound s → step s e = some s' → Sound s' :=
    fun s e s' hs hstep => hs.step (step_effect hstep)
  have hs : Sound s := preserved_run hkept setup.sound hrun
  refine ⟨?_, ?_, ?_⟩
  · intro i s' hstep
    have habsent : s'.endpoint = none := by
      simp only [step] at hstep
      split at hstep
      · obtain rfl := Option.some.inj hstep
        rfl
      · cases hstep
    exact ⟨habsent, (hkept s _ s' hs hstep).unfound habsent⟩
  · intro more s' habsent hregister hmore
    have habsent' := absent_run habsent hregister hmore
    exact ⟨habsent', (preserved_run hkept hs hmore).unfound habsent'⟩
  · intro i answer past e rest before after hevents hpast hstep htransaction hanswer hrefused
    have hrest : run step after rest = some s := by
      rw [hevents, run_append, hpast] at hrun
      simpa [run, hstep] using hrun
    have hover : ∀ t, after.transactions i = some t → t.Over → s.transactions i = some t := by
      intro t ht hover
      exact preserved_run (I := fun s => s.transactions i = some t)
        (fun s e s' h hstep => (step_effect hstep).stays h hover) ht hrest
    rcases (step_effect hstep).removes htransaction with hsame | hended | hdeleted
    · exact hsame
    · cases hanswer.symm.trans (hover _ hended trivial)
    · cases hanswer.symm.trans (hover _ hdeleted trivial)
      exact absurd rfl hrefused

/-! A credential is filed while a delete waits for its writer, and a second delete goes ahead. -/

def labSetup : Setup where
  endpoint := some 0
  registered := 1
  rows := []
  held := fun _ h => nomatch h

def labKey : Key := ⟨.account, "a"⟩

def labRun : List Event :=
  [.begin 0, .put 0 labKey, .perform 0, .lockShare 0, .delete 1, .commit 0, .lockUpdate 1,
    .count 1, .begin 2, .remove 2 labKey, .commit 2, .delete 3, .lockUpdate 3, .count 3,
    .deleteRow 3]

theorem lab_strands_nothing : ∃ s s', run step labSetup.start labRun = some s ∧
    step s (.commitDelete 3) = some s' ∧ s'.endpoint = none ∧ ∀ r ∈ s'.rows, r.found = none := by
  obtain ⟨s, hs⟩ : ∃ s, run step labSetup.start labRun = some s := ⟨_, rfl⟩
  obtain ⟨s', hs'⟩ : ∃ s', step s (.commitDelete 3) = some s' := by
    obtain rfl := Option.some.inj hs
    exact ⟨_, rfl⟩
  exact ⟨s, s', hs, hs', (delete_strands_no_reference labSetup hs).1 3 s' hs'⟩

end OpenAIGateway.EndpointDeletion
