import OpenAIGateway.SpendCounters
import OpenAIGateway.Transition
import Mathlib.Data.Int.Order.Basic

/-!
The monthly reconciliation beside the writes it runs with. Each transaction
takes its steps on its own: a write of this release inserts its ledger row and
debits the rows it references, one of the previous release inserts its row
alone, and a reconciliation locks one row, sums its ledger rows and rewrites it.
A write inserts under the ledger's key and its foreign keys; a row lock that is
taken is waited for, and what a statement reads is what has committed.
-/

set_option linter.all false

namespace OpenAIGateway.Spend

/-- A row with a monthly counter. -/
inductive CounterRow (Id : Type)
  | principal (id : Id)
  | route (id : Id)
  deriving DecidableEq

/-- The rows with a monthly counter that a ledger row references. -/
def UsageEvent.counterRows {Id : Type} (u : UsageEvent Id) : List (CounterRow Id) :=
  (u.principalId.map CounterRow.principal).toList ++ (u.routeId.map CounterRow.route).toList

/-- A committed ledger row, and whether the release that wrote it debited the counters. -/
structure Entry (Id : Type) where
  row : UsageEvent Id
  debited : Bool

/-- The release a write comes from. The previous one does not know the counters. -/
inductive Release
  | previous
  | current

/-- A transaction, by how far it is. Its months are that of its start. -/
inductive Transaction (Id : Type)
  | begun (release : Release) (month : ℤ) (w : UsageWrite Id)
  /-- The ledger had the row. -/
  | replayed
  /-- The row is inserted; these rows are locked, with the counters they will have. -/
  | recording (row : UsageEvent Id) (debits : CounterRow Id → Option MonthlySpend)
  /-- The row is inserted; these foreign keys are checked, their rows key-share locked. -/
  | inserting (row : UsageEvent Id) (checked : List (CounterRow Id))
  | reconciling (r : CounterRow Id) (month : ℤ)
  | locked (r : CounterRow Id) (month : ℤ)
  | rewritten (r : CounterRow Id) (month : ℤ) (c : MonthlySpend)

/-- What has committed, the locks that are held, and the transactions under way. -/
structure Database (Id Tx : Type) where
  ledger : List (Entry Id)
  counters : CounterRow Id → Option MonthlySpend
  /-- Who inserted under a key and has not committed. -/
  keys : Id × ℤ → Option Tx
  locks : CounterRow Id → Option Tx
  shares : CounterRow Id → List Tx
  txs : Tx → Option (Transaction Id)
  month : ℤ

/-- What a transaction, or the clock, does next. -/
inductive TxEvent (Id Tx : Type)
  | tick (month : ℤ)
  | record (tx : Tx) (release : Release) (w : UsageWrite Id)
  | insert (tx : Tx)
  | debit (tx : Tx) (r : CounterRow Id)
  | check (tx : Tx) (r : CounterRow Id)
  | reconcile (tx : Tx) (r : CounterRow Id)
  | lock (tx : Tx)
  | rewrite (tx : Tx)
  | commit (tx : Tx)
  | abort (tx : Tx)

/-- The rows dated in a month or later. -/
def fromMonth {Id : Type} (month : ℤ) (rows : List (UsageEvent Id)) : List (UsageEvent Id) :=
  rows.filter (fun u => month ≤ u.month)

/-- The rewrite of a counter from its ledger rows. A later month is left alone. -/
def MonthlySpend.reconcile {Id : Type} (month : ℤ) (rows : List (UsageEvent Id))
    (c : MonthlySpend) : Option MonthlySpend :=
  if c.spentMonth.all (fun named => named ≤ month) then
    (counterAmount (total (fromMonth month rows))).map (fun spent => ⟨spent, some month⟩)
  else some c

/-- The transaction has the row locked for update. -/
def Transaction.forUpdate {Id : Type} [DecidableEq Id] (r : CounterRow Id) : Transaction Id → Bool
  | .locked r' _ | .rewritten r' _ _ => r' = r
  | _ => false

/-- Everything a rewrite can do. -/
theorem MonthlySpend.reconcile_cases {Id : Type} {month : ℤ} {rows : List (UsageEvent Id)}
    {c c' : MonthlySpend} (h : c.reconcile month rows = some c') :
    ((∀ named, c.spentMonth = some named → named ≤ month) ∧
      c' = ⟨total (fromMonth month rows), some month⟩) ∨
    ((∃ named, c.spentMonth = some named ∧ month < named) ∧ c' = c) := by
  unfold MonthlySpend.reconcile at h
  by_cases hguard : c.spentMonth.all (fun named => named ≤ month) = true
  · rw [if_pos hguard] at h
    obtain ⟨spent, hspent, rfl⟩ := Option.map_eq_some_iff.mp h
    obtain rfl := Option.some.inj (Option.ite_none_right_eq_some.mp hspent).2
    refine Or.inl ⟨?_, rfl⟩
    intro named hnamed
    rw [hnamed] at hguard
    exact of_decide_eq_true hguard
  · rw [if_neg hguard] at h
    obtain rfl := Option.some.inj h
    refine Or.inr ⟨?_, rfl⟩
    cases hnamed : c.spentMonth with
    | none =>
      rw [hnamed] at hguard
      exact absurd rfl hguard
    | some named =>
      rw [hnamed] at hguard
      have hlate : ¬ named ≤ month := fun hle => hguard (decide_eq_true hle)
      exact ⟨named, rfl, by omega⟩

namespace Database

variable {Id Tx : Type} [DecidableEq Id] [DecidableEq Tx]

/-- The committed ledger rows that reference a row. -/
def rowsOf (r : CounterRow Id) (entries : List (Entry Id)) : List (UsageEvent Id) :=
  (entries.map Entry.row).filter (fun u => r ∈ u.counterRows)

/-- Of those the ones whose write debited it. -/
def debitsOf (r : CounterRow Id) (entries : List (Entry Id)) : List (UsageEvent Id) :=
  rowsOf r (entries.filter Entry.debited)

def put (s : Database Id Tx) (tx : Tx) (t : Transaction Id) : Database Id Tx :=
  { s with txs := Function.update s.txs tx (some t) }

def append (s : Database Id Tx) (row : UsageEvent Id) (debited : Bool) : Database Id Tx :=
  { s with ledger := s.ledger ++ [⟨row, debited⟩] }

/-- The transaction is over and holds nothing. -/
def finish (s : Database Id Tx) (tx : Tx) : Database Id Tx :=
  { s with
    keys := fun k => if s.keys k = some tx then none else s.keys k
    locks := fun r => if s.locks r = some tx then none else s.locks r
    shares := fun r => (s.shares r).filter (fun other => other ≠ tx)
    txs := Function.update s.txs tx none }

/-- A key-share lock waits for a lock for update, and for no other. -/
def lockedForUpdate (s : Database Id Tx) (r : CounterRow Id) : Bool :=
  match s.locks r with
  | none => false
  | some tx => (s.txs tx).any (Transaction.forUpdate r)

/-- What a write is once its row is inserted. -/
def afterInsert (release : Release) (row : UsageEvent Id) : Transaction Id :=
  match release with
  | .previous => .inserting row []
  | .current => .recording row (fun _ => none)

def step (s : Database Id Tx) : TxEvent Id Tx → Option (Database Id Tx)
  | .tick month => if s.month ≤ month then some { s with month := month } else none
  | .record tx release w =>
    match s.txs tx with
    | none => some (s.put tx (.begun release s.month w))
    | some _ => none
  | .insert tx =>
    match s.txs tx with
    | some (.begun release month w) =>
      (ledgerAmount w.costUsd).bind (fun cost =>
        if s.ledger.any (fun e => Books.conflicts w e.row) then some (s.put tx .replayed)
        else if s.keys (w.requestId, w.attempt) = none then
          some ({ s with
            keys := Function.update s.keys (w.requestId, w.attempt) (some tx) }.put tx
              (afterInsert release (Books.inserted month w cost)))
        else none)
    | _ => none
  | .debit tx r =>
    match s.txs tx with
    | some (.recording row debits) =>
      if r ∈ row.counterRows ∧ debits r = none ∧ s.locks r = none then
        (s.counters r).bind (fun c => (c.debit row.month row.costUsd).map (fun debited =>
          { s with locks := Function.update s.locks r (some tx) }.put tx
            (.recording row (Function.update debits r (some debited)))))
      else none
    | _ => none
  | .check tx r =>
    match s.txs tx with
    | some (.inserting row checked) =>
      if r ∈ row.counterRows ∧ (s.counters r).isSome ∧ s.lockedForUpdate r = false then
        some ({ s with shares := Function.update s.shares r (tx :: s.shares r) }.put tx
          (.inserting row (r :: checked)))
      else none
    | _ => none
  | .reconcile tx r =>
    match s.txs tx with
    | none => some (s.put tx (.reconciling r s.month))
    | some _ => none
  | .lock tx =>
    match s.txs tx with
    | some (.reconciling r month) =>
      -- A row deleted since the listing is nothing to reconcile.
      if (s.counters r).isSome ∧ s.locks r = none ∧ s.shares r = [] then
        some ({ s with locks := Function.update s.locks r (some tx) }.put tx (.locked r month))
      else none
    | _ => none
  | .rewrite tx =>
    match s.txs tx with
    | some (.locked r month) =>
      (s.counters r).bind (fun c => (c.reconcile month (rowsOf r s.ledger)).map (fun c' =>
        s.put tx (.rewritten r month c')))
    | _ => none
  | .commit tx =>
    match s.txs tx with
    | some .replayed => some (s.finish tx)
    | some (.recording row debits) =>
      if ∀ r ∈ row.counterRows, (debits r).isSome then
        some ({ s.append row true with
          counters := fun r => (debits r).or (s.counters r) }.finish tx)
      else none
    | some (.inserting row checked) =>
      if ∀ r ∈ row.counterRows, r ∈ checked then
        some ((s.append row false).finish tx)
      else none
    | some (.rewritten r _ c) =>
      some ({ s with counters := Function.update s.counters r (some c) }.finish tx)
    | _ => none
  | .abort tx =>
    match s.txs tx with
    | some _ => some (s.finish tx)
    | none => none

/-- A ledger and counters nobody is at work on. -/
def idle (rows : List (UsageEvent Id)) (counters : CounterRow Id → Option MonthlySpend)
    (month : ℤ) : Database Id Tx :=
  ⟨rows.map (fun u => ⟨u, false⟩), counters, fun _ => none, fun _ => none, fun _ => [],
    fun _ => none, month⟩

/-- The event commits a rewrite of the row. -/
def Rewrites (s : Database Id Tx) (r : CounterRow Id) : TxEvent Id Tx → Prop
  | .commit tx => ∃ month c, s.txs tx = some (.rewritten r month c)
  | _ => False

variable {s s' : Database Id Tx} {tx : Tx} {t : Transaction Id} {r : CounterRow Id}

/-- What a transaction under way can rely on: its locks, and that what it is
about to write follows from what has committed. -/
def Holds (s : Database Id Tx) (tx : Tx) : Transaction Id → Prop
  | .recording row debits => ∀ r debited, debits r = some debited →
      r ∈ row.counterRows ∧ s.locks r = some tx ∧
        ∃ c, s.counters r = some c ∧ c.debit row.month row.costUsd = some debited
  | .inserting _ checked => ∀ r ∈ checked, tx ∈ s.shares r
  | .locked r _ => s.locks r = some tx ∧ s.shares r = []
  | .rewritten r month c' => s.locks r = some tx ∧ s.shares r = [] ∧
      ∃ c, s.counters r = some c ∧ c.reconcile month (rowsOf r s.ledger) = some c'
  | _ => True

omit [DecidableEq Tx] in
/-- A transaction still has what it relies on when nobody touched the rows it has locked. -/
theorem Holds.transfer (h : s.Holds tx t)
    (hlocks : ∀ r, s.locks r = some tx → s'.locks r = some tx ∧ s'.counters r = s.counters r)
    (hshares : ∀ r, tx ∈ s.shares r → tx ∈ s'.shares r)
    (hrows : ∀ r, t.forUpdate r = true → s.locks r = some tx → s.shares r = [] →
      s'.shares r = [] ∧ rowsOf r s'.ledger = rowsOf r s.ledger) : s'.Holds tx t := by
  cases t with
  | begun release month w => trivial
  | replayed => trivial
  | reconciling r month => trivial
  | recording row debits =>
    intro r debited hdebited
    obtain ⟨hmem, hlock, c, hc, hdebit⟩ := h r debited hdebited
    obtain ⟨hlock', hcounter⟩ := hlocks r hlock
    exact ⟨hmem, hlock', c, hcounter.trans hc, hdebit⟩
  | inserting row checked =>
    intro r hr
    exact hshares r (h r hr)
  | locked r month =>
    obtain ⟨hlock, hshare⟩ := h
    exact ⟨(hlocks r hlock).1, (hrows r (decide_eq_true rfl) hlock hshare).1⟩
  | rewritten r month c' =>
    obtain ⟨hlock, hshare, c, hc, hreconcile⟩ := h
    obtain ⟨hlock', hcounter⟩ := hlocks r hlock
    obtain ⟨hshare', hledger⟩ := hrows r (decide_eq_true rfl) hlock hshare
    exact ⟨hlock', hshare', c, hcounter.trans hc, by rw [hledger]; exact hreconcile⟩

/-- Every transaction has what it relies on, and a debited ledger row is not
later than the month the rows it references name. -/
structure Inv (s : Database Id Tx) : Prop where
  holds : ∀ tx t, s.txs tx = some t → s.Holds tx t
  within : ∀ e ∈ s.ledger, e.debited = true → ∀ r ∈ e.row.counterRows,
    ∃ c named, s.counters r = some c ∧ c.spentMonth = some named ∧ e.row.month ≤ named

omit [DecidableEq Tx] in
theorem inv_idle (rows : List (UsageEvent Id)) (counters : CounterRow Id → Option MonthlySpend)
    (month : ℤ) : (idle rows counters month : Database Id Tx).Inv := by
  refine ⟨?_, ?_⟩
  · intro tx t ht
    cases ht
  · intro e he hdebited
    obtain ⟨u, -, rfl⟩ := List.mem_map.mp he
    cases hdebited

theorem holds_of_finish {other : Tx} (h : s.Holds tx t) (hne : tx ≠ other) :
    (s.finish other).Holds tx t := by
  refine h.transfer ?_ ?_ ?_
  · intro r hlock
    have hkept : s.locks r ≠ some other := by
      rw [hlock]
      exact fun heq => hne (Option.some.inj heq)
    exact ⟨(if_neg hkept).trans hlock, rfl⟩
  · intro r hshare
    exact List.mem_filter.mpr ⟨hshare, decide_eq_true hne⟩
  · intro r _ _ hshare
    refine ⟨?_, rfl⟩
    change (s.shares r).filter _ = []
    rw [hshare, List.filter_nil]

/-- A transaction that goes on leaves what has committed; the others have what they had. -/
theorem Inv.put {before : Database Id Tx} (h : before.Inv) (hledger : s.ledger = before.ledger)
    (hcounters : s.counters = before.counters) (htxs : s.txs = before.txs)
    (hlocks : ∀ r other, before.locks r = some other → s.locks r = some other)
    (hshares : ∀ r other, other ∈ before.shares r → other ∈ s.shares r)
    (hempty : ∀ r other t, before.txs other = some t → t.forUpdate r = true →
      before.locks r = some other → before.shares r = [] → s.shares r = [])
    (hnew : (s.put tx t).Holds tx t) : (s.put tx t).Inv := by
  refine ⟨?_, ?_⟩
  · intro other t' ht'
    by_cases hother : other = tx
    · subst hother
      have hsame : (s.put other t).txs other = some t := Function.update_self ..
      obtain rfl := Option.some.inj (hsame.symm.trans ht')
      exact hnew
    · have hkept : (s.put tx t).txs other = s.txs other := Function.update_of_ne hother ..
      rw [hkept, htxs] at ht'
      refine (h.holds other t' ht').transfer ?_ ?_ ?_
      · intro r hlock
        exact ⟨hlocks r other hlock, congrFun hcounters r⟩
      · intro r hshare
        exact hshares r other hshare
      · intro r hupdate hlock hshare
        refine ⟨hempty r other t' ht' hupdate hlock hshare, ?_⟩
        change rowsOf r s.ledger = _
        rw [hledger]
  · intro e he hdebited r hr
    change e ∈ s.ledger at he
    change ∃ c named, s.counters r = some c ∧ _
    rw [hledger] at he
    rw [hcounters]
    exact h.within e he hdebited r hr

/-- A transaction that ends leaves the others what they had, if it wrote only to
rows they have not locked. -/
theorem Inv.finish {base : Database Id Tx} (h : s.Inv) (hlocks : base.locks = s.locks)
    (hshares : base.shares = s.shares) (htxs : base.txs = s.txs)
    (hcounters : ∀ r other, other ≠ tx → s.locks r = some other →
      base.counters r = s.counters r)
    (hrows : ∀ r other t, other ≠ tx → s.txs other = some t → t.forUpdate r = true →
      s.locks r = some other → s.shares r = [] → rowsOf r base.ledger = rowsOf r s.ledger)
    (hwithin : ∀ e ∈ base.ledger, e.debited = true → ∀ r ∈ e.row.counterRows,
      ∃ c named, base.counters r = some c ∧ c.spentMonth = some named ∧ e.row.month ≤ named) :
    (base.finish tx).Inv := by
  refine ⟨?_, hwithin⟩
  intro other t ht
  by_cases hother : other = tx
  · subst hother
    have hnone : (base.finish other).txs other = none := Function.update_self ..
    cases hnone.symm.trans ht
  · have hkept : (base.finish tx).txs other = base.txs other := Function.update_of_ne hother ..
    rw [hkept, htxs] at ht
    refine holds_of_finish ((h.holds other t ht).transfer ?_ ?_ ?_) hother
    · intro r hlock
      exact ⟨by rw [hlocks]; exact hlock, hcounters r other hother hlock⟩
    · intro r hshare
      rw [hshares]
      exact hshare
    · intro r hupdate hlock hshare
      exact ⟨by rw [hshares]; exact hshare, hrows r other t hother ht hupdate hlock hshare⟩

omit [DecidableEq Tx] in
theorem rowsOf_append (r : CounterRow Id) (first second : List (Entry Id)) :
    rowsOf r (first ++ second) = rowsOf r first ++ rowsOf r second := by
  unfold rowsOf
  rw [List.map_append, List.filter_append]

omit [DecidableEq Tx] in
theorem rowsOf_append_of_notMem {row : UsageEvent Id} (hr : r ∉ row.counterRows)
    (ledger : List (Entry Id)) (debited : Bool) :
    rowsOf r (ledger ++ [⟨row, debited⟩]) = rowsOf r ledger := by
  have hnone : rowsOf r [⟨row, debited⟩] = [] :=
    List.filter_cons_of_neg (fun h => hr (of_decide_eq_true h))
  rw [rowsOf_append, hnone, List.append_nil]

/-- A transaction that records has locked the rows it debited, and each holds what was debited. -/
theorem Inv.holds_recording {row : UsageEvent Id} {debits : CounterRow Id → Option MonthlySpend}
    (h : s.Inv) (ht : s.txs tx = some (.recording row debits)) :
    ∀ r debited, debits r = some debited → r ∈ row.counterRows ∧ s.locks r = some tx ∧
      ∃ c, s.counters r = some c ∧ c.debit row.month row.costUsd = some debited :=
  h.holds tx _ ht

theorem Inv.commitRecording {row : UsageEvent Id} {debits : CounterRow Id → Option MonthlySpend}
    (h : s.Inv) (ht : s.txs tx = some (.recording row debits))
    (hall : ∀ r ∈ row.counterRows, (debits r).isSome) :
    (Database.finish { s.append row true with
      counters := fun r => (debits r).or (s.counters r) } tx).Inv := by
  have hholds := h.holds_recording ht
  -- A row somebody else has locked is not one this transaction debited.
  have hunlocked : ∀ r other, other ≠ tx → s.locks r = some other → debits r = none := by
    intro r other hother hlock
    cases hdebit : debits r with
    | none => rfl
    | some debited =>
      have hown := (hholds r debited hdebit).2.1
      exact absurd (Option.some.inj (hlock.symm.trans hown)) hother
  refine h.finish rfl rfl rfl ?_ ?_ ?_
  · intro r other hother hlock
    change (debits r).or (s.counters r) = s.counters r
    rw [hunlocked r other hother hlock, Option.none_or]
  · intro r other t hother _ _ hlock _
    refine rowsOf_append_of_notMem ?_ s.ledger true
    intro hr
    have hsome := hall r hr
    rw [hunlocked r other hother hlock] at hsome
    cases hsome
  · intro e he hdebited r hr
    change ∃ c named, (debits r).or (s.counters r) = some c ∧ _
    rcases List.mem_append.mp he with hold | hnew
    · obtain ⟨c, named, hc, hnamed, hle⟩ := h.within e hold hdebited r hr
      cases hdebit : debits r with
      | none => exact ⟨c, named, hc, hnamed, hle⟩
      | some debited =>
        obtain ⟨-, -, c', hc', hdebit'⟩ := hholds r debited hdebit
        obtain rfl := Option.some.inj (hc.symm.trans hc')
        obtain ⟨named', hnamed', hle'⟩ := MonthlySpend.monthLe_debit hdebit' named hnamed
        exact ⟨debited, named', rfl, hnamed', by omega⟩
    · obtain rfl := List.mem_singleton.mp hnew
      obtain ⟨debited, hdebit⟩ := Option.isSome_iff_exists.mp (hall r hr)
      obtain ⟨-, -, c, -, hdebit'⟩ := hholds r debited hdebit
      rw [hdebit]
      rcases MonthlySpend.debit_cases hdebit' with ⟨named, -, hle, rfl⟩ | ⟨-, rfl⟩
      · exact ⟨_, named, rfl, rfl, hle⟩
      · exact ⟨_, row.month, rfl, rfl, Int.le_refl _⟩

theorem Inv.commitInserting {row : UsageEvent Id} {checked : List (CounterRow Id)} (h : s.Inv)
    (ht : s.txs tx = some (.inserting row checked))
    (hall : ∀ r ∈ row.counterRows, r ∈ checked) : ((s.append row false).finish tx).Inv := by
  have hholds : ∀ r ∈ checked, tx ∈ s.shares r := h.holds tx _ ht
  refine h.finish rfl rfl rfl (fun _ _ _ _ => rfl) ?_ ?_
  · intro r other t _ _ _ _ hshare
    refine rowsOf_append_of_notMem ?_ s.ledger false
    intro hr
    have hown := hholds r (hall r hr)
    rw [hshare] at hown
    cases hown
  · intro e he hdebited r hr
    rcases List.mem_append.mp he with hold | hnew
    · exact h.within e hold hdebited r hr
    · obtain rfl := List.mem_singleton.mp hnew
      cases hdebited

theorem Inv.commitRewritten {month : ℤ} {c' : MonthlySpend} (h : s.Inv)
    (ht : s.txs tx = some (.rewritten r month c')) :
    (Database.finish { s with counters := Function.update s.counters r (some c') } tx).Inv := by
  obtain ⟨hlock, -, c, hc, hreconcile⟩ :
      s.locks r = some tx ∧ s.shares r = [] ∧
        ∃ c, s.counters r = some c ∧ c.reconcile month (rowsOf r s.ledger) = some c' :=
    h.holds tx _ ht
  refine h.finish rfl rfl rfl ?_ (fun _ _ _ _ _ _ _ _ => rfl) ?_
  · intro other tx' htx' hlock'
    refine Function.update_of_ne ?_ ..
    rintro rfl
    exact htx' (Option.some.inj (hlock'.symm.trans hlock))
  · intro e he hdebited other hother
    obtain ⟨c₀, named, hc₀, hnamed, hle⟩ := h.within e he hdebited other hother
    change ∃ c named, Function.update s.counters r (some c') other = some c ∧ _
    by_cases hsame : other = r
    · subst hsame
      obtain rfl := Option.some.inj (hc.symm.trans hc₀)
      rw [Function.update_self]
      rcases MonthlySpend.reconcile_cases hreconcile with ⟨hguard, rfl⟩ | ⟨-, rfl⟩
      · have hmonth := hguard named hnamed
        exact ⟨_, month, rfl, rfl, by omega⟩
      · exact ⟨c', named, rfl, hnamed, hle⟩
    · rw [Function.update_of_ne hsame]
      exact ⟨c₀, named, hc₀, hnamed, hle⟩

/-- A transaction that goes on without a lock or a share. -/
theorem Inv.advance (h : s.Inv) (hnew : (s.put tx t).Holds tx t) : (s.put tx t).Inv :=
  h.put rfl rfl rfl (fun _ _ hlock => hlock) (fun _ _ hshare => hshare)
    (fun _ _ _ _ _ _ hshare => hshare) hnew

/-- A transaction that goes on with a lock nobody had. -/
theorem Inv.advanceLocked (h : s.Inv) (hfree : s.locks r = none)
    (hnew : (Database.put { s with locks := Function.update s.locks r (some tx) } tx t).Holds
      tx t) :
    (Database.put { s with locks := Function.update s.locks r (some tx) } tx t).Inv := by
  refine h.put rfl rfl rfl ?_ (fun _ _ hshare => hshare) (fun _ _ _ _ _ _ hshare => hshare) hnew
  intro other holder hlock
  refine (Function.update_of_ne ?_ ..).trans hlock
  rintro rfl
  rw [hfree] at hlock
  cases hlock

theorem Inv.insert (h : s.Inv) (hstep : s.step (.insert tx) = some s') : s'.Inv := by
  simp only [step] at hstep
  split at hstep
  next release month w ht =>
    obtain ⟨cost, -, hstep⟩ := Option.bind_eq_some_iff.mp hstep
    split at hstep
    · obtain rfl := Option.some.inj hstep
      exact h.advance trivial
    · obtain ⟨-, hstep⟩ := Option.ite_none_right_eq_some.mp hstep
      obtain rfl := Option.some.inj hstep
      refine h.put rfl rfl rfl (fun _ _ hlock => hlock) (fun _ _ hshare => hshare)
        (fun _ _ _ _ _ _ hshare => hshare) ?_
      cases release with
      | previous =>
        intro r hr
        cases hr
      | current =>
        intro r debited hdebited
        cases hdebited
  next => cases hstep

theorem Inv.debit (h : s.Inv) (hstep : s.step (.debit tx r) = some s') : s'.Inv := by
  simp only [step] at hstep
  split at hstep
  next row debits ht =>
    obtain ⟨⟨hmem, -, hfree⟩, hstep⟩ := Option.ite_none_right_eq_some.mp hstep
    obtain ⟨c, hc, hstep⟩ := Option.bind_eq_some_iff.mp hstep
    obtain ⟨debited, hdebited, rfl⟩ := Option.map_eq_some_iff.mp hstep
    have hholds := h.holds_recording ht
    refine h.advanceLocked hfree ?_
    intro other debited' hdebited'
    by_cases hother : other = r
    · subst hother
      rw [Function.update_self] at hdebited'
      obtain rfl := Option.some.inj hdebited'
      exact ⟨hmem, Function.update_self .., c, hc, hdebited⟩
    · rw [Function.update_of_ne hother] at hdebited'
      obtain ⟨hmem', hlock, hrest⟩ := hholds other debited' hdebited'
      exact ⟨hmem', (Function.update_of_ne hother ..).trans hlock, hrest⟩
  next => cases hstep

theorem Inv.check (h : s.Inv) (hstep : s.step (.check tx r) = some s') : s'.Inv := by
  simp only [step] at hstep
  split at hstep
  next row checked ht =>
    obtain ⟨⟨-, -, hfree⟩, hstep⟩ := Option.ite_none_right_eq_some.mp hstep
    obtain rfl := Option.some.inj hstep
    have hholds : ∀ r ∈ checked, tx ∈ s.shares r := h.holds tx _ ht
    have hmore : ∀ other holder, holder ∈ s.shares other →
        holder ∈ Function.update s.shares r (tx :: s.shares r) other := by
      intro other holder hshare
      by_cases hother : other = r
      · subst hother
        rw [Function.update_self]
        exact List.mem_cons_of_mem _ hshare
      · rwa [Function.update_of_ne hother]
    refine h.put rfl rfl rfl (fun _ _ hlock => hlock) hmore ?_ ?_
    · intro other holder t htx hupdate hlock hshare
      have hother : other ≠ r := by
        rintro rfl
        unfold lockedForUpdate at hfree
        rw [hlock] at hfree
        change (s.txs holder).any (Transaction.forUpdate other) = false at hfree
        rw [htx] at hfree
        cases hupdate.symm.trans hfree
      exact (Function.update_of_ne hother ..).trans hshare
    · intro other hother
      rcases List.mem_cons.mp hother with rfl | hold
      · change tx ∈ Function.update s.shares other (tx :: s.shares other) other
        rw [Function.update_self]
        exact List.mem_cons_self ..
      · exact hmore other tx (hholds other hold)
  next => cases hstep

theorem Inv.lock (h : s.Inv) (hstep : s.step (.lock tx) = some s') : s'.Inv := by
  simp only [step] at hstep
  split at hstep
  next r month ht =>
    obtain ⟨⟨-, hfree, hshare⟩, hstep⟩ := Option.ite_none_right_eq_some.mp hstep
    obtain rfl := Option.some.inj hstep
    exact h.advanceLocked hfree ⟨Function.update_self .., hshare⟩
  next => cases hstep

theorem Inv.rewrite (h : s.Inv) (hstep : s.step (.rewrite tx) = some s') : s'.Inv := by
  simp only [step] at hstep
  split at hstep
  next r month ht =>
    obtain ⟨c, hc, hstep⟩ := Option.bind_eq_some_iff.mp hstep
    obtain ⟨c', hc', rfl⟩ := Option.map_eq_some_iff.mp hstep
    obtain ⟨hlock, hshare⟩ : s.locks r = some tx ∧ s.shares r = [] := h.holds tx _ ht
    exact h.advance ⟨hlock, hshare, c, hc, hc'⟩
  next => cases hstep

/-- A transaction that ends and writes nothing. -/
theorem Inv.abandon (h : s.Inv) (tx : Tx) : (s.finish tx).Inv :=
  h.finish rfl rfl rfl (fun _ _ _ _ => rfl) (fun _ _ _ _ _ _ _ _ => rfl) h.within

theorem Inv.commit (h : s.Inv) (hstep : s.step (.commit tx) = some s') : s'.Inv := by
  simp only [step] at hstep
  split at hstep
  next ht =>
    obtain rfl := Option.some.inj hstep
    exact h.abandon tx
  next row debits ht =>
    obtain ⟨hall, hstep⟩ := Option.ite_none_right_eq_some.mp hstep
    obtain rfl := Option.some.inj hstep
    exact h.commitRecording ht hall
  next row checked ht =>
    obtain ⟨hall, hstep⟩ := Option.ite_none_right_eq_some.mp hstep
    obtain rfl := Option.some.inj hstep
    exact h.commitInserting ht hall
  next r month c ht =>
    obtain rfl := Option.some.inj hstep
    exact h.commitRewritten ht
  next => cases hstep

theorem Inv.step {event : TxEvent Id Tx} (h : s.Inv) (hstep : s.step event = some s') :
    s'.Inv := by
  cases event with
  | tick month =>
    obtain ⟨-, hstep⟩ := Option.ite_none_right_eq_some.mp hstep
    obtain rfl := Option.some.inj hstep
    refine ⟨?_, h.within⟩
    intro tx t ht
    exact (h.holds tx t ht).transfer (fun _ hlock => ⟨hlock, rfl⟩) (fun _ hshare => hshare)
      (fun _ _ _ hshare => ⟨hshare, rfl⟩)
  | record tx release w =>
    simp only [Database.step] at hstep
    split at hstep
    next =>
      obtain rfl := Option.some.inj hstep
      exact h.advance trivial
    next => cases hstep
  | insert tx => exact h.insert hstep
  | debit tx r => exact h.debit hstep
  | check tx r => exact h.check hstep
  | reconcile tx r =>
    simp only [Database.step] at hstep
    split at hstep
    next =>
      obtain rfl := Option.some.inj hstep
      exact h.advance trivial
    next => cases hstep
  | lock tx => exact h.lock hstep
  | rewrite tx => exact h.rewrite hstep
  | commit tx => exact h.commit hstep
  | abort tx =>
    simp only [Database.step] at hstep
    split at hstep
    next =>
      obtain rfl := Option.some.inj hstep
      exact h.abandon tx
    next => cases hstep

/-- A counter after the debits of these rows, in order. -/
def debitAll (c : MonthlySpend) (rows : List (UsageEvent Id)) : Option MonthlySpend :=
  rows.foldlM (fun c u => c.debit u.month u.costUsd) c

omit [DecidableEq Id] in
/-- Rows that are not after the counter's month are added to it. -/
theorem debitAll_add {rows : List (UsageEvent Id)} {spent : ℕ} {named : ℤ} {c' : MonthlySpend}
    (h : debitAll ⟨spent, some named⟩ rows = some c') (hrows : ∀ u ∈ rows, u.month ≤ named) :
    c' = ⟨spent + total rows, some named⟩ := by
  induction rows generalizing spent with
  | nil => exact (Option.some.inj h).symm
  | cons u rows ih =>
    have hu : u.month ≤ named := hrows u (List.mem_cons_self ..)
    unfold debitAll at h
    rw [List.foldlM_cons] at h
    obtain ⟨c, hc, hrest⟩ := Option.bind_eq_some_iff.mp h
    rcases MonthlySpend.debit_cases hc with ⟨named', hnamed, -, rfl⟩ | ⟨hlate, -⟩
    · obtain rfl := Option.some.inj hnamed
      rw [ih hrest (fun v hv => hrows v (List.mem_cons_of_mem _ hv)), total, Nat.add_assoc]
    · have hlt := hlate named rfl
      omega

omit [DecidableEq Tx] in
theorem debitsOf_append (r : CounterRow Id) (first second : List (Entry Id)) :
    debitsOf r (first ++ second) = debitsOf r first ++ debitsOf r second := by
  unfold debitsOf
  rw [List.filter_append, rowsOf_append]

/-- From one state to another the ledger has only grown, and the row's counter
has had the debits of what the ledger grew by and no other change. -/
def Debited (r : CounterRow Id) (s s' : Database Id Tx) : Prop :=
  ∃ news, s'.ledger = s.ledger ++ news ∧
    ∀ c, s.counters r = some c →
      ∃ c', s'.counters r = some c' ∧ debitAll c (debitsOf r news) = some c'

omit [DecidableEq Tx] in
theorem Debited.of_eq (hledger : s'.ledger = s.ledger) (hcounter : s'.counters r = s.counters r) :
    Debited r s s' := by
  refine ⟨[], by rw [hledger, List.append_nil], ?_⟩
  intro c hc
  exact ⟨c, hcounter.trans hc, rfl⟩

omit [DecidableEq Tx] in
theorem Debited.trans {s'' : Database Id Tx} (h₁ : Debited r s s') (h₂ : Debited r s' s'') :
    Debited r s s'' := by
  obtain ⟨news, hledger, hcounter⟩ := h₁
  obtain ⟨news', hledger', hcounter'⟩ := h₂
  refine ⟨news ++ news', by rw [hledger', hledger, List.append_assoc], ?_⟩
  intro c hc
  obtain ⟨c', hc', hdebits⟩ := hcounter c hc
  obtain ⟨c'', hc'', hdebits'⟩ := hcounter' c' hc'
  refine ⟨c'', hc'', ?_⟩
  unfold debitAll at *
  rw [debitsOf_append, List.foldlM_append, hdebits]
  exact hdebits'

theorem Inv.debitedRecording {row : UsageEvent Id} {debits : CounterRow Id → Option MonthlySpend}
    (h : s.Inv) (ht : s.txs tx = some (.recording row debits))
    (hall : ∀ r ∈ row.counterRows, (debits r).isSome) (r : CounterRow Id) :
    Debited r s (Database.finish { s.append row true with
      counters := fun r => (debits r).or (s.counters r) } tx) := by
  have hholds := h.holds_recording ht
  refine ⟨[⟨row, true⟩], rfl, ?_⟩
  intro c hc
  change ∃ c', (debits r).or (s.counters r) = some c' ∧ _
  by_cases hr : r ∈ row.counterRows
  · obtain ⟨debited, hdebited⟩ := Option.isSome_iff_exists.mp (hall r hr)
    obtain ⟨-, -, c₀, hc₀, hdebit⟩ := hholds r debited hdebited
    obtain rfl := Option.some.inj (hc.symm.trans hc₀)
    have hself : debitsOf r [⟨row, true⟩] = [row] := by
      change [row].filter (fun u => r ∈ u.counterRows) = [row]
      exact List.filter_cons_of_pos (decide_eq_true hr)
    refine ⟨debited, by rw [hdebited, Option.some_or], ?_⟩
    rw [hself]
    exact Option.bind_eq_some_iff.mpr ⟨debited, hdebit, rfl⟩
  · have hnone : debits r = none := by
      cases hdebited : debits r with
      | none => rfl
      | some debited => exact absurd (hholds r debited hdebited).1 hr
    have hempty : debitsOf r [⟨row, true⟩] = [] := by
      change [row].filter (fun u => r ∈ u.counterRows) = []
      exact List.filter_cons_of_neg (fun h => hr (of_decide_eq_true h))
    refine ⟨c, by rw [hnone, Option.none_or]; exact hc, ?_⟩
    rw [hempty]
    rfl

/-- Only a commit changes what has committed. -/
theorem committed_of_step {event : TxEvent Id Tx} (hstep : s.step event = some s') :
    (∃ tx, event = .commit tx) ∨ (s'.ledger = s.ledger ∧ s'.counters = s.counters) := by
  cases event with
  | commit tx => exact Or.inl ⟨tx, rfl⟩
  | tick month =>
    obtain ⟨-, hstep⟩ := Option.ite_none_right_eq_some.mp hstep
    obtain rfl := Option.some.inj hstep
    exact Or.inr ⟨rfl, rfl⟩
  | insert tx =>
    simp only [step] at hstep
    split at hstep
    next =>
      obtain ⟨cost, -, hstep⟩ := Option.bind_eq_some_iff.mp hstep
      split at hstep
      · obtain rfl := Option.some.inj hstep
        exact Or.inr ⟨rfl, rfl⟩
      · obtain ⟨-, hstep⟩ := Option.ite_none_right_eq_some.mp hstep
        obtain rfl := Option.some.inj hstep
        exact Or.inr ⟨rfl, rfl⟩
    next => cases hstep
  | debit tx r =>
    simp only [step] at hstep
    split at hstep
    next =>
      obtain ⟨-, hstep⟩ := Option.ite_none_right_eq_some.mp hstep
      obtain ⟨c, -, hstep⟩ := Option.bind_eq_some_iff.mp hstep
      obtain ⟨debited, -, rfl⟩ := Option.map_eq_some_iff.mp hstep
      exact Or.inr ⟨rfl, rfl⟩
    next => cases hstep
  | check tx r | lock tx =>
    simp only [step] at hstep
    split at hstep
    next =>
      obtain ⟨-, hstep⟩ := Option.ite_none_right_eq_some.mp hstep
      obtain rfl := Option.some.inj hstep
      exact Or.inr ⟨rfl, rfl⟩
    next => cases hstep
  | rewrite tx =>
    simp only [step] at hstep
    split at hstep
    next =>
      obtain ⟨c, -, hstep⟩ := Option.bind_eq_some_iff.mp hstep
      obtain ⟨c', -, rfl⟩ := Option.map_eq_some_iff.mp hstep
      exact Or.inr ⟨rfl, rfl⟩
    next => cases hstep
  | record tx release w | reconcile tx r | abort tx =>
    simp only [step] at hstep
    split at hstep
    next =>
      obtain rfl := Option.some.inj hstep
      exact Or.inr ⟨rfl, rfl⟩
    next => cases hstep

/-- Whatever happens other than a rewrite of the row, its counter gets the
debits of what commits, each once. -/
theorem Inv.debited {event : TxEvent Id Tx} (h : s.Inv) (hstep : s.step event = some s')
    (hother : ¬ s.Rewrites r event) : Debited r s s' := by
  rcases committed_of_step hstep with ⟨tx, rfl⟩ | ⟨hledger, hcounters⟩
  · simp only [Database.step] at hstep
    split at hstep
    next =>
      obtain rfl := Option.some.inj hstep
      exact Debited.of_eq rfl rfl
    next row debits ht =>
      obtain ⟨hall, hstep⟩ := Option.ite_none_right_eq_some.mp hstep
      obtain rfl := Option.some.inj hstep
      exact h.debitedRecording ht hall r
    next row checked ht =>
      obtain ⟨-, hstep⟩ := Option.ite_none_right_eq_some.mp hstep
      obtain rfl := Option.some.inj hstep
      exact ⟨[⟨row, false⟩], rfl, fun c hc => ⟨c, hc, rfl⟩⟩
    next r' month c ht =>
      obtain rfl := Option.some.inj hstep
      refine Debited.of_eq rfl (Function.update_of_ne ?_ ..)
      rintro rfl
      exact hother ⟨month, c, ht⟩
    next => cases hstep
  · exact Debited.of_eq hledger (congrFun hcounters r)

theorem inv_run {rows : List (UsageEvent Id)} {counters : CounterRow Id → Option MonthlySpend}
    {month : ℤ} {events : List (TxEvent Id Tx)}
    (hrun : Transition.run step (idle rows counters month) events = some s) : s.Inv :=
  Transition.preserved_run (fun _ _ _ hI hstep => hI.step hstep) (inv_idle rows counters month) hrun

theorem Inv.debited_run {later : List (TxEvent Id Tx)} (h : s.Inv)
    (hother : Transition.AllSteps Database.step (fun s event => ¬ s.Rewrites r event) s later)
    (hrun : Transition.run Database.step s later = some s') : Debited r s s' := by
  have hpair : Debited r s s' ∧ s'.Inv := by
    refine Transition.invariant_run (I := fun at_ => Debited r s at_ ∧ at_.Inv) ?_
      ⟨Debited.of_eq rfl rfl, h⟩ hother hrun
    intro before event after hbefore hevent hstep
    exact ⟨hbefore.1.trans (hbefore.2.debited hstep hevent), hbefore.2.step hstep⟩
  exact hpair.1

/-- The rows dated after a month. -/
def afterMonth (month : ℤ) (rows : List (UsageEvent Id)) : List (UsageEvent Id) :=
  rows.filter (fun u => month < u.month)

omit [DecidableEq Id] in
theorem total_fromMonth (month : ℤ) (rows : List (UsageEvent Id)) :
    total (fromMonth month rows) = total (ofMonth month rows) + total (afterMonth month rows) := by
  induction rows with
  | nil => rfl
  | cons u rows ih =>
    unfold fromMonth ofMonth afterMonth at *
    simp only [List.filter_cons, decide_eq_true_eq]
    rcases lt_trichotomy month u.month with hlt | heq | hgt
    · rw [if_pos (by omega), if_neg (by omega), if_pos hlt, total, total, ih]
      omega
    · rw [if_pos (by omega), if_pos heq.symm, if_neg (by omega), total, total, ih]
      omega
    · rw [if_neg (by omega), if_neg (by omega), if_neg (by omega), ih]

omit [DecidableEq Tx] in
/-- When no debited row is after the month, the rows after it are undebited ones. -/
theorem afterMonth_rowsOf {month : ℤ} {entries : List (Entry Id)}
    (h : ∀ e ∈ entries, e.debited = true → r ∈ e.row.counterRows → e.row.month ≤ month) :
    afterMonth month (rowsOf r entries) =
      afterMonth month (rowsOf r (entries.filter (fun e => !e.debited))) := by
  induction entries with
  | nil => rfl
  | cons e entries ih =>
    have hrest := ih (fun e' he' => h e' (List.mem_cons_of_mem _ he'))
    have hsplit : ∀ entries : List (Entry Id), rowsOf r (e :: entries) =
        rowsOf r [e] ++ rowsOf r entries := fun entries => rowsOf_append r [e] entries
    unfold afterMonth at *
    cases hdebited : e.debited with
    | false =>
      rw [List.filter_cons_of_pos (by simp [hdebited]), hsplit entries, List.filter_append, hrest,
        hsplit (entries.filter _), List.filter_append]
    | true =>
      have hnone : (rowsOf r [e]).filter (fun u => month < u.month) = [] := by
        refine List.filter_eq_nil_iff.mpr ?_
        intro u hu hlate
        obtain ⟨hmem, hr⟩ := List.mem_filter.mp hu
        obtain rfl := List.mem_singleton.mp hmem
        have hle := h e (List.mem_cons_self ..) hdebited (of_decide_eq_true hr)
        have hlt : month < e.row.month := of_decide_eq_true hlate
        omega
      rw [List.filter_cons_of_neg (by simp [hdebited]), hsplit entries, List.filter_append, hnone,
        hrest, List.nil_append]

/-- The rewrite that commits is the one of the ledger it commits to. -/
theorem Inv.rewritten {month : ℤ} {c' : MonthlySpend} (h : s.Inv)
    (ht : s.txs tx = some (.rewritten r month c')) :
    ∃ c s', s.counters r = some c ∧ s.step (.commit tx) = some s' ∧ s'.counters r = some c' ∧
      s'.ledger = s.ledger ∧ c.reconcile month (rowsOf r s.ledger) = some c' := by
  obtain ⟨-, -, c, hc, hreconcile⟩ :
      s.locks r = some tx ∧ s.shares r = [] ∧
        ∃ c, s.counters r = some c ∧ c.reconcile month (rowsOf r s.ledger) = some c' :=
    h.holds tx _ ht
  refine ⟨c, Database.finish { s with counters := Function.update s.counters r (some c') } tx, hc,
    ?_, Function.update_self .., rfl, hreconcile⟩
  simp only [Database.step]
  rw [ht]

/-- In every interleaving, a rewrite that commits makes the row's spend that of
its ledger rows of the month the reconciliation started in, with those of the
previous release that are dated later; a row that names a later month stays as
it is. From any point on until the row is rewritten again, its counter gets the
debit of each write that commits exactly once, which adds the cost unless the
write is of a later month than the counter names. -/
theorem reconcile_loses_no_debit (rows : List (UsageEvent Id))
    (counters : CounterRow Id → Option MonthlySpend) (month : ℤ) (past : List (TxEvent Id Tx))
    (s : Database Id Tx)
    (hrun : Transition.run step (idle rows counters month) past = some s) (r : CounterRow Id) :
    (∀ tx m c', s.txs tx = some (.rewritten r m c') →
      ∃ c s', s.counters r = some c ∧ s.step (.commit tx) = some s' ∧
        ((∀ named, c.spentMonth = some named → named ≤ m) → s'.counters r = some
          ⟨total (ofMonth m (rowsOf r s'.ledger)) + total (afterMonth m (rowsOf r
            (s'.ledger.filter (fun e => !e.debited)))), some m⟩) ∧
        ∀ named, c.spentMonth = some named → m < named → s'.counters r = some c) ∧
    ∀ later s', Transition.AllSteps step (fun s event => ¬ s.Rewrites r event) s later →
      Transition.run step s later = some s' →
      ∃ news, s'.ledger = s.ledger ++ news ∧ ∀ c, s.counters r = some c →
        ∃ c', s'.counters r = some c' ∧ debitAll c (debitsOf r news) = some c' ∧
          ∀ named, c.spentMonth = some named → (∀ u ∈ debitsOf r news, u.month ≤ named) →
            c' = ⟨c.spentUsd + total (debitsOf r news), some named⟩ := by
  have hinv := inv_run hrun
  refine ⟨?_, ?_⟩
  · intro tx m c' ht
    obtain ⟨c, s', hc, hstep, hc', hledger, hreconcile⟩ := hinv.rewritten ht
    refine ⟨c, s', hc, hstep, ?_, ?_⟩
    · intro hguard
      rcases MonthlySpend.reconcile_cases hreconcile with ⟨-, rfl⟩ | ⟨⟨named, hnamed, hlate⟩, -⟩
      · have hwithin : ∀ e ∈ s.ledger, e.debited = true → r ∈ e.row.counterRows →
            e.row.month ≤ m := by
          intro e he hdebited hr
          obtain ⟨c₀, named, hc₀, hnamed, hle⟩ := hinv.within e he hdebited r hr
          obtain rfl := Option.some.inj (hc.symm.trans hc₀)
          have hmonth := hguard named hnamed
          omega
        rw [hc', hledger, total_fromMonth, afterMonth_rowsOf hwithin]
      · have hmonth := hguard named hnamed
        omega
    · intro named hnamed hlate
      rcases MonthlySpend.reconcile_cases hreconcile with ⟨hguard, -⟩ | ⟨-, rfl⟩
      · have hmonth := hguard named hnamed
        omega
      · exact hc'
  · intro later s' hother hlater
    obtain ⟨news, hledger, hdebits⟩ := hinv.debited_run hother hlater
    refine ⟨news, hledger, ?_⟩
    intro c hc
    obtain ⟨c', hc', hall⟩ := hdebits c hc
    refine ⟨c', hc', hall, ?_⟩
    intro named hnamed hmonths
    obtain ⟨spent, spentMonth⟩ := c
    obtain rfl : spentMonth = some named := hnamed
    exact debitAll_add hall hmonths

/-- A write of one unit for principal `0`. -/
def oneUnit (request : ℕ) : UsageWrite ℕ := ⟨request, 0, some 0, none, none, 10 ^ 20⟩

/-- One principal that has spent one unit in month `1`, which its counter does not show. -/
def uncounted : Database ℕ ℕ :=
  idle [Books.inserted 1 (oneUnit 0) 1]
    (fun r => if r = .principal 0 then some ⟨0, some 1⟩ else none) 1

/-- A reconciliation starts in month `1`; in month `2` the previous release writes a row;
then the row is rewritten. -/
def acrossMidnight : List (TxEvent ℕ ℕ) :=
  [.reconcile 0 (.principal 0), .tick 2, .record 1 .previous (oneUnit 1), .insert 1,
    .check 1 (.principal 0), .commit 1, .lock 0, .rewrite 0]

/-- A write of this release, from its start to its commit. -/
def recorded (tx request : ℕ) : List (TxEvent ℕ ℕ) :=
  [.record tx .current (oneUnit request), .insert tx, .debit tx (.principal 0), .commit tx]

theorem reconcile_loses_no_debit_plain :
    ∃ s, Transition.run step uncounted [.reconcile 0 (.principal 0), .lock 0, .rewrite 0] = some s ∧
      ∃ s', s.step (.commit 0) = some s' ∧ s'.counters (.principal 0) = some ⟨1, some 1⟩ := by
  refine ⟨_, rfl, ?_⟩
  obtain ⟨c, s', hc, hstep, hrewrite, -⟩ := (reconcile_loses_no_debit
    [Books.inserted 1 (oneUnit 0) 1] (fun r => if r = .principal 0 then some ⟨0, some 1⟩ else none)
    1 [.reconcile 0 (.principal 0), .lock 0, .rewrite 0] _ rfl (.principal 0)).1 0 1 ⟨1, some 1⟩ rfl
  obtain rfl := Option.some.inj hc
  obtain rfl := Option.some.inj hstep
  exact ⟨_, rfl, hrewrite (fun named hnamed => by cases hnamed; exact Int.le_refl _)⟩

/-- Across midnight the rewritten spend is that of neither month; and a write of
the next month starts the counter again instead of adding to it. -/
theorem rewritten_across_months :
    (∃ s, Transition.run step uncounted (acrossMidnight ++ [.commit 0]) = some s ∧
      s.counters (.principal 0) = some ⟨2, some 1⟩ ∧
      total (ofMonth 1 (rowsOf (.principal 0) s.ledger)) = 1 ∧
      total (ofMonth 2 (rowsOf (.principal 0) s.ledger)) = 1) ∧
    ∃ s s', Transition.run step uncounted
        [.reconcile 0 (.principal 0), .lock 0, .rewrite 0, .commit 0] = some s ∧
      s.counters (.principal 0) = some ⟨1, some 1⟩ ∧
      Transition.run step s (.tick 2 :: recorded 1 1) = some s' ∧
      s'.counters (.principal 0) = some ⟨1, some 2⟩ :=
  ⟨⟨_, rfl, by decide, by decide, by decide⟩, ⟨_, _, rfl, by decide, rfl, by decide⟩⟩

end Database

end OpenAIGateway.Spend
