import Mathlib.Algebra.Group.Nat.Defs
import Mathlib.Data.Int.Notation
import Mathlib.Logic.Function.Basic
import Mathlib.Tactic.Common

/-!
The usage ledger and the counters kept beside it: the lifetime spend of each
API key, and for each principal and route the spend of one month. A write
inserts its ledger row and debits the three counters in one statement. The
month of a statement is that of its transaction's start, so statements come in
any order of months.
-/

set_option linter.all false

namespace OpenAIGateway.Spend

/-- What the ledger and its counters take from a write. The cost is in units of
`10 ^ -28` dollars; a price is never below zero, and so no cost is. -/
structure UsageWrite (Id : Type) where
  requestId : Id
  attempt : ℤ
  principalId : Option Id
  apiKeyId : Option Id
  routeId : Option Id
  costUsd : ℕ

/-- A ledger row; the cost is in units of `10 ^ -8` dollars. -/
structure UsageEvent (Id : Type) where
  requestId : Id
  attempt : ℤ
  /-- The month of `occurred_at`. -/
  month : ℤ
  principalId : Option Id
  apiKeyId : Option Id
  routeId : Option Id
  costUsd : ℕ

/-- The spend of a principal or route in the month it names; no month is never spent. -/
structure MonthlySpend where
  spentUsd : ℕ
  spentMonth : Option ℤ
  deriving DecidableEq

/-- The ledger, oldest row first, and the rows that count its spend. -/
structure Books (Id : Type) where
  ledger : List (UsageEvent Id)
  apiKeys : Id → Option ℕ
  principals : Id → Option MonthlySpend
  routes : Id → Option MonthlySpend

/-- `numeric(14,8)` rounds to the nearest, halves up, and refuses what has too many digits. -/
def ledgerAmount (amount : ℕ) : Option ℕ :=
  let rounded := (amount + 5 * 10 ^ 19) / 10 ^ 20
  if rounded < 10 ^ 14 then some rounded else none

/-- `numeric(16,8)` refuses what has too many digits. -/
def counterAmount (amount : ℕ) : Option ℕ :=
  if amount < 10 ^ 16 then some amount else none

def debitKey (cost spent : ℕ) : Option ℕ := counterAmount (spent + cost)

namespace MonthlySpend

/-- The month only moves forward: a write of an earlier month is accumulated. -/
def debit (month : ℤ) (cost : ℕ) (c : MonthlySpend) : Option MonthlySpend :=
  match c.spentMonth with
  | none => (counterAmount cost).map (fun spent => ⟨spent, some month⟩)
  | some named =>
    (counterAmount (if month ≤ named then c.spentUsd + cost else cost)).map
      (fun spent => ⟨spent, some (if month ≤ named then named else month)⟩)

/-- What a cap check reads in a month. -/
def monthToDate (month : ℤ) (c : MonthlySpend) : ℕ :=
  if c.spentMonth = some month then c.spentUsd else 0

end MonthlySpend

/-- The cost of a list of ledger rows. -/
def total {Id : Type} : List (UsageEvent Id) → ℕ
  | [] => 0
  | u :: rows => u.costUsd + total rows

namespace Books

variable {Id : Type} [DecidableEq Id]

/-- Debit the row a ledger row references. A reference to no row of the table is refused. -/
def debitAt {α : Type*} (debit : α → Option α) (table : Id → Option α) :
    Option Id → Option (Id → Option α)
  | none => some table
  | some id => (table id).bind (fun row =>
      (debit row).map (fun debited => Function.update table id (some debited)))

/-- The row the write inserts in a transaction of that month. -/
def inserted (month : ℤ) (w : UsageWrite Id) (cost : ℕ) : UsageEvent Id :=
  ⟨w.requestId, w.attempt, month, w.principalId, w.apiKeyId, w.routeId, cost⟩

/-- The row has the key of the write. -/
def conflicts (w : UsageWrite Id) (u : UsageEvent Id) : Bool :=
  u.requestId = w.requestId && u.attempt = w.attempt

/-- The statement; `none` when it fails. -/
def recordUsage (month : ℤ) (w : UsageWrite Id) (b : Books Id) : Option (Books Id) := do
  let cost ← ledgerAmount w.costUsd
  if b.ledger.any (conflicts w) then
    return b
  let apiKeys ← debitAt (debitKey cost) b.apiKeys w.apiKeyId
  let principals ← debitAt (MonthlySpend.debit month cost) b.principals w.principalId
  let routes ← debitAt (MonthlySpend.debit month cost) b.routes w.routeId
  return ⟨b.ledger ++ [inserted month w cost], apiKeys, principals, routes⟩

/-- A statement and the month its transaction started in. -/
structure Statement (Id : Type) where
  month : ℤ
  write : UsageWrite Id

/-- A statement that fails changes nothing. -/
def execute (b : Books Id) (s : Statement Id) : Books Id :=
  (b.recordUsage s.month s.write).getD b

/-- The caller's spend: the key's, and the principal's of the month. -/
def spendFor (month : ℤ) (apiKeyId principalId : Id) (b : Books Id) : Option (ℕ × ℕ) := do
  let keyUsd ← b.apiKeys apiKeyId
  let principal ← b.principals principalId
  return (keyUsd, principal.monthToDate month)

/-- The route's spend of the month. -/
def routeSpend (month : ℤ) (routeId : Id) (b : Books Id) : Option ℕ :=
  (b.routes routeId).map (MonthlySpend.monthToDate month)

def rowsOfKey (b : Books Id) (id : Id) : List (UsageEvent Id) :=
  b.ledger.filter (fun u => u.apiKeyId = some id)

def rowsOfPrincipal (b : Books Id) (id : Id) : List (UsageEvent Id) :=
  b.ledger.filter (fun u => u.principalId = some id)

def rowsOfRoute (b : Books Id) (id : Id) : List (UsageEvent Id) :=
  b.ledger.filter (fun u => u.routeId = some id)

end Books

section Rows

variable {Id : Type}

def ofMonth (month : ℤ) (rows : List (UsageEvent Id)) : List (UsageEvent Id) :=
  rows.filter (fun u => u.month = month)

theorem total_append (first second : List (UsageEvent Id)) :
    total (first ++ second) = total first + total second := by
  induction first with
  | nil => exact (Nat.zero_add _).symm
  | cons u first ih =>
    simp only [List.cons_append, total, ih]
    omega

theorem ofMonth_append (month : ℤ) (first second : List (UsageEvent Id)) :
    ofMonth month (first ++ second) = ofMonth month first ++ ofMonth month second :=
  List.filter_append ..

theorem ofMonth_eq_nil {month : ℤ} {rows : List (UsageEvent Id)}
    (h : ∀ u ∈ rows, u.month ≠ month) : ofMonth month rows = [] := by
  refine List.filter_eq_nil_iff.mpr ?_
  intro u hu hmonth
  exact h u hu (of_decide_eq_true hmonth)

theorem total_ofMonth_singleton (u : UsageEvent Id) :
    total (ofMonth u.month [u]) = u.costUsd := by
  have hself : ofMonth u.month [u] = [u] := List.filter_cons_of_pos (decide_eq_true rfl)
  rw [hself]
  rfl

end Rows

namespace MonthlySpend

variable {Id : Type} {c debited : MonthlySpend} {rows : List (UsageEvent Id)}

/-- Everything a debit can do: add to the month it finds, or start a later one. -/
theorem debit_cases {month : ℤ} {cost : ℕ} (h : c.debit month cost = some debited) :
    (∃ named, c.spentMonth = some named ∧ month ≤ named ∧
      debited = ⟨c.spentUsd + cost, some named⟩) ∨
    ((∀ named, c.spentMonth = some named → named < month) ∧ debited = ⟨cost, some month⟩) := by
  have hamount : ∀ {amount spent : ℕ}, counterAmount amount = some spent → spent = amount := by
    intro amount spent hspent
    exact (Option.some.inj (Option.ite_none_right_eq_some.mp hspent).2).symm
  unfold debit at h
  cases hnamed : c.spentMonth with
  | none =>
    rw [hnamed] at h
    obtain ⟨spent, hspent, rfl⟩ := Option.map_eq_some_iff.mp h
    refine Or.inr ⟨?_, ?_⟩
    · intro named heq
      cases heq
    · rw [hamount hspent]
  | some named =>
    rw [hnamed] at h
    obtain ⟨spent, hspent, rfl⟩ := Option.map_eq_some_iff.mp h
    rw [hamount hspent]
    by_cases hle : month ≤ named
    · rw [if_pos hle, if_pos hle]
      exact Or.inl ⟨named, rfl, hle, rfl⟩
    · rw [if_neg hle, if_neg hle]
      refine Or.inr ⟨?_, rfl⟩
      intro other heq
      obtain rfl := Option.some.inj heq
      omega

/-- No row is later than the month the counter names, and the counter has at
least the rows of that month. -/
def Covers (c : MonthlySpend) (rows : List (UsageEvent Id)) : Prop :=
  match c.spentMonth with
  | none => rows = []
  | some named => (∀ u ∈ rows, u.month ≤ named) ∧ total (ofMonth named rows) ≤ c.spentUsd

theorem covers_none {spent : ℕ} :
    Covers ⟨spent, none⟩ rows ↔ rows = [] := Iff.rfl

theorem covers_some {spent : ℕ} {named : ℤ} :
    Covers ⟨spent, some named⟩ rows ↔
      (∀ u ∈ rows, u.month ≤ named) ∧ total (ofMonth named rows) ≤ spent := Iff.rfl

/-- The rows a counter covers are none of a month after the one it names. -/
theorem Covers.before {month : ℤ} (h : c.Covers rows)
    (hnamed : ∀ named, c.spentMonth = some named → named < month) :
    ∀ u ∈ rows, u.month < month := by
  obtain ⟨spent, named⟩ := c
  cases named with
  | none =>
    rw [covers_none.mp h]
    intro u hu
    cases hu
  | some named =>
    have hlater := hnamed named rfl
    intro u hu
    have hle := (covers_some.mp h).1 u hu
    omega

theorem Covers.debit {u : UsageEvent Id} (h : c.Covers rows)
    (hdebit : c.debit u.month u.costUsd = some debited) : debited.Covers (rows ++ [u]) := by
  rcases debit_cases hdebit with ⟨named, hnamed, hle, rfl⟩ | ⟨hnamed, rfl⟩
  · obtain ⟨spent, spentMonth⟩ := c
    obtain rfl : spentMonth = some named := hnamed
    obtain ⟨hrows, htotal⟩ := covers_some.mp h
    refine covers_some.mpr ⟨?_, ?_⟩
    · intro v hv
      rcases List.mem_append.mp hv with hold | hnew
      · exact hrows v hold
      · rwa [List.mem_singleton.mp hnew]
    · have hone : total (ofMonth named [u]) ≤ u.costUsd := by
        by_cases hmonth : u.month = named
        · have hsame := total_ofMonth_singleton u
          rw [hmonth] at hsame
          omega
        · have hnil : ofMonth named [u] = [] := by
            refine ofMonth_eq_nil ?_
            intro v hv
            rwa [List.mem_singleton.mp hv]
          rw [hnil]
          exact Nat.zero_le _
      rw [ofMonth_append, total_append]
      change total (ofMonth named rows) + total (ofMonth named [u]) ≤ spent + u.costUsd
      omega
  · have hbefore := h.before hnamed
    refine covers_some.mpr ⟨?_, ?_⟩
    · intro v hv
      rcases List.mem_append.mp hv with hold | hnew
      · have hlt := hbefore v hold
        omega
      · obtain rfl := List.mem_singleton.mp hnew
        exact Int.le_refl _
    · have hnil : ofMonth u.month rows = [] := by
        refine ofMonth_eq_nil ?_
        intro v hv
        have hlt := hbefore v hv
        omega
      rw [ofMonth_append, hnil, List.nil_append]
      exact Nat.le_of_eq (total_ofMonth_singleton u)

/-- The month does not go back from one counter to the other. -/
def MonthLe (c later : MonthlySpend) : Prop :=
  ∀ named, c.spentMonth = some named →
    ∃ named', later.spentMonth = some named' ∧ named ≤ named'

theorem MonthLe.refl (c : MonthlySpend) : c.MonthLe c := by
  intro named hnamed
  exact ⟨named, hnamed, by omega⟩

theorem MonthLe.trans {later latest : MonthlySpend} (h₁ : c.MonthLe later)
    (h₂ : later.MonthLe latest) : c.MonthLe latest := by
  intro named hnamed
  obtain ⟨named', hnamed', hle⟩ := h₁ named hnamed
  obtain ⟨named'', hnamed'', hle'⟩ := h₂ named' hnamed'
  exact ⟨named'', hnamed'', by omega⟩

theorem monthLe_debit {month : ℤ} {cost : ℕ} (h : c.debit month cost = some debited) :
    c.MonthLe debited := by
  intro named hnamed
  rcases debit_cases h with ⟨named', hnamed', -, rfl⟩ | ⟨hbefore, rfl⟩
  · obtain rfl := Option.some.inj (hnamed.symm.trans hnamed')
    exact ⟨named, rfl, by omega⟩
  · have hlt := hbefore named hnamed
    exact ⟨month, rfl, by omega⟩

/-- A cap check in a month the counter has not passed reads all of its rows. -/
theorem Covers.le_monthToDate {month : ℤ} (h : c.Covers rows)
    (hnamed : ∀ named, c.spentMonth = some named → named ≤ month) :
    total (ofMonth month rows) ≤ c.monthToDate month := by
  by_cases heq : c.spentMonth = some month
  · obtain ⟨spent, spentMonth⟩ := c
    obtain rfl : spentMonth = some month := heq
    have hread : monthToDate month ⟨spent, some month⟩ = spent := if_pos rfl
    rw [hread]
    exact (covers_some.mp h).2
  · have hbefore : ∀ u ∈ rows, u.month < month := by
      refine h.before ?_
      intro named hname
      have hle := hnamed named hname
      have hne : named ≠ month := fun he => heq (he ▸ hname)
      omega
    rw [ofMonth_eq_nil (fun u hu => Int.ne_of_lt (hbefore u hu))]
    exact Nat.zero_le _

end MonthlySpend

namespace Books

variable {Id : Type} [DecidableEq Id] {b b' : Books Id} {month : ℤ} {w : UsageWrite Id}

/-- Everything a table debit can do to a row: leave it, or debit the one referenced. -/
theorem debitAt_cases {α : Type} {debit : α → Option α} {table debited : Id → Option α}
    {reference : Option Id} (h : debitAt debit table reference = some debited) (id : Id) :
    (reference ≠ some id ∧ debited id = table id) ∨
    (reference = some id ∧ ∃ row row', table id = some row ∧ debit row = some row' ∧
      debited id = some row') := by
  cases reference with
  | none =>
    obtain rfl := Option.some.inj h
    exact Or.inl ⟨Option.some_ne_none id ∘ Eq.symm, rfl⟩
  | some other =>
    obtain ⟨row, hrow, hmap⟩ := Option.bind_eq_some_iff.mp h
    obtain ⟨row', hrow', rfl⟩ := Option.map_eq_some_iff.mp hmap
    by_cases hid : id = other
    · subst hid
      exact Or.inr ⟨rfl, row, row', hrow, hrow', Function.update_self ..⟩
    · refine Or.inl ⟨fun heq => hid (Option.some.inj heq).symm, ?_⟩
      exact Function.update_of_ne hid ..

/-- Everything a statement can do: nothing on a conflict, else the row and its three debits. -/
theorem recordUsage_cases (h : b.recordUsage month w = some b') :
    (b.ledger.any (conflicts w) = true ∧ b' = b) ∨
    ∃ cost, b.ledger.any (conflicts w) = false ∧
      b'.ledger = b.ledger ++ [inserted month w cost] ∧
      debitAt (debitKey cost) b.apiKeys w.apiKeyId = some b'.apiKeys ∧
      debitAt (MonthlySpend.debit month cost) b.principals w.principalId = some b'.principals ∧
      debitAt (MonthlySpend.debit month cost) b.routes w.routeId = some b'.routes := by
  obtain ⟨cost, -, h⟩ := Option.bind_eq_some_iff.mp h
  by_cases hconflict : b.ledger.any (conflicts w) = true
  · rw [if_pos hconflict] at h
    exact Or.inl ⟨hconflict, (Option.some.inj h).symm⟩
  · rw [if_neg hconflict] at h
    obtain ⟨apiKeys, hkeys, h⟩ := Option.bind_eq_some_iff.mp h
    obtain ⟨principals, hprincipals, h⟩ := Option.bind_eq_some_iff.mp h
    obtain ⟨routes, hroutes, h⟩ := Option.bind_eq_some_iff.mp h
    obtain rfl := Option.some.inj h
    exact Or.inr ⟨cost, Bool.eq_false_iff.mpr hconflict, rfl, hkeys, hprincipals, hroutes⟩

/-- The counters agree with the ledger. -/
structure Consistent (b : Books Id) : Prop where
  apiKey : ∀ id spent, b.apiKeys id = some spent → spent = total (b.rowsOfKey id)
  principal : ∀ id c, b.principals id = some c → c.Covers (b.rowsOfPrincipal id)
  route : ∀ id c, b.routes id = some c → c.Covers (b.rowsOfRoute id)

/-- A row of the table is kept, and its month does not go back. -/
def Forward (table later : Id → Option MonthlySpend) : Prop :=
  ∀ id c, table id = some c → ∃ c', later id = some c' ∧ c.MonthLe c'

omit [DecidableEq Id] in
theorem Forward.refl (table : Id → Option MonthlySpend) : Forward table table :=
  fun _ c hc => ⟨c, hc, MonthlySpend.MonthLe.refl c⟩

omit [DecidableEq Id] in
theorem Forward.trans {table later latest : Id → Option MonthlySpend}
    (h₁ : Forward table later) (h₂ : Forward later latest) : Forward table latest := by
  intro id c hc
  obtain ⟨c', hc', hle⟩ := h₁ id c hc
  obtain ⟨c'', hc'', hle'⟩ := h₂ id c' hc'
  exact ⟨c'', hc'', hle.trans hle'⟩

/-- A monthly table that covers the ledger covers it with a row more, once debited for it. -/
theorem covers_debitAt (owner : UsageEvent Id → Option Id)
    {table debited : Id → Option MonthlySpend} {ledger : List (UsageEvent Id)} {u : UsageEvent Id}
    (h : ∀ id c, table id = some c → c.Covers (ledger.filter (fun u => owner u = some id)))
    (hdebit : debitAt (MonthlySpend.debit u.month u.costUsd) table (owner u) = some debited) :
    ∀ id c, debited id = some c →
      c.Covers ((ledger ++ [u]).filter (fun u => owner u = some id)) := by
  intro id c hc
  rw [List.filter_append]
  rcases debitAt_cases hdebit id with ⟨hother, heq⟩ | ⟨howner, row, row', hrow, hrow', heq⟩
  · have hnone : [u].filter (fun u => owner u = some id) = [] :=
      List.filter_cons_of_neg (by simpa using hother)
    rw [hnone, List.append_nil]
    exact h id c (heq.symm.trans hc)
  · have hself : [u].filter (fun u => owner u = some id) = [u] :=
      List.filter_cons_of_pos (by simpa using howner)
    obtain rfl := Option.some.inj (hc.symm.trans heq)
    rw [hself]
    exact (h id row hrow).debit hrow'

theorem keys_debitAt {table debited : Id → Option ℕ} {ledger : List (UsageEvent Id)}
    {u : UsageEvent Id}
    (h : ∀ id spent, table id = some spent →
      spent = total (ledger.filter (fun u => u.apiKeyId = some id)))
    (hdebit : debitAt (debitKey u.costUsd) table u.apiKeyId = some debited) :
    ∀ id spent, debited id = some spent →
      spent = total ((ledger ++ [u]).filter (fun u => u.apiKeyId = some id)) := by
  intro id spent hspent
  rw [List.filter_append, total_append]
  rcases debitAt_cases hdebit id with ⟨hother, heq⟩ | ⟨howner, row, row', hrow, hrow', heq⟩
  · have hnone : [u].filter (fun u => u.apiKeyId = some id) = [] :=
      List.filter_cons_of_neg (by simpa using hother)
    rw [hnone]
    exact h id spent (heq.symm.trans hspent)
  · have hself : [u].filter (fun u => u.apiKeyId = some id) = [u] :=
      List.filter_cons_of_pos (by simpa using howner)
    obtain rfl := Option.some.inj (hspent.symm.trans heq)
    have hadded := (Option.some.inj (Option.ite_none_right_eq_some.mp hrow').2).symm
    have hbefore := h id row hrow
    have hone : total [u] = u.costUsd := rfl
    rw [hself]
    omega

theorem Consistent.recordUsage (h : b.Consistent) (hrecord : b.recordUsage month w = some b') :
    b'.Consistent := by
  rcases recordUsage_cases hrecord with ⟨-, rfl⟩ | ⟨cost, -, hledger, hkeys, hprincipals, hroutes⟩
  · exact h
  · refine ⟨?_, ?_, ?_⟩
    · intro id spent hspent
      rw [rowsOfKey, hledger]
      exact keys_debitAt (u := inserted month w cost) h.apiKey hkeys id spent hspent
    · intro id c hc
      rw [rowsOfPrincipal, hledger]
      exact covers_debitAt UsageEvent.principalId (u := inserted month w cost) h.principal
        hprincipals id c hc
    · intro id c hc
      rw [rowsOfRoute, hledger]
      exact covers_debitAt UsageEvent.routeId (u := inserted month w cost) h.route hroutes id c hc

theorem Consistent.execute (h : b.Consistent) (s : Statement Id) : (b.execute s).Consistent := by
  unfold Books.execute
  cases hrecord : b.recordUsage s.month s.write with
  | none => exact h
  | some b' => exact h.recordUsage hrecord

theorem Consistent.spendFor {apiKeyId principalId : Id} {keyUsd principalUsd : ℕ}
    (h : b.Consistent) (hread : b.spendFor month apiKeyId principalId = some (keyUsd, principalUsd))
    (hpast : ∀ c named, b.principals principalId = some c → c.spentMonth = some named →
      named ≤ month) :
    keyUsd = total (b.rowsOfKey apiKeyId) ∧
      total (ofMonth month (b.rowsOfPrincipal principalId)) ≤ principalUsd := by
  obtain ⟨spent, hkey, hread⟩ := Option.bind_eq_some_iff.mp hread
  obtain ⟨c, hprincipal, hread⟩ := Option.bind_eq_some_iff.mp hread
  obtain ⟨rfl, rfl⟩ := Prod.mk.inj (Option.some.inj hread)
  refine ⟨h.apiKey apiKeyId _ hkey, ?_⟩
  exact (h.principal principalId c hprincipal).le_monthToDate
    (fun named hnamed => hpast c named hprincipal hnamed)

theorem Consistent.routeSpend {routeId : Id} {routeUsd : ℕ} (h : b.Consistent)
    (hread : b.routeSpend month routeId = some routeUsd)
    (hpast : ∀ c named, b.routes routeId = some c → c.spentMonth = some named → named ≤ month) :
    total (ofMonth month (b.rowsOfRoute routeId)) ≤ routeUsd := by
  obtain ⟨c, hroute, rfl⟩ := Option.map_eq_some_iff.mp hread
  exact (h.route routeId c hroute).le_monthToDate
    (fun named hnamed => hpast c named hroute hnamed)

/-- No ledger yet: one key, one principal and one route, never spent. -/
def unspent : Books ℕ :=
  ⟨[], fun id => if id = 0 then some 0 else none,
    fun id => if id = 0 then some ⟨0, none⟩ else none,
    fun id => if id = 0 then some ⟨0, none⟩ else none⟩

/-- A write of the new month commits before one that started in the old month. -/
def midnight : List (Statement ℕ) :=
  [⟨2, ⟨1, 0, some 0, some 0, some 0, 10 ^ 20⟩⟩, ⟨1, ⟨2, 0, some 0, some 0, some 0, 10 ^ 20⟩⟩]

end Books

end OpenAIGateway.Spend
