import OpenAIGateway.RowLocks
import OpenAIGateway.Transition
import Mathlib.Logic.Function.Basic

/-!
Deleting an endpoint beside transactions that write rows naming it. A delete locks
the endpoint's row, counts what names it and removes it, in one transaction. A write
of an account or a catalog row runs a trigger that reads whether the endpoint is
there and, if it is, locks it against the delete. Each statement sees what was
committed before it began, a lock is waited for, and a waiter reads the row again.
-/

set_option linter.all false

namespace OpenAIGateway.EndpointDeletion

open Transition

inductive Table
  | account
  | modelCatalog
  deriving DecidableEq

/-- What identifies a row that can name the endpoint. -/
structure Key where
  table : Table
  id : String
  deriving DecidableEq

/-- A row naming the endpoint, and the registration its trigger found and locked; none when
its trigger ran while nothing was registered. -/
structure Row where
  key : Key
  found : Option ℕ

/-- A change a transaction makes to the rows naming the endpoint. -/
inductive Edit
  | put (row : Row)
  | remove (key : Key)

def Edit.apply (rows : List Row) : Edit → List Row
  | .put row => row :: rows.filter (fun r => r.key ≠ row.key)
  | .remove key => rows.filter (fun r => r.key ≠ key)

/-- Where a write stands in its trigger: reading whether the endpoint is there, then locking
the registration its own statement sees. -/
inductive Trigger
  | idle
  | performing (key : Key)
  | waiting (key : Key) (version : ℕ)

inductive Deletion
  | deleted
  | notFound
  | inUse (accounts models : ℕ)
  | failed

/-- Where a delete stands between its statements. -/
inductive DeletePhase
  | locking (version : ℕ)
  | counting (version : ℕ)
  | deleting (version : ℕ)
  | committing (version : ℕ)
  | answered (answer : Deletion)

inductive Transaction
  | writer (trigger : Trigger) (edits : List Edit)
  | deleter (phase : DeletePhase)
  | ended

inductive Mode
  | keyShare
  | update
  deriving DecidableEq

def conflicts : Mode → Mode → Bool
  | .keyShare, .keyShare => false
  | _, _ => true

/-- What is committed, the locks held, and where each transaction stands. A registration is
known by its number. -/
structure State where
  endpoint : Option ℕ
  registered : ℕ
  rows : List Row
  locks : List (RowLocks.Lock ℕ ℕ Mode)
  transactions : ℕ → Option Transaction

inductive Event
  | register
  | begin (i : ℕ)
  | put (i : ℕ) (key : Key)
  | perform (i : ℕ)
  | lockShare (i : ℕ)
  | remove (i : ℕ) (key : Key)
  | commit (i : ℕ)
  | delete (i : ℕ)
  | lockUpdate (i : ℕ)
  | count (i : ℕ)
  | deleteRow (i : ℕ)
  | commitDelete (i : ℕ)
  | abort (i : ℕ)

def State.set (s : State) (i : ℕ) (t : Transaction) : State :=
  { s with transactions := Function.update s.transactions i (some t) }

/-- A transaction over, its locks released. -/
def State.finish (s : State) (i : ℕ) (t : Transaction) : State :=
  { s with
    locks := RowLocks.release s.locks i
    transactions := Function.update s.transactions i (some t) }

/-- A writer's edits committed. -/
def State.commit (s : State) (i : ℕ) (edits : List Edit) : State :=
  { s with
    rows := edits.foldl Edit.apply s.rows
    locks := RowLocks.release s.locks i
    transactions := Function.update s.transactions i (some .ended) }

/-- The endpoint's row removed. -/
def State.commitDelete (s : State) (i : ℕ) : State :=
  { s with
    endpoint := none
    locks := RowLocks.release s.locks i
    transactions := Function.update s.transactions i (some (.deleter (.answered .deleted))) }

def State.register (s : State) : State :=
  { s with endpoint := some s.registered, registered := s.registered + 1 }

/-- A lock taken, and where it lets its transaction go. -/
def State.grant (s : State) (lock : RowLocks.Lock ℕ ℕ Mode) (t : Transaction) : State :=
  { s with
    locks := lock :: s.locks
    transactions := Function.update s.transactions lock.owner (some t) }

/-- How many of a table's committed rows name the endpoint. -/
def State.naming (s : State) (table : Table) : ℕ := s.rows.countP (fun r => r.key.table = table)

/-- One statement of one transaction, once nothing it waits for is held. An insert under a
taken name waits or is refused, and writes nothing. -/
def step (s : State) : Event → Option State
  | .register =>
    match s.endpoint with
    | some _ => none
    | none => some s.register
  | .begin i =>
    match s.transactions i with
    | none => some (s.set i (.writer .idle []))
    | some _ => none
  | .put i key =>
    match s.transactions i with
    | some (.writer .idle edits) =>
      match s.endpoint with
      | none => some (s.set i (.writer .idle (edits ++ [.put ⟨key, none⟩])))
      | some _ => some (s.set i (.writer (.performing key) edits))
    | _ => none
  | .perform i =>
    match s.transactions i with
    | some (.writer (.performing key) edits) =>
      match s.endpoint with
      | none => some (s.finish i .ended)
      | some version => some (s.set i (.writer (.waiting key version) edits))
    | _ => none
  | .lockShare i =>
    match s.transactions i with
    | some (.writer (.waiting key version) edits) =>
      let lock : RowLocks.Lock ℕ ℕ Mode := ⟨i, version, .keyShare⟩
      if RowLocks.free conflicts s.locks lock = true then
        if s.endpoint = some version then
          some (s.grant lock (.writer .idle (edits ++ [.put ⟨key, some version⟩])))
        else some (s.finish i .ended)
      else none
    | _ => none
  | .remove i key =>
    match s.transactions i with
    | some (.writer .idle edits) => some (s.set i (.writer .idle (edits ++ [.remove key])))
    | _ => none
  | .commit i =>
    match s.transactions i with
    | some (.writer .idle edits) => some (s.commit i edits)
    | _ => none
  | .delete i =>
    match s.transactions i, s.endpoint with
    | none, none => some (s.finish i (.deleter (.answered .notFound)))
    | none, some version => some (s.set i (.deleter (.locking version)))
    | some _, _ => none
  | .lockUpdate i =>
    match s.transactions i with
    | some (.deleter (.locking version)) =>
      let lock : RowLocks.Lock ℕ ℕ Mode := ⟨i, version, .update⟩
      if RowLocks.free conflicts s.locks lock = true then
        if s.endpoint = some version then some (s.grant lock (.deleter (.counting version)))
        else some (s.finish i (.deleter (.answered .notFound)))
      else none
    | _ => none
  | .count i =>
    match s.transactions i with
    | some (.deleter (.counting version)) =>
      let accounts := s.naming .account
      let models := s.naming .modelCatalog
      if 0 < accounts ∨ 0 < models then
        some (s.finish i (.deleter (.answered (.inUse accounts models))))
      else some (s.set i (.deleter (.deleting version)))
    | _ => none
  | .deleteRow i =>
    match s.transactions i with
    | some (.deleter (.deleting version)) => some (s.set i (.deleter (.committing version)))
    | _ => none
  | .commitDelete i =>
    match s.transactions i with
    | some (.deleter (.committing _)) => some (s.commitDelete i)
    | _ => none
  | .abort i =>
    match s.transactions i with
    | some (.writer _ _) => some (s.finish i .ended)
    | some (.deleter (.answered _)) => none
    | some (.deleter _) => some (s.finish i (.deleter (.answered .failed)))
    | _ => none

/-- A database between transactions: a row whose trigger found the endpoint names the one
registered. -/
structure Setup where
  endpoint : Option ℕ
  registered : ℕ
  rows : List Row
  held : ∀ r ∈ rows, ∀ version, r.found = some version → endpoint = some version

def Setup.start (setup : Setup) : State where
  endpoint := setup.endpoint
  registered := setup.registered
  rows := setup.rows
  locks := []
  transactions := fun _ => none

end OpenAIGateway.EndpointDeletion
