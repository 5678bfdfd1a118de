import OpenAIGateway.ImportIdentity
import OpenAIGateway.ImportOnce
import OpenAIGateway.Render
import OpenAIGateway.Split
import OpenAIGateway.TableRewrite
import Mathlib.Data.Bool.Basic
import Mathlib.Data.Prod.Lex

/-!
The migration that carries imported rows over to the references the importer
now derives. A row of a message may be in the old shape, with a session in it,
or in the new one; of the rows of a message one is left, and it is re-keyed.
-/

set_option linter.all false

namespace OpenAIGateway.UsageImport

namespace Rekey

/-- What follows the session, where there is one: `^claude-code:[^:]+:`. -/
def oldShape (ref : String) : Option String := do
  let rest ← stripPrefix "claude-code:" ref
  let (session, message) ← Split.splitOnce ':' rest
  if session.isEmpty then none else some message

/-- `regexp_replace(source_ref, '^claude-code:[^:]+:', 'claude-code:')` -/
def target (ref : String) : String :=
  match oldShape ref with
  | none => ref
  | some message => "claude-code:" ++ message

/-- A row as the ranking sees it. -/
structure KeyedRow where
  requestId : Uuid
  attempt : ℤ
  target : String
  alreadyNew : Bool
  occurredAt : ℤ

/-- The row of the ranking a row of the ledger has. -/
def keyedRow (row : UsageEvent) : Option KeyedRow :=
  if row.origin = "claude-code" then
    row.sourceRef.map (fun ref =>
      { requestId := row.requestId
        attempt := row.attempt
        target := target ref
        alreadyNew := (oldShape ref).isNone
        occurredAt := row.occurredAt })
  else none

namespace KeyedRow

/-- The primary key. -/
def key (r : KeyedRow) : Uuid × ℤ := (r.requestId, r.attempt)

/-- What comes first: `already_new DESC, occurred_at, request_id`. -/
def rank (r : KeyedRow) : Bool ×ₗ ℤ ×ₗ ℕ :=
  toLex (!r.alreadyNew, toLex (r.occurredAt, r.requestId.toNat))

def Before (a b : KeyedRow) : Prop := a.rank ≤ b.rank

instance : DecidableRel Before := fun a b => inferInstanceAs (Decidable (a.rank ≤ b.rank))

instance : Std.Total Before := ⟨fun a b => le_total a.rank b.rank⟩

instance : IsTrans KeyedRow Before := ⟨fun _ _ _ hab hbc => le_trans hab hbc⟩

variable {a b : KeyedRow}

/-- Rows in the new shape come first. -/
theorem Before.alreadyNew (h : Before a b) (hb : b.alreadyNew = true) : a.alreadyNew = true := by
  rcases Prod.Lex.toLex_le_toLex.mp h with hlt | ⟨heq, -⟩
  · rw [hb] at hlt
    exact absurd hlt (not_lt_of_ge (Bool.false_le _))
  · rw [← hb]
    exact Bool.not_inj heq

theorem Before.occurredAt_le (h : Before a b) (hshape : a.alreadyNew = b.alreadyNew) :
    a.occurredAt ≤ b.occurredAt := by
  rcases Prod.Lex.toLex_le_toLex.mp h with hlt | ⟨-, hle⟩
  · rw [hshape] at hlt
    exact absurd hlt (lt_irrefl _)
  · rcases Prod.Lex.toLex_le_toLex.mp hle with hlt | ⟨heq, -⟩
    · exact hlt.le
    · exact heq.le

end KeyedRow

def keyed (rows : List UsageEvent) : List KeyedRow := rows.filterMap keyedRow

/-- Each keyed row with its number among those of its target. -/
def ranked (rows : List UsageEvent) : List (KeyedRow × ℕ) :=
  (keyed rows).map (fun r =>
    (r, TableRewrite.rowNumber KeyedRow.target KeyedRow.key KeyedRow.Before (keyed rows) r))

/-- Delete all but the first row of each target. -/
def dedupe (rows : List UsageEvent) : List UsageEvent :=
  rows.filter (fun e => !(ranked rows).any (fun r =>
    r.1.requestId == e.requestId && r.1.attempt == e.attempt && decide (1 < r.2)))

/-- Whether the update takes a row. -/
def isOld (row : UsageEvent) : Bool :=
  row.origin == "claude-code" && (row.sourceRef.bind oldShape).isSome

variable (sha1 : List UInt8 → List UInt8)

/-- The reference and the id the importer now derives. -/
def rekey (row : UsageEvent) : UsageEvent :=
  match row.sourceRef with
  | none => row
  | some ref =>
    { row with
      sourceRef := some (target ref)
      requestId := oagImportUuidV5 sha1 importNamespace (target ref) }

/-- The migration, its update visiting rows in some order; `none` where it breaks a unique key. -/
def migrate (order : List ℕ) (rows : List UsageEvent) : Option (List UsageEvent) :=
  TableRewrite.updateIn UsageEvent.conflicts isOld (rekey sha1) order (dedupe rows)

section Shapes

variable {message message' session : String} {row : UsageEvent}

/-- The reference that has the session in it. -/
def oldRef (session message : String) : String := "claude-code:" ++ session ++ ":" ++ message

/-- A message's row in the new shape. -/
def NewOf (message : String) (row : UsageEvent) : Prop :=
  ':' ∉ message.toList ∧ row.origin = "claude-code" ∧ row.sourceRef = some (claudeRef message)

/-- A message's row in the old shape. -/
def OldOf (message : String) (row : UsageEvent) : Prop :=
  ':' ∉ message.toList ∧ row.origin = "claude-code" ∧
    ∃ session, session ≠ "" ∧ ':' ∉ session.toList ∧ row.sourceRef = some (oldRef session message)

def Of (message : String) (row : UsageEvent) : Prop := NewOf message row ∨ OldOf message row

theorem oldShape_claudeRef (h : ':' ∉ message.toList) : oldShape (claudeRef message) = none := by
  have hsplit : Split.splitOnce ':' message = none := by
    unfold Split.splitOnce
    rw [Split.first_eq_none_iff.mpr h]
    rfl
  unfold oldShape claudeRef
  rw [stripPrefix_append]
  simp only [Option.bind_eq_bind, Option.bind_some, hsplit, Option.bind_none]

theorem oldShape_oldRef (hne : session ≠ "") (h : ':' ∉ session.toList) :
    oldShape (oldRef session message) = some message := by
  have hassoc : oldRef session message = "claude-code:" ++ (session ++ ":" ++ message) := by
    unfold oldRef
    simp only [String.append_assoc]
  have hsplit : Split.splitOnce ':' (session ++ ":" ++ message) = some (session, message) := by
    apply Split.splitOnce_eq_some_iff.mpr
    simp [h]
  unfold oldShape
  rw [hassoc, stripPrefix_append]
  simp [hsplit, hne]

theorem target_claudeRef (h : ':' ∉ message.toList) :
    target (claudeRef message) = claudeRef message := by
  unfold target
  rw [oldShape_claudeRef h]

theorem target_oldRef (hne : session ≠ "") (h : ':' ∉ session.toList) :
    target (oldRef session message) = claudeRef message := by
  unfold target
  rw [oldShape_oldRef hne h]
  rfl

theorem keyedRow_eq_some_iff {k : KeyedRow} : keyedRow row = some k ↔ row.origin = "claude-code" ∧
    ∃ ref, row.sourceRef = some ref ∧
      k = ⟨row.requestId, row.attempt, target ref, (oldShape ref).isNone, row.occurredAt⟩ := by
  unfold keyedRow
  rw [Option.ite_none_right_eq_some, Option.map_eq_some_iff]
  simp only [eq_comm]

theorem NewOf.keyedRow_eq (h : NewOf message row) : keyedRow row =
    some ⟨row.requestId, row.attempt, claudeRef message, true, row.occurredAt⟩ := by
  obtain ⟨hcolon, horigin, href⟩ := h
  refine keyedRow_eq_some_iff.mpr ⟨horigin, _, href, ?_⟩
  rw [target_claudeRef hcolon, oldShape_claudeRef hcolon]
  rfl

theorem OldOf.keyedRow_eq (h : OldOf message row) : keyedRow row =
    some ⟨row.requestId, row.attempt, claudeRef message, false, row.occurredAt⟩ := by
  obtain ⟨-, horigin, session, hne, hcolon, href⟩ := h
  refine keyedRow_eq_some_iff.mpr ⟨horigin, _, href, ?_⟩
  rw [target_oldRef hne hcolon, oldShape_oldRef hne hcolon]
  rfl

/-- A row's place in the ranking, by its message. -/
theorem Of.keyedRow_eq (h : Of message row) : ∃ isNew, keyedRow row =
    some ⟨row.requestId, row.attempt, claudeRef message, isNew, row.occurredAt⟩ :=
  h.elim (fun h => ⟨true, h.keyedRow_eq⟩) (fun h => ⟨false, h.keyedRow_eq⟩)

theorem Of.origin_eq (h : Of message row) : row.origin = "claude-code" :=
  h.elim (fun h => h.2.1) (fun h => h.2.1)

/-- A row is of one message. -/
theorem Of.message_eq (h : Of message row) (h' : Of message' row) : message = message' := by
  obtain ⟨_, hkeyed⟩ := h.keyedRow_eq
  obtain ⟨_, hkeyed'⟩ := h'.keyedRow_eq
  rw [hkeyed] at hkeyed'
  exact claudeRef_inj (congrArg KeyedRow.target (Option.some.inj hkeyed'))

/-- What is not ranked is not updated. -/
theorem isOld_of_keyedRow (h : keyedRow row = none) : isOld row = false := by
  unfold isOld
  unfold keyedRow at h
  cases href : row.sourceRef with
  | none => simp
  | some ref =>
    rw [href] at h
    simp at h
    simp [h]

theorem isOld_of_newOf (h : NewOf message row) : isOld row = false := by
  unfold isOld
  rw [h.2.2, Option.bind_some, oldShape_claudeRef h.1]
  simp

theorem isOld_of_oldOf (h : OldOf message row) : isOld row = true := by
  obtain ⟨-, horigin, session, hne, hcolon, href⟩ := h
  unfold isOld
  rw [href, Option.bind_some, oldShape_oldRef hne hcolon, horigin]
  rfl

theorem OldOf.not_newOf (h : OldOf message row) : ¬ NewOf message' row := by
  intro hnew
  have hboth := (isOld_of_newOf hnew).symm.trans (isOld_of_oldOf h)
  cases hboth

end Shapes

section Tables

variable {rows : List UsageEvent}

theorem conflicts_self (row : UsageEvent) : UsageEvent.conflicts row row = true :=
  conflicts_iff.mpr (Or.inl ⟨rfl, rfl⟩)

theorem conflicts_comm (a b : UsageEvent) :
    UsageEvent.conflicts a b = UsageEvent.conflicts b a := by
  rw [Bool.eq_iff_iff, conflicts_iff, conflicts_iff]
  constructor
  · rintro (⟨hid, hattempt⟩ | ⟨ref, ha, hb⟩)
    · exact Or.inl ⟨hid.symm, hattempt.symm⟩
    · exact Or.inr ⟨ref, hb, ha⟩
  · rintro (⟨hid, hattempt⟩ | ⟨ref, hb, ha⟩)
    · exact Or.inl ⟨hid.symm, hattempt.symm⟩
    · exact Or.inr ⟨ref, ha, hb⟩

/-- Rows of a ledger that share a key are one row. -/
theorem eq_of_conflicts (h : Appending.Free UsageEvent.conflicts rows) {a b : UsageEvent}
    (ha : a ∈ rows) (hb : b ∈ rows) (hconflict : UsageEvent.conflicts a b = true) : a = b := by
  by_contra hne
  have hsymm : Std.Symm (fun a b => UsageEvent.conflicts b a = false) :=
    ⟨fun a b hab => by rwa [conflicts_comm]⟩
  have hfree : UsageEvent.conflicts b a = false := List.Pairwise.forall h ha hb hne
  rw [conflicts_comm, hconflict] at hfree
  cases hfree

theorem nodup_rows (h : Appending.Free UsageEvent.conflicts rows) : rows.Nodup := by
  refine h.imp ?_
  rintro a b hfree rfl
  rw [conflicts_self] at hfree
  cases hfree

theorem mem_keyed_iff {k : KeyedRow} : k ∈ keyed rows ↔ ∃ row ∈ rows, keyedRow row = some k :=
  List.mem_filterMap

/-- The primary key tells the rows of the ranking apart. -/
theorem nodup_keys (h : Appending.Free UsageEvent.conflicts rows) :
    ((keyed rows).map KeyedRow.key).Nodup := by
  unfold keyed
  rw [List.Nodup, List.pairwise_map, List.pairwise_filterMap]
  refine h.imp ?_
  intro a b hfree k hk k' hk' hsame
  obtain ⟨-, ref, -, rfl⟩ := keyedRow_eq_some_iff.mp hk
  obtain ⟨-, ref', -, rfl⟩ := keyedRow_eq_some_iff.mp hk'
  obtain ⟨hid, hattempt⟩ := Prod.mk.inj hsame
  rw [conflicts_iff.mpr (Or.inl ⟨hid.symm, hattempt.symm⟩)] at hfree
  cases hfree

/-- A row of the ranking is one row's. -/
theorem eq_of_keyedRow (h : Appending.Free UsageEvent.conflicts rows) {a b : UsageEvent}
    {k : KeyedRow} (ha : a ∈ rows) (hb : b ∈ rows) (hka : keyedRow a = some k)
    (hkb : keyedRow b = some k) : a = b := by
  obtain ⟨-, ref, -, hk⟩ := keyedRow_eq_some_iff.mp hka
  obtain ⟨-, ref', -, hk'⟩ := keyedRow_eq_some_iff.mp hkb
  rw [hk] at hk'
  refine eq_of_conflicts h ha hb (conflicts_iff.mpr (Or.inl ⟨?_, ?_⟩))
  · exact congrArg KeyedRow.requestId hk'
  · exact congrArg KeyedRow.attempt hk'

/-- What the ranked delete leaves: the rows it does not rank, and those ranked first. -/
theorem mem_dedupe_iff (h : Appending.Free UsageEvent.conflicts rows) {row : UsageEvent} :
    row ∈ dedupe rows ↔ row ∈ rows ∧ ∀ k, keyedRow row = some k →
      k ∈ TableRewrite.firsts KeyedRow.target KeyedRow.key KeyedRow.Before (keyed rows) := by
  unfold dedupe TableRewrite.firsts
  rw [List.mem_filter, Bool.not_eq_true', List.any_eq_false]
  refine and_congr_right fun hrow => ?_
  constructor
  · intro hkept k hk
    have hkeyed := mem_keyed_iff.mpr ⟨row, hrow, hk⟩
    obtain ⟨-, ref, -, rfl⟩ := keyedRow_eq_some_iff.mp hk
    have hnumber := hkept _ (List.mem_map_of_mem hkeyed)
    simp only [beq_self_eq_true, Bool.true_and, decide_eq_true_eq, not_lt] at hnumber
    exact List.mem_filter.mpr ⟨hkeyed, decide_eq_true hnumber⟩
  · intro hfirst r hr
    obtain ⟨k, hk, rfl⟩ := List.mem_map.mp hr
    obtain ⟨other, hother, hkey⟩ := mem_keyed_iff.mp hk
    simp only [Bool.and_eq_true, beq_iff_eq, decide_eq_true_eq]
    rintro ⟨⟨hid, hattempt⟩, hnumber⟩
    have hsame : other = row := by
      obtain ⟨-, ref, -, rfl⟩ := keyedRow_eq_some_iff.mp hkey
      exact eq_of_conflicts h hother hrow (conflicts_iff.mpr (Or.inl ⟨hid, hattempt⟩))
    have hone := (List.mem_filter.mp (hfirst k (hsame ▸ hkey))).2
    exact absurd (of_decide_eq_true hone) (not_le.mpr hnumber)

end Tables

section Migration

variable {sha1} {newV5 : String → Uuid} {before : Ledger} {message : String} {row : UsageEvent}

/-- A ledger of imports in both shapes, whose new rows have the id of their reference. Where a
message has old rows only, what it is to have, nobody else has. -/
structure Importable (newV5 : String → Uuid) (ledger : Ledger) : Prop where
  shaped : ∀ row ∈ ledger.rows, row.origin = "claude-code" → row.sourceRef.isSome = true →
    ∃ message, Of message row
  named : ∀ row ∈ ledger.rows, ∀ message, NewOf message row →
    row.requestId = newV5 (claudeRef message)
  injective : Set.InjOn newV5
    {ref | ∃ row ∈ ledger.rows, ∃ message, Of message row ∧ ref = claudeRef message}
  clear : ∀ message, ∀ old ∈ ledger.rows, OldOf message old →
    (∀ row ∈ ledger.rows, ¬ NewOf message row) →
    ∀ other ∈ ledger.rows, ¬ OldOf message other →
      ¬ (other.requestId = newV5 (claudeRef message) ∧ other.attempt = old.attempt) ∧
        other.sourceRef ≠ some (claudeRef message)

/-- The row of a message that is left: the one in the new shape, else an earliest one. -/
def Kept (ledger : Ledger) (message : String) (kept : UsageEvent) : Prop :=
  kept ∈ ledger.rows ∧ (NewOf message kept ∨
    OldOf message kept ∧ (∀ row ∈ ledger.rows, ¬ NewOf message row) ∧
      ∀ row ∈ ledger.rows, OldOf message row → kept.occurredAt ≤ row.occurredAt)

/-- A row under the reference and the id the planner derives. -/
def planned (newV5 : String → Uuid) (ref : String) (row : UsageEvent) : UsageEvent :=
  { row with requestId := newV5 ref, sourceRef := some ref }

theorem Importable.of_keyedRow (h : Importable newV5 before) {k : KeyedRow}
    (hrow : row ∈ before.rows) (hk : keyedRow row = some k) : ∃ message, Of message row := by
  obtain ⟨horigin, ref, href, -⟩ := keyedRow_eq_some_iff.mp hk
  apply h.shaped row hrow horigin
  rw [href]
  rfl

/-- The delete leaves one row of each message. -/
theorem exists_kept (h : Importable newV5 before) (hsome : ∃ row ∈ before.rows, Of message row) :
    ∃ kept ∈ dedupe before.rows, Kept before message kept ∧
      ∀ row ∈ dedupe before.rows, Of message row → row = kept := by
  have hkeyed : ∃ k ∈ keyed before.rows, k.target = claudeRef message := by
    obtain ⟨row, hrow, hof⟩ := hsome
    obtain ⟨isNew, hk⟩ := hof.keyedRow_eq
    exact ⟨_, mem_keyed_iff.mpr ⟨row, hrow, hk⟩, rfl⟩
  obtain ⟨a, ha, htarget, hleast, hfirsts⟩ :=
    TableRewrite.exists_first KeyedRow.Before (nodup_keys before.unique) hkeyed
  obtain ⟨kept, hkept, hka⟩ := mem_keyed_iff.mp ha
  have hof : Of message kept := by
    obtain ⟨other, hother⟩ := h.of_keyedRow hkept hka
    obtain ⟨isNew, hk⟩ := hother.keyedRow_eq
    rw [hka] at hk
    have hsame : other = message := by
      apply claudeRef_inj
      rw [← htarget, Option.some.inj hk]
    rwa [hsame] at hother
  refine ⟨kept, ?_, ⟨hkept, ?_⟩, ?_⟩
  · refine (mem_dedupe_iff before.unique).mpr ⟨hkept, fun k hk => ?_⟩
    have hmem : a ∈ [a] := List.mem_singleton_self a
    rw [← hfirsts] at hmem
    rw [← Option.some.inj (hka.symm.trans hk)]
    exact List.mem_of_mem_filter hmem
  · refine hof.imp_right fun hold => ?_
    have ha' := Option.some.inj (hka.symm.trans hold.keyedRow_eq)
    refine ⟨hold, fun row hrow hnew => ?_, fun row hrow hold' => ?_⟩
    · have hbefore := hleast _ (mem_keyed_iff.mpr ⟨row, hrow, hnew.keyedRow_eq⟩) rfl
      have hshape := hbefore.alreadyNew rfl
      rw [ha'] at hshape
      cases hshape
    · have hbefore := hleast _ (mem_keyed_iff.mpr ⟨row, hrow, hold'.keyedRow_eq⟩) rfl
      rw [ha'] at hbefore
      exact hbefore.occurredAt_le rfl
  · intro row hrow hrowof
    obtain ⟨hrow, hfirst⟩ := (mem_dedupe_iff before.unique).mp hrow
    obtain ⟨isNew, hk⟩ := hrowof.keyedRow_eq
    have hmem := List.mem_filter (p := fun k => decide (k.target = claudeRef message)).mpr
      ⟨hfirst _ hk, decide_eq_true rfl⟩
    rw [hfirsts, List.mem_singleton] at hmem
    rw [hmem] at hk
    exact eq_of_keyedRow before.unique hrow hkept hk hka

/-- The migration's own function names a row as the planner does. -/
theorem updated_of (hsha1 : ∀ bytes, (sha1 bytes).length = 20)
    (hv5 : IsV5 sha1 importNamespace newV5) (h : Importable newV5 before) (hrow : row ∈ before.rows)
    (hof : Of message row) :
    TableRewrite.updated isOld (rekey sha1) row = planned newV5 (claudeRef message) row := by
  unfold TableRewrite.updated planned
  rcases hof with hnew | hold
  · rw [isOld_of_newOf hnew, ← h.named row hrow message hnew, ← hnew.2.2]
    rfl
  · rw [isOld_of_oldOf hold, if_pos rfl]
    obtain ⟨-, -, session, hne, hcolon, href⟩ := hold
    unfold rekey
    rw [href, hv5.unique (isV5_oagImportUuidV5 hsha1)]
    simp only [target_oldRef hne hcolon]

theorem updated_of_keyedRow (h : keyedRow row = none) :
    TableRewrite.updated isOld (rekey sha1) row = row := by
  unfold TableRewrite.updated
  rw [isOld_of_keyedRow h]
  rfl

/-- An old row that is left is the only one of its message. -/
theorem alone_of_isOld (h : Importable newV5 before) (hleft : row ∈ dedupe before.rows)
    (hold : isOld row = true) : ∃ message, OldOf message row ∧
      (∀ other ∈ before.rows, ¬ NewOf message other) ∧
      ∀ other ∈ dedupe before.rows, Of message other → other = row := by
  have hrow := ((mem_dedupe_iff before.unique).mp hleft).1
  obtain ⟨message, hof⟩ : ∃ message, Of message row := by
    cases hk : keyedRow row with
    | none =>
      rw [isOld_of_keyedRow hk] at hold
      cases hold
    | some k => exact h.of_keyedRow hrow hk
  have hshape : OldOf message row := by
    refine hof.resolve_left fun hnew => ?_
    rw [isOld_of_newOf hnew] at hold
    cases hold
  obtain ⟨kept, -, ⟨-, hkept⟩, honly⟩ := exists_kept h ⟨row, hrow, hof⟩
  obtain rfl := honly row hleft hof
  refine ⟨message, hshape, ?_, honly⟩
  rcases hkept with hnew | ⟨-, hnone, -⟩
  · rw [isOld_of_newOf hnew] at hold
    cases hold
  · exact hnone

/-- No row is in the way of a row the update re-keys, be it updated already or not. -/
theorem rekey_free (hsha1 : ∀ bytes, (sha1 bytes).length = 20)
    (hv5 : IsV5 sha1 importNamespace newV5) (h : Importable newV5 before) {a b : UsageEvent}
    (ha : a ∈ dedupe before.rows) (hb : b ∈ dedupe before.rows) (hne : a ≠ b)
    (hold : isOld a = true) : UsageEvent.conflicts (rekey sha1 a) b = false ∧
      UsageEvent.conflicts (rekey sha1 a) (TableRewrite.updated isOld (rekey sha1) b) = false := by
  have harow := ((mem_dedupe_iff before.unique).mp ha).1
  have hbrow := ((mem_dedupe_iff before.unique).mp hb).1
  obtain ⟨message, hshape, hnone, honly⟩ := alone_of_isOld h ha hold
  have hother : ¬ Of message b := fun hof => hne (honly b hb hof).symm
  obtain ⟨hid, href⟩ :=
    h.clear message a harow hshape hnone b hbrow (fun hof => hother (Or.inr hof))
  have hrekeyed : rekey sha1 a = planned newV5 (claudeRef message) a := by
    rw [← updated_of hsha1 hv5 h harow (Or.inr hshape), TableRewrite.updated, if_pos hold]
  have hclear : UsageEvent.conflicts (planned newV5 (claudeRef message) a) b = false := by
    rw [Bool.eq_false_iff, ne_eq, conflicts_iff]
    rintro (⟨hsame, hattempt⟩ | ⟨ref, hsame, hbref⟩)
    · exact hid ⟨hsame.symm, hattempt.symm⟩
    · exact href (hbref.trans hsame.symm)
  rw [hrekeyed]
  refine ⟨hclear, ?_⟩
  cases hk : keyedRow b with
  | none =>
    rw [updated_of_keyedRow hk]
    exact hclear
  | some k =>
    obtain ⟨message', hof⟩ := h.of_keyedRow hbrow hk
    have hrefs : claudeRef message ≠ claudeRef message' := by
      intro hsame
      rw [claudeRef_inj hsame] at hother
      exact hother hof
    rw [updated_of hsha1 hv5 h hbrow hof, Bool.eq_false_iff, ne_eq, conflicts_iff]
    rintro (⟨hsame, -⟩ | ⟨ref, hsame, hbref⟩)
    · exact hrefs (h.injective ⟨a, harow, message, Or.inr hshape, rfl⟩
        ⟨b, hbrow, message', hof, rfl⟩ hsame)
    · exact hrefs (Option.some.inj (hsame.trans hbref.symm))

end Migration

end Rekey

end OpenAIGateway.UsageImport
