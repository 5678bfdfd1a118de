import OpenAIGateway.RekeyImports
import Mathlib.Data.List.Permutation

/-!
What the migration leaves. Each message has one row, under what the planner
derives for it; the rows of others are as they were. Nothing is left to
migrate, and a later import of these messages finds them all.
-/

set_option linter.all false

namespace OpenAIGateway.UsageImport.Rekey

variable {sha1 : List UInt8 → List UInt8} {newV5 : String → Uuid} {before after : Ledger}
  {message : String} {row : UsageEvent}

/-- A row of another origin, or of no reference. -/
def unkeyed (row : UsageEvent) : Bool := row.origin != "claude-code" || row.sourceRef.isNone

/-- What a ledger of imports becomes. -/
structure Rekeyed (newV5 : String → Uuid) (before after : Ledger) : Prop where
  one : ∀ message, (∃ row ∈ before.rows, Of message row) → ∃ kept, Kept before message kept ∧
    ∀ session, after.rows.filter
      (fun row => row.origin == "claude-code" && row.hasRef (claudeRef message)) =
        [planned newV5 (sourceRef .claudeCode session message) kept]
  all : ∀ row ∈ after.rows, row.origin = "claude-code" → row.sourceRef.isSome = true →
    ∃ message, (∃ row ∈ before.rows, Of message row) ∧ NewOf message row
  others : after.rows.filter unkeyed = before.rows.filter unkeyed

theorem keyedRow_eq_none_iff : keyedRow row = none ↔ unkeyed row = true := by
  unfold keyedRow unkeyed
  rw [Bool.or_eq_true, bne_iff_ne, Option.isNone_iff_eq_none]
  by_cases horigin : row.origin = "claude-code"
  · rw [if_pos horigin, Option.map_eq_none_iff]
    exact ⟨Or.inr, fun h => h.resolve_left (not_not_intro horigin)⟩
  · rw [if_neg horigin]
    exact ⟨fun _ => Or.inl horigin, fun _ => rfl⟩

/-- What is not ranked is not deleted. -/
theorem filter_unkeyed_dedupe :
    (dedupe before.rows).filter unkeyed = before.rows.filter unkeyed := by
  have hall : ∀ row ∈ before.rows, unkeyed row = true → row ∈ dedupe before.rows := by
    intro row hrow hunkeyed
    refine (mem_dedupe_iff before.unique).mpr ⟨hrow, fun k hk => ?_⟩
    rw [keyedRow_eq_none_iff.mpr hunkeyed] at hk
    cases hk
  unfold dedupe at hall ⊢
  rw [List.filter_filter]
  refine List.filter_congr fun row hrow => ?_
  cases hunkeyed : unkeyed row with
  | false => rw [Bool.false_and]
  | true => rw [Bool.true_and, (List.mem_filter.mp (hall row hrow hunkeyed)).2]

section After

variable (hsha1 : ∀ bytes, (sha1 bytes).length = 20) (hv5 : IsV5 sha1 importNamespace newV5)
  (h : Importable newV5 before)

include hsha1 hv5 h

/-- What becomes of a row that is left. -/
theorem updated_cases (hleft : row ∈ dedupe before.rows) :
    (keyedRow row = none ∧ TableRewrite.updated isOld (rekey sha1) row = row) ∨
      ∃ message, Of message row ∧ TableRewrite.updated isOld (rekey sha1) row =
        planned newV5 (claudeRef message) row := by
  have hrow := ((mem_dedupe_iff before.unique).mp hleft).1
  cases hk : keyedRow row with
  | none => exact Or.inl ⟨rfl, updated_of_keyedRow hk⟩
  | some k =>
    obtain ⟨message, hof⟩ := h.of_keyedRow hrow hk
    exact Or.inr ⟨message, hof, updated_of hsha1 hv5 h hrow hof⟩

theorem unkeyed_updated (hleft : row ∈ dedupe before.rows) :
    unkeyed (TableRewrite.updated isOld (rekey sha1) row) = unkeyed row := by
  rcases updated_cases hsha1 hv5 h hleft with ⟨-, hsame⟩ | ⟨message, hof, hsame⟩
  · rw [hsame]
  · obtain ⟨isNew, hk⟩ := hof.keyedRow_eq
    have hunkeyed : unkeyed row = false := by
      rw [Bool.eq_false_iff, ne_eq, ← keyedRow_eq_none_iff, hk]
      exact Option.some_ne_none _
    rw [hsame, hunkeyed, unkeyed, planned, hof.origin_eq]
    rfl

/-- The update goes through, whatever its order. -/
theorem migrate_eq {order : List ℕ}
    (horder : order.Perm (List.range (dedupe before.rows).length)) :
    migrate sha1 order before.rows =
      some ((dedupe before.rows).map (TableRewrite.updated isOld (rekey sha1))) := by
  have hnodup : (dedupe before.rows).Nodup := (nodup_rows before.unique).filter _
  apply TableRewrite.updateIn_eq_map _ horder
  intro i j a b ha hb hne hold
  refine rekey_free hsha1 hv5 h (List.mem_of_getElem? ha) (List.mem_of_getElem? hb) ?_ hold
  rintro rfl
  obtain ⟨hi, -⟩ := List.getElem?_eq_some_iff.mp ha
  exact hne ((List.getElem?_inj hi hnodup).mp (ha.trans hb.symm))

/-- No unique key is broken. -/
theorem free_after : Appending.Free UsageEvent.conflicts
    ((dedupe before.rows).map (TableRewrite.updated isOld (rekey sha1))) :=
  TableRewrite.pairwise_updateIn conflicts_comm (before.unique.filter _)
    (migrate_eq hsha1 hv5 h (List.Perm.refl _))

theorem rekeyed (hafter : after.rows =
    (dedupe before.rows).map (TableRewrite.updated isOld (rekey sha1))) :
    Rekeyed newV5 before after where
  one := by
    intro message hsome
    obtain ⟨kept, hleft, hkept, honly⟩ := exists_kept h hsome
    refine ⟨kept, hkept, fun session => ?_⟩
    have hof : Of message kept := hkept.2.imp_right And.left
    have hupdated := updated_of hsha1 hv5 h hkept.1 hof
    rw [sourceRef_claude]
    apply TableRewrite.eq_singleton_of_nodup ((nodup_rows after.unique).filter _)
    · rw [List.mem_filter, hafter, ← hupdated]
      refine ⟨List.mem_map_of_mem hleft, ?_⟩
      rw [hupdated]
      simp [planned, UsageEvent.hasRef, hof.origin_eq]
    · intro row hrow
      rw [List.mem_filter, hafter, List.mem_map, Bool.and_eq_true, beq_iff_eq, hasRef_iff] at hrow
      obtain ⟨⟨source, hsource, rfl⟩, horigin, href⟩ := hrow
      rcases updated_cases hsha1 hv5 h hsource with ⟨hk, hsame⟩ | ⟨message', hof', hsame⟩
      · rw [hsame] at horigin href
        rw [keyedRow_eq_none_iff, unkeyed, horigin, href] at hk
        cases hk
      · rw [hsame] at href ⊢
        have hmessage := claudeRef_inj (Option.some.inj href)
        rw [hmessage] at hof' ⊢
        rw [honly source hsource hof']
  all := by
    intro row hrow horigin href
    rw [hafter, List.mem_map] at hrow
    obtain ⟨source, hsource, rfl⟩ := hrow
    rcases updated_cases hsha1 hv5 h hsource with ⟨hk, hsame⟩ | ⟨message, hof, hsame⟩
    · rw [hsame] at horigin href
      rw [keyedRow_eq_none_iff, unkeyed, horigin, ← Option.not_isSome, href] at hk
      cases hk
    · have hrow := ((mem_dedupe_iff before.unique).mp hsource).1
      rw [hsame] at horigin ⊢
      refine ⟨message, ⟨source, hrow, hof⟩, ?_, horigin, rfl⟩
      exact hof.elim And.left And.left
  others := by
    calc after.rows.filter unkeyed
        = ((dedupe before.rows).filter unkeyed).map (TableRewrite.updated isOld (rekey sha1)) := by
          rw [hafter, List.filter_map]
          exact congrArg _ (List.filter_congr fun row hrow => unkeyed_updated hsha1 hv5 h hrow)
      _ = (dedupe before.rows).filter unkeyed := by
          refine (List.map_congr_left fun row hrow => ?_).trans (List.map_id _)
          exact updated_of_keyedRow (keyedRow_eq_none_iff.mpr (List.mem_filter.mp hrow).2)
      _ = before.rows.filter unkeyed := filter_unkeyed_dedupe

end After

/-- Where no row is in the old shape there is nothing to do. -/
theorem migrate_of_new (hnew : ∀ row ∈ after.rows, row.origin = "claude-code" →
    row.sourceRef.isSome = true → ∃ message, NewOf message row) (order : List ℕ) :
    migrate sha1 order after.rows = some after.rows := by
  have hkeyed : ∀ row ∈ after.rows, ∀ k, keyedRow row = some k → ∃ message, NewOf message row := by
    intro row hrow k hk
    obtain ⟨horigin, ref, href, -⟩ := keyedRow_eq_some_iff.mp hk
    apply hnew row hrow horigin
    rw [href]
    rfl
  have hdedupe : dedupe after.rows = after.rows := by
    have hall : ∀ row ∈ after.rows, row ∈ dedupe after.rows := by
      intro row hrow
      refine (mem_dedupe_iff after.unique).mpr ⟨hrow, fun k hk => ?_⟩
      have hmem := mem_keyed_iff.mpr ⟨row, hrow, hk⟩
      refine List.mem_filter.mpr ⟨hmem, decide_eq_true ?_⟩
      refine (TableRewrite.rowNumber_of_alone ?_).le
      apply TableRewrite.eq_singleton_of_nodup
        ((List.Nodup.of_map _ (nodup_keys after.unique)).filter _)
      · exact List.mem_filter.mpr ⟨hmem, decide_eq_true rfl⟩
      · intro k' hk'
        obtain ⟨hmem', htarget⟩ := List.mem_filter.mp hk'
        obtain ⟨other, hother, hkother⟩ := mem_keyed_iff.mp hmem'
        obtain ⟨message, hof⟩ := hkeyed row hrow k hk
        obtain ⟨message', hof'⟩ := hkeyed other hother k' hkother
        rw [Option.some.inj (hkother.symm.trans hof'.keyedRow_eq),
          Option.some.inj (hk.symm.trans hof.keyedRow_eq), decide_eq_true_eq] at htarget
        have hsame : other = row := by
          refine eq_of_conflicts after.unique hother hrow (conflicts_iff.mpr (Or.inr ?_))
          exact ⟨_, hof'.2.2, hof.2.2.trans (congrArg some htarget.symm)⟩
        rw [hsame] at hkother
        exact Option.some.inj (hkother.symm.trans hk)
    unfold dedupe at hall ⊢
    exact List.filter_eq_self.mpr fun row hrow => (List.mem_filter.mp (hall row hrow)).2
  unfold migrate
  rw [hdedupe]
  apply TableRewrite.updateIn_of_none
  intro row hrow
  cases hk : keyedRow row with
  | none => exact isOld_of_keyedRow hk
  | some k =>
    obtain ⟨message, hof⟩ := hkeyed row hrow k hk
    exact isOld_of_newOf hof

section Later

variable {rows new : List UsageEvent} {ref : String}

/-- A reference that is there is not put again. -/
theorem filter_putAll_hasRef (hthere : ∃ row ∈ rows, row.sourceRef = some ref) :
    (Appending.putAll UsageEvent.conflicts rows new).filter (UsageEvent.hasRef ref) =
      rows.filter (UsageEvent.hasRef ref) := by
  induction new generalizing rows with
  | nil => rfl
  | cons a new ih =>
    have hput : (Appending.put UsageEvent.conflicts rows a).filter (UsageEvent.hasRef ref) =
        rows.filter (UsageEvent.hasRef ref) := by
      cases ha : a.hasRef ref with
      | false => exact Appending.filter_put ha
      | true =>
        obtain ⟨row, hrow, href⟩ := hthere
        have hconflict := conflicts_iff.mpr (Or.inr ⟨ref, hasRef_iff.mp ha, href⟩)
        unfold Appending.put
        rw [if_pos (List.any_eq_true.mpr ⟨row, hrow, hconflict⟩)]
    rw [← hput]
    apply ih
    obtain ⟨row, hrow, href⟩ := hthere
    exact ⟨row, Appending.mem_put_iff.mpr (Or.inl hrow), href⟩

theorem filter_writeBatches_hasRef {accepts : List UsageEvent → Bool} {ledger : Ledger}
    (hthere : ∃ row ∈ ledger.rows, row.sourceRef = some ref) (batches : List (List UsageEvent))
    (written : ℕ) :
    (writeBatches accepts batches ledger written).1.rows.filter (UsageEvent.hasRef ref) =
      ledger.rows.filter (UsageEvent.hasRef ref) := by
  induction batches generalizing ledger written with
  | nil => rfl
  | cons batch batches ih =>
    unfold writeBatches
    by_cases haccepts : accepts batch = true
    · rw [if_pos haccepts, ih]
      · exact filter_putAll_hasRef hthere
      · obtain ⟨row, hrow, href⟩ := hthere
        exact ⟨row, Appending.mem_putAll_of_mem hrow, href⟩
    · rw [if_neg haccepts]

end Later

/-- The migration leaves what the importer derives. Whatever the order its update visits the rows
in, it breaks no unique key. Of each message one row is left, the one in the new shape or else an
earliest old one, under the reference and the id of the planner; the rows of others are as they
were. Again it changes nothing, and no later import has a row of these messages to insert. -/
theorem migration_leaves_what_is_derived (hsha1 : ∀ bytes, (sha1 bytes).length = 20)
    (hv5 : IsV5 sha1 importNamespace newV5) (h : Importable newV5 before) :
    ∃ after : Ledger, (∀ order : List ℕ, order.Perm (List.range (dedupe before.rows).length) →
        migrate sha1 order before.rows = some after.rows) ∧
      Rekeyed newV5 before after ∧
      (∀ order, migrate sha1 order after.rows = some after.rows) ∧
      ∀ (accepts : List UsageEvent → Bool) (p : Plan) (later : Ledger) (message : String),
        (∃ row ∈ before.rows, Of message row) → (∀ row ∈ after.rows, row ∈ later.rows) →
        (write accepts p later).1.rows.filter (UsageEvent.hasRef (claudeRef message)) =
          later.rows.filter (UsageEvent.hasRef (claudeRef message)) := by
  have hrekeyed : Rekeyed newV5 before ⟨_, free_after hsha1 hv5 h⟩ := rekeyed hsha1 hv5 h rfl
  refine ⟨_, fun order horder => migrate_eq hsha1 hv5 h horder, hrekeyed, ?_, ?_⟩
  · refine migrate_of_new fun row hrow horigin href => ?_
    obtain ⟨message, -, hof⟩ := hrekeyed.all row hrow horigin href
    exact ⟨message, hof⟩
  · intro accepts p later message hsome hlater
    apply filter_writeBatches_hasRef
    obtain ⟨kept, -, hone⟩ := hrekeyed.one message hsome
    have hmem := List.mem_singleton_self (planned newV5 (sourceRef .claudeCode "" message) kept)
    rw [← hone ""] at hmem
    obtain ⟨hrow, hof⟩ := List.mem_filter.mp hmem
    exact ⟨_, hlater _ hrow, hasRef_iff.mp ((Bool.and_eq_true _ _).mp hof).2⟩

section Example

/-- The digest the reference of one message has. -/
def msg01Sha1 (_ : List UInt8) : List UInt8 :=
  [0xbd, 0x94, 0x4a, 0xe5, 0xe4, 0x1c, 0x87, 0x4e, 0xdb, 0x11, 0x68, 0x2f, 0x0c, 0xdd, 0x09, 0xc7,
    0x81, 0xf5, 0x03, 0x19]

def msg01V5 : String → Uuid := oagImportUuidV5 msg01Sha1 importNamespace

def bookedRow (requestId : Uuid) (occurredAt : ℤ) (origin : String) (sourceRef : Option String) :
    UsageEvent :=
  { requestId, attempt := 0, occurredAt, accountId := none, modelId := "anthropic/claude-opus-5",
    tier := importedLabel, selectionReason := importedLabel, counts := (1200, 300, 0, 0),
    costUsd := .new 0 0, counterfactualUsd := .new 0 0, counterfactualApiUsd := .new 0 0,
    status := 200, streamed := false, origin, sourceRef, costKnown := true }

/-- A call, and the copy of it a continuation of its session has. -/
def continued : UsageEvent :=
  bookedRow 0x2d8027953b4b5cd5ac39e4bec827f163 10 "claude-code" (some "claude-code:s1:msg_01")

def called : UsageEvent :=
  bookedRow 0x214504cce0495bf2818bfa2b3f9720de 5 "claude-code" (some "claude-code:s2:msg_01")

def served : UsageEvent := bookedRow 0x0190163d8694739b9a1a4a3fb1a4ccb1 20 "gateway" none

/-- A row of the gateway that has the id the message is to have. -/
def taken : UsageEvent := bookedRow 0xbd944ae5e41c574e9b11682f0cdd09c7 20 "gateway" none

def noSession : UsageEvent :=
  bookedRow 0x5b229d2137cc5e3fa0e822ec19c3399b 10 "claude-code" (some "claude-code::msg_01")

def twiceBooked : Ledger := ⟨[continued, called, served], by unfold Appending.Free; decide⟩

def idTaken : Ledger := ⟨[taken, called], by unfold Appending.Free; decide⟩

theorem of_called : OldOf "msg_01" called :=
  ⟨by decide, rfl, "s2", by decide, by decide, by decide⟩

theorem of_continued : OldOf "msg_01" continued :=
  ⟨by decide, rfl, "s1", by decide, by decide, by decide⟩

theorem not_of_gateway {message : String} (h : row.origin = "gateway") : ¬ Of message row := by
  intro hof
  rw [hof.origin_eq] at h
  exact absurd h (by decide)

/-- A function is injective on the name of one message. -/
theorem injOn_of_one {ledger : Ledger}
    (hone : ∀ row ∈ ledger.rows, ∀ message, Of message row → message = "msg_01") :
    Set.InjOn newV5
      {ref | ∃ row ∈ ledger.rows, ∃ message, Of message row ∧ ref = claudeRef message} := by
  rintro ref ⟨row, hrow, message, hof, rfl⟩ ref' ⟨row', hrow', message', hof', rfl⟩ -
  rw [hone row hrow message hof, hone row' hrow' message' hof']

theorem mem_twiceBooked (h : row ∈ twiceBooked.rows) :
    OldOf "msg_01" row ∨ row = served := by
  rcases List.mem_cons.mp h with rfl | h
  · exact Or.inl of_continued
  · rcases List.mem_cons.mp h with rfl | h
    · exact Or.inl of_called
    · exact Or.inr (List.mem_singleton.mp h)

theorem importable_twiceBooked : Importable msg01V5 twiceBooked where
  shaped row hrow horigin _ := by
    rcases mem_twiceBooked hrow with hold | rfl
    · exact ⟨_, Or.inr hold⟩
    · exact absurd horigin (by decide)
  named row hrow message hnew := by
    rcases mem_twiceBooked hrow with hold | rfl
    · exact absurd hnew hold.not_newOf
    · exact absurd (Or.inl hnew) (not_of_gateway rfl)
  injective := by
    apply injOn_of_one
    intro row hrow message hof
    rcases mem_twiceBooked hrow with hold | rfl
    · exact hof.message_eq (Or.inr hold)
    · exact absurd hof (not_of_gateway rfl)
  clear message old hold hshape _ other hother hnot := by
    rcases mem_twiceBooked hold with hmsg | rfl
    · rw [Of.message_eq (Or.inr hshape) (Or.inr hmsg)] at hnot ⊢
      rcases mem_twiceBooked hother with hother | rfl
      · exact absurd hother hnot
      · refine ⟨fun hid => absurd hid.1 ?_, nofun⟩
        change _ ≠ oagImportUuidV5 _ _ _
        decide
    · exact absurd (Or.inr hshape) (not_of_gateway rfl)

/-- Of a call and its copy the earlier is left, and the gateway's row stays. -/
theorem earlier_copy_left : ∃ after : Ledger,
    migrate msg01Sha1 [1, 0] twiceBooked.rows = some after.rows ∧
    after.rows.filter (fun row => row.origin == "claude-code" && row.hasRef "claude-code:msg_01") =
      [planned msg01V5 "claude-code:msg_01" called] ∧
    after.rows.filter unkeyed = [served] := by
  obtain ⟨after, hmigrate, hrekeyed, -, -⟩ := migration_leaves_what_is_derived (fun _ => rfl)
    (isV5_oagImportUuidV5 fun _ => rfl) importable_twiceBooked
  have hlength : (dedupe twiceBooked.rows).length = 2 := by decide +kernel
  refine ⟨after, hmigrate [1, 0] ?_, ?_, hrekeyed.others⟩
  · rw [hlength]
    decide
  have hcalled : called ∈ twiceBooked.rows := List.mem_cons_of_mem _ List.mem_cons_self
  obtain ⟨kept, ⟨hkept, hshape⟩, hone⟩ := hrekeyed.one "msg_01" ⟨called, hcalled, Or.inr of_called⟩
  have hsame : kept = called := by
    rcases hshape with hnew | ⟨hold, -, hearliest⟩
    · rcases mem_twiceBooked hkept with hold | rfl
      · exact absurd hnew hold.not_newOf
      · exact absurd (Or.inl hnew) (not_of_gateway rfl)
    · rcases List.mem_cons.mp hkept with rfl | hkept
      · exact absurd (hearliest called hcalled of_called) (by decide)
      · rcases List.mem_cons.mp hkept with rfl | hkept
        · rfl
        · rw [List.mem_singleton.mp hkept] at hold
          exact absurd (Or.inr hold) (not_of_gateway rfl)
  rw [← hsame]
  exact hone "s2"

theorem mem_idTaken (h : row ∈ idTaken.rows) : row = taken ∨ OldOf "msg_01" row := by
  rcases List.mem_cons.mp h with rfl | h
  · exact Or.inl rfl
  · rw [List.mem_singleton.mp h]
    exact Or.inr of_called

/-- A gateway's row with the id a message is to have refuses the migration, in every order, and a
reference with an empty session in it is left as it is. -/
theorem id_taken_or_session_empty :
    (∀ row ∈ idTaken.rows, row.origin = "claude-code" → ∃ message, Of message row) ∧
    (∀ row ∈ idTaken.rows, ∀ message, ¬ NewOf message row) ∧
    Set.InjOn msg01V5
      {ref | ∃ row ∈ idTaken.rows, ∃ message, Of message row ∧ ref = claudeRef message} ∧
    (∀ order : List ℕ, order.Perm (List.range (dedupe idTaken.rows).length) →
      migrate msg01Sha1 order idTaken.rows = none) ∧
    noSession.sourceRef = some (oldRef "" "msg_01") ∧
    ∀ order, migrate msg01Sha1 order [noSession] = some [noSession] := by
  refine ⟨?_, ?_, ?_, ?_, by decide, ?_⟩
  · intro row hrow horigin
    rcases mem_idTaken hrow with rfl | hold
    · exact absurd horigin (by decide)
    · exact ⟨_, Or.inr hold⟩
  · intro row hrow message hnew
    rcases mem_idTaken hrow with rfl | hold
    · exact absurd (Or.inl hnew) (not_of_gateway rfl)
    · exact hold.not_newOf hnew
  · apply injOn_of_one
    intro row hrow message hof
    rcases mem_idTaken hrow with rfl | hold
    · exact absurd hof (not_of_gateway rfl)
    · exact hof.message_eq (Or.inr hold)
  · intro order horder
    have hdedupe : dedupe idTaken.rows = idTaken.rows := rfl
    have horders : order ∈ List.permutations' [0, 1] := List.mem_permutations'.mpr horder
    unfold migrate
    rw [hdedupe]
    rcases List.mem_cons.mp horders with rfl | horders
    · rfl
    · rw [List.mem_singleton.mp horders]
      rfl
  · intro order
    have hdedupe : dedupe [noSession] = [noSession] := rfl
    unfold migrate
    rw [hdedupe]
    apply TableRewrite.updateIn_of_none
    intro row hrow
    rw [List.mem_singleton.mp hrow]
    decide

end Example

end OpenAIGateway.UsageImport.Rekey
