import OpenAIGateway.ImportLedger

/-!
A call is booked once. What a plan imports it plans once for each session the
call is in, and the source reference, which is the call's own, lets one of
those rows into the ledger, in this import or in an earlier one.
-/

set_option linter.all false

namespace OpenAIGateway.UsageImport

variable {newV5 : String → Uuid} {ledger : Ledger} {rows new : List UsageEvent} {ref : String}

theorem hasRef_iff {row : UsageEvent} : row.hasRef ref = true ↔ row.sourceRef = some ref := by
  unfold UsageEvent.hasRef
  exact beq_iff_eq

theorem conflicts_iff {a b : UsageEvent} : UsageEvent.conflicts a b = true ↔
    (a.requestId = b.requestId ∧ a.attempt = b.attempt) ∨
      (∃ ref, a.sourceRef = some ref ∧ b.sourceRef = some ref) := by
  unfold UsageEvent.conflicts
  rw [Bool.or_eq_true, Bool.and_eq_true, Bool.and_eq_true, beq_iff_eq, beq_iff_eq, beq_iff_eq,
    Option.isSome_iff_exists]
  constructor
  · rintro (hkey | ⟨⟨ref, href⟩, hsame⟩)
    · exact Or.inl hkey
    · exact Or.inr ⟨ref, href, hsame ▸ href⟩
  · rintro (hkey | ⟨ref, ha, hb⟩)
    · exact Or.inl hkey
    · exact Or.inr ⟨⟨ref, ha⟩, ha.trans hb.symm⟩

/-- A source reference is on one row at most. -/
theorem length_hasRef_le_one (h : Appending.Free UsageEvent.conflicts rows) (ref : String) :
    (rows.filter (UsageEvent.hasRef ref)).length ≤ 1 := by
  apply Appending.length_filter_le_one h
  intro a b ha hb
  exact conflicts_iff.mpr (Or.inr ⟨ref, hasRef_iff.mp hb, hasRef_iff.mp ha⟩)

section Insert

variable (hversion : ∀ ref, (newV5 ref).version = 5)
  (hrows : ∀ row ∈ rows, row.requestId.version = 7 ∨ KeyedByRef newV5 row)
  (hnew : ∀ row ∈ new, KeyedByRef newV5 row)
  (hinj : Set.InjOn newV5 {ref | ∃ row ∈ rows ++ new, row.sourceRef = some ref})

include hversion hrows hnew hinj

/-- A row that is put leaves a row with its reference: no other reference's row has its key. -/
theorem exists_hasRef {a : UsageEvent} (ha : a ∈ new) (href : a.sourceRef = some ref) :
    ∃ b ∈ Appending.putAll UsageEvent.conflicts rows new, b.sourceRef = some ref := by
  obtain ⟨b, hb, hplaced⟩ := Appending.placed_putAll rows ha
  refine ⟨b, hb, ?_⟩
  rcases hplaced with rfl | hconflict
  · exact href
  rcases conflicts_iff.mp hconflict with ⟨hkey, -⟩ | ⟨ref', ha', hb'⟩
  · obtain ⟨ref₀, href₀, ha₀⟩ := hnew a ha
    cases href.symm.trans href₀
    have hbkey : b.requestId.version = 7 ∨ KeyedByRef newV5 b :=
      (Appending.mem_of_mem_putAll hb).elim (hrows b) (fun hb => Or.inr (hnew b hb))
    rcases hbkey with hseven | ⟨ref', href', hb'⟩
    · rw [← hkey, ha₀, hversion] at hseven
      cases hseven
    · have hsame : newV5 ref' = newV5 ref := by rw [← hb', ← hkey, ha₀]
      have hmem := List.mem_append.mpr (Appending.mem_of_mem_putAll hb)
      rw [← hinj ⟨b, hmem, href'⟩ ⟨a, List.mem_append_right rows ha, href⟩ hsame]
      exact href'
  · rw [hb', ← ha', href]

/-- Of the references put there is one row each; of the others there are those there were. -/
theorem count_putAll (hfree : Appending.Free UsageEvent.conflicts rows) (ref : String) :
    ((Appending.putAll UsageEvent.conflicts rows new).filter (UsageEvent.hasRef ref)).length =
      if ∃ row ∈ new, row.sourceRef = some ref then 1
      else (rows.filter (UsageEvent.hasRef ref)).length := by
  by_cases hput : ∃ row ∈ new, row.sourceRef = some ref
  · rw [if_pos hput]
    obtain ⟨a, ha, href⟩ := hput
    obtain ⟨b, hb, hbref⟩ := exists_hasRef hversion hrows hnew hinj ha href
    have hone := length_hasRef_le_one (Appending.free_putAll hfree new) ref
    have hpos := List.length_pos_of_mem (List.mem_filter.mpr ⟨hb, hasRef_iff.mpr hbref⟩)
    omega
  · rw [if_neg hput, Appending.filter_putAll]
    intro a ha
    cases hput' : a.hasRef ref with
    | false => rfl
    | true => exact absurd ⟨a, ha, hasRef_iff.mp hput'⟩ hput

end Insert

section Claude

variable (A : Arithmetic) (newV5 : String → Uuid)

/-- The plan of an import of Claude Code's transcripts against the gateway's rows. -/
def claudePlan (gateway : List GatewayRow) (scan : Scan) (prices : Prices) (before : Option ℤ)
    (seat : Option Seat) : Plan :=
  { plan A newV5 scan (.build gateway) prices .claudeCode before with seat := seat }

/-- The message ids of the sessions an import of Claude Code's transcripts takes. -/
def importedIds (gateway : List GatewayRow) (scan : Scan) (before : Option ℤ) : List String :=
  (imported scan (.build gateway) .claudeCode before).map (fun call => call.2.externalId)

def claudeRef (externalId : String) : String := "claude-code:" ++ externalId

theorem claudeRef_inj {id id' : String} (h : claudeRef id = claudeRef id') : id = id' :=
  (String.append_right_inj _).mp h

theorem sourceRef_claude (session externalId : String) :
    sourceRef .claudeCode session externalId = claudeRef externalId := by
  have hprefix : "claude-code" ++ ":" = "claude-code:" := rfl
  simp only [sourceRef, claudeRef, Source.messageIdsAreGlobal, if_true, Source.origin, hprefix]

variable {A newV5} {gateway : List GatewayRow} {scan : Scan} {prices : Prices} {before : Option ℤ}
  {seat : Option Seat}

theorem mem_claudePlan_events_iff : (∃ row ∈ (claudePlan A newV5 gateway scan prices before
    seat).events, row.sourceRef = some ref) ↔
      ∃ id ∈ importedIds gateway scan before, claudeRef id = ref := by
  unfold Plan.events claudePlan importedIds
  simp only [plan_rows, List.map_map, List.mem_map, Function.comp_apply]
  constructor
  · rintro ⟨row, ⟨call, hcall, rfl⟩, href⟩
    refine ⟨_, ⟨call, hcall, rfl⟩, ?_⟩
    rw [← sourceRef_claude call.1]
    exact Option.some.inj href
  · rintro ⟨id, ⟨call, hcall, rfl⟩, rfl⟩
    refine ⟨_, ⟨call, hcall, rfl⟩, ?_⟩
    rw [← sourceRef_claude call.1]
    rfl

/-- After an import and another one there is one row for each message id of the sessions either
takes, and of every other reference there are the rows there were. -/
theorem count_after_imports {accepts : List UsageEvent → Bool}
    (hversion : ∀ ref, (newV5 ref).version = 5) {scan' : Scan} {prices' : Prices}
    {before' : Option ℤ} {seat' : Option Seat} (hledger : Written A newV5 accepts ledger)
    (hinj : Set.InjOn newV5 (ledger.refs ∪ {ref | ∃ id ∈ importedIds gateway scan before ++
      importedIds gateway scan' before', claudeRef id = ref}))
    {n n' : ℕ} {after last : Ledger}
    (h : write accepts (claudePlan A newV5 gateway scan prices before seat) ledger =
      (after, some n))
    (h' : write accepts (claudePlan A newV5 gateway scan' prices' before' seat') after =
      (last, some n')) (ref : String) :
    last.count ref = if ∃ id ∈ importedIds gateway scan before ++ importedIds gateway scan' before',
      claudeRef id = ref then 1 else ledger.count ref := by
  have hafter := write_rows (congrArg Prod.snd h)
  have hlast := write_rows (congrArg Prod.snd h')
  rw [h] at hafter
  rw [h', hafter, ← Appending.putAll_append] at hlast
  have hrefs : ∀ ref, (∃ row ∈ (claudePlan A newV5 gateway scan prices before seat).events ++
      (claudePlan A newV5 gateway scan' prices' before' seat').events, row.sourceRef = some ref) ↔
      ∃ id ∈ importedIds gateway scan before ++ importedIds gateway scan' before',
        claudeRef id = ref := by
    intro ref
    simp only [List.mem_append, or_and_right, exists_or, mem_claudePlan_events_iff]
  have hnew : ∀ row ∈ (claudePlan A newV5 gateway scan prices before seat).events ++
      (claudePlan A newV5 gateway scan' prices' before' seat').events, KeyedByRef newV5 row := by
    intro row hrow
    rcases List.mem_append.mp hrow with hrow | hrow
    · exact (mem_events hrow).2
    · exact (mem_events hrow).2
  have hinj' : Set.InjOn newV5 {ref | ∃ row ∈ ledger.rows ++
      ((claudePlan A newV5 gateway scan prices before seat).events ++
        (claudePlan A newV5 gateway scan' prices' before' seat').events),
      row.sourceRef = some ref} := by
    refine hinj.mono ?_
    rintro ref ⟨row, hrow, href⟩
    rcases List.mem_append.mp hrow with hrow | hrow
    · exact Or.inl ⟨row, hrow, href⟩
    · exact Or.inr ((hrefs ref).mp ⟨row, hrow, href⟩)
  have hcount := count_putAll hversion hledger.keys hnew hinj' ledger.unique ref
  unfold Ledger.count
  rw [hlast, hcount]
  exact if_congr (hrefs ref) rfl rfl

/-- Each call is booked at most once. The indexed lookup is a scan of the gateway's rows. The rows
of a plan are those of the calls of the imported sessions, one each. An imported session ended
before the cutoff, and no call of it that is large enough to tell has its counts in a row of its
time. Messages of different ids have different references. After an import and another one there is
one row for each message id of the sessions either takes, and of every other reference there are the
rows there were. -/
theorem imports_book_each_call_once (A : Arithmetic) (accepts : List UsageEvent → Bool)
    (hversion : ∀ ref, (newV5 ref).version = 5) (gateway : List GatewayRow) (scan : Scan)
    (prices : Prices) (before : Option ℤ) (seat : Option Seat) :
    (∀ fp lo hi, (LedgerIndex.build gateway).seenBetween fp lo hi = gateway.any
      (fun row => decide (row.counts = fp ∧ lo ≤ row.occurredAt ∧ row.occurredAt ≤ hi))) ∧
    (claudePlan A newV5 gateway scan prices before seat).rows =
      (imported scan (.build gateway) .claudeCode before).map
        (fun call => pending A newV5 prices .claudeCode call.1 call.2) ∧
    ((imported scan (.build gateway) .claudeCode before).map
      (fun call => (call.1, call.2.externalId))).Nodup ∧
    (∀ id m, (id, m) ∈ imported scan (.build gateway) .claudeCode before ↔
      ∃ e ∈ scan.sessions, e.id = id ∧ m ∈ e.session.messages ∧
        judge e.session (.build gateway) .claudeCode before = some .imported) ∧
    (∀ e ∈ scan.sessions, judge e.session (.build gateway) .claudeCode before = some .imported →
      ∃ start last, e.session.window = some (start, last) ∧ (∀ cutoff ∈ before, last < cutoff) ∧
        ∀ m ∈ e.session.messages, distinctiveTokens ≤ m.usage.total →
          ∀ row ∈ gateway, row.counts = m.counts →
            row.occurredAt < start - ledgerSlack ∨ last + ledgerSlack < row.occurredAt) ∧
    (∀ id id', claudeRef id = claudeRef id' → id = id') ∧
    ∀ (scan' : Scan) (prices' : Prices) (before' : Option ℤ) (seat' : Option Seat)
      (ledger after last : Ledger) (n n' : ℕ), Written A newV5 accepts ledger →
      Set.InjOn newV5 (ledger.refs ∪ {ref | ∃ id ∈ importedIds gateway scan before ++
        importedIds gateway scan' before', claudeRef id = ref}) →
      write accepts (claudePlan A newV5 gateway scan prices before seat) ledger =
        (after, some n) →
      write accepts (claudePlan A newV5 gateway scan' prices' before' seat') after =
        (last, some n') →
      ∀ ref, last.count ref =
        if ∃ id ∈ importedIds gateway scan before ++ importedIds gateway scan' before',
          claudeRef id = ref then 1 else ledger.count ref := by
  refine ⟨LedgerIndex.seenBetween_build gateway, plan_rows A newV5, nodup_imported,
    fun id m => mem_imported_iff, ?_, fun id id' => claudeRef_inj, ?_⟩
  · intro e he hjudge
    obtain ⟨start, last, hwindow, hcutoff, -, -⟩ := (judge_eq_imported_iff _ before).mp hjudge
    refine ⟨start, last, hwindow, hcutoff, ?_⟩
    intro m hm hdistinctive row hrow hcounts
    exact not_metered_of_imported hjudge hwindow hm (decide_eq_true hdistinctive) hrow hcounts
  · intro scan' prices' before' seat' ledger after last n n' hledger hinj h h'
    exact count_after_imports hversion hledger hinj h h'

end Claude

section Example

def opusCall (id : String) (occurredAt : ℤ) (inputTokens : ℕ) : Message :=
  ⟨id, occurredAt, "claude-opus-5", { inputTokens := inputTokens, outputTokens := 300 }, none⟩

/-- A session, a continuation that copies its call, and a session that the gateway served. -/
def firstScan : Scan :=
  ((Scan.empty.absorb "s1" (opusCall "msg_01" 0 1200)).absorb "s2"
    (opusCall "msg_01" 0 1200)).absorb "s3" (opusCall "msg_03" 10 5000)

/-- The continuation has gone on. -/
def secondScan : Scan := firstScan.absorb "s2" (opusCall "msg_02" 20 2500)

def servedCall : GatewayRow := ⟨15, (5000, 300, 0, 0), by decide⟩

/-- The ids these references have, but for the last. -/
def opusV5 (ref : String) : Uuid :=
  if ref = "claude-code:msg_01" then 0xbd944ae5e41c574e9b11682f0cdd09c7
  else if ref = "claude-code:msg_02" then 0x433e411548e15fb193bb0109fdbd8169
  else 0xd1aab8d944965d4d9766e11ec85d7bb7

theorem opusV5_version (ref : String) : (opusV5 ref).version = 5 := by
  unfold opusV5
  split_ifs <;> decide

theorem importedIds_scans : importedIds [servedCall] firstScan none ++
    importedIds [servedCall] secondScan none =
      ["msg_01", "msg_01", "msg_01", "msg_01", "msg_02"] := by
  decide

theorem opusV5_injOn : Set.InjOn opusV5 (Ledger.empty.refs ∪
    {ref | ∃ id ∈ importedIds [servedCall] firstScan none ++
      importedIds [servedCall] secondScan none, claudeRef id = ref}) := by
  rw [importedIds_scans]
  rintro ref (⟨row, hrow, -⟩ | ⟨id, hid, rfl⟩) ref' (⟨row, hrow, -⟩ | ⟨id', hid', rfl⟩) hsame
  · cases hrow
  · cases hrow
  · cases hrow
  · revert hsame
    simp only [List.mem_cons, List.not_mem_nil, or_false] at hid hid'
    have hids : ∀ id : String, (id = "msg_01" ∨ id = "msg_01" ∨ id = "msg_01" ∨ id = "msg_01" ∨
        id = "msg_02") → id = "msg_01" ∨ id = "msg_02" := fun _ h => by tauto
    rcases hids id hid with rfl | rfl <;> rcases hids id' hid' with rfl | rfl <;> decide

/-- The copied call has one row, the call that came later one, and the served one none. -/
theorem copied_call_booked_once : ∃ after last n n',
    write (fun _ => true) (claudePlan Arithmetic.down opusV5 [servedCall] firstScan (fun _ => none)
      none none) Ledger.empty = (after, some n) ∧
    write (fun _ => true) (claudePlan Arithmetic.down opusV5 [servedCall] secondScan (fun _ => none)
      none none) after = (last, some n') ∧
    last.count (claudeRef "msg_01") = 1 ∧ last.count (claudeRef "msg_02") = 1 ∧
      last.count (claudeRef "msg_03") = 0 := by
  obtain ⟨after, h⟩ : ∃ after, write (fun _ => true) (claudePlan Arithmetic.down opusV5
      [servedCall] firstScan (fun _ => none) none none) Ledger.empty = (after, some 1) := ⟨_, rfl⟩
  obtain ⟨last, n', h'⟩ : ∃ last n', write (fun _ => true) (claudePlan Arithmetic.down opusV5
      [servedCall] secondScan (fun _ => none) none none) after = (last, some n') := by
    cases h
    exact ⟨_, 1, rfl⟩
  have hcount := (imports_book_each_call_once Arithmetic.down (fun _ => true) opusV5_version
    [servedCall] firstScan (fun _ => none) none none).2.2.2.2.2.2 secondScan (fun _ => none) none
    none Ledger.empty after last 1 n' Written.empty opusV5_injOn h h'
  refine ⟨after, last, 1, n', h, h', ?_, ?_, ?_⟩ <;> rw [hcount, importedIds_scans]
  · exact if_pos (by decide)
  · exact if_pos (by decide)
  · exact if_neg (by decide)

end Example

end OpenAIGateway.UsageImport
