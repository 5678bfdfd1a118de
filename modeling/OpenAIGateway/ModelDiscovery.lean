import OpenAIGateway.XaiModels

/-!
What model discovery does to the catalogue. It decides by upstream name and
writes by id, so it only adds rows when no id it writes is taken, and a second
run has nothing to add when the rows of the first price nothing new.
-/

set_option linter.all false

namespace OpenAIGateway.XaiModels

open CatalogRecords

variable {now later : ℕ → ℤ} {k : ℕ} {t : ℤ} {insert : CatalogInsert} {inserts : List CatalogInsert}
  {table next : CatalogRecords} {record old : CatalogRecord} {id name : String}

/-- The price columns hold the row's prices. -/
def accepted (insert : CatalogInsert) : Bool := (rowFrom insert).stored.isSome

/-- The inserts that are carried out: those before the first one refused. -/
def writes (inserts : List CatalogInsert) : List CatalogInsert := inserts.takeWhile accepted

theorem rowFrom_id_inj {a b : CatalogInsert} :
    (rowFrom a).id = (rowFrom b).id ↔ a.upstreamName = b.upstreamName := by
  change "xai/" ++ a.upstreamName = "xai/" ++ b.upstreamName ↔ _
  exact String.append_right_inj "xai/"

/-- Filed under xAI with this upstream name, as every row of a listing is. -/
def IsModel (record : CatalogRecord) (name : String) : Prop :=
  record.row.provider = "xai" ∧ record.row.upstreamName = name

/-- One write, seen from its id and from the others. -/
theorem get_writeOne (h : table.upsertModel (rowFrom insert) false t = some next) :
    accepted insert = true ∧ (∀ id ≠ (rowFrom insert).id, next.get id = table.get id) ∧
    ((∃ old, table.get (rowFrom insert).id = some old ∧ old.isOverride = true ∧
        next.get (rowFrom insert).id = some old) ∨
      ∃ record, next.get (rowFrom insert).id = some record ∧ record.isOverride = false ∧
        record.row.id = (rowFrom insert).id ∧ IsModel record insert.upstreamName) := by
  obtain ⟨row, hstored, hget⟩ := get_upsertModel h
  obtain ⟨hid, hprovider, hname⟩ := CatalogRow.stored_keeps hstored
  refine ⟨by simp [accepted, hstored], fun id hne => by rw [hget, if_neg hne], ?_⟩
  rw [hget, if_pos rfl]
  cases hold : table.get (rowFrom insert).id with
  | none => exact .inr ⟨_, rfl, rfl, hid, hprovider, hname⟩
  | some old =>
    unfold upserted
    by_cases hoverride : old.isOverride = true
    · exact .inl ⟨old, rfl, hoverride, by simp [hoverride]⟩
    · rw [Bool.not_eq_true] at hoverride
      simp only [hoverride, Bool.false_eq_true, if_false]
      exact .inr ⟨_, rfl, hoverride, hid, hprovider, hname⟩

theorem writes_cons_of_accepted (h : accepted insert = true) :
    writes (insert :: inserts) = insert :: writes inserts := by
  simp [writes, h]

theorem writes_cons_of_refused (h : table.upsertModel (rowFrom insert) false t = none) :
    writes (insert :: inserts) = [] := by
  rw [upsertModel_eq_none_iff] at h
  simp [writes, accepted, h]

/-- What every write that is carried out keeps, a whole run of them keeps. -/
theorem writeAll_induction {P : CatalogRecords → Prop}
    (hstep : ∀ insert ∈ writes inserts, ∀ table next (t : ℤ), P table →
      table.upsertModel (rowFrom insert) false t = some next → P next)
    (h : P table) : P (writeAll now k inserts table).1 := by
  induction inserts generalizing k table with
  | nil => exact h
  | cons insert rest ih =>
    unfold writeAll
    cases hwrite : table.upsertModel (rowFrom insert) false (now k) with
    | none => exact h
    | some next =>
      have hcons : writes (insert :: rest) = insert :: writes rest :=
        writes_cons_of_accepted (get_writeOne hwrite).1
      rw [hcons] at hstep
      apply ih
      · exact fun other hother => hstep other (List.mem_cons_of_mem _ hother)
      · exact hstep insert List.mem_cons_self table next (now k) h hwrite

/-- Every record afterwards was there before or is one of the models written. -/
theorem mem_writeAll (h : record ∈ (writeAll now k inserts table).1.records) :
    record ∈ table.records ∨ ∃ insert ∈ writes inserts,
      record.row.id = (rowFrom insert).id ∧ IsModel record insert.upstreamName := by
  have hall : ∀ record ∈ (writeAll now k inserts table).1.records, record ∈ table.records ∨
      ∃ insert ∈ writes inserts,
        record.row.id = (rowFrom insert).id ∧ IsModel record insert.upstreamName := by
    apply writeAll_induction (P := fun after => ∀ record ∈ after.records, record ∈ table.records ∨
      ∃ insert ∈ writes inserts,
        record.row.id = (rowFrom insert).id ∧ IsModel record insert.upstreamName)
    · intro insert hinsert before next t hbefore hwrite record hrecord
      obtain ⟨-, hothers, hown⟩ := get_writeOne hwrite
      have hget : next.get record.row.id = some record := get_eq_some_iff.mpr ⟨hrecord, rfl⟩
      by_cases hid : record.row.id = (rowFrom insert).id
      · rw [hid] at hget
        rcases hown with ⟨old, hold, -, hkept⟩ | ⟨new, hnew, -, hnewId, hmodel⟩
        · obtain rfl : record = old := Option.some.inj (hget.symm.trans hkept)
          exact hbefore record (get_eq_some_iff.mp hold).1
        · obtain rfl : record = new := Option.some.inj (hget.symm.trans hnew)
          exact .inr ⟨insert, hinsert, hnewId, hmodel⟩
      · rw [hothers _ hid] at hget
        exact hbefore record (get_eq_some_iff.mp hget).1
    · exact fun record hrecord => .inl hrecord
  exact hall record h

/-- An id that nothing written has keeps what it had. -/
theorem get_writeAll_of_notMem (h : ∀ insert ∈ writes inserts, (rowFrom insert).id ≠ id) :
    (writeAll now k inserts table).1.get id = table.get id := by
  apply writeAll_induction (P := fun after => after.get id = table.get id)
  · intro insert hinsert before next t hbefore hwrite
    rw [(get_writeOne hwrite).2.1 id (h insert hinsert).symm, hbefore]
  · rfl

/-- An override stays whatever is written. -/
theorem get_writeAll_of_override (h : table.get id = some old) (hoverride : old.isOverride = true) :
    (writeAll now k inserts table).1.get id = some old := by
  apply writeAll_induction (P := fun after => after.get id = some old)
  · intro insert hinsert before next t hbefore hwrite
    obtain ⟨-, hothers, -⟩ := get_writeOne hwrite
    by_cases hid : id = (rowFrom insert).id
    · subst hid
      unfold upsertModel at hwrite
      obtain ⟨row, hstored, rfl⟩ := Option.map_eq_some_iff.mp hwrite
      rw [(CatalogRow.stored_keeps hstored).1, hbefore]
      simp [hoverride, hbefore]
    · rw [hothers id hid, hbefore]
  · exact h

/-- What a model has once its row is written. -/
def Written (table : CatalogRecords) (insert : CatalogInsert) : Prop :=
  ∃ record, table.get (rowFrom insert).id = some record ∧ record.isOverride = false ∧
    IsModel record insert.upstreamName

theorem written_kept {other : CatalogInsert} (h : Written table insert)
    (hwrite : table.upsertModel (rowFrom other) false t = some next) : Written next insert := by
  obtain ⟨record, hrecord, hplain, hmodel⟩ := h
  obtain ⟨-, hothers, hown⟩ := get_writeOne hwrite
  by_cases hid : (rowFrom insert).id = (rowFrom other).id
  · rcases hown with ⟨old, hold, hoverride, -⟩ | ⟨new, hnew, hnewPlain, -, hnewModel⟩
    · rw [← hid, hrecord] at hold
      cases hold
      rw [hplain] at hoverride
      cases hoverride
    · rw [← hid] at hnew
      exact ⟨new, hnew, hnewPlain, by rwa [rowFrom_id_inj.mp hid]⟩
  · exact ⟨record, by rw [hothers _ hid, hrecord], hplain, hmodel⟩

/-- A write that is carried out on an id no override holds leaves its model there. -/
theorem written_writeAll (hmem : insert ∈ writes inserts)
    (hfree : ∀ old, table.get (rowFrom insert).id = some old → old.isOverride = false) :
    Written (writeAll now k inserts table).1 insert := by
  induction inserts generalizing k table with
  | nil => cases hmem
  | cons first rest ih =>
    unfold writeAll
    cases hwrite : table.upsertModel (rowFrom first) false (now k) with
    | none =>
      rw [writes_cons_of_refused hwrite] at hmem
      cases hmem
    | some next =>
      obtain ⟨haccepted, hothers, hown⟩ := get_writeOne hwrite
      have hkept : Written next insert → Written (writeAll now (k + 1) rest next).1 insert :=
        fun hnext => writeAll_induction (P := fun after => Written after insert)
          (fun _ _ _ _ _ hbefore hafter => written_kept hbefore hafter) hnext
      by_cases hid : (rowFrom insert).id = (rowFrom first).id
      · apply hkept
        rw [← hid] at hown
        rcases hown with ⟨old, hold, hoverride, -⟩ | ⟨record, hrecord, hplain, -, hmodel⟩
        · rw [hfree old hold] at hoverride
          cases hoverride
        · exact ⟨record, hrecord, hplain, by rwa [rowFrom_id_inj.mp hid]⟩
      · rw [writes_cons_of_accepted haccepted] at hmem
        rcases List.mem_cons.mp hmem with rfl | hmem
        · exact absurd rfl hid
        · apply ih hmem
          intro old hold
          exact hfree old (by rwa [hothers _ hid] at hold)

/-- The catalogue with the rows of a listing put in, up to the first the columns refuse. -/
def filled (now : ℕ → ℤ) : ℕ → List CatalogInsert → CatalogRecords → CatalogRecords
  | _, [], table => table
  | k, insert :: rest, table =>
    match (rowFrom insert).stored with
    | none => table
    | some row => filled now (k + 1) rest (table.put (inserted row false (now k)))

/-- A record that a write of this listing made: no label, no efforts, no mark. -/
def Fresh (record : CatalogRecord) : Prop :=
  record.isOverride = false ∧ record.syncedBy = none ∧ record.row.displayLabel = none ∧
    record.row.reasoningEfforts = none ∧ record.row.reasoningEffort = none

theorem upserted_of_fresh {row : CatalogRow} (hrow : (rowFrom insert).stored = some row)
    (h : ∀ record, table.get id = some record → Fresh record) (t : ℤ) :
    upserted (table.get id) row false t = inserted row false t := by
  obtain ⟨input, output, cacheRead, cacheWrite, -, -, -, -, rfl⟩ :=
    CatalogRow.stored_eq_some_iff.mp hrow
  cases hget : table.get id with
  | none => rfl
  | some old =>
    obtain ⟨hplain, hsynced, hlabel, hefforts, heffort⟩ := h old hget
    simp [upserted, refreshed, inserted, hplain, hsynced, hlabel, hefforts, heffort, rowFrom]

theorem fresh_inserted {row : CatalogRow} (hrow : (rowFrom insert).stored = some row) (t : ℤ) :
    Fresh (inserted row false t) := by
  obtain ⟨input, output, cacheRead, cacheWrite, -, -, -, -, rfl⟩ :=
    CatalogRow.stored_eq_some_iff.mp hrow
  exact ⟨rfl, rfl, rfl, rfl, rfl⟩

/-- On free ids the upserts insert, also where the listing names a model twice. -/
theorem writeAll_eq_filled
    (h : ∀ insert ∈ writes inserts, ∀ record, table.get (rowFrom insert).id = some record →
      Fresh record) :
    (writeAll now k inserts table).1 = filled now k inserts table := by
  induction inserts generalizing k table with
  | nil => rfl
  | cons insert rest ih =>
    unfold writeAll filled
    cases hwrite : table.upsertModel (rowFrom insert) false (now k) with
    | none =>
      rw [upsertModel_eq_none_iff] at hwrite
      rw [hwrite]
    | some next =>
      obtain ⟨row, hstored, hget⟩ := get_upsertModel hwrite
      have hcons : writes (insert :: rest) = insert :: writes rest :=
        writes_cons_of_accepted (get_writeOne hwrite).1
      rw [hcons] at h
      have hfirst := upserted_of_fresh hstored (h insert List.mem_cons_self) (now k)
      have hnext : next = table.put (inserted row false (now k)) := by
        apply ext_get
        intro id
        rw [hget, get_put, hfirst]
        simp [inserted, (CatalogRow.stored_keeps hstored).1]
      rw [hstored]
      simp only
      rw [← hnext]
      apply ih
      intro other hother record hrecord
      rw [hget] at hrecord
      by_cases hid : (rowFrom other).id = (rowFrom insert).id
      · rw [if_pos hid, hfirst] at hrecord
        cases hrecord
        exact fresh_inserted hstored (now k)
      · rw [if_neg hid] at hrecord
        exact h other (List.mem_cons_of_mem _ hother) record hrecord

/-- A name the listing has and no xAI row does, with a price. -/
def NewName (listed : List ListedModel) (rows : List CatalogRow) (name : String) : Prop :=
  (∀ row ∈ xaiRows rows, row.upstreamName ≠ name) ∧
    ∃ model ∈ listed, model.upstreamName = name ∧
      (insertOne model (dearest ((xaiRows rows).map donorOf))).isSome

theorem insertOne_upstreamName {model : ListedModel} {donor : Option Donor}
    (h : insertOne model donor = some insert) : insert.upstreamName = model.upstreamName := by
  unfold insertOne at h
  obtain ⟨input, -, h⟩ := Option.bind_eq_some_iff.mp h
  obtain ⟨output, -, h⟩ := Option.bind_eq_some_iff.mp h
  split at h
  · cases h
  · cases h
    rfl

theorem mem_newModels_iff {listed : List ListedModel} {rows : List CatalogRow} :
    insert ∈ newModels listed rows ↔
      (∀ row ∈ xaiRows rows, row.upstreamName ≠ insert.upstreamName) ∧
      ∃ model ∈ listed, insertOne model (dearest ((xaiRows rows).map donorOf)) = some insert := by
  unfold newModels insertsFor
  rw [List.mem_filterMap]
  constructor
  · rintro ⟨model, hmodel, h⟩
    split at h
    · cases h
    · rename_i hnew
      refine ⟨?_, model, hmodel, h⟩
      rw [insertOne_upstreamName h]
      simpa using hnew
  · rintro ⟨hnew, model, hmodel, h⟩
    refine ⟨model, hmodel, ?_⟩
    rw [insertOne_upstreamName h] at hnew
    rw [if_neg (by simpa using hnew), h]

theorem newName_iff {listed : List ListedModel} {rows : List CatalogRow} :
    NewName listed rows name ↔ ∃ insert ∈ newModels listed rows, insert.upstreamName = name := by
  constructor
  · rintro ⟨hnew, model, hmodel, rfl, hsome⟩
    obtain ⟨insert, hinsert⟩ := Option.isSome_iff_exists.mp hsome
    have hname := insertOne_upstreamName hinsert
    exact ⟨insert, mem_newModels_iff.mpr ⟨by rwa [hname], model, hmodel, hinsert⟩, hname⟩
  · rintro ⟨insert, hinsert, rfl⟩
    obtain ⟨hnew, model, hmodel, hsome⟩ := mem_newModels_iff.mp hinsert
    exact ⟨hnew, model, hmodel, (insertOne_upstreamName hsome).symm,
      Option.isSome_iff_exists.mpr ⟨insert, hsome⟩⟩

/-- Every record stays as it was in every column, and each of the names gets one
new record. -/
structure OnlyAdds (before after : CatalogRecords) (names : String → Prop) : Prop where
  kept : ∀ record ∈ before.records, record ∈ after.records
  added : ∀ name, names name →
    ∃! record, record ∈ after.records ∧ record ∉ before.records ∧ IsModel record name
  new : ∀ record ∈ after.records, record ∉ before.records →
    ∃ name, names name ∧ IsModel record name

/-- No write falls on an id that is taken, every new name is written, and the rows
written price no name that was without a price, unless an override has its id. -/
structure AddsOnce (table : CatalogRecords) (first second : List CatalogInsert) : Prop where
  free : ∀ insert ∈ writes first, table.get (rowFrom insert).id = none
  reached : ∀ insert ∈ first, ∃ written ∈ writes first, written.upstreamName = insert.upstreamName
  settled : ∀ insert ∈ writes second,
    ∃ old, table.get (rowFrom insert).id = some old ∧ old.isOverride = true

section

variable {first second : List CatalogInsert} {names : String → Prop}

theorem onlyAdds_of_free (hfree : ∀ insert ∈ writes first, table.get (rowFrom insert).id = none)
    (hreached : ∀ insert ∈ first, ∃ written ∈ writes first,
      written.upstreamName = insert.upstreamName)
    (hnames : ∀ name, names name ↔ ∃ insert ∈ first, insert.upstreamName = name) :
    OnlyAdds table (writeAll now k first table).1 names := by
  have hwritten : ∀ insert ∈ writes first, Written (writeAll now k first table).1 insert := by
    intro insert hinsert
    apply written_writeAll hinsert
    intro old hold
    rw [hfree insert hinsert] at hold
    cases hold
  refine ⟨?_, ?_, ?_⟩
  · intro record hrecord
    have hget : table.get record.row.id = some record := get_eq_some_iff.mpr ⟨hrecord, rfl⟩
    have hkept : (writeAll now k first table).1.get record.row.id = some record := by
      rw [get_writeAll_of_notMem, hget]
      intro insert hinsert hid
      rw [← hid, hfree insert hinsert] at hget
      cases hget
    exact (get_eq_some_iff.mp hkept).1
  · intro name hname
    obtain ⟨insert, hinsert, rfl⟩ := (hnames name).mp hname
    obtain ⟨written, hmem, heq⟩ := hreached insert hinsert
    obtain ⟨record, hrecord, -, hmodel⟩ := hwritten written hmem
    obtain ⟨hafter, hid⟩ := get_eq_some_iff.mp hrecord
    have hnew : record ∉ table.records := by
      intro hbefore
      have hget := get_eq_some_iff.mpr ⟨hbefore, hid⟩
      rw [hfree written hmem] at hget
      cases hget
    refine ⟨record, ⟨hafter, hnew, heq ▸ hmodel⟩, ?_⟩
    rintro other ⟨hother, hotherNew, hotherModel⟩
    rcases mem_writeAll hother with hbefore | ⟨source, -, hsourceId, hsource⟩
    · exact absurd hbefore hotherNew
    · have hsame : source.upstreamName = written.upstreamName := by
        rw [heq, ← hsource.2, hotherModel.2]
      have hget : (writeAll now k first table).1.get (rowFrom written).id = some other :=
        get_eq_some_iff.mpr ⟨hother, hsourceId.trans (rowFrom_id_inj.mpr hsame)⟩
      exact Option.some.inj (hget.symm.trans hrecord)
  · intro record hrecord hnew
    rcases mem_writeAll hrecord with hbefore | ⟨insert, hinsert, -, hmodel⟩
    · exact absurd hbefore hnew
    · exact ⟨insert.upstreamName,
        (hnames _).mpr ⟨insert, (List.takeWhile_sublist _).subset hinsert, rfl⟩, hmodel⟩

/-- A name's new record was put on a free id by a write of that name. -/
theorem free_of_onlyAdds (h : OnlyAdds table (writeAll now k first table).1 names)
    (hnames : ∀ name, names name ↔ ∃ insert ∈ first, insert.upstreamName = name) :
    (∀ insert ∈ writes first, table.get (rowFrom insert).id = none) ∧
    ∀ insert ∈ first, ∃ written ∈ writes first, written.upstreamName = insert.upstreamName := by
  have hsource : ∀ insert ∈ first, ∃ record, record ∈ (writeAll now k first table).1.records ∧
      record ∉ table.records ∧ record.row.id = (rowFrom insert).id ∧
      ∃ written ∈ writes first, written.upstreamName = insert.upstreamName := by
    intro insert hinsert
    obtain ⟨record, ⟨hafter, hnew, hmodel⟩, -⟩ :=
      h.added insert.upstreamName ((hnames _).mpr ⟨insert, hinsert, rfl⟩)
    rcases mem_writeAll hafter with hbefore | ⟨written, hwritten, hid, hsource⟩
    · exact absurd hbefore hnew
    · have hsame : written.upstreamName = insert.upstreamName := hsource.2.symm.trans hmodel.2
      exact ⟨record, hafter, hnew, hid.trans (rowFrom_id_inj.mpr hsame), written, hwritten, hsame⟩
  constructor
  · intro insert hinsert
    obtain ⟨record, hafter, hnew, hid, -⟩ :=
      hsource insert ((List.takeWhile_sublist _).subset hinsert)
    cases hget : table.get (rowFrom insert).id with
    | none => rfl
    | some old =>
      obtain ⟨hold, holdId⟩ := get_eq_some_iff.mp hget
      have hrecord := get_eq_some_iff.mpr ⟨hafter, hid⟩
      have hkept := get_eq_some_iff.mpr ⟨h.kept old hold, holdId⟩
      obtain rfl : record = old := Option.some.inj (hrecord.symm.trans hkept)
      exact absurd hold hnew
  · intro insert hinsert
    obtain ⟨-, -, -, -, hwritten⟩ := hsource insert hinsert
    exact hwritten

/-- Where nothing is a model of the names still to come, writing them changes nothing
exactly when an override has every id. -/
theorem writeAll_eq_self_iff
    (h : ∀ insert ∈ second, ∀ record ∈ table.records, ¬ IsModel record insert.upstreamName) :
    (writeAll now k second table).1 = table ↔ ∀ insert ∈ writes second,
      ∃ old, table.get (rowFrom insert).id = some old ∧ old.isOverride = true := by
  constructor
  · intro heq insert hinsert
    by_contra hnone
    push Not at hnone
    have hwritten : Written (writeAll now k second table).1 insert := by
      apply written_writeAll hinsert
      intro old hold
      exact Bool.eq_false_iff.mpr (hnone old hold)
    rw [heq] at hwritten
    obtain ⟨record, hrecord, -, hmodel⟩ := hwritten
    exact h insert ((List.takeWhile_sublist _).subset hinsert) record
      (get_eq_some_iff.mp hrecord).1 hmodel
  · intro hoverride
    apply ext_get
    intro id
    by_cases hid : ∃ insert ∈ writes second, (rowFrom insert).id = id
    · obtain ⟨insert, hinsert, rfl⟩ := hid
      obtain ⟨old, hold, hflag⟩ := hoverride insert hinsert
      rw [get_writeAll_of_override hold hflag, hold]
    · push Not at hid
      exact get_writeAll_of_notMem hid

end

/-- Discovery leaves every record as it was, gives each new name one record and finds
nothing to do on the same listing, exactly when it adds once. -/
theorem discovery_only_adds_iff (read again : CatalogRead) (now later : ℕ → ℤ)
    (listed : List ListedModel) (table : CatalogRecords) :
    OnlyAdds table (insertNewXaiModels read now listed table).1
        (NewName listed (read.rows table)) ∧
      (insertNewXaiModels again later listed (insertNewXaiModels read now listed table).1).1 =
        (insertNewXaiModels read now listed table).1 ↔
      AddsOnce table (newModels listed (read.rows table)) (newModels listed
        (again.rows (filled now 0 (newModels listed (read.rows table)) table))) := by
  have hnames : ∀ name, NewName listed (read.rows table) name ↔
      ∃ insert ∈ newModels listed (read.rows table), insert.upstreamName = name :=
    fun name => newName_iff
  -- A name the second run would add has no xAI row, so none of its records either.
  have hmissing : ∀ after : CatalogRecords, ∀ insert ∈ newModels listed (again.rows after),
      ∀ record ∈ after.records, ¬ IsModel record insert.upstreamName := by
    rintro after insert hinsert record hrecord ⟨hprovider, hname⟩
    apply (mem_newModels_iff.mp hinsert).1 record.row _ hname
    apply List.mem_filter.mpr
    exact ⟨(again.perm after).mem_iff.mpr (List.mem_map_of_mem hrecord), by simp [hprovider]⟩
  have hfilled : (∀ insert ∈ writes (newModels listed (read.rows table)),
      table.get (rowFrom insert).id = none) → (insertNewXaiModels read now listed table).1 =
        filled now 0 (newModels listed (read.rows table)) table := by
    intro hfree
    apply writeAll_eq_filled
    intro insert hinsert record hrecord
    rw [hfree insert hinsert] at hrecord
    cases hrecord
  -- What the second run would write is under ids the first did not touch.
  have hsecond : (∀ insert ∈ writes (newModels listed (read.rows table)),
      table.get (rowFrom insert).id = none) → ∀ insert ∈ writes (newModels listed
        (again.rows (insertNewXaiModels read now listed table).1)),
      (insertNewXaiModels read now listed table).1.get (rowFrom insert).id =
        table.get (rowFrom insert).id := by
    intro hfree insert hinsert
    apply get_writeAll_of_notMem
    intro written hwritten hid
    have hthere : Written (insertNewXaiModels read now listed table).1 written := by
      apply written_writeAll hwritten
      intro old hold
      rw [hfree written hwritten] at hold
      cases hold
    obtain ⟨record, hrecord, -, hmodel⟩ := hthere
    apply hmissing _ insert ((List.takeWhile_sublist _).subset hinsert) record
      (get_eq_some_iff.mp hrecord).1
    rwa [← rowFrom_id_inj.mp hid]
  constructor
  · rintro ⟨honly, hagain⟩
    obtain ⟨hfree, hreached⟩ := free_of_onlyAdds honly hnames
    refine ⟨hfree, hreached, ?_⟩
    rw [← hfilled hfree]
    intro insert hinsert
    rw [← hsecond hfree insert hinsert]
    exact (writeAll_eq_self_iff (hmissing _)).mp hagain insert hinsert
  · rintro ⟨hfree, hreached, hsettled⟩
    rw [← hfilled hfree] at hsettled
    refine ⟨onlyAdds_of_free hfree hreached hnames, ?_⟩
    apply (writeAll_eq_self_iff (hmissing _)).mpr
    intro insert hinsert
    rw [hsecond hfree insert hinsert]
    exact hsettled insert hinsert

def CatalogRead.inOrder : CatalogRead where
  rows := fun table => table.records.map CatalogRecord.row
  perm := fun _ => List.Perm.refl _

/-- A row seeded for `xai/eu/grok-5`: its id is that of another upstream name. -/
def seededRecord : CatalogRecord where
  row :=
    { rowFrom
        { upstreamName := "grok-5", inputPerMtok := .new 3 0, outputPerMtok := .new 15 0,
          cacheReadPerMtok := none, contextWindow := 256000, maxOutputTokens := 8192,
          supportsVision := false, supportsTools := true, supportsReasoning := false,
          supportsPromptCache := false } with
      upstreamName := "eu/grok-5" }
  isOverride := false
  syncedBy := none
  updatedAt := 0

def unpriced (name : String) : ListedModel where
  upstreamName := name
  inputPerMtok := none
  outputPerMtok := none
  cacheReadPerMtok := none
  contextWindow := none
  maxOutputTokens := none
  supportsVision := none

def seededCatalog : CatalogRecords := ⟨[seededRecord], List.pairwise_singleton _ _⟩

/-- The seeded row is written over; and a listing of a published model and one without a
price adds the second when it is read again. -/
theorem discovery_overwrites_and_grows :
    ¬ OnlyAdds seededCatalog
      (insertNewXaiModels .inOrder (fun _ => 1) [unpriced "grok-5"] seededCatalog).1
      (NewName [unpriced "grok-5"] (CatalogRead.inOrder.rows seededCatalog)) ∧
    (insertNewXaiModels .inOrder (fun _ => 2) [unpriced "grok-4.7", unpriced "grok-next"]
        (insertNewXaiModels .inOrder (fun _ => 1) [unpriced "grok-4.7", unpriced "grok-next"]
          ⟨[], List.Pairwise.nil⟩).1).1 ≠
      (insertNewXaiModels .inOrder (fun _ => 1) [unpriced "grok-4.7", unpriced "grok-next"]
        ⟨[], List.Pairwise.nil⟩).1 := by
  constructor
  · intro h
    have hkept := h.kept seededRecord (List.mem_singleton_self _)
    revert hkept
    decide +kernel
  · intro h
    have hrecords := congrArg (fun table => table.records.length) h
    revert hrecords
    decide +kernel

end OpenAIGateway.XaiModels
