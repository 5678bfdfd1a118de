import OpenAIGateway.UsagePlan

/-!
Reading the Grok CLI's usage log into sessions of turns, one for each model a
turn used. A turn is named by its session, its prompt and its model, and what is
stored joins the three: the names are kept apart exactly when they are told
apart by the words they are made of.
-/

set_option linter.all false

namespace OpenAIGateway

namespace UsageImport

/-- The one file of a session's directory that carries token counts. -/
def grokUsageLog : String := "updates.jsonl"

def grokTurnCompleted : String := "turn_completed"

/-- What a model is called that its record does not name. -/
def grokUnnamedModel : String := "unnamed"

/-- The seconds an instant can be made from. -/
def unixMin : ℤ := -377705116800

def unixMax : ℤ := 253402300799

/-- One turn's usage on one model. -/
structure Turn where
  session : String
  prompt : String
  slug : String
  occurredAt : ℤ
  usage : Usage
  vendorTicks : Option ℕ
  deriving DecidableEq

namespace Turn

/-- What tells turns apart. -/
def names (t : Turn) : String × String × String := (t.session, t.prompt, t.slug)

def externalId (t : Turn) : String := t.prompt ++ ":" ++ t.slug

def message (t : Turn) : Message :=
  ⟨t.externalId, t.occurredAt, t.slug, t.usage, t.vendorTicks⟩

/-- The words of a turn's names, cut at each colon. -/
def words (t : Turn) : List String :=
  Split.split ':' t.session ++ Split.split ':' t.prompt ++ Split.split ':' t.slug

end Turn

/-- What one line of a usage log comes to. -/
inductive GrokLine
  | ignored
  | malformed
  | unusable
  | completed (incomplete : Bool) (turns : List Turn)

/-- A file of a walk: its directory's name, its own, and its text if it can be read. -/
structure LogFile where
  directory : Option String
  name : Option String
  text : Option String

section GrokCli

variable (parse : String → Option Json) (rfc3339 : String → Option ℤ)

/-- The cached part of the input is no part of the uncached. -/
def grokUsage (u : Json) : Usage where
  inputTokens := u["inputTokens"].asU64.getD 0 - u["cachedReadTokens"].asU64.getD 0
  outputTokens := u["outputTokens"].asU64.getD 0
  cacheReadTokens := u["cachedReadTokens"].asU64.getD 0
  cacheWriteTokens := u["cacheCreationTokens"].asU64.getD 0

/-- Seconds as a number, or a text. -/
def grokInstant (v : Json) : Option ℤ :=
  match v.asI64 with
  | some seconds =>
    if unixMin ≤ seconds ∧ seconds ≤ unixMax then some (seconds * 1000000000) else none
  | none => v.asStr.bind rfc3339

def grokTurn (session prompt : String) (occurredAt : ℤ) (slug : String) (usage : Json) : Turn :=
  ⟨session, prompt, slug, occurredAt, grokUsage usage, usage["costUsdTicks"].asU64⟩

/-- A completed turn, per model where the record splits it. -/
def grokEntry (fallback : String) (v : Json) : GrokLine :=
  let update := v["params"]["update"]
  let usage := update["usage"]
  if update["sessionUpdate"].asStr ≠ some grokTurnCompleted then .ignored
  else if usage.asObject.isNone then .ignored
  else
    match update["prompt_id"].asStr.filter (· ≠ ""), grokInstant rfc3339 v["timestamp"] with
    | some prompt, some occurredAt =>
      let session := (v["params"]["sessionId"].asStr.filter (· ≠ "")).getD fallback
      .completed (usage["usageIsIncomplete"].asBool == some true)
        (match usage["modelUsage"].asObject.filter (fun models => !models.isEmpty) with
        | some models => models.map fun model => grokTurn session prompt occurredAt model.1 model.2
        | none => [grokTurn session prompt occurredAt grokUnnamedModel usage])
    | _, _ => .unusable

def grokLine (fallback : String) (line : List Char) : GrokLine :=
  let line := Sse.trim line
  if line = [] then .ignored
  else
    match parse (String.ofList line) with
    | none => .malformed
    | some v => grokEntry rfc3339 fallback v

/-- Store one turn. The same turn read twice is one message, overwritten. -/
def pushGrokTurn (scan : Scan) (t : Turn) : Scan := scan.absorb t.session t.message

def absorbGrokLine (fallback : String) (scan : Scan) (line : List Char) : Scan :=
  match grokLine parse rfc3339 fallback line with
  | .ignored => scan
  | .malformed => { scan with malformed := scan.malformed + 1 }
  | .unusable => { scan with unusable := scan.unusable + 1 }
  | .completed incomplete turns =>
    turns.foldl pushGrokTurn
      (if incomplete then { scan with incomplete := scan.incomplete + 1 } else scan)

/-- A file is read for its name, unless it was named itself. -/
def LogFile.isRead (namedDirectly : Bool) (file : LogFile) : Bool :=
  namedDirectly || file.name == some grokUsageLog

def absorbGrokFile (namedDirectly : Bool) (scan : Scan) (file : LogFile) : Scan :=
  if file.isRead namedDirectly then
    match file.text with
    | none => { scan with malformed := scan.malformed + 1 }
    | some text =>
      (Sse.lines text.toList).foldl
        (absorbGrokLine parse rfc3339 (file.directory.getD "unknown"))
        { scan with files := scan.files + 1 }
  else scan

/-- Read the logs of a walk, in the order of their paths. -/
def scanGrokCli (namedDirectly : Bool) (files : List LogFile) : Scan :=
  files.foldl (absorbGrokFile parse rfc3339 namedDirectly) Scan.empty

/-- The turns a line records. -/
def GrokLine.recorded : GrokLine → List Turn
  | .completed _ turns => turns
  | _ => []

/-- The turns some logs record. -/
def grokTurns (namedDirectly : Bool) (files : List LogFile) : List Turn :=
  (files.filter (LogFile.isRead namedDirectly)).flatMap fun file =>
    (Sse.lines (file.text.getD "").toList).flatMap fun line =>
      (grokLine parse rfc3339 (file.directory.getD "unknown") line).recorded

end GrokCli

/-- No two turns are made of the same words. -/
def WordsApart (turns : List Turn) : Prop :=
  ∀ t ∈ turns, ∀ t' ∈ turns, t.words = t'.words → t.names = t'.names

/-- The records of one turn are equal. -/
def EqualRecords (turns : List Turn) : Prop :=
  ∀ t ∈ turns, ∀ t' ∈ turns, t.names = t'.names → t = t'

/-- What is to hold of the turns of some logs. -/
structure KeepsTurnsApart (parse : String → Option Json) (rfc3339 : String → Option ℤ)
    (namedDirectly : Bool) (files : List LogFile) : Prop where
  /-- Each turn has a message, and that message is a record of the turn. -/
  stored : ∀ t ∈ grokTurns parse rfc3339 namedDirectly files,
    ∃ u ∈ grokTurns parse rfc3339 namedDirectly files, u.names = t.names ∧
      u.message ∈ ((scanGrokCli parse rfc3339 namedDirectly files).sessionOf t.session).messages
  /-- Two turns are two messages, of two identities. -/
  apart : ∀ t ∈ grokTurns parse rfc3339 namedDirectly files,
    ∀ t' ∈ grokTurns parse rfc3339 namedDirectly files, t.names ≠ t'.names →
      (t.session, t.externalId) ≠ (t'.session, t'.externalId) ∧
      sourceRef .grokCli t.session t.externalId ≠ sourceRef .grokCli t'.session t'.externalId
  /-- No row of a plan has another's identity. -/
  planned : ∀ (A : Arithmetic) (newV5 : String → Uuid) (ledger : LedgerIndex) (prices : Prices)
    (before : Option ℤ),
    ((plan A newV5 (scanGrokCli parse rfc3339 namedDirectly files) ledger prices .grokCli
      before).rows.map Pending.sourceRef).Nodup
  /-- Equal records are read alike in any order of the files, and reading them again
  changes no session. -/
  again : EqualRecords (grokTurns parse rfc3339 namedDirectly files) →
    ∀ files', files.Perm files' →
      scanGrokCli parse rfc3339 namedDirectly files' =
        scanGrokCli parse rfc3339 namedDirectly files ∧
      (scanGrokCli parse rfc3339 namedDirectly (files ++ files')).sessions =
        (scanGrokCli parse rfc3339 namedDirectly files).sessions

section Names

variable {t t' : Turn}

theorem words_eq_split (t : Turn) :
    t.words = Split.split ':' (t.session ++ ":" ++ t.externalId) := by
  have hcolon : ":" = String.singleton ':' := rfl
  unfold Turn.words Turn.externalId
  rw [hcolon, Split.split_join, Split.split_join, List.append_assoc]

/-- Two turns have one identity exactly when they are made of the same words. -/
theorem sourceRef_eq_iff :
    sourceRef .grokCli t.session t.externalId = sourceRef .grokCli t'.session t'.externalId ↔
      t.words = t'.words := by
  have hjoined : ∀ u : Turn, sourceRef .grokCli u.session u.externalId =
      "grok-cli:" ++ (u.session ++ ":" ++ u.externalId) := by
    intro u
    change "grok-cli" ++ ":" ++ u.session ++ ":" ++ u.externalId = _
    simp only [String.append_assoc]
    rfl
  rw [hjoined, hjoined, words_eq_split, words_eq_split, String.append_right_inj,
    (Split.split_injective ':').eq_iff]

/-- One session and one message id are one identity. -/
theorem words_eq_of_ids (hsession : t.session = t'.session)
    (hid : t.externalId = t'.externalId) : t.words = t'.words := by
  rw [words_eq_split, words_eq_split, hsession, hid]

/-- Turns whose sessions and prompts hold no colon are made of their own words. -/
theorem wordsApart_of_no_colon {turns : List Turn}
    (h : ∀ t ∈ turns, ':' ∉ t.session.toList ∧ ':' ∉ t.prompt.toList) : WordsApart turns := by
  intro t ht t' ht' hwords
  have hown : ∀ u ∈ turns, u.words = u.session :: u.prompt :: Split.split ':' u.slug := by
    intro u hu
    unfold Turn.words
    rw [Split.split_of_notMem (h u hu).1, Split.split_of_notMem (h u hu).2]
    rfl
  rw [hown t ht, hown t' ht'] at hwords
  obtain ⟨hsession, hrest⟩ := List.cons.inj hwords
  obtain ⟨hprompt, hslug⟩ := List.cons.inj hrest
  unfold Turn.names
  rw [hsession, hprompt, Split.split_injective ':' hslug]

end Names

section Absorb

variable {scan : Scan} {id : String}

theorem sessionOf_absorb (scan : Scan) (session : String) (m : Message) (id : String) :
    (scan.absorb session m).sessionOf id =
      if id = session then (scan.sessionOf session).insert m else scan.sessionOf id := by
  unfold Scan.sessionOf Scan.absorb
  rw [Keyed.get?_insert scan.sorted]
  split_ifs <;> rfl

theorem get?_absorb (scan : Scan) (session : String) (m : Message) (id : String) :
    Keyed.get? SessionEntry.id (scan.absorb session m).sessions id =
      if id = session then some ⟨session, (scan.sessionOf session).insert m⟩
      else Keyed.get? SessionEntry.id scan.sessions id :=
  Keyed.get?_insert scan.sorted

/-- Calls go into a session in either order, unless they clash. -/
theorem insert_insert (session : Session) {m m' : Message}
    (h : m.externalId = m'.externalId → m = m') :
    (session.insert m).insert m' = (session.insert m').insert m := by
  by_cases hid : m.externalId = m'.externalId
  · rw [h hid]
  · unfold Session.insert
    simp only [Session.mk.injEq]
    exact Keyed.insert_comm session.sorted fun heq => hid heq.symm

/-- Calls are absorbed in either order, unless they clash. -/
theorem absorb_comm (scan : Scan) {session session' : String} {m m' : Message}
    (h : session = session' → m.externalId = m'.externalId → m = m') :
    ((scan.absorb session m).absorb session' m').sessions =
      ((scan.absorb session' m').absorb session m).sessions := by
  apply Keyed.ext_of_get? (Scan.sorted _) (Scan.sorted _)
  intro id
  simp only [get?_absorb, sessionOf_absorb]
  by_cases hsession : session = session'
  · subst hsession
    simp only [if_true, insert_insert (scan.sessionOf session) (h rfl)]
    split_ifs <;> rfl
  · by_cases hid : id = session
    · simp only [hid, hsession, if_true, if_false]
    · simp only [hid, if_false, Ne.symm hsession]

/-- A call that is there is absorbed without a change. -/
theorem absorb_of_mem {m : Message} (h : m ∈ (scan.sessionOf id).messages) :
    (scan.absorb id m).sessions = scan.sessions := by
  apply Keyed.ext_of_get? (Scan.sorted _) scan.sorted
  intro other
  rw [get?_absorb]
  by_cases hother : other = id
  · rw [if_pos hother]
    unfold Scan.sessionOf at h ⊢
    cases hget : Keyed.get? SessionEntry.id scan.sessions id with
    | none =>
      rw [hget] at h
      cases h
    | some entry =>
      rw [hget] at h
      have hid : entry.id = id := ((Keyed.get?_eq_some_iff scan.sorted).mp hget).2
      have hsame : entry.session.insert m = entry.session := by
        unfold Session.insert
        simp only [Keyed.insert_of_mem entry.session.sorted h]
      rw [hother, hget]
      change some (SessionEntry.mk id (entry.session.insert m)) = some entry
      rw [hsame, ← hid]
  · rw [if_neg hother]

end Absorb

section Steps

variable (parse : String → Option Json) (rfc3339 : String → Option ℤ)

/-- What a scan does as it reads: count a file, a line or a record, or store a turn. -/
inductive GrokStep
  | file
  | malformed
  | unusable
  | incomplete
  | store (t : Turn)

def GrokStep.turn? : GrokStep → Option Turn
  | store t => some t
  | _ => none

def takeStep (scan : Scan) : GrokStep → Scan
  | .file => { scan with files := scan.files + 1 }
  | .malformed => { scan with malformed := scan.malformed + 1 }
  | .unusable => { scan with unusable := scan.unusable + 1 }
  | .incomplete => { scan with incomplete := scan.incomplete + 1 }
  | .store t => pushGrokTurn scan t

def GrokLine.steps : GrokLine → List GrokStep
  | .ignored => []
  | .malformed => [.malformed]
  | .unusable => [.unusable]
  | .completed incomplete turns =>
    (if incomplete then [.incomplete] else []) ++ turns.map GrokStep.store

def LogFile.steps (file : LogFile) : List GrokStep :=
  match file.text with
  | none => [.malformed]
  | some text => .file :: (Sse.lines text.toList).flatMap fun line =>
      (grokLine parse rfc3339 (file.directory.getD "unknown") line).steps

def grokSteps (namedDirectly : Bool) (files : List LogFile) : List GrokStep :=
  (files.filter (LogFile.isRead namedDirectly)).flatMap (LogFile.steps parse rfc3339)

theorem absorbGrokLine_eq (fallback : String) (scan : Scan) (line : List Char) :
    absorbGrokLine parse rfc3339 fallback scan line =
      (grokLine parse rfc3339 fallback line).steps.foldl takeStep scan := by
  unfold absorbGrokLine
  cases grokLine parse rfc3339 fallback line with
  | ignored => rfl
  | malformed => rfl
  | unusable => rfl
  | completed incomplete turns =>
    unfold GrokLine.steps
    rw [List.foldl_append, List.foldl_map]
    cases incomplete <;> rfl

theorem absorbGrokFile_eq (namedDirectly : Bool) (scan : Scan) (file : LogFile) :
    absorbGrokFile parse rfc3339 namedDirectly scan file =
      if file.isRead namedDirectly then (file.steps parse rfc3339).foldl takeStep scan
      else scan := by
  unfold absorbGrokFile LogFile.steps
  cases file.text with
  | none => rfl
  | some text =>
    simp only [List.foldl_cons, List.foldl_flatMap, ← absorbGrokLine_eq]
    rfl

/-- A scan takes the steps of its files. -/
theorem scanGrokCli_eq (namedDirectly : Bool) (files : List LogFile) :
    scanGrokCli parse rfc3339 namedDirectly files =
      (grokSteps parse rfc3339 namedDirectly files).foldl takeStep Scan.empty := by
  unfold scanGrokCli grokSteps
  rw [List.foldl_flatMap, List.foldl_filter]
  congr 1
  funext scan file
  exact absorbGrokFile_eq parse rfc3339 namedDirectly scan file

/-- The turns some logs record are those their steps store. -/
theorem filterMap_grokSteps (namedDirectly : Bool) (files : List LogFile) :
    (grokSteps parse rfc3339 namedDirectly files).filterMap GrokStep.turn? =
      grokTurns parse rfc3339 namedDirectly files := by
  have hline : ∀ line : GrokLine, line.steps.filterMap GrokStep.turn? = line.recorded := by
    intro line
    cases line with
    | completed incomplete turns =>
      unfold GrokLine.steps
      rw [List.filterMap_append, List.filterMap_map]
      have hturns : turns.filterMap (GrokStep.turn? ∘ GrokStep.store) = turns :=
        List.filterMap_some
      rw [hturns]
      cases incomplete <;> rfl
    | _ => rfl
  unfold grokSteps grokTurns
  rw [List.filterMap_flatMap]
  congr 1
  funext file
  unfold LogFile.steps
  cases file.text with
  | none => rfl
  | some text =>
    change ((Sse.lines text.toList).flatMap _).filterMap GrokStep.turn? = _
    rw [List.filterMap_flatMap]
    simp only [hline]
    rfl

end Steps

section Runs

variable {scan : Scan} {steps : List GrokStep}

theorem Scan.eq_of_fields {scan scan' : Scan} (hsessions : scan.sessions = scan'.sessions)
    (hfiles : scan.files = scan'.files) (hmalformed : scan.malformed = scan'.malformed)
    (hunusable : scan.unusable = scan'.unusable)
    (hincomplete : scan.incomplete = scan'.incomplete) : scan = scan' := by
  cases scan
  cases scan'
  simp_all

/-- Two steps may be taken in either order, unless they store turns that clash. -/
theorem takeStep_comm (scan : Scan) {step step' : GrokStep}
    (h : ∀ t ∈ step.turn?, ∀ t' ∈ step'.turn?, t.session = t'.session →
      t.externalId = t'.externalId → t.message = t'.message) :
    takeStep (takeStep scan step) step' = takeStep (takeStep scan step') step := by
  cases step with
  | store t =>
    cases step' with
    | store t' =>
      exact Scan.eq_of_fields (absorb_comm scan (h t rfl t' rfl)) rfl rfl rfl rfl
    | _ => rfl
  | _ => cases step' <;> rfl

/-- A scan has the calls its steps store. -/
theorem hasCall_foldl_takeStep {id externalId : String} :
    (steps.foldl takeStep scan).HasCall id externalId ↔
      scan.HasCall id externalId ∨
        ∃ t ∈ steps.filterMap GrokStep.turn?, id = t.session ∧ externalId = t.externalId := by
  have hstep : ∀ (scan : Scan) (step : GrokStep), (takeStep scan step).HasCall id externalId ↔
      scan.HasCall id externalId ∨
        ∃ t ∈ step.turn?, id = t.session ∧ externalId = t.externalId := by
    intro scan step
    cases step with
    | store t =>
      have hstore : (takeStep scan (.store t)).HasCall id externalId ↔ _ :=
        Scan.hasCall_absorb_iff
      rw [hstore]
      simp [GrokStep.turn?, Turn.message]
    | _ => simp [takeStep, GrokStep.turn?, Scan.HasCall, Scan.sessionOf]
  have hfold := Appending.foldl_gains (P := fun scan : Scan => scan.HasCall id externalId)
    hstep scan steps
  rw [hfold]
  simp only [List.mem_filterMap, Option.mem_def]
  apply or_congr_right
  constructor
  · rintro ⟨step, hstep, t, ht, hnames⟩
    exact ⟨t, ⟨step, hstep, ht⟩, hnames⟩
  · rintro ⟨t, ⟨step, hstep, ht⟩, hnames⟩
    exact ⟨step, hstep, t, ht, hnames⟩

/-- Whatever a scan stores is what some turn was stored as. -/
theorem mem_foldl_takeStep {P : String → Message → Prop}
    (hturns : ∀ t ∈ steps.filterMap GrokStep.turn?, P t.session t.message)
    (hscan : ∀ id, ∀ m ∈ (scan.sessionOf id).messages, P id m) (id : String) :
    ∀ m ∈ ((steps.foldl takeStep scan).sessionOf id).messages, P id m := by
  induction steps generalizing scan with
  | nil => exact hscan id
  | cons step steps ih =>
    have hrest : ∀ t ∈ steps.filterMap GrokStep.turn?, P t.session t.message := by
      intro t ht
      obtain ⟨other, hother, hturn⟩ := List.mem_filterMap.mp ht
      exact hturns t (List.mem_filterMap.mpr ⟨other, List.mem_cons_of_mem _ hother, hturn⟩)
    apply ih hrest
    cases step with
    | store t =>
      intro id m hm
      have hold : (takeStep scan (.store t)).sessionOf id = _ :=
        sessionOf_absorb scan t.session t.message id
      rw [hold] at hm
      by_cases hid : id = t.session
      · rw [if_pos hid] at hm
        rw [hid]
        rcases (Keyed.mem_insert_iff (scan.sessionOf t.session).sorted).mp hm with hm | ⟨hm, -⟩
        · rw [hm]
          exact hturns t (List.mem_filterMap.mpr ⟨.store t, List.mem_cons_self, rfl⟩)
        · exact hscan t.session m hm
      · rw [if_neg hid] at hm
        exact hscan id m hm
    | _ => exact hscan

/-- Steps that store what is there change no session. -/
theorem sessions_foldl_takeStep
    (h : ∀ t ∈ steps.filterMap GrokStep.turn?, t.message ∈ (scan.sessionOf t.session).messages) :
    (steps.foldl takeStep scan).sessions = scan.sessions := by
  induction steps generalizing scan with
  | nil => rfl
  | cons step steps ih =>
    have hkeeps : (takeStep scan step).sessions = scan.sessions := by
      cases step with
      | store t =>
        exact absorb_of_mem (h t (List.mem_filterMap.mpr ⟨.store t, List.mem_cons_self, rfl⟩))
      | _ => rfl
    have hrest : ∀ t ∈ steps.filterMap GrokStep.turn?,
        t.message ∈ ((takeStep scan step).sessionOf t.session).messages := by
      intro t ht
      obtain ⟨other, hother, hturn⟩ := List.mem_filterMap.mp ht
      unfold Scan.sessionOf
      rw [hkeeps]
      exact h t (List.mem_filterMap.mpr ⟨other, List.mem_cons_of_mem _ hother, hturn⟩)
    rw [List.foldl_cons, ih hrest, hkeeps]

end Runs

section Apart

variable (parse : String → Option Json) (rfc3339 : String → Option ℤ) (namedDirectly : Bool)
  (files : List LogFile)

/-- Every call of a scan is a record of a turn. -/
theorem exists_turn_of_mem {id : String} {m : Message}
    (hm : m ∈ ((scanGrokCli parse rfc3339 namedDirectly files).sessionOf id).messages) :
    ∃ t ∈ grokTurns parse rfc3339 namedDirectly files, t.session = id ∧ t.message = m := by
  rw [scanGrokCli_eq] at hm
  rw [← filterMap_grokSteps]
  refine mem_foldl_takeStep (P := fun id m => ∃ t ∈ _, t.session = id ∧ t.message = m)
    (fun t ht => ⟨t, ht, rfl, rfl⟩) ?_ id m hm
  intro other m' hm'
  cases hm'

/-- Every turn has its call. -/
theorem hasCall_of_mem_grokTurns {t : Turn}
    (ht : t ∈ grokTurns parse rfc3339 namedDirectly files) :
    (scanGrokCli parse rfc3339 namedDirectly files).HasCall t.session t.externalId := by
  rw [scanGrokCli_eq, hasCall_foldl_takeStep, filterMap_grokSteps]
  exact Or.inr ⟨t, ht, rfl, rfl⟩

variable {parse rfc3339 namedDirectly files}

theorem stored_of_wordsApart (h : WordsApart (grokTurns parse rfc3339 namedDirectly files))
    {t : Turn} (ht : t ∈ grokTurns parse rfc3339 namedDirectly files) :
    ∃ u ∈ grokTurns parse rfc3339 namedDirectly files, u.names = t.names ∧
      u.message ∈
        ((scanGrokCli parse rfc3339 namedDirectly files).sessionOf t.session).messages := by
  obtain ⟨m, hm, hid⟩ := hasCall_of_mem_grokTurns parse rfc3339 namedDirectly files ht
  obtain ⟨u, hu, hsession, rfl⟩ := exists_turn_of_mem parse rfc3339 namedDirectly files hm
  exact ⟨u, hu, h u hu t ht (words_eq_of_ids hsession hid), hm⟩

theorem planned_of_wordsApart (h : WordsApart (grokTurns parse rfc3339 namedDirectly files))
    (A : Arithmetic) (newV5 : String → Uuid) (ledger : LedgerIndex) (prices : Prices)
    (before : Option ℤ) :
    ((plan A newV5 (scanGrokCli parse rfc3339 namedDirectly files) ledger prices .grokCli
      before).rows.map Pending.sourceRef).Nodup := by
  have hturn : ∀ call ∈ imported (scanGrokCli parse rfc3339 namedDirectly files) ledger .grokCli
      before, ∃ t ∈ grokTurns parse rfc3339 namedDirectly files,
        t.session = call.1 ∧ t.externalId = call.2.externalId := by
    rintro ⟨id, m⟩ hcall
    obtain ⟨e, he, rfl, hm, -⟩ := mem_imported_iff.mp hcall
    have hsession : (scanGrokCli parse rfc3339 namedDirectly files).sessionOf e.id =
        e.session := by
      unfold Scan.sessionOf
      rw [(Keyed.get?_eq_some_iff (Scan.sorted _)).mpr ⟨he, rfl⟩]
      rfl
    rw [← hsession] at hm
    obtain ⟨t, ht, hid, rfl⟩ := exists_turn_of_mem parse rfc3339 namedDirectly files hm
    exact ⟨t, ht, hid, rfl⟩
  have hids : ((imported (scanGrokCli parse rfc3339 namedDirectly files) ledger .grokCli
      before).map fun call => (call.1, call.2.externalId)).Nodup := nodup_imported
  rw [plan_rows, List.map_map]
  refine List.pairwise_map.mpr ((List.pairwise_map.mp hids).imp_of_mem ?_)
  intro call call' hcall hcall' hne heq
  obtain ⟨t, ht, hsession, hid⟩ := hturn call hcall
  obtain ⟨t', ht', hsession', hid'⟩ := hturn call' hcall'
  change sourceRef .grokCli call.1 call.2.externalId =
    sourceRef .grokCli call'.1 call'.2.externalId at heq
  rw [← hsession, ← hid, ← hsession', ← hid', sourceRef_eq_iff] at heq
  have hnames := h t ht t' ht' heq
  apply hne
  rw [← hsession, ← hid, ← hsession', ← hid']
  unfold Turn.externalId
  unfold Turn.names at hnames
  simp only [Prod.mk.injEq] at hnames
  rw [hnames.1, hnames.2.1, hnames.2.2]

theorem again_of_wordsApart (h : WordsApart (grokTurns parse rfc3339 namedDirectly files))
    (hequal : EqualRecords (grokTurns parse rfc3339 namedDirectly files)) {files' : List LogFile}
    (hfiles : files.Perm files') :
    scanGrokCli parse rfc3339 namedDirectly files' =
        scanGrokCli parse rfc3339 namedDirectly files ∧
      (scanGrokCli parse rfc3339 namedDirectly (files ++ files')).sessions =
        (scanGrokCli parse rfc3339 namedDirectly files).sessions := by
  have hsteps : (grokSteps parse rfc3339 namedDirectly files).Perm
      (grokSteps parse rfc3339 namedDirectly files') := (hfiles.filter _).flatMap_right _
  have hturns : ∀ t, t ∈ (grokSteps parse rfc3339 namedDirectly files').filterMap GrokStep.turn? →
      t ∈ grokTurns parse rfc3339 namedDirectly files := by
    intro t ht
    rw [← filterMap_grokSteps]
    exact (hsteps.filterMap _).mem_iff.mpr ht
  constructor
  · rw [scanGrokCli_eq, scanGrokCli_eq]
    refine hsteps.symm.foldl_eq' ?_ Scan.empty
    intro step hstep step' hstep' scan
    apply takeStep_comm
    intro t ht t' ht' hsession hid
    have hin := hturns t (List.mem_filterMap.mpr ⟨step, hstep, ht⟩)
    have hin' := hturns t' (List.mem_filterMap.mpr ⟨step', hstep', ht'⟩)
    rw [hequal t hin t' hin' (h t hin t' hin' (words_eq_of_ids hsession hid))]
  · have happend : grokSteps parse rfc3339 namedDirectly (files ++ files') =
        grokSteps parse rfc3339 namedDirectly files ++
          grokSteps parse rfc3339 namedDirectly files' := by
      unfold grokSteps
      rw [List.filter_append, List.flatMap_append]
    rw [scanGrokCli_eq, happend, List.foldl_append, ← scanGrokCli_eq]
    apply sessions_foldl_takeStep
    intro t ht
    obtain ⟨u, hu, hnames, hm⟩ := stored_of_wordsApart h (hturns t ht)
    rw [← hequal u hu t (hturns t ht) hnames]
    rw [← hequal u hu t (hturns t ht) hnames] at hm
    exact hm

end Apart

/-- The turns of some usage logs are kept apart exactly when no two of them are made of the
same words. -/
theorem keepsTurnsApart_iff (parse : String → Option Json) (rfc3339 : String → Option ℤ)
    (namedDirectly : Bool) (files : List LogFile) :
    KeepsTurnsApart parse rfc3339 namedDirectly files ↔
      WordsApart (grokTurns parse rfc3339 namedDirectly files) := by
  constructor
  · intro h t ht t' ht' hwords
    by_contra hnames
    exact (h.apart t ht t' ht' hnames).2 (sourceRef_eq_iff.mpr hwords)
  · intro h
    refine ⟨fun t ht => stored_of_wordsApart h ht, fun t ht t' ht' hnames => ?_,
      planned_of_wordsApart h, fun hequal files' => again_of_wordsApart h hequal⟩
    have hwords : t.words ≠ t'.words := fun hwords => hnames (h t ht t' ht' hwords)
    refine ⟨fun hids => hwords ?_, fun heq => hwords (sourceRef_eq_iff.mp heq)⟩
    obtain ⟨hsession, hid⟩ := Prod.mk.inj hids
    exact words_eq_of_ids hsession hid

/-- A completed turn of session `s`, one second in. -/
def turnRecord (prompt slug : String) : Json :=
  .obj [("timestamp", .nat 1), ("params", .obj [("sessionId", .str "s"),
    ("update", .obj [("sessionUpdate", .str "turn_completed"), ("prompt_id", .str prompt),
      ("usage", .obj [("modelUsage", .obj [(slug, .obj [("outputTokens", .nat 7)])])])])])]

/-- A prompt `p` on the model `x:grok` and a prompt `p:x` on the model `grok` are one message. -/
theorem colon_merges_turns :
    let parse := fun text =>
      some (if text = "1" then turnRecord "p" "x:grok" else turnRecord "p:x" "grok")
    let files : List LogFile := [⟨some "s", some "updates.jsonl", some "1\n2"⟩]
    ((scanGrokCli parse (fun _ => none) false files).sessions.map
        fun entry => entry.session.messages.length) = [1] ∧
      ¬ KeepsTurnsApart parse (fun _ => none) false files := by
  intro parse files
  refine ⟨by decide +kernel, fun h => ?_⟩
  have hapart := h.apart ⟨"s", "p", "x:grok", 1000000000, ⟨0, 7, 0, 0⟩, none⟩ (by decide +kernel)
    ⟨"s", "p:x", "grok", 1000000000, ⟨0, 7, 0, 0⟩, none⟩ (by decide +kernel) (by decide)
  exact hapart.2 (by decide)

end UsageImport

end OpenAIGateway
