import OpenAIGateway.Appending
import OpenAIGateway.Bisect
import OpenAIGateway.Json
import OpenAIGateway.Keyed
import OpenAIGateway.Split
import OpenAIGateway.SseFraming
import OpenAIGateway.Usage
import Mathlib.Data.String.Basic

/-!
Reading a CLI's transcripts into sessions of calls, and deciding for each
session whether the ledger has it already. A session is proxied entirely or
not at all, so one call of it that the gateway metered condemns it whole.
Instants are counted in nanoseconds.
-/

set_option linter.all false

namespace OpenAIGateway.UsageImport

/-- The CLI whose records an import reads. -/
inductive Source
  | claudeCode
  | grokCli
  deriving DecidableEq

namespace Source

/-- Whether a message id names a call on its own, without its session. -/
def messageIdsAreGlobal : Source → Bool
  | claudeCode => true
  | grokCli => false

def origin : Source → String
  | claudeCode => "claude-code"
  | grokCli => "grok-cli"

def provider : Source → String
  | claudeCode => "anthropic"
  | grokCli => "xai"

/-- Whether a model of another vendor is proof that a session was proxied. -/
def foreignModelProvesProxying : Source → Bool
  | claudeCode => true
  | grokCli => false

end Source

/-- Four token counts in the ledger's column order. -/
abbrev Fingerprint := ℤ × ℤ × ℤ × ℤ

def distinctiveTokens : ℕ := 1000

/-- Ten minutes. -/
def ledgerSlack : ℤ := 600000000000

/-- One billable call. -/
structure Message where
  externalId : String
  occurredAt : ℤ
  modelSlug : String
  usage : Usage
  /-- What the CLI thought the call cost, in a unit of its own. -/
  vendorTicks : Option ℕ
  deriving DecidableEq

/-- The largest value of a `bigint` column. -/
def bigintMax : ℤ := 9223372036854775807

/-- A `u64` in a `bigint` column. -/
def clamp (v : ℕ) : ℤ := min (v : ℤ) bigintMax

namespace Message

def fingerprint (m : Message) : Fingerprint :=
  (clamp m.usage.inputTokens, clamp m.usage.outputTokens, clamp m.usage.cacheReadTokens,
    clamp m.usage.cacheWriteTokens)

def distinctive (m : Message) : Bool := decide (distinctiveTokens ≤ m.usage.total)

end Message

/-- Every call of one session, in the order of their ids. -/
structure Session where
  messages : List Message
  sorted : Keyed.Sorted Message.externalId messages

namespace Session

def empty : Session := ⟨[], List.Pairwise.nil⟩

/-- A reply is written once for each of its blocks, each time under the same id. -/
def insert (s : Session) (m : Message) : Session :=
  ⟨Keyed.insert Message.externalId m s.messages, Keyed.sorted_insert m s.sorted⟩

/-- The instants of the first and the last call. -/
def window (s : Session) : Option (ℤ × ℤ) :=
  match s.messages with
  | [] => none
  | m :: rest => some (rest.foldl (fun w m => (min w.1 m.occurredAt, max w.2 m.occurredAt))
      (m.occurredAt, m.occurredAt))

end Session

structure SessionEntry where
  id : String
  session : Session

/-- What a pass over the transcripts found, the sessions in the order of their ids. -/
structure Scan where
  sessions : List SessionEntry
  sorted : Keyed.Sorted SessionEntry.id sessions
  files : ℕ
  malformed : ℕ
  unusable : ℕ
  incomplete : ℕ

namespace Scan

def empty : Scan := ⟨[], List.Pairwise.nil, 0, 0, 0, 0⟩

/-- Sessions are merged by id, whatever file they are read from. -/
def absorb (scan : Scan) (id : String) (m : Message) : Scan :=
  let session := (Keyed.get? SessionEntry.id scan.sessions id).elim Session.empty (·.session)
  { scan with
    sessions := Keyed.insert SessionEntry.id ⟨id, session.insert m⟩ scan.sessions
    sorted := Keyed.sorted_insert ⟨id, session.insert m⟩ scan.sorted }

end Scan

section ClaudeCode

variable (parse : String → Option Json) (rfc3339 : String → Option ℤ)

/-- What one line of a transcript comes to. -/
inductive Line
  | ignored
  | malformed
  | unusable
  | call (session : String) (m : Message)

def claudeUsage (usage : Json) : Usage where
  inputTokens := usage["input_tokens"].asU64.getD 0
  outputTokens := usage["output_tokens"].asU64.getD 0
  cacheReadTokens := usage["cache_read_input_tokens"].asU64.getD 0
  cacheWriteTokens := usage["cache_creation_input_tokens"].asU64.getD 0

def claudeEntry (fallback : String) (v : Json) : Line :=
  let msg := v["message"]
  let model := msg["model"].asStr.getD ""
  if v["type"].asStr ≠ some "assistant" then .ignored
  -- An error the client rendered, not a call that was billed.
  else if v["isApiErrorMessage"].asBool = some true then .ignored
  else
    match msg["usage"] with
    | .obj members =>
      if model = "" ∨ model = "<synthetic>" then .ignored
      else
        match msg["id"].asStr, v["timestamp"].asStr with
        | some id, some ts =>
          match rfc3339 ts with
          | none => .unusable
          | some occurredAt =>
            .call ((v["sessionId"].asStr.filter (· ≠ "")).getD fallback)
              ⟨id, occurredAt, model, claudeUsage (.obj members), none⟩
        | _, _ => .unusable
    | _ => .ignored

def claudeLine (fallback : String) (line : List Char) : Line :=
  let line := Sse.trim line
  if line = [] then .ignored
  else
    match parse (String.ofList line) with
    | none => .malformed
    | some v => claudeEntry rfc3339 fallback v

def absorbClaudeLine (fallback : String) (scan : Scan) (line : List Char) : Scan :=
  match claudeLine parse rfc3339 fallback line with
  | .ignored => scan
  | .malformed => { scan with malformed := scan.malformed + 1 }
  | .unusable => { scan with unusable := scan.unusable + 1 }
  | .call session m => scan.absorb session m

/-- A transcript by its file's stem; `none` is a file that cannot be read. -/
structure Transcript where
  stem : String
  text : Option String

def absorbClaudeFile (scan : Scan) (file : Transcript) : Scan :=
  match file.text with
  | none => { scan with malformed := scan.malformed + 1 }
  | some text =>
    (Sse.lines text.toList).foldl (absorbClaudeLine parse rfc3339 file.stem)
      { scan with files := scan.files + 1 }

/-- Read the transcripts in the order of their paths. -/
def scanClaudeCode (files : List Transcript) : Scan :=
  files.foldl (absorbClaudeFile parse rfc3339) Scan.empty

variable {scan : Scan} {id externalId : String}

/-- The session of an id, without calls where there is none. -/
def Scan.sessionOf (scan : Scan) (id : String) : Session :=
  (Keyed.get? SessionEntry.id scan.sessions id).elim Session.empty (·.session)

def Scan.HasCall (scan : Scan) (id externalId : String) : Prop :=
  ∃ m ∈ (scan.sessionOf id).messages, m.externalId = externalId

theorem Scan.hasCall_absorb_iff {session : String} {m : Message} :
    (scan.absorb session m).HasCall id externalId ↔
      scan.HasCall id externalId ∨ (id = session ∧ externalId = m.externalId) := by
  have hsession : (scan.absorb session m).sessionOf id =
      if id = session then (scan.sessionOf session).insert m else scan.sessionOf id := by
    unfold sessionOf absorb
    rw [Keyed.get?_insert scan.sorted]
    split_ifs <;> rfl
  unfold HasCall
  rw [hsession]
  by_cases hid : id = session
  · rw [if_pos hid, ← hid, and_iff_right rfl]
    exact Keyed.exists_key_insert_iff (scan.sessionOf id).sorted
  · rw [if_neg hid]
    simp [hid]

/-- The transcripts name the call in a line of theirs. -/
def Names (files : List Transcript) (id externalId : String) : Prop :=
  ∃ file ∈ files, ∃ text ∈ file.text, ∃ line ∈ Sse.lines text.toList, ∃ m,
    claudeLine parse rfc3339 file.stem line = .call id m ∧ externalId = m.externalId

theorem hasCall_absorbClaudeLine_iff (fallback : String) (line : List Char) :
    (absorbClaudeLine parse rfc3339 fallback scan line).HasCall id externalId ↔
      scan.HasCall id externalId ∨
        ∃ m, claudeLine parse rfc3339 fallback line = .call id m ∧ externalId = m.externalId := by
  unfold absorbClaudeLine
  cases claudeLine parse rfc3339 fallback line with
  | ignored => simp
  | malformed => simp [Scan.HasCall, Scan.sessionOf]
  | unusable => simp [Scan.HasCall, Scan.sessionOf]
  | call session m =>
    rw [Scan.hasCall_absorb_iff]
    simp [eq_comm]

theorem hasCall_absorbClaudeFile_iff (file : Transcript) :
    (absorbClaudeFile parse rfc3339 scan file).HasCall id externalId ↔
      scan.HasCall id externalId ∨ ∃ text ∈ file.text, ∃ line ∈ Sse.lines text.toList, ∃ m,
        claudeLine parse rfc3339 file.stem line = .call id m ∧ externalId = m.externalId := by
  unfold absorbClaudeFile
  cases file.text with
  | none => simp [Scan.HasCall, Scan.sessionOf]
  | some text =>
    have hlines := Appending.foldl_gains (P := fun scan : Scan => scan.HasCall id externalId)
      (fun scan line => hasCall_absorbClaudeLine_iff parse rfc3339 file.stem line)
      { scan with files := scan.files + 1 } (Sse.lines text.toList)
    rw [hlines]
    simp [Scan.HasCall, Scan.sessionOf]

/-- A scan has the calls the transcripts name, whichever file of a session names them. -/
theorem hasCall_scanClaudeCode_iff (files : List Transcript) :
    (scanClaudeCode parse rfc3339 files).HasCall id externalId ↔
      Names parse rfc3339 files id externalId := by
  have hfiles := Appending.foldl_gains (P := fun scan : Scan => scan.HasCall id externalId)
    (fun scan file => hasCall_absorbClaudeFile_iff parse rfc3339 file) Scan.empty files
  have hempty : ¬ Scan.empty.HasCall id externalId := by
    rintro ⟨m, hm, -⟩
    cases hm
  exact hfiles.trans (or_iff_right hempty)

/-- More transcripts keep every call of every session. -/
theorem hasCall_scanClaudeCode_mono {files files' : List Transcript} (hsub : files ⊆ files')
    (h : (scanClaudeCode parse rfc3339 files).HasCall id externalId) :
    (scanClaudeCode parse rfc3339 files').HasCall id externalId := by
  obtain ⟨file, hfile, hnames⟩ := (hasCall_scanClaudeCode_iff parse rfc3339 files).mp h
  exact (hasCall_scanClaudeCode_iff parse rfc3339 files').mpr ⟨file, hsub hfile, hnames⟩

end ClaudeCode

/-- A row of the ledger that the gateway served, as far as a transcript can be compared with it. -/
structure GatewayRow where
  occurredAt : ℤ
  counts : Fingerprint
  fits : counts.1 ≤ bigintMax ∧ counts.2.1 ≤ bigintMax ∧ counts.2.2.1 ≤ bigintMax ∧
    counts.2.2.2 ≤ bigintMax

/-- The rows arranged by what the source can ask of them. -/
structure LedgerIndex where
  /-- When each shape was metered, sorted. -/
  times : Fingerprint → Option (List ℤ)
  /-- When the source's own provider was served, sorted. -/
  served : List ℤ

namespace LedgerIndex

def push (times : Fingerprint → Option (List ℤ)) (row : GatewayRow) :
    Fingerprint → Option (List ℤ) :=
  Function.update times row.counts (some ((times row.counts).getD [] ++ [row.occurredAt]))

def build (rows : List GatewayRow) : LedgerIndex where
  times fp := (rows.foldl push (fun _ => none) fp).map (List.insertionSort (· ≤ ·))
  served := []

def activity (served : List ℤ) : LedgerIndex where
  times := fun _ => none
  served := served.insertionSort (· ≤ ·)

def seenBetween (index : LedgerIndex) (fp : Fingerprint) (lo hi : ℤ) : Bool :=
  (index.times fp).any (fun times =>
    times[Bisect.partitionPoint (fun t => decide (t < lo)) times]?.any (fun t => decide (t ≤ hi)))

def servedBetween (index : LedgerIndex) (lo hi : ℤ) : ℕ :=
  Bisect.partitionPoint (fun t => decide (t ≤ hi)) index.served -
    Bisect.partitionPoint (fun t => decide (t < lo)) index.served

end LedgerIndex

/-- Why a session is not imported. -/
inductive Skip
  | alreadyInLedger (matched size : ℕ)
  | afterCutoff
  | foreignModel (model : String)
  | gatewayActive (rows : ℕ)
  deriving DecidableEq

inductive Verdict
  | imported
  | skipped (reason : Skip)
  deriving DecidableEq

/-- What follows the last slash. -/
def slugTail (slug : String) : String := ((Split.rsplitOnce '/' slug).map Prod.snd).getD slug

/-- Whether the CLI's own vendor could have answered with the model. -/
def isNativeModel (slug : String) : Bool := "claude".toList.isPrefixOf (slugTail slug).toList

def foreignModel (session : Session) : Option String :=
  (session.messages.map Message.modelSlug).find? (fun slug => !isNativeModel slug)

/-- How many calls have a row with their counts between two instants. -/
def matched (session : Session) (ledger : LedgerIndex) (lo hi : ℤ) : ℕ :=
  (session.messages.filter
    (fun m => m.distinctive && ledger.seenBetween m.fingerprint lo hi)).length

def judge (session : Session) (ledger : LedgerIndex) (source : Source) (before : Option ℤ) :
    Option Verdict :=
  session.window.map (fun (start, last) =>
    if before.any (fun cutoff => decide (cutoff ≤ last)) then .skipped .afterCutoff
    else
      match if source.foreignModelProvesProxying then foreignModel session else none with
      | some model => .skipped (.foreignModel model)
      | none =>
        let lo := start - ledgerSlack
        let hi := last + ledgerSlack
        match source with
        | .claudeCode =>
          let n := matched session ledger lo hi
          if 0 < n then .skipped (.alreadyInLedger n session.messages.length) else .imported
        | .grokCli =>
          let rows := ledger.servedBetween lo hi
          if 0 < rows then .skipped (.gatewayActive rows) else .imported)

end OpenAIGateway.UsageImport
