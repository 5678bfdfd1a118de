import OpenAIGateway.Hangup
import OpenAIGateway.Lease
import OpenAIGateway.Split

/-!
A System One request, from its body to the ledger write of its answer. It fails
over between the credentials of one provider and has no rung to climb, so one
answer at most is billed. The credential that gave it is given back before the
write is started.
-/

set_option linter.all false

namespace OpenAIGateway

def Provider.asStr : Provider → String
  | .anthropic => "anthropic"
  | .openAI => "openai"
  | .gemini => "gemini"
  | .kimi => "kimi"
  | .deepSeek => "deepseek"
  | .zhipu => "zhipu"
  | .xAI => "xai"
  | .bedrock => "bedrock"
  | .jev => "jev"
  | .custom endpoint => endpoint

namespace SystemOne

open Failover Climb Suspension

/-- Where a request goes. -/
structure Target where
  provider : Provider
  /-- The name to send in place of the one that arrived. -/
  upstreamModel : Option String
  /-- The catalogue's row for the model asked for. -/
  spec : Option ModelSpec

def jev : Target := ⟨.jev, none, none⟩

/-- The endpoint of that name, among the hosts served. -/
def hostNamed (hosts : List Provider) (name : String) : Option Provider :=
  hosts.find? (fun host => host.isCustom && host.asStr == name)

def unpricedModel (model host name : String) : GatewayError :=
  .noViableModel ("'" ++ model ++ "' is not in the catalog, so what " ++ host ++
    " charges for its answer could not be metered, and it is not sent there. Price it first: " ++
    "oag admin catalog add --id " ++ model ++ " --upstream " ++ name ++
    " --input-per-mtok <usd> --output-per-mtok <usd> --context <tokens> --max-output <tokens>")

def notServed (model : String) : GatewayError :=
  .noViableModel ("'" ++ model ++ "' is not a System One model this gateway serves. " ++
    "GET /jev/v1/models lists the ones it does; a name with no provider in it is sent to Jev " ++
    "as it is")

/-- The provider a model names, and what its upstream calls it. -/
def resolve (model : Option String) (catalog : Catalog) (hosts : List Provider) :
    Except GatewayError Target :=
  match model with
  | none => .ok jev
  | some model =>
    match catalog.get model with
    | some spec =>
      .ok ⟨spec.provider, if spec.upstreamName ≠ model then some spec.upstreamName else none,
        some spec⟩
    | none =>
      match Split.splitOnce '/' model with
      | none => .ok jev
      | some (vendor, name) =>
        match hostNamed hosts vendor with
        | some host =>
          match catalog.models.find? (fun s => s.provider = host ∧ s.upstreamName = name) with
          | some spec => .ok ⟨host, some name, some spec⟩
          | none => .error (unpricedModel model vendor name)
        | none =>
          if Provider.builtin vendor = some .jev then .ok jev else .error (notServed model)

/-- A body that decoded: the model that answered, and the tokens it reports. -/
structure Reply where
  model : String
  inputTokens : Option ℤ
  outputTokens : Option ℤ

/-- What one credential's attempts came to. -/
inductive Tried
  | answered (reply : Reply)
  | switch (e : GatewayError)
  | raced
  | fatal (e : GatewayError)

/-- What the world answers on one pass of the loop. -/
structure Pass where
  inBudget : Bool
  lease : List String → Except GatewayError Lease
  tried : Tried

/-- A reply, with the credential that gave it and the switches before it. -/
structure Answered where
  lease : Lease
  attempt : ℕ
  reply : Reply

/-- Where the handler waits. -/
inductive Point
  | catalog
  | admission
  | lease (switch : ℕ)
  | candidates
  | attempt (switch : ℕ)
  | release (switch : ℕ)
  | releaseAnswer

/-- An upstream's reply decoded, or its ledger write is started. -/
inductive Act
  | answered (a : Answered)
  | started (r : Row)

namespace Act

def answer? : Act → Option Answered
  | .answered a => some a
  | .started _ => none

def row? : Act → Option Row
  | .answered _ => none
  | .started r => some r

@[simp] theorem answer?_answered (a : Answered) : (answered a).answer? = some a := rfl

@[simp] theorem answer?_started (r : Row) : (started r).answer? = none := rfl

@[simp] theorem row?_answered (a : Answered) : (answered a).row? = none := rfl

@[simp] theorem row?_started (r : Row) : (started r).row? = some r := rfl

end Act

/-- What a request meets. -/
structure World where
  /-- The model the body asks for, if the body decodes. -/
  request : Except GatewayError (Option String)
  catalog : Catalog
  hosts : List Provider
  /-- Whether the route's rate and budgets admit it. -/
  admitted : Except GatewayError Unit
  /-- Whether the body can be written with another model's name. -/
  renamed : Except GatewayError Unit
  /-- Whether the provider's upstream is there. -/
  upstream : Except GatewayError Unit
  route : String
  /-- Whether the route has no account of the provider at all. -/
  unconfigured : Bool
  pass : ℕ → Pass

section Handler

variable (ready : Point → Bool)

/-- Why there is nothing to lease when nothing was tried. -/
def unconfigured (w : World) (provider : Provider) (e : GatewayError) :
    Fut Point Act GatewayError :=
  match e with
  | .noCredential _ => do
    await ready .candidates
    pure (if w.unconfigured then .systemOneNotConfigured w.route provider else e)
  | _ => pure e

/-- The passes that are left, from the switch they begin with. -/
def callFrom (w : World) (provider : Provider) :
    ℕ → ℕ → List String → Option GatewayError → Fut Point Act (Except GatewayError Answered)
  | 0, _, _, lastError => pure (.error (lastError.getD (.noCredential provider)))
  | left + 1, switch, excluded, lastError =>
    let pass := w.pass switch
    if mayTryAnother switch pass.inBudget then do
      await ready (.lease switch)
      match pass.lease excluded with
      | .error e =>
        match lastError with
        | some last => pure (.error last)
        | none => do
          let e ← unconfigured ready w provider e
          pure (.error e)
      | .ok lease => do
        await ready (.attempt switch)
        match pass.tried with
        | .answered reply => do
          act (.answered ⟨lease, switch, reply⟩)
          pure (.ok ⟨lease, switch, reply⟩)
        | .fatal e => do
          await ready (.release switch)
          pure (.error e)
        | .switch e => do
          await ready (.release switch)
          callFrom w provider left (switch + 1) (lease.account :: excluded) (some e)
        | .raced => do
          await ready (.release switch)
          callFrom w provider left (switch + 1) (lease.account :: excluded) lastError
    else pure (.error (lastError.getD (.noCredential provider)))

/-- Send one request through a credential of a provider, failing over between them. -/
def call (w : World) (maxAccountSwitches : ℕ) (provider : Provider) :
    Fut Point Act (Except GatewayError Answered) :=
  match w.upstream with
  | .error e => pure (.error e)
  | .ok _ => callFrom ready w provider (maxAccountSwitches + 1) 0 [] none

/-- The row that prices an answer: of the model that answered, or of the one asked for. -/
def priced (catalog : Catalog) (provider : Provider) (model : String) (asked : Option ModelSpec) :
    ModelSpec :=
  let id := provider.asStr ++ "/" ++ model
  ((catalog.get id).or asked).getD
    { id := id
      provider := provider
      upstreamName := model
      pricing := ⟨.new 0 0, .new 0 0, none, none⟩
      contextWindow := 0
      maxOutputTokens := 0 }

/-- A count as the ledger counts: absent or negative is zero. -/
def tokens (count : Option ℤ) : ℕ := (count.map Int.toNat).getD 0

/-- The ledger row of an answer. -/
def row (w : World) (target : Target) (a : Answered) : Row :=
  let decision : RoutingDecision :=
    ⟨priced w.catalog target.provider a.reply.model target.spec, none, .passthrough, none, none⟩
  let usage : Usage :=
    { inputTokens := tokens a.reply.inputTokens
      outputTokens := tokens a.reply.outputTokens }
  ⟨.served, meterContext decision a.lease a.attempt,
    ({} : StreamAccumulator).observe (.usageUpdate usage), none, false⟩

/-- The handler as a future. -/
def ask (w : World) (maxAccountSwitches : ℕ) : Fut Point Act (Except GatewayError Reply) :=
  match w.request with
  | .error e => pure (.error e)
  | .ok model => do
    await ready .catalog
    match resolve model w.catalog w.hosts with
    | .error e => pure (.error e)
    | .ok target => do
      await ready .admission
      match w.admitted with
      | .error e => pure (.error e)
      | .ok _ =>
        match if target.upstreamModel.isSome then w.renamed else .ok () with
        | .error e => pure (.error e)
        | .ok _ => do
          let answer ← call ready w maxAccountSwitches target.provider
          match answer with
          | .error e => pure (.error e)
          | .ok a => do
            -- Before the ledger write, which is detached.
            await ready .releaseAnswer
            act (.started (row w target a))
            pure (.ok a.reply)

end Handler

section Run

variable (ready : Point → Bool) (w : World)

theorem acts_unconfigured (provider : Provider) (e : GatewayError) :
    acts (unconfigured ready w provider e).marks = [] := by
  cases e <;> simp [unconfigured]

/-- A call starts no write, and the answer there is is the one it returns. -/
theorem callFrom_acts (provider : Provider) (left switch : ℕ) (excluded : List String)
    (lastError : Option GatewayError) :
    let called := callFrom ready w provider left switch excluded lastError
    (acts called.marks).filterMap Act.row? = [] ∧
      (acts called.marks).filterMap Act.answer? = called.value.toOption.toList := by
  induction left generalizing switch excluded lastError with
  | zero => exact ⟨rfl, rfl⟩
  | succ left ih =>
    unfold callFrom
    by_cases hbudget : mayTryAnother switch (w.pass switch).inBudget = true
    · simp only [hbudget, if_true]
      cases hlease : (w.pass switch).lease excluded with
      | error e =>
        cases lastError with
        | some last => simp [Except.toOption]
        | none => simp [acts_unconfigured, Except.toOption]
      | ok lease =>
        cases htried : (w.pass switch).tried with
        | answered reply => simp [Except.toOption]
        | fatal e => simp [Except.toOption]
        | switch e =>
          obtain ⟨hrows, hanswers⟩ := ih (switch + 1) (lease.account :: excluded) (some e)
          simp only [marks_bind, value_bind, acts_append, acts_await, List.nil_append]
          exact ⟨hrows, hanswers⟩
        | raced =>
          obtain ⟨hrows, hanswers⟩ := ih (switch + 1) (lease.account :: excluded) lastError
          simp only [marks_bind, value_bind, acts_append, acts_await, List.nil_append]
          exact ⟨hrows, hanswers⟩
    · rw [if_neg hbudget]
      exact ⟨rfl, rfl⟩

theorem call_acts (maxAccountSwitches : ℕ) (provider : Provider) :
    let called := call ready w maxAccountSwitches provider
    (acts called.marks).filterMap Act.row? = [] ∧
      (acts called.marks).filterMap Act.answer? = called.value.toOption.toList := by
  unfold call
  cases w.upstream with
  | error e => exact ⟨rfl, rfl⟩
  | ok _ => exact callFrom_acts ready w provider _ 0 [] none

/-- The target the request resolves to, when its body decodes and its model is served. -/
def World.target (w : World) : Option Target :=
  w.request.toOption.bind (fun model => (resolve model w.catalog w.hosts).toOption)

/-- A row is the ledger write of an answer. -/
def World.Writes (w : World) (r : Row) (a : Answered) : Prop :=
  ∃ target ∈ w.target, r = row w target a

/-- What waits first and does then what it does not wait for, with a write for each answer. -/
structure Ordered (w : World) (marks before after : List (Mark Point Act)) : Prop where
  marks : marks = before ++ after
  noRows : (acts before).filterMap Act.row? = []
  noWaits : waits after = 0
  noAnswers : (acts after).filterMap Act.answer? = []
  once : ((acts before).filterMap Act.answer?).length ≤ 1
  writes : List.Forall₂ w.Writes ((acts after).filterMap Act.row?)
    ((acts before).filterMap Act.answer?)

/-- A future that gets no answer and starts no write. -/
theorem Ordered.of_none {marks : List (Mark Point Act)}
    (hrows : (acts marks).filterMap Act.row? = [])
    (hanswers : (acts marks).filterMap Act.answer? = []) : Ordered w marks marks [] := by
  refine ⟨(List.append_nil marks).symm, hrows, rfl, rfl, ?_, ?_⟩
  · rw [hanswers]
    exact Nat.zero_le 1
  · rw [hanswers]
    exact List.Forall₂.nil

/-- The write of the answer, if there is one, is started after the last point. -/
theorem ask_split (maxAccountSwitches : ℕ) :
    ∃ before after, Ordered w (ask ready w maxAccountSwitches).marks before after := by
  unfold ask
  cases hrequest : w.request with
  | error e => exact ⟨[], [], Ordered.of_none w rfl rfl⟩
  | ok model =>
    cases hresolve : resolve model w.catalog w.hosts with
    | error e => exact ⟨_, [], Ordered.of_none w (by simp [hresolve]) (by simp [hresolve])⟩
    | ok target =>
      have htarget : target ∈ w.target := by
        simp [World.target, hrequest, hresolve, Except.toOption]
      simp only [hresolve, marks_bind]
      cases w.admitted with
      | error e => exact ⟨_, [], Ordered.of_none w (by simp) (by simp)⟩
      | ok _ =>
        cases hrenamed : (if target.upstreamModel.isSome then w.renamed else .ok ()) with
        | error e => exact ⟨_, [], Ordered.of_none w (by simp) (by simp)⟩
        | ok _ =>
          obtain ⟨hrows, hanswers⟩ := call_acts ready w maxAccountSwitches target.provider
          let before := (await ready Point.catalog).marks ++ ((await ready Point.admission).marks ++
            (call ready w maxAccountSwitches target.provider).marks)
          have hbefore : acts before =
              acts (call ready w maxAccountSwitches target.provider).marks := by
            simp [before]
          simp only [marks_bind]
          cases hcalled : (call ready w maxAccountSwitches target.provider).value with
          | error e =>
            rw [hcalled] at hanswers
            have hnone := Ordered.of_none w (hbefore ▸ hrows) (hbefore ▸ hanswers)
            exact ⟨before, [], by simpa [before] using hnone⟩
          | ok a =>
            rw [hcalled] at hanswers
            refine ⟨before ++ (await ready Point.releaseAnswer).marks,
              [.act (.started (row w target a))], ?_, ?_, rfl, rfl, ?_, ?_⟩
            · simp [before, act]
            · rw [acts_append, acts_await, List.append_nil, hbefore]
              exact hrows
            · rw [acts_append, acts_await, List.append_nil, hbefore, hanswers]
              exact Nat.le_refl 1
            · rw [acts_append, acts_await, List.append_nil, hbefore, hanswers]
              exact List.Forall₂.cons ⟨target, htarget, rfl⟩ List.Forall₂.nil

/-- Every answer by then has one write started for it, and the writes are of different attempts. -/
def Booked (w : World) (done : List Act) : Prop :=
  List.Forall₂ w.Writes (done.filterMap Act.row?) (done.filterMap Act.answer?) ∧
    ((done.filterMap Act.row?).map (fun r => r.ctx.attempt)).Nodup

theorem booked_of_no_rows {done : List Act} (h : done.filterMap Act.row? = []) :
    Booked w done ↔ done.filterMap Act.answer? = [] := by
  unfold Booked
  rw [h]
  simp

/-- Dropped at a point, a request has lost the answer it had, if it had one. Run to its end, it
has lost none. -/
theorem ask_booked_iff (maxAccountSwitches n : ℕ) :
    let marks := (ask ready w maxAccountSwitches).marks
    Booked w (actsBy n marks) ↔
      (n < waits marks → (actsBy n marks).filterMap Act.answer? = []) := by
  intro marks
  obtain ⟨before, after, hsplit⟩ := ask_split ready w maxAccountSwitches
  have hmarks : marks = before ++ after := hsplit.marks
  by_cases hdropped : n < waits marks
  · have hnone : (actsBy n marks).filterMap Act.row? = [] := by
      rw [hmarks] at hdropped ⊢
      exact kept_acts hsplit.noRows hsplit.noWaits n hdropped
    rw [booked_of_no_rows w hnone]
    exact ⟨fun h _ => h, fun h => h hdropped⟩
  · have hall : actsBy n marks = acts before ++ acts after := by
      rw [actsBy_of_le (Nat.not_lt.mp hdropped), hmarks, acts_append]
    have hrows : (actsBy n marks).filterMap Act.row? = (acts after).filterMap Act.row? := by
      rw [hall, List.filterMap_append, hsplit.noRows, List.nil_append]
    have hanswers : (actsBy n marks).filterMap Act.answer? =
        (acts before).filterMap Act.answer? := by
      rw [hall, List.filterMap_append, hsplit.noAnswers, List.append_nil]
    have hone : ((acts after).filterMap Act.row?).length ≤ 1 := by
      rw [hsplit.writes.length_eq]
      exact hsplit.once
    have hnodup : (((acts after).filterMap Act.row?).map (fun r => r.ctx.attempt)).Nodup := by
      cases hlist : (acts after).filterMap Act.row? with
      | nil => exact List.nodup_nil
      | cons r rest =>
        rw [hlist, List.length_cons] at hone
        rw [List.eq_nil_of_length_eq_zero (by omega : rest.length = 0)]
        exact List.nodup_singleton _
    unfold Booked
    rw [hrows, hanswers]
    exact ⟨fun _ h => absurd h hdropped, fun _ => ⟨hsplit.writes, hnodup⟩⟩

end Run

/-- A client that hangs up loses every answer the request has by then. On the chat path and in
System One, over every run and every point the future may be dropped at, each answer has one ledger
write started for it and the writes are of different attempts exactly when a future that is dropped
is dropped before the first answer is there, and of a request that runs to its end one answer at
most is of the 256th dispatch or a later one. -/
theorem hangup_books_iff (ready : Climb.Point → Bool) (fromStr : String → Option Json) (plan : Plan)
    (world : ℕ → ℕ → Failover.Pass) (asksReady : Point → Bool) (w : World)
    (maxAccountSwitches : ℕ) :
    (∃ exit, (handler ready fromStr plan world).value = some exit ∧ ∀ n,
      let marks := (handler ready fromStr plan world).marks
      Climb.Booked (actsBy n marks) ↔
        (n < waits marks → (actsBy n marks).filterMap Climb.Act.bill? = []) ∧
          (waits marks ≤ n → (lateBills exit.state.dispatches).length ≤ 1)) ∧
    ∀ n,
      let marks := (ask asksReady w maxAccountSwitches).marks
      Booked w (actsBy n marks) ↔
        (n < waits marks → (actsBy n marks).filterMap Act.answer? = []) :=
  ⟨handler_booked_iff ready fromStr plan world, ask_booked_iff asksReady w maxAccountSwitches⟩

section Example

def hello : StreamAccumulator :=
  { usage := { inputTokens := 9, outputTokens := 4 }, committed := true, textLen := 5 }

/-- The first credential loses the stream of its answer, any other answers. -/
def losingWorld (_ switch : ℕ) : Failover.Pass where
  inBudget := true
  lease := fun _ => .ok ⟨if switch = 0 then "codex-1" else "codex-2", false⟩
  trial := if switch = 0 then .lost (.streamIdle 60) hello else .collected hello

/-- Every credential answers. -/
def answeringWorld (_ _ : ℕ) : Failover.Pass where
  inBudget := true
  lease := fun _ => .ok ⟨"codex-2", false⟩
  trial := .collected hello

def jevWorld : World where
  request := .ok none
  catalog := Catalog.new
  hosts := []
  admitted := .ok ()
  renamed := .ok ()
  upstream := .ok ()
  route := "default"
  unconfigured := false
  pass := fun _ => ⟨true, fun _ => .ok ⟨"jev-1", false⟩, .answered ⟨"jev-1.13", some 9, some 4⟩⟩

/-- A collected answer's future is dropped while its credential is given back, one with a lost
answer while the next credential is leased, and a System One answer's while its credential is given
back. -/
theorem hangup_loses_answers :
    ¬ Climb.Booked (actsBy 2 (handler (fun _ => false) (fun _ => none) (twoRungPlan 3)
        answeringWorld).marks) ∧
      ¬ Climb.Booked (actsBy 3 (handler (fun _ => false) (fun _ => none) (twoRungPlan 3)
        losingWorld).marks) ∧
      ¬ Booked jevWorld (actsBy 4 (ask (fun _ => false) jevWorld 3).marks) := by
  refine ⟨?_, ?_, ?_⟩
  · rw [Climb.booked_of_no_rows rfl]
    exact List.cons_ne_nil _ _
  · rw [Climb.booked_of_no_rows rfl]
    exact List.cons_ne_nil _ _
  · rw [booked_of_no_rows jevWorld rfl]
    exact List.cons_ne_nil _ _

end Example

end SystemOne

end OpenAIGateway
