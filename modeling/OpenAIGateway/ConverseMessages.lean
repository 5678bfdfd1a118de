import OpenAIGateway.Canonical
import OpenAIGateway.FunctionNames
import OpenAIGateway.Render
import OpenAIGateway.SseFraming
import Mathlib.Data.List.Chain
import Mathlib.Data.List.Forall2

/-!
The turns of a conversation as Converse takes them. Turns alternate and start
with the user's, none is empty and no text is blank: turns of one role are
merged, blocks this dialect does not carry are left out, and where something has
to be said a placeholder says it.
-/

set_option linter.all false

namespace OpenAIGateway.Converse

/-- Nothing but whitespace. -/
def isBlank (text : String) : Bool := text.toList.all Sse.isWhitespace

/-- What the user turn in front of a conversation that opens with the model says. -/
def continued : String := "(continued)"

/-- What a tool result that came back with nothing says. -/
def noOutput : String := "(no output)"

def textBlock (text : String) : Json := .obj [("text", .str text)]

/-- The format is the subtype of the MIME type. -/
def image (mediaType data : String) : Json :=
  .obj [("image", .obj [("format", .str ((stripPrefix "image/" mediaType).getD mediaType)),
    ("source", .obj [("bytes", .str data)])])]

/-- A block inside a result; a call, another result or reasoning cannot be in one. -/
def resultBlock : ContentBlock → Option Json
  | .text text _ => if isBlank text then none else some (textBlock text)
  | .image mediaType data => some (image mediaType data)
  | _ => none

/-- A string stays one text block, and blocks keep their shape. -/
def resultBlocks : ToolResultContent → List Json
  | .text text => if isBlank text then [] else [textBlock text]
  | .blocks blocks => blocks.filterMap resultBlock

/-- A tool result's content, which has to say something. -/
def toolResultContent (content : ToolResultContent) : List Json :=
  if (resultBlocks content).isEmpty then [textBlock noOutput] else resultBlocks content

def renderBlock (names : FunctionNameMap) (ids : ToolUseIds) : ContentBlock → Option Json
  | .text text _ => if isBlank text then none else some (textBlock text)
  | .image mediaType data => some (image mediaType data)
  | .toolUse id name input =>
    some (.obj [("toolUse", .obj [("toolUseId", .str (ids.wire id)),
      ("name", .str (names.wire name)), ("input", input)])])
  | .toolResult toolUseId content isError =>
    some (.obj [("toolResult", .obj (Json.setSome "status"
      (if isError then some (.str "error") else none)
      [("toolUseId", .str (ids.wire toolUseId)), ("content", .arr (toolResultContent content))]))])
  | .thinking _ _ => none

/-- There is no `system` or `tool` role on the wire. -/
def wireRole (role : Role) : String := if role = .assistant then "assistant" else "user"

/-- A role and the blocks said in it. -/
abbrev Turn := String × List Json

/-- Say more: in the last turn when it has the role, in a turn of its own otherwise. -/
def pushTurn (turns : List Turn) (role : String) (blocks : List Json) : List Turn :=
  if blocks.isEmpty then turns
  else
    match turns.getLast? with
    | some (last, content) =>
      if last = role then turns.dropLast ++ [(last, content ++ blocks)]
      else turns ++ [(role, blocks)]
    | none => turns ++ [(role, blocks)]

section Rendered

variable (names : FunctionNameMap) (ids : ToolUseIds)

def pushMessage (turns : List Turn) (m : Message) : List Turn :=
  pushTurn turns (wireRole m.role) (m.content.filterMap (renderBlock names ids))

/-- A conversation must start with a user message. -/
def openWithUser (turns : List Turn) : List Turn :=
  if turns.head?.any (fun turn => turn.1 == "assistant") then
    ("user", [textBlock continued]) :: turns
  else turns

def renderTurn (turn : Turn) : Json :=
  .obj [("role", .str turn.1), ("content", .arr turn.2)]

/-- The canonical turns as Converse messages. -/
def renderMessages (messages : List Message) : List Json :=
  (openWithUser (messages.foldl (pushMessage names ids) [])).map renderTurn

/-- The blocks that say something here: no blank text and no reasoning. -/
def kept : ContentBlock → Bool
  | .text text _ => !isBlank text
  | .thinking _ _ => false
  | _ => true

/-- The conversation block by block, each with its role. -/
def conversation (messages : List Message) : List (Role × ContentBlock) :=
  messages.flatMap (fun m => (m.content.filter kept).map (fun b => (m.role, b)))

/-- A block that can be shown inside a result: an image, or a text that is not blank. -/
def showable : ContentBlock → Bool
  | .text text _ => !isBlank text
  | .image _ _ => true
  | _ => false

/-- What a tool result has to show. -/
def shown : ToolResultContent → List ContentBlock
  | .text text => if isBlank text then [] else [.text text none]
  | .blocks blocks => blocks.filter showable

/-- A text or an image inside a result, as it is. -/
inductive Shown : ContentBlock → Json → Prop
  | text (text : String) (cacheControl : Option CacheControl) (h : isBlank text = false) :
    Shown (.text text cacheControl) (textBlock text)
  | image (mediaType data : String) : Shown (.image mediaType data) (image mediaType data)

/-- What a result says: what it has to show, or the placeholder for nothing. -/
def Says (content : ToolResultContent) (results : List Json) : Prop :=
  (shown content = [] ∧ results = [textBlock noOutput]) ∨
    (shown content ≠ [] ∧ List.Forall₂ Shown (shown content) results)

/-- What passes and what it becomes, side by side. -/
theorem forall₂_filter_filterMap {α β : Type*} {R : α → β → Prop} {p : α → Bool}
    {f : α → Option β} (h : ∀ a, (p a = true ∧ ∃ b, f a = some b ∧ R a b) ∨
      (p a = false ∧ f a = none)) (xs : List α) :
    List.Forall₂ R (xs.filter p) (xs.filterMap f) := by
  induction xs with
  | nil => exact .nil
  | cons a xs ih =>
    rcases h a with ⟨hp, b, hb, hR⟩ | ⟨hp, hnone⟩
    · rw [List.filter_cons_of_pos hp, List.filterMap_cons_some hb]
      exact .cons hR ih
    · rw [List.filter_cons_of_neg (by rw [hp]; exact Bool.false_ne_true),
        List.filterMap_cons_none hnone]
      exact ih

/-- What stands on the right of related lists is related to something on the left. -/
theorem exists_related_of_mem_right {α β : Type*} {R : α → β → Prop} {xs : List α} {ys : List β}
    (h : List.Forall₂ R xs ys) {b : β} (hb : b ∈ ys) : ∃ a, R a b := by
  induction h with
  | nil => cases hb
  | cons hfirst _ ih =>
    rcases List.mem_cons.mp hb with rfl | hb
    · exact ⟨_, hfirst⟩
    · exact ih hb

theorem resultBlock_cases (b : ContentBlock) :
    (showable b = true ∧ ∃ v, resultBlock b = some v ∧ Shown b v) ∨
      (showable b = false ∧ resultBlock b = none) := by
  cases b with
  | text text cacheControl =>
    cases hblank : isBlank text with
    | true => exact Or.inr ⟨by simp [showable, hblank], by simp [resultBlock, hblank]⟩
    | false =>
      exact Or.inl ⟨by simp [showable, hblank], textBlock text, by simp [resultBlock, hblank],
        .text text cacheControl hblank⟩
  | image mediaType data => exact Or.inl ⟨rfl, _, rfl, .image mediaType data⟩
  | toolUse id name input => exact Or.inr ⟨rfl, rfl⟩
  | toolResult id content isError => exact Or.inr ⟨rfl, rfl⟩
  | thinking text signature => exact Or.inr ⟨rfl, rfl⟩

theorem shown_resultBlocks (content : ToolResultContent) :
    List.Forall₂ Shown (shown content) (resultBlocks content) := by
  cases content with
  | text text =>
    simp only [shown, resultBlocks]
    by_cases hblank : isBlank text = true
    · rw [if_pos hblank, if_pos hblank]
      exact .nil
    · rw [if_neg hblank, if_neg hblank]
      exact .cons (.text text none (Bool.eq_false_iff.mpr hblank)) .nil
  | blocks blocks => exact forall₂_filter_filterMap resultBlock_cases blocks

theorem says_toolResultContent (content : ToolResultContent) :
    Says content (toolResultContent content) := by
  have hshown := shown_resultBlocks content
  unfold toolResultContent
  by_cases hempty : resultBlocks content = []
  · rw [hempty] at hshown ⊢
    exact Or.inl ⟨List.forall₂_nil_right_iff.mp hshown, rfl⟩
  · rw [if_neg (by rwa [List.isEmpty_iff])]
    refine Or.inr ⟨?_, hshown⟩
    intro hnil
    rw [hnil] at hshown
    exact hempty (List.forall₂_nil_left_iff.mp hshown)

/-- A block as the wire carries it, with its ids and names in the wire's spelling. -/
inductive Carried : ContentBlock → Json → Prop
  | text (text : String) (cacheControl : Option CacheControl) (h : isBlank text = false) :
    Carried (.text text cacheControl) (textBlock text)
  | image (mediaType data : String) : Carried (.image mediaType data) (image mediaType data)
  | toolUse (id name : String) (input : Json) :
    Carried (.toolUse id name input) (.obj [("toolUse", .obj [("toolUseId", .str (ids.wire id)),
      ("name", .str (names.wire name)), ("input", input)])])
  | worked (id : String) (content : ToolResultContent) (results : List Json)
    (h : Says content results) :
    Carried (.toolResult id content false) (.obj [("toolResult",
      .obj [("toolUseId", .str (ids.wire id)), ("content", .arr results)])])
  | failed (id : String) (content : ToolResultContent) (results : List Json)
    (h : Says content results) :
    Carried (.toolResult id content true) (.obj [("toolResult",
      .obj [("toolUseId", .str (ids.wire id)), ("content", .arr results),
        ("status", .str "error")])])

/-- A block that says something is carried, and no other is. -/
theorem renderBlock_cases (b : ContentBlock) :
    (kept b = true ∧ ∃ v, renderBlock names ids b = some v ∧ Carried names ids b v) ∨
      (kept b = false ∧ renderBlock names ids b = none) := by
  cases b with
  | text text cacheControl =>
    cases hblank : isBlank text with
    | true => exact Or.inr ⟨by simp [kept, hblank], by simp [renderBlock, hblank]⟩
    | false =>
      exact Or.inl ⟨by simp [kept, hblank], textBlock text, by simp [renderBlock, hblank],
        .text text cacheControl hblank⟩
  | image mediaType data => exact Or.inl ⟨rfl, _, rfl, .image mediaType data⟩
  | toolUse id name input => exact Or.inl ⟨rfl, _, rfl, .toolUse id name input⟩
  | toolResult id content isError =>
    refine Or.inl ⟨rfl, _, rfl, ?_⟩
    cases isError with
    | true => exact .failed id content _ (says_toolResultContent content)
    | false => exact .worked id content _ (says_toolResultContent content)
  | thinking text signature => exact Or.inr ⟨rfl, rfl⟩

/-- The blocks of a message that say something, and what they are carried as. -/
theorem carried_content (content : List ContentBlock) :
    List.Forall₂ (Carried names ids) (content.filter kept)
      (content.filterMap (renderBlock names ids)) :=
  forall₂_filter_filterMap (renderBlock_cases names ids) content

end Rendered

/-- Everything the turns say, block by block, each with its role. -/
def said (turns : List Turn) : List (String × Json) :=
  turns.flatMap (fun turn => turn.2.map (fun v => (turn.1, v)))

/-- No two turns of one role side by side, and none that says nothing. -/
structure WellTurned (turns : List Turn) : Prop where
  apart : turns.IsChain (fun a b => a.1 ≠ b.1)
  nonempty : ∀ turn ∈ turns, turn.2 ≠ []
  roles : ∀ turn ∈ turns, turn.1 = "user" ∨ turn.1 = "assistant"

theorem pushTurn_cases (turns : List Turn) (role : String) (blocks : List Json) :
    (blocks = [] ∧ pushTurn turns role blocks = turns) ∨
    (∃ before content, turns = before ++ [(role, content)] ∧
      pushTurn turns role blocks = before ++ [(role, content ++ blocks)]) ∨
    (blocks ≠ [] ∧ (∀ last ∈ turns.getLast?, last.1 ≠ role) ∧
      pushTurn turns role blocks = turns ++ [(role, blocks)]) := by
  unfold pushTurn
  by_cases hempty : blocks = []
  · exact Or.inl ⟨hempty, by rw [hempty]; rfl⟩
  · right
    rw [if_neg (by rwa [List.isEmpty_iff])]
    cases hlast : turns.getLast? with
    | none => exact Or.inr ⟨hempty, by simp, rfl⟩
    | some last =>
      obtain ⟨role', content⟩ := last
      by_cases hsame : role' = role
      · subst hsame
        left
        have hne : turns ≠ [] := by
          rintro rfl
          cases hlast
        refine ⟨turns.dropLast, content, ?_, if_pos rfl⟩
        have happend := List.dropLast_append_getLast hne
        rw [List.getLast?_eq_getLast_of_ne_nil hne, Option.some.injEq] at hlast
        rw [hlast] at happend
        exact happend.symm
      · refine Or.inr ⟨hempty, ?_, if_neg hsame⟩
        rintro last hmem
        cases hmem
        exact hsame

theorem said_append (first second : List Turn) : said (first ++ second) = said first ++ said second :=
  List.flatMap_append

theorem said_singleton (role : String) (blocks : List Json) :
    said [(role, blocks)] = blocks.map (fun v => (role, v)) := by
  unfold said
  rw [List.flatMap_singleton]

/-- Saying more adds to what was said, in its role. -/
theorem said_pushTurn (turns : List Turn) (role : String) (blocks : List Json) :
    said (pushTurn turns role blocks) = said turns ++ blocks.map (fun v => (role, v)) := by
  rcases pushTurn_cases turns role blocks with ⟨rfl, hpush⟩ | ⟨before, content, rfl, hpush⟩ |
    ⟨-, -, hpush⟩
  · rw [hpush, List.map_nil, List.append_nil]
  · rw [hpush, said_append, said_append, said_singleton, said_singleton, List.map_append,
      List.append_assoc]
  · rw [hpush, said_append, said_singleton]

theorem wellTurned_concat_iff {turns : List Turn} {turn : Turn} :
    WellTurned (turns ++ [turn]) ↔ WellTurned turns ∧
      (∀ last ∈ turns.getLast?, last.1 ≠ turn.1) ∧ turn.2 ≠ [] ∧
      (turn.1 = "user" ∨ turn.1 = "assistant") := by
  constructor
  · intro h
    obtain ⟨hbefore, -, hjoin⟩ := List.isChain_append.mp h.apart
    have hturn : turn ∈ turns ++ [turn] := List.mem_append_right _ (List.mem_singleton_self _)
    refine ⟨⟨hbefore, ?_, ?_⟩, by simpa using hjoin, h.nonempty turn hturn, h.roles turn hturn⟩
    · intro other hother
      exact h.nonempty other (List.mem_append_left _ hother)
    · intro other hother
      exact h.roles other (List.mem_append_left _ hother)
  · rintro ⟨hbefore, hlast, hblocks, hrole⟩
    refine ⟨List.isChain_append.mpr ⟨hbefore.apart, .singleton _, by simpa using hlast⟩, ?_, ?_⟩
    · exact List.forall_mem_append.mpr ⟨hbefore.nonempty, by simpa using hblocks⟩
    · exact List.forall_mem_append.mpr ⟨hbefore.roles, by simpa using hrole⟩

/-- Saying more glues no two turns of one role together and leaves none empty. -/
theorem WellTurned.pushTurn {turns : List Turn} (h : WellTurned turns) {role : String}
    (hrole : role = "user" ∨ role = "assistant") (blocks : List Json) :
    WellTurned (pushTurn turns role blocks) := by
  rcases pushTurn_cases turns role blocks with ⟨-, hpush⟩ | ⟨before, content, rfl, hpush⟩ |
    ⟨hblocks, hlast, hpush⟩
  · rw [hpush]
    exact h
  · rw [hpush]
    obtain ⟨hbefore, hlast, hcontent, -⟩ := wellTurned_concat_iff.mp h
    have hmore : content ++ blocks ≠ [] := List.append_ne_nil_of_left_ne_nil hcontent blocks
    exact wellTurned_concat_iff.mpr ⟨hbefore, hlast, hmore, hrole⟩
  · rw [hpush]
    exact wellTurned_concat_iff.mpr ⟨h, hlast, hblocks, hrole⟩

/-- The roles by turns, the user's first. -/
def speaker (i : ℕ) : String := if i % 2 = 0 then "user" else "assistant"

theorem WellTurned.speaks {turns : List Turn} (h : WellTurned turns)
    (hfirst : ∀ turn ∈ turns.head?, turn.1 = "user") {i : ℕ} {turn : Turn}
    (hturn : turns[i]? = some turn) : turn.1 = speaker i := by
  induction i generalizing turn with
  | zero => exact hfirst turn (by rwa [List.head?_eq_getElem?])
  | succ i ih =>
    obtain ⟨hlt, hget⟩ := List.getElem?_eq_some_iff.mp hturn
    have hprevious : turns[i].1 = speaker i := ih (List.getElem?_eq_getElem (by omega))
    have hapart : turns[i].1 ≠ turns[i + 1].1 := h.apart.getElem i hlt
    have hrole := h.roles turn (List.mem_of_getElem? hturn)
    rw [hprevious, hget] at hapart
    unfold speaker at hapart ⊢
    by_cases heven : i % 2 = 0
    · rw [if_pos heven] at hapart
      rw [if_neg (by omega)]
      exact hrole.resolve_left (Ne.symm hapart)
    · rw [if_neg heven] at hapart
      rw [if_pos (by omega)]
      exact hrole.resolve_right (Ne.symm hapart)

/-- Whether the first turn is the model's shows in the first thing said. -/
theorem WellTurned.head?_said {turns : List Turn} (h : WellTurned turns) :
    (said turns).head?.map Prod.fst = turns.head?.map Prod.fst := by
  cases turns with
  | nil => rfl
  | cons turn turns =>
    obtain ⟨role, blocks⟩ := turn
    cases blocks with
    | nil => exact absurd rfl (h.nonempty (role, []) (List.mem_cons_self ..))
    | cons v blocks => rfl

theorem wireRole_cases (role : Role) : wireRole role = "user" ∨ wireRole role = "assistant" := by
  unfold wireRole
  by_cases hmodel : role = .assistant
  · exact Or.inr (if_pos hmodel)
  · exact Or.inl (if_neg hmodel)

theorem wireRole_eq_assistant_iff (role : Role) :
    wireRole role = "assistant" ↔ role = .assistant := by
  cases role <;> decide

theorem WellTurned.openWithUser {turns : List Turn} (h : WellTurned turns) :
    WellTurned (openWithUser turns) := by
  unfold Converse.openWithUser
  cases turns with
  | nil => exact h
  | cons first turns =>
    by_cases hmodel : first.1 = "assistant"
    · rw [if_pos (by simpa using hmodel)]
      constructor
      · exact .cons_cons (by rw [hmodel]; decide) h.apart
      · intro turn hturn
        rcases List.mem_cons.mp hturn with rfl | hturn
        · exact List.cons_ne_nil _ _
        · exact h.nonempty turn hturn
      · intro turn hturn
        rcases List.mem_cons.mp hturn with rfl | hturn
        · exact Or.inl rfl
        · exact h.roles turn hturn
    · rw [if_neg (by simpa using hmodel)]
      exact h

theorem WellTurned.head?_openWithUser {turns : List Turn} (h : WellTurned turns) :
    ∀ turn ∈ (Converse.openWithUser turns).head?, turn.1 = "user" := by
  unfold Converse.openWithUser
  cases turns with
  | nil =>
    rintro turn hturn
    cases hturn
  | cons first turns =>
    by_cases hmodel : first.1 = "assistant"
    · rw [if_pos (by simpa using hmodel)]
      rintro turn hturn
      cases hturn
      rfl
    · rw [if_neg (by simpa using hmodel)]
      rintro turn hturn
      cases hturn
      exact (h.roles first (List.mem_cons_self ..)).resolve_right hmodel

section Whole

variable (names : FunctionNameMap) (ids : ToolUseIds)

theorem wellTurned_foldl (messages : List Message) {turns : List Turn} (h : WellTurned turns) :
    WellTurned (messages.foldl (pushMessage names ids) turns) := by
  induction messages generalizing turns with
  | nil => exact h
  | cons m messages ih => exact ih (h.pushTurn (wireRole_cases m.role) _)

/-- A block said in its role, as the wire carries it. -/
def Sent (block : Role × ContentBlock) (v : String × Json) : Prop :=
  v.1 = wireRole block.1 ∧ Carried names ids block.2 v.2

theorem sent_message (m : Message) :
    List.Forall₂ (Sent names ids) ((m.content.filter kept).map (fun b => (m.role, b)))
      ((m.content.filterMap (renderBlock names ids)).map (fun v => (wireRole m.role, v))) := by
  rw [List.forall₂_map_left_iff, List.forall₂_map_right_iff]
  exact (carried_content names ids m.content).imp (fun _ _ h => ⟨rfl, h⟩)

/-- No text of the block is blank, its own or one inside the result that it is. -/
def NoBlankText (v : Json) : Prop :=
  (∀ text, v.get "text" = some (.str text) → isBlank text = false) ∧
    ∀ result results, v.get "toolResult" = some result → result.get "content" = some (.arr results) →
      ∀ r ∈ results, ∀ text, r.get "text" = some (.str text) → isBlank text = false

theorem text_textBlock {text text' : String} (h : (textBlock text).get "text" = some (.str text')) :
    text' = text := by
  cases h
  rfl

theorem Says.noBlank {content : ToolResultContent} {results : List Json} (h : Says content results)
    {r : Json} (hr : r ∈ results) {text : String} (htext : r.get "text" = some (.str text)) :
    isBlank text = false := by
  rcases h with ⟨-, rfl⟩ | ⟨-, hshown⟩
  · obtain rfl := List.mem_singleton.mp hr
    rw [text_textBlock htext]
    decide
  · obtain ⟨b, hb⟩ := exists_related_of_mem_right hshown hr
    cases hb with
    | text _ _ hblank =>
      rw [text_textBlock htext]
      exact hblank
    | image => cases htext

variable {names ids} in
theorem Carried.noBlankText {b : ContentBlock} {v : Json} (h : Carried names ids b v) :
    NoBlankText v := by
  cases h with
  | text text cacheControl hblank =>
    constructor
    · intro text' htext
      rw [text_textBlock htext]
      exact hblank
    · intro result results hresult
      cases hresult
  | image => exact ⟨nofun, nofun⟩
  | toolUse => exact ⟨nofun, nofun⟩
  | worked id content results hsays =>
    refine ⟨nofun, ?_⟩
    intro result shown hresult hshown r hr text htext
    cases hresult
    cases hshown
    exact hsays.noBlank hr htext
  | failed id content results hsays =>
    refine ⟨nofun, ?_⟩
    intro result shown hresult hshown r hr text htext
    cases hresult
    cases hshown
    exact hsays.noBlank hr htext

/-- What was sent of the conversation so far grows by each message. -/
theorem sent_foldl (messages : List Message) {before : List (Role × ContentBlock)}
    {turns : List Turn} (h : List.Forall₂ (Sent names ids) before (said turns)) :
    List.Forall₂ (Sent names ids) (before ++ conversation messages)
      (said (messages.foldl (pushMessage names ids) turns)) := by
  induction messages generalizing before turns with
  | nil =>
    rw [show conversation [] = [] from rfl, List.append_nil]
    exact h
  | cons m messages ih =>
    have hmore : List.Forall₂ (Sent names ids)
        (before ++ (m.content.filter kept).map (fun b => (m.role, b)))
        (said (pushMessage names ids turns m)) := by
      unfold pushMessage
      rw [said_pushTurn]
      exact List.rel_append h (sent_message names ids m)
    have hall := ih hmore
    rw [List.append_assoc] at hall
    exact hall

/-- The turn in front of a conversation whose first words are the model's. -/
def opening (messages : List Message) : List (String × Json) :=
  if (conversation messages).head?.any (fun b => b.1 = .assistant) then
    [("user", textBlock continued)]
  else []

theorem noBlankText_opening {messages : List Message} {v : String × Json}
    (hv : v ∈ opening messages) : NoBlankText v.2 := by
  unfold opening at hv
  split at hv
  next =>
    obtain rfl := List.mem_singleton.mp hv
    refine ⟨?_, nofun⟩
    intro text htext
    rw [text_textBlock htext]
    decide
  next => cases hv

/-- Whether the model speaks first is the same of the messages and of the turns. -/
theorem any_head?_turns {messages : List Message} {turns : List Turn} (hturns : WellTurned turns)
    (hsent : List.Forall₂ (Sent names ids) (conversation messages) (said turns)) :
    turns.head?.any (fun turn => turn.1 == "assistant") =
      (conversation messages).head?.any (fun b => b.1 = .assistant) := by
  have hheads : (said turns).head?.map Prod.fst =
      (conversation messages).head?.map (fun b => wireRole b.1) := by
    generalize conversation messages = blocks at hsent
    generalize said turns = turns at hsent
    cases hsent with
    | nil => rfl
    | cons hfirst hrest => exact congrArg some hfirst.1
  have hany : turns.head?.any (fun turn => turn.1 == "assistant") =
      (turns.head?.map Prod.fst).any (fun role => role == "assistant") := by
    rw [Option.any_map]
  rw [hany, ← hturns.head?_said, hheads, Option.any_map]
  congr 1
  funext b
  rw [Bool.eq_iff_iff, beq_iff_eq, decide_eq_true_iff]
  exact wireRole_eq_assistant_iff b.1

theorem said_openWithUser {messages : List Message} {turns : List Turn} (hturns : WellTurned turns)
    (hsent : List.Forall₂ (Sent names ids) (conversation messages) (said turns)) :
    said (openWithUser turns) = opening messages ++ said turns := by
  unfold openWithUser opening
  rw [any_head?_turns names ids hturns hsent]
  by_cases hmodel : (conversation messages).head?.any (fun b => b.1 = .assistant) = true
  · rw [if_pos hmodel, if_pos hmodel]
    rfl
  · rw [if_neg hmodel, if_neg hmodel]
    rfl

end Whole

/-- The turns alternate from the user's on, each says something and nothing blank,
and after a placeholder for a user who has not spoken they say what the messages
say: block by block, in order and in its role. -/
theorem messages_normalised (names : FunctionNameMap) (ids : ToolUseIds) (messages : List Message) :
    ∃ turns, renderMessages names ids messages = turns.map renderTurn ∧
      (∀ i turn, turns[i]? = some turn → turn.1 = speaker i) ∧
      (∀ turn ∈ turns, turn.2 ≠ [] ∧ ∀ v ∈ turn.2, NoBlankText v) ∧
      ∃ sent, said turns = opening messages ++ sent ∧
        List.Forall₂ (Sent names ids) (conversation messages) sent := by
  have hnone : WellTurned [] := ⟨.nil, nofun, nofun⟩
  have hturns := wellTurned_foldl names ids messages hnone
  have hstart : List.Forall₂ (Sent names ids) [] (said []) := .nil
  have hsent := sent_foldl names ids messages hstart
  rw [List.nil_append] at hsent
  have hsaid := said_openWithUser names ids hturns hsent
  refine ⟨_, rfl, ?_, ?_, _, hsaid, hsent⟩
  · intro i turn hturn
    exact hturns.openWithUser.speaks hturns.head?_openWithUser hturn
  · intro turn hturn
    refine ⟨hturns.openWithUser.nonempty turn hturn, ?_⟩
    intro v hv
    have hmem : (turn.1, v) ∈ said (openWithUser (messages.foldl (pushMessage names ids) [])) :=
      List.mem_flatMap.mpr ⟨turn, hturn, List.mem_map.mpr ⟨v, hv, rfl⟩⟩
    rw [hsaid] at hmem
    rcases List.mem_append.mp hmem with hopening | hmem
    · exact noBlankText_opening hopening
    · obtain ⟨b, hb⟩ := exists_related_of_mem_right hsent hmem
      exact hb.2.noBlankText

/-- A call inside a result is not sent, and the result says that there was no output. -/
theorem call_in_result_is_lost :
    renderMessages .identity {} [⟨.user, [.toolResult "call_1"
      (.blocks [.toolUse "call_2" "read_file" (.obj [])]) false]⟩] =
    [.obj [("role", .str "user"), ("content", .arr [.obj [("toolResult",
      .obj [("toolUseId", .str "call_1"), ("content", .arr [textBlock noOutput])])]])]] := by
  rfl

end OpenAIGateway.Converse
