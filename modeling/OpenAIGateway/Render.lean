import OpenAIGateway.Json
import OpenAIGateway.Stream

/-!
Frames of a rendered stream. A frame is one SSE event: its `event:` name,
for the two dialects that send one, and the JSON on its `data:` line. A
renderer turns one canonical event into frames and carries a state of its
own from event to event; no frame at all is what the source calls `None`.
-/

set_option linter.all false

namespace OpenAIGateway

structure Frame where
  event : Option String
  data : Json
  deriving Repr

/-- `str::strip_prefix`. -/
def stripPrefix (pat s : String) : Option String :=
  if pat.toList.isPrefixOf s.toList then some (String.ofList (s.toList.drop pat.toList.length))
  else none

theorem stripPrefix_append (pat s : String) : stripPrefix pat (pat ++ s) = some s := by
  unfold stripPrefix
  rw [String.toList_append, if_pos (List.isPrefixOf_iff_prefix.mpr (List.prefix_append _ _)),
    List.drop_left, String.ofList_toList]

/-- Taking out the first entry under a key, seen from the keys. -/
theorem map_eraseP_key {α : Type*} (key : α → String) (id : String) (entries : List α) :
    (entries.eraseP (fun entry => decide (key entry = id))).map key =
      (entries.map key).erase id := by
  rw [List.erase_eq_eraseP, List.eraseP_map]
  congr 2
  funext entry
  by_cases heq : key entry = id
  · simp [heq]
  · simp [heq, Ne.symm heq]

/-- A whole response rendered, event by event. -/
def renderAll {σ : Type} (render : StreamEvent → σ → σ × List Frame) :
    List StreamEvent → σ → σ × List Frame
  | [], st => (st, [])
  | e :: rest, st =>
      let out := render e st
      let tail := renderAll render rest out.1
      (tail.1, out.2 ++ tail.2)

section

variable {σ : Type} (render : StreamEvent → σ → σ × List Frame)

@[simp] theorem renderAll_nil (st : σ) : renderAll render [] st = (st, []) := rfl

@[simp] theorem renderAll_cons (e : StreamEvent) (rest : List StreamEvent) (st : σ) :
    renderAll render (e :: rest) st =
      ((renderAll render rest (render e st).1).1,
        (render e st).2 ++ (renderAll render rest (render e st).1).2) := rfl

theorem renderAll_append (xs ys : List StreamEvent) (st : σ) :
    renderAll render (xs ++ ys) st =
      ((renderAll render ys (renderAll render xs st).1).1,
        (renderAll render xs st).2 ++ (renderAll render ys (renderAll render xs st).1).2) := by
  induction xs generalizing st with
  | nil => rfl
  | cons e rest ih => simp [ih, List.append_assoc]

end

end OpenAIGateway
