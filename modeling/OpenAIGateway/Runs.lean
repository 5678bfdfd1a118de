import Mathlib.Data.List.Basic
import Mathlib.Tactic.Common

/-!
Lists whose neighbours may be glued into one. The runs of a list are what is
left when every neighbour that can be glued is. Gluing is partial and, where it
happens, associative; a list of runs has no neighbours to glue, and is its own
list of runs.
-/

set_option linter.all false

namespace OpenAIGateway.Runs

variable {α : Type*} (glue : α → α → Option α)

/-- What is glued may be glued again on either side, as its parts could. -/
structure Lawful : Prop where
  right : ∀ {a b c}, glue a b = some c → ∀ d, glue c d = (glue b d).bind (glue a)
  left : ∀ {b d e}, glue b d = some e → ∀ a, (glue a e).isSome = (glue a b).isSome

/-- Put an element before the runs of the rest. -/
def push (a : α) : List α → List α
  | [] => [a]
  | b :: rest =>
    match glue a b with
    | some c => c :: rest
    | none => a :: b :: rest

def runs (xs : List α) : List α := xs.foldr (push glue) []

/-- No neighbours are left to glue. -/
def Settled (xs : List α) : Prop := xs.IsChain (fun a b => glue a b = none)

variable {glue}

theorem runs_cons (a : α) (xs : List α) : runs glue (a :: xs) = push glue a (runs glue xs) := rfl

theorem push_of_glue {a b c : α} (h : glue a b = some c) (rest : List α) :
    push glue a (b :: rest) = c :: rest := by
  simp only [push, h]

theorem push_of_apart {a b : α} (h : glue a b = none) (rest : List α) :
    push glue a (b :: rest) = a :: b :: rest := by
  simp only [push, h]

/-- Two neighbours that are glued first are glued all the same. -/
theorem push_push (hglue : Lawful glue) {a b c : α} (h : glue a b = some c) (xs : List α) :
    push glue a (push glue b xs) = push glue c xs := by
  cases xs with
  | nil => exact push_of_glue h []
  | cons d rest =>
    have hright := hglue.right h d
    cases hd : glue b d with
    | none =>
      rw [hd, Option.bind_none] at hright
      rw [push_of_apart hd, push_of_glue h, push_of_apart hright]
    | some e =>
      have hsome : (glue a e).isSome := by
        rw [hglue.left hd, h, Option.isSome_some]
      obtain ⟨f, hf⟩ := Option.isSome_iff_exists.mp hsome
      rw [hd, Option.bind_some, hf] at hright
      rw [push_of_glue hd, push_of_glue hf, push_of_glue hright]

/-- An element that is not glued to its neighbour is not glued to its neighbour's run. -/
theorem push_push_of_apart (hglue : Lawful glue) {a b : α} (h : glue a b = none) (xs : List α) :
    push glue a (push glue b xs) = a :: push glue b xs := by
  cases xs with
  | nil => exact push_of_apart h []
  | cons d rest =>
    cases hd : glue b d with
    | none => rw [push_of_apart hd, push_of_apart h]
    | some e =>
      have hnone : glue a e = none := by
        rw [← Option.not_isSome_iff_eq_none, hglue.left hd, h]
        exact Bool.false_ne_true
      rw [push_of_glue hd, push_of_apart hnone]

/-- What is glued to nothing stands before the runs of the rest. -/
theorem push_of_inert {a : α} (h : ∀ b, glue a b = none) (xs : List α) :
    push glue a xs = a :: xs := by
  cases xs with
  | nil => rfl
  | cons b rest => exact push_of_apart (h b) rest

theorem settled_push (hglue : Lawful glue) (a : α) {xs : List α} (h : Settled glue xs) :
    Settled glue (push glue a xs) := by
  cases xs with
  | nil => exact .singleton a
  | cons b rest =>
    cases hb : glue a b with
    | none =>
      rw [push_of_apart hb]
      exact List.isChain_cons_cons.mpr ⟨hb, h⟩
    | some c =>
      rw [push_of_glue hb]
      cases rest with
      | nil => exact .singleton c
      | cons d rest =>
        obtain ⟨hapart, hrest⟩ := List.isChain_cons_cons.mp h
        have hnone : glue c d = none := by
          rw [hglue.right hb d, hapart, Option.bind_none]
        exact List.isChain_cons_cons.mpr ⟨hnone, hrest⟩

theorem settled_runs (hglue : Lawful glue) (xs : List α) : Settled glue (runs glue xs) := by
  induction xs with
  | nil => exact .nil
  | cons a xs ih => exact settled_push hglue a ih

theorem runs_of_settled {xs : List α} (h : Settled glue xs) : runs glue xs = xs := by
  induction xs with
  | nil => rfl
  | cons a xs ih =>
    rw [runs_cons, ih h.of_cons]
    cases xs with
    | nil => rfl
    | cons b rest => exact push_of_apart (List.isChain_cons_cons.mp h).1 rest

/-- What is read of the glued is read of their runs as of the list. -/
theorem flatMap_runs {β : Type*} {f : α → List β}
    (hkeep : ∀ {a b c}, glue a b = some c → f c = f a ++ f b) (xs : List α) :
    (runs glue xs).flatMap f = xs.flatMap f := by
  induction xs with
  | nil => rfl
  | cons a xs ih =>
    rw [List.flatMap_cons, ← ih, runs_cons]
    cases hruns : runs glue xs with
    | nil => rfl
    | cons b rest =>
      cases hglued : glue a b with
      | none => rw [push_of_apart hglued, List.flatMap_cons]
      | some c =>
        rw [push_of_glue hglued, List.flatMap_cons, List.flatMap_cons, hkeep hglued,
          List.append_assoc]

end OpenAIGateway.Runs
