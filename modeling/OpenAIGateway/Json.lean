import Mathlib.Algebra.Group.Nat.Defs
import Mathlib.Data.List.Basic

/-!
JSON values as serde_json holds them, with the accessors the codecs use.
An object keeps its members in the order they were written, because the
workspace enables `preserve_order`. Indexing by a missing member, or into a
value that is not an object, reads null. Printing and parsing text are
serde_json's own and appear here only as parameters of their callers.
-/

set_option linter.all false

namespace OpenAIGateway

/-- A number is a non-negative integer, a negative one, or the bits of a double. -/
inductive Number
  | posInt (n : ℕ)
  | negInt (n : ℕ)
  | float (bits : UInt64)
  deriving DecidableEq, Repr

inductive Json
  | null
  | bool (b : Bool)
  | num (n : Number)
  | str (s : String)
  | arr (items : List Json)
  | obj (members : List (String × Json))
  deriving Repr

namespace Json

/-- `json!(n)` for an unsigned integer. -/
def nat (n : ℕ) : Json := .num (.posInt n)

def get (v : Json) (key : String) : Option Json :=
  match v with
  | .obj members => members.lookup key
  | _ => none

instance : GetElem Json String Json (fun _ _ => True) where
  getElem v key _ := (v.get key).getD .null

def asStr : Json → Option String
  | .str s => some s
  | _ => none

def asArray : Json → Option (List Json)
  | .arr items => some items
  | _ => none

/-- An integer past `u64` is never held as one: serde_json reads it as a double. -/
def asU64 : Json → Option ℕ
  | .num (.posInt n) => if n < 2 ^ 64 then some n else none
  | _ => none

/-- A signed integer of 64 bits. -/
def asI64 : Json → Option ℤ
  | .num (.posInt n) => if n < 2 ^ 63 then some n else none
  | .num (.negInt n) => if n ≤ 2 ^ 63 then some (-n) else none
  | _ => none

def asObject : Json → Option (List (String × Json))
  | .obj members => some members
  | _ => none

def asBool : Json → Option Bool
  | .bool b => some b
  | _ => none

def isNull : Json → Bool
  | .null => true
  | _ => false

def isString : Json → Bool
  | .str _ => true
  | _ => false

/-- A number as a double. -/
def asF64 : Json → Option Float
  | .num (.posInt n) => some (Float.ofNat n)
  | .num (.negInt n) => some (-Float.ofNat n)
  | .num (.float bits) => some (Float.ofBits bits)
  | _ => none

/-- `json!(t)` for a single: the same number as a double, and null when it is not finite. -/
def float32 (t : Float32) : Json := if t.isFinite then .num (.float t.toFloat.toBits) else .null

/-- Assign a member of an object: in its place, or after the others. -/
def setMember (key : String) (value : Json) : List (String × Json) → List (String × Json)
  | [] => [(key, value)]
  | (k, v) :: members =>
    if k = key then (k, value) :: members else (k, v) :: setMember key value members

/-- Assign a member if there is a value for it. -/
def setSome (key : String) (value : Option Json) (members : List (String × Json)) :
    List (String × Json) :=
  match value with
  | some value => setMember key value members
  | none => members

/-- A list is written as an array only when it has something in it. -/
def nonEmpty {α : Type} (items : List α) (render : α → Json) : Option Json :=
  if items.isEmpty then none else some (.arr (items.map render))

theorem getElem_obj (members : List (String × Json)) (key : String) :
    (Json.obj members)[key] = (members.lookup key).getD .null := rfl

/-- A list comes back from what it is written as, if its items do. -/
theorem filterMap_nonEmpty {α : Type} {items : List α} {render : α → Json} {parse : Json → Option α}
    (h : ∀ a ∈ items, parse (render a) = some a) :
    (((nonEmpty items render).getD .null).asArray.getD []).filterMap parse = items := by
  have hback : (items.map render).filterMap parse = items := by
    rw [List.filterMap_map]
    calc items.filterMap (parse ∘ render) = items.filterMap some := List.filterMap_congr h
      _ = items := List.filterMap_some
  unfold nonEmpty
  cases items with
  | nil => rfl
  | cons a items => exact hback

theorem lookup_cons_self (key : String) (value : Json) (members : List (String × Json)) :
    ((key, value) :: members).lookup key = some value := by
  rw [List.lookup_cons, beq_self_eq_true]

theorem lookup_cons_ne {key other : String} (h : other ≠ key) (value : Json)
    (members : List (String × Json)) :
    ((key, value) :: members).lookup other = members.lookup other := by
  rw [List.lookup_cons, beq_false_of_ne h]

theorem lookup_setMember_self (key : String) (value : Json) (members : List (String × Json)) :
    (setMember key value members).lookup key = some value := by
  induction members with
  | nil => exact lookup_cons_self key value []
  | cons member members ih =>
    obtain ⟨k, v⟩ := member
    unfold setMember
    by_cases hk : k = key
    · rw [if_pos hk, hk]
      exact lookup_cons_self key value members
    · rw [if_neg hk, lookup_cons_ne (Ne.symm hk)]
      exact ih

theorem lookup_setMember_ne {key other : String} (h : other ≠ key) (value : Json)
    (members : List (String × Json)) :
    (setMember key value members).lookup other = members.lookup other := by
  induction members with
  | nil => exact lookup_cons_ne h value []
  | cons member members ih =>
    obtain ⟨k, v⟩ := member
    unfold setMember
    by_cases hk : k = key
    · rw [if_pos hk, lookup_cons_ne (hk ▸ h), lookup_cons_ne (hk ▸ h)]
    · rw [if_neg hk, List.lookup_cons, List.lookup_cons, ih]

theorem lookup_setSome_self {key : String} {members : List (String × Json)}
    (h : members.lookup key = none) (value : Option Json) :
    (setSome key value members).lookup key = value := by
  cases value with
  | none => exact h
  | some value => exact lookup_setMember_self key value members

theorem lookup_setSome_ne {key other : String} (h : other ≠ key) (value : Option Json)
    (members : List (String × Json)) :
    (setSome key value members).lookup other = members.lookup other := by
  cases value with
  | none => rfl
  | some value => exact lookup_setMember_ne h value members

theorem nat_inj {m n : ℕ} : nat m = nat n ↔ m = n := by
  simp [nat]

end Json

end OpenAIGateway
