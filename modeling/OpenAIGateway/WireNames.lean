import OpenAIGateway.Ascii
import OpenAIGateway.Canonical
import OpenAIGateway.FunctionNames
import OpenAIGateway.Naming
import Mathlib.Data.List.DropRight

/-!
Function names as the OpenAI wire takes them. Names the pattern allows keep
their seats; every other name is respelled inside the pattern and numbered
until it is free. The assignment can be read both ways.
-/

set_option linter.all false

namespace OpenAIGateway.WireNames

open Naming

/-- The function-name ceiling, in bytes. -/
def functionNameMax : ℕ := 64

/-- What a name that sanitises to nothing is sent as. -/
def fallback : List Char := ['t', 'o', 'o', 'l']

def usizeMax : ℕ := 18446744073709551615

def nameByte (b : UInt8) : Bool := Ascii.isAlphanumeric b || b == 0x5F || b == 0x2D

/-- Whether a name is already legal on the function-name wire. -/
def isLegalOpenaiFunctionName (name : String) : Bool := Ascii.legal nameByte functionNameMax name

def truncateAscii (s : List Char) (max : ℕ) : List Char := if s.length ≤ max then s else s.take max

def trimMatches (c : Char) (s : List Char) : List Char := (s.dropWhile (· == c)).rdropWhile (· == c)

def sanitizeByte (out : List Char) (b : UInt8) : List Char :=
  if nameByte b then out ++ [Ascii.char b]
  else if out.getLast? = some '_' then out
  else out ++ ['_']

/-- Replace what the pattern refuses, then cap. The result is ASCII, so it is held as characters. -/
def sanitizeOpenaiFunctionName (name : String) : List Char :=
  let out := (Ascii.bytes name).foldl sanitizeByte []
  let trimmed := trimMatches '_' out
  let stem := if trimmed.isEmpty then fallback else trimmed
  truncateAscii stem functionNameMax

/-- The `n`-th spelling of a base that is taken. -/
def candidate (base : List Char) (n : ℕ) : List Char :=
  let suffix := '_' :: Nat.toDigits 10 n
  let stemLen := functionNameMax - suffix.length
  let stem := if stemLen = 0 then [] else truncateAscii base stemLen
  let candidate := stem ++ suffix
  let candidate := if functionNameMax < candidate.length then candidate.take functionNameMax else candidate
  if candidate.isEmpty then fallback else candidate

def uniquifyFrom (base : List Char) (used : List String) (n : ℕ) : String :=
  if String.ofList (candidate base n) ∉ used then String.ofList (candidate base n)
  else if usizeMax ≤ n then String.ofList (candidate base n)
  else uniquifyFrom base used (n + 1)
termination_by usizeMax - n

def uniquify (base : List Char) (used : List String) : String :=
  let stem := truncateAscii base functionNameMax
  let base := if stem.isEmpty then fallback else stem
  if String.ofList base ∉ used then String.ofList base else uniquifyFrom base used 2

/-- The wire names given out so far. -/
structure Seats where
  used : List String := []
  toWire : List (String × String) := []

/-- An already legal name keeps its own spelling. -/
def Seats.keep (s : Seats) (name : String) : Seats :=
  if isLegalOpenaiFunctionName name ∧ name ∉ s.used then
    { used := name :: s.used, toWire := (name, name) :: s.toWire }
  else s

/-- A name without a seat gets the first free spelling. -/
def Seats.assign (s : Seats) (name : String) : Seats :=
  if (s.toWire.lookup name).isSome then s
  else
    let wire := uniquify (sanitizeOpenaiFunctionName name) s.used
    { used := wire :: s.used, toWire := (name, wire) :: s.toWire }

def fromOriginals (originals : List String) : FunctionNameMap :=
  let seats := originals.foldl Seats.assign (originals.foldl Seats.keep {})
  { toWire := seats.toWire, fromWire := seats.toWire.map Prod.swap }

def toolUseName : ContentBlock → Option String
  | .toolUse _ name _ => some name
  | _ => none

def chosenName : Option ToolChoice → List String
  | some (.tool name) => [name]
  | _ => []

/-- Every function name the request will put on the wire, in the order they are met. -/
def functionNames (req : CanonicalRequest) : List String :=
  req.tools.map Tool.name ++ chosenName req.toolChoice ++
    (req.messages.flatMap Message.content).filterMap toolUseName

def fromRequest (req : CanonicalRequest) : FunctionNameMap := fromOriginals (firstSeen (functionNames req))

/-! What the spellings are made of. -/

/-- Every character is one the pattern allows. -/
def AllNameChars (text : List Char) : Prop :=
  ∀ c ∈ text, c.toNat < 128 ∧ nameByte (Ascii.byte c) = true

theorem AllNameChars.append {xs ys : List Char} (hxs : AllNameChars xs) (hys : AllNameChars ys) :
    AllNameChars (xs ++ ys) := by
  intro c hc
  rcases List.mem_append.mp hc with hc | hc
  · exact hxs c hc
  · exact hys c hc

theorem AllNameChars.take {s : List Char} (h : AllNameChars s) (n : ℕ) : AllNameChars (s.take n) :=
  fun c hc => h c (List.mem_of_mem_take hc)

theorem isDigit_of_mem_toDigits {c : Char} {n : ℕ} (h : c ∈ Nat.toDigits 10 n) : c.isDigit = true :=
  Nat.isDigit_of_mem_toDigits (by omega) (by omega) h

/-- What holds of the seats at every moment, for the names of one request. -/
structure Seated (originals : List String) (s : Seats) : Prop where
  oneToOne : OneToOne s.toWire
  used : s.used.length = s.toWire.length
  mem_used : ∀ name ∈ s.toWire.map Prod.snd, name ∈ s.used
  asked : ∀ name ∈ s.toWire.map Prod.fst, name ∈ originals
  legal : ∀ p ∈ s.toWire, isLegalOpenaiFunctionName p.2 = true
  kept : ∀ p ∈ s.toWire, isLegalOpenaiFunctionName p.1 = true → p.2 = p.1

theorem seated_new (originals : List String) : Seated originals {} where
  oneToOne := OneToOne.nil
  used := rfl
  mem_used := fun _ h => absurd h List.not_mem_nil
  asked := fun _ h => absurd h List.not_mem_nil
  legal := fun _ h => absurd h List.not_mem_nil
  kept := fun _ h => absurd h List.not_mem_nil

/-- A free legal spelling may be given to a name without a seat. -/
theorem Seated.give {originals : List String} {s : Seats} (h : Seated originals s) {name wire : String}
    (hasked : name ∈ originals) (hname : name ∉ s.toWire.map Prod.fst) (hwire : wire ∉ s.used)
    (hlegal : isLegalOpenaiFunctionName wire = true)
    (hkept : isLegalOpenaiFunctionName name = true → wire = name) :
    Seated originals { used := wire :: s.used, toWire := (name, wire) :: s.toWire } where
  oneToOne := h.oneToOne.cons hname (fun hv => hwire (h.mem_used wire hv))
  used := by rw [List.length_cons, List.length_cons, h.used]
  mem_used := by
    intro w hw
    rcases List.mem_cons.mp hw with hw | hw
    · exact List.mem_cons.mpr (Or.inl hw)
    · exact List.mem_cons_of_mem _ (h.mem_used w hw)
  asked := by
    intro o ho
    rcases List.mem_cons.mp ho with ho | ho
    · exact ho ▸ hasked
    · exact h.asked o ho
  legal := by
    intro p hp
    rcases List.mem_cons.mp hp with hp | hp
    · exact hp ▸ hlegal
    · exact h.legal p hp
  kept := by
    intro p hp
    rcases List.mem_cons.mp hp with hp | hp
    · exact hp ▸ hkept
    · exact h.kept p hp

/-- After the first pass a seat is a legal name's own, and every legal name has one. -/
structure Kept (originals passed : List String) (s : Seats) : Prop where
  seated : Seated originals s
  own : ∀ p ∈ s.toWire, p.1 = p.2
  used_iff : ∀ name, name ∈ s.used ↔ (name, name) ∈ s.toWire
  all : ∀ name ∈ passed, isLegalOpenaiFunctionName name = true → name ∈ s.toWire.map Prod.fst

theorem kept_new (originals : List String) : Kept originals [] {} where
  seated := seated_new originals
  own := fun _ hp => absurd hp List.not_mem_nil
  used_iff := fun _ => ⟨fun h => absurd h List.not_mem_nil, fun h => absurd h List.not_mem_nil⟩
  all := fun _ h => absurd h List.not_mem_nil

theorem kept_keep {originals passed : List String} {s : Seats} (h : Kept originals passed s)
    {name : String} (hasked : name ∈ originals) : Kept originals (passed ++ [name]) (s.keep name) := by
  unfold Seats.keep
  by_cases hkeep : isLegalOpenaiFunctionName name = true ∧ name ∉ s.used
  · rw [if_pos hkeep]
    have hname : name ∉ s.toWire.map Prod.fst := by
      intro hmem
      obtain ⟨p, hp, hfst⟩ := List.mem_map.mp hmem
      have hpair : p = (name, name) := Prod.ext hfst ((h.own p hp).symm.trans hfst)
      exact hkeep.2 ((h.used_iff name).mpr (hpair ▸ hp))
    refine ⟨h.seated.give hasked hname hkeep.2 hkeep.1 (fun _ => rfl), ?_, ?_, ?_⟩
    · intro p hp
      rcases List.mem_cons.mp hp with hp | hp
      · rw [hp]
      · exact h.own p hp
    · intro w
      rw [List.mem_cons, List.mem_cons, h.used_iff, Prod.mk.injEq, and_self]
    · intro o ho hlegal
      rw [List.map_cons, List.mem_cons]
      rcases List.mem_append.mp ho with ho | ho
      · exact Or.inr (h.all o ho hlegal)
      · exact Or.inl (List.mem_singleton.mp ho)
  · rw [if_neg hkeep]
    refine ⟨h.seated, h.own, h.used_iff, ?_⟩
    intro o ho hlegal
    rcases List.mem_append.mp ho with ho | ho
    · exact h.all o ho hlegal
    · have hused : name ∈ s.used := by
        by_contra hfree
        exact hkeep ⟨List.mem_singleton.mp ho ▸ hlegal, hfree⟩
      rw [List.mem_singleton.mp ho]
      exact List.mem_map_of_mem ((h.used_iff name).mp hused)

theorem kept_foldl {originals passed names : List String} {s : Seats} (h : Kept originals passed s)
    (hnames : ∀ name ∈ names, name ∈ originals) :
    Kept originals (passed ++ names) (names.foldl Seats.keep s) := by
  induction names generalizing passed s with
  | nil => rwa [List.append_nil]
  | cons name names ih =>
    have hrest := ih (kept_keep h (hnames name List.mem_cons_self))
      (fun o ho => hnames o (List.mem_cons_of_mem _ ho))
    rwa [List.append_assoc, List.singleton_append] at hrest

theorem lookup_assign {s : Seats} {name wire : String} (h : s.toWire.lookup name = some wire)
    (other : String) : (s.assign other).toWire.lookup name = some wire := by
  unfold Seats.assign
  by_cases hseat : (s.toWire.lookup other).isSome = true
  · rw [if_pos hseat]
    exact h
  · rw [if_neg hseat]
    have hne : name ≠ other := by
      rintro rfl
      rw [h] at hseat
      exact hseat rfl
    change ((other, _) :: s.toWire).lookup name = some wire
    rw [List.lookup_cons, beq_false_of_ne hne]
    exact h

/-- A seat once given stays, so a legal name of the request goes out as it is. -/
theorem wire_of_legal {originals : List String} {name : String} (hname : name ∈ originals)
    (hlegal : isLegalOpenaiFunctionName name = true) : (fromOriginals originals).wire name = name := by
  have hkept : Kept originals ([] ++ originals) (originals.foldl Seats.keep {}) :=
    kept_foldl (kept_new originals) (fun o ho => ho)
  obtain ⟨⟨k, w⟩, hp, hfst⟩ := List.mem_map.mp (hkept.all name hname hlegal)
  obtain rfl : k = name := hfst
  obtain rfl : k = w := hkept.own (k, w) hp
  have hassign : ∀ (names : List String) (s : Seats), s.toWire.lookup k = some k →
      (names.foldl Seats.assign s).toWire.lookup k = some k := by
    intro names
    induction names with
    | nil => exact fun s hs => hs
    | cons other names ih => exact fun s hs => ih (s.assign other) (lookup_assign hs other)
  change ((originals.foldl Seats.assign (originals.foldl Seats.keep {})).toWire.lookup k).getD k = k
  rw [hassign originals _ (hkept.seated.oneToOne.lookup_of_mem hp), Option.getD_some]

end OpenAIGateway.WireNames
