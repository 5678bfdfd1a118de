import Mathlib.Algebra.Order.Round
import Mathlib.Data.Rat.Floor
import Mathlib.Tactic.Linarith

/-!
What is left of a Codex seat. The backend meters it on up to two pools, and the
reading kept is the one with less left, the first of two that have as much. A
seat the backend refuses has nothing left in either.
-/

set_option linter.all false

namespace OpenAIGateway

/-- What the poller keeps of a usage answer. -/
structure UsageSnapshot where
  remainingPct : ℚ
  windowLabel : String
  resetsAt : Option ℤ
  deriving DecidableEq

namespace CodexUsage

def sessionWindowSecs : ℚ := 18000

def weeklyWindowSecs : ℚ := 604800

def monthlyWindowSecs : ℚ := 2592000

structure LimitWindow where
  usedPercent : Option ℚ
  periodSeconds : Option ℚ
  resetAt : Option ℚ
  resetAfterSeconds : Option ℚ
  deriving DecidableEq

structure RateLimit where
  allowed : Option Bool
  limitReached : Option Bool
  primaryWindow : Option LimitWindow
  secondaryWindow : Option LimitWindow
  deriving DecidableEq

structure Response where
  rateLimit : Option RateLimit
  deriving DecidableEq

/-- The whole part of a number, towards zero. -/
def trunc (q : ℚ) : ℤ := if 0 ≤ q then ⌊q⌋ else ⌈q⌉

/-- A number of seconds as a whole count a timestamp can hold. -/
def wholeSeconds (value : ℚ) : Option ℤ :=
  if -10 ^ 12 ≤ trunc value ∧ trunc value ≤ 10 ^ 12 then some (trunc value) else none

/-- Held to 0..100. -/
def clampPct (used : ℚ) : ℚ := max 0 (min used 100)

namespace LimitWindow

/-- A window's name, from its own period where it states one and from its slot otherwise. -/
def label (window : LimitWindow) (slot : String) : String :=
  match window.periodSeconds with
  | none => slot
  | some secs =>
    if |secs - sessionWindowSecs| < 1 then "5h"
    else if |secs - weeklyWindowSecs| < 1 then "weekly"
    else if |secs - monthlyWindowSecs| < 1 then "monthly"
    else if 0 < secs then (if secs < 86400 then "session" else "rolling")
    else slot

def resetsAt (window : LimitWindow) (now : ℤ) : Option ℤ :=
  match window.resetAt with
  | some seconds => wholeSeconds seconds
  | none => (window.resetAfterSeconds.bind wholeSeconds).map (now + ·)

/-- The percentage a window is read at: its own, or all of it when the seat is spent. -/
def used (window : LimitWindow) (exhausted : Bool) : Option ℚ :=
  window.usedPercent.or (if exhausted then some 100 else none)

def snapshot (window : LimitWindow) (slot : String) (exhausted : Bool) (now : ℤ) (used : ℚ) :
    UsageSnapshot where
  remainingPct := if exhausted then 0 else 100 - clampPct used
  windowLabel := window.label slot
  resetsAt := window.resetsAt now

end LimitWindow

namespace RateLimit

/-- Whether the backend has said outright that the seat is spent. -/
def exhausted (r : RateLimit) : Bool := r.allowed == some false || r.limitReached == some true

def windows (r : RateLimit) : List (Option LimitWindow × String) :=
  [(r.primaryWindow, "5h"), (r.secondaryWindow, "weekly")]

def reading (r : RateLimit) (now : ℤ) (window : Option LimitWindow × String) :
    Option UsageSnapshot :=
  window.1.bind (fun w =>
    (w.used r.exhausted).map (w.snapshot window.2 r.exhausted now))

end RateLimit

/-- The later of two readings, only when it has less left. -/
def scarcer (scarcest : Option UsageSnapshot) (snapshot : UsageSnapshot) : Option UsageSnapshot :=
  if scarcest.all (fun s => snapshot.remainingPct < s.remainingPct) then some snapshot
  else scarcest

/-- The scarcer of the windows the backend reports. -/
def parse (body : Response) (now : ℤ) : Option UsageSnapshot :=
  body.rateLimit.bind (fun r => (r.windows.filterMap (r.reading now)).foldl scarcer none)

namespace RateLimit

variable {r : RateLimit} {now : ℤ}

/-- A window the backend reports, in its slot, read at a percentage. -/
def Usable (r : RateLimit) (window : LimitWindow) (slot : String) (used : ℚ) : Prop :=
  (some window, slot) ∈ r.windows ∧ window.used r.exhausted = some used

/-- A reading of the most used of the windows that can be read. -/
def Blocking (r : RateLimit) (now : ℤ) (snapshot : UsageSnapshot) : Prop :=
  ∃ window slot used, r.Usable window slot used ∧
    (∀ other place part, r.Usable other place part → part ≤ used) ∧
      snapshot = window.snapshot slot r.exhausted now used

/-- Where both windows can be read, the second is not the more used one, or reads as more
used, or is told by the same name and reset as the first. -/
def Told (r : RateLimit) (now : ℤ) : Prop :=
  ∀ primary first secondary second, r.Usable primary "5h" first →
    r.Usable secondary "weekly" second →
      second ≤ first ∨ (r.exhausted = false ∧ clampPct first < clampPct second) ∨
        (primary.label "5h" = secondary.label "weekly" ∧
          primary.resetsAt now = secondary.resetsAt now)

/-- A slot's window with the percentage it is read at. -/
def read (r : RateLimit) (window : Option LimitWindow) : Option (LimitWindow × ℚ) :=
  window.bind (fun w => (w.used r.exhausted).map (Prod.mk w))

theorem reading_eq (window : Option LimitWindow) (slot : String) :
    r.reading now (window, slot) =
      (r.read window).map (fun w => w.1.snapshot slot r.exhausted now w.2) := by
  unfold reading read
  cases window with
  | none => rfl
  | some w =>
    rw [Option.bind_some, Option.bind_some, Option.map_map]
    rfl

theorem read_eq_some_iff {window : Option LimitWindow} {w : LimitWindow} {used : ℚ} :
    r.read window = some (w, used) ↔ window = some w ∧ w.used r.exhausted = some used := by
  unfold read
  rw [Option.bind_eq_some_iff]
  constructor
  · rintro ⟨found, rfl, hmap⟩
    obtain ⟨part, hpart, heq⟩ := Option.map_eq_some_iff.mp hmap
    obtain ⟨rfl, rfl⟩ := Prod.mk.inj heq
    exact ⟨rfl, hpart⟩
  · rintro ⟨rfl, hused⟩
    exact ⟨w, rfl, by rw [hused, Option.map_some]⟩

theorem usable_iff {window : LimitWindow} {slot : String} {used : ℚ} :
    r.Usable window slot used ↔
      (slot = "5h" ∧ r.read r.primaryWindow = some (window, used)) ∨
      (slot = "weekly" ∧ r.read r.secondaryWindow = some (window, used)) := by
  unfold Usable windows
  simp only [read_eq_some_iff, List.mem_cons, List.not_mem_nil, Prod.mk.injEq, or_false]
  constructor
  · rintro ⟨⟨hwindow, rfl⟩ | ⟨hwindow, rfl⟩, hused⟩
    · exact .inl ⟨rfl, hwindow.symm, hused⟩
    · exact .inr ⟨rfl, hwindow.symm, hused⟩
  · rintro (⟨rfl, hwindow, hused⟩ | ⟨rfl, hwindow, hused⟩)
    · exact ⟨.inl ⟨hwindow.symm, rfl⟩, hused⟩
    · exact ⟨.inr ⟨hwindow.symm, rfl⟩, hused⟩

theorem usable_primary_iff {window : LimitWindow} {used : ℚ} :
    r.Usable window "5h" used ↔ r.read r.primaryWindow = some (window, used) := by
  rw [usable_iff]
  simp

theorem usable_secondary_iff {window : LimitWindow} {used : ℚ} :
    r.Usable window "weekly" used ↔ r.read r.secondaryWindow = some (window, used) := by
  rw [usable_iff]
  simp

/-- A reading alone is kept, and the second of two only when it has less left. -/
theorem foldl_scarcer :
    (r.windows.filterMap (r.reading now)).foldl scarcer none =
      match r.reading now (r.primaryWindow, "5h"), r.reading now (r.secondaryWindow, "weekly") with
      | none, second => second
      | some first, none => some first
      | some first, some second =>
        if second.remainingPct < first.remainingPct then some second else some first := by
  unfold windows
  rw [List.filterMap_cons, List.filterMap_cons, List.filterMap_nil]
  cases r.reading now (r.primaryWindow, "5h") <;>
    cases r.reading now (r.secondaryWindow, "weekly") <;> simp [scarcer]

theorem snapshot_lt_iff {primary secondary : LimitWindow} {first second : ℚ} :
    (secondary.snapshot "weekly" r.exhausted now second).remainingPct <
        (primary.snapshot "5h" r.exhausted now first).remainingPct ↔
      r.exhausted = false ∧ clampPct first < clampPct second := by
  unfold LimitWindow.snapshot
  cases r.exhausted
  · simp only [Bool.false_eq_true, if_false, true_and]
    constructor <;> intro h <;> linarith
  · simp

/-- With one window to read, its reading is the blocking one. -/
theorem blocking_of_only {window : LimitWindow} {slot : String} {used : ℚ}
    (h : r.Usable window slot used)
    (honly : ∀ other place part, r.Usable other place part → part = used) :
    r.Blocking now (window.snapshot slot r.exhausted now used) :=
  ⟨window, slot, used, h, fun other place part hpart => (honly other place part hpart).le, rfl⟩

theorem told_of_not_both
    (h : r.read r.primaryWindow = none ∨ r.read r.secondaryWindow = none) : r.Told now := by
  intro primary first secondary second hfirst hsecond
  rw [usable_primary_iff] at hfirst
  rw [usable_secondary_iff] at hsecond
  rcases h with h | h
  · simp [h] at hfirst
  · simp [h] at hsecond

section Both

variable {primary secondary : LimitWindow} {first second : ℚ}
  (hfirst : r.read r.primaryWindow = some (primary, first))
  (hsecond : r.read r.secondaryWindow = some (secondary, second))

include hfirst hsecond

theorem le_of_usable {bound : ℚ} (hprimary : first ≤ bound) (hsecondary : second ≤ bound)
    (other : LimitWindow) (place : String) (part : ℚ) (h : r.Usable other place part) :
    part ≤ bound := by
  rcases usable_iff.mp h with ⟨-, hread⟩ | ⟨-, hread⟩
  · rw [hfirst] at hread
    obtain ⟨-, rfl⟩ := Prod.mk.inj (Option.some.inj hread)
    exact hprimary
  · rw [hsecond] at hread
    obtain ⟨-, rfl⟩ := Prod.mk.inj (Option.some.inj hread)
    exact hsecondary

/-- Of two windows, the more used one is the second when the first is used less. -/
theorem blocking_iff_of_lt (hlt : first < second) {snapshot : UsageSnapshot} :
    r.Blocking now snapshot ↔
      snapshot = secondary.snapshot "weekly" r.exhausted now second := by
  constructor
  · rintro ⟨window, slot, used, husable, hmost, rfl⟩
    rcases usable_iff.mp husable with ⟨-, hread⟩ | ⟨rfl, hread⟩
    · rw [hfirst] at hread
      obtain ⟨-, rfl⟩ := Prod.mk.inj (Option.some.inj hread)
      exact absurd (hmost _ _ _ (usable_secondary_iff.mpr hsecond)) (not_le.mpr hlt)
    · rw [hsecond] at hread
      obtain ⟨rfl, rfl⟩ := Prod.mk.inj (Option.some.inj hread)
      rfl
  · rintro rfl
    refine ⟨secondary, "weekly", second, usable_secondary_iff.mpr hsecond, ?_, rfl⟩
    exact le_of_usable hfirst hsecond hlt.le le_rfl

theorem blocking_primary_of_le (hle : second ≤ first) :
    r.Blocking now (primary.snapshot "5h" r.exhausted now first) := by
  refine ⟨primary, "5h", first, usable_primary_iff.mpr hfirst, ?_, rfl⟩
  exact le_of_usable hfirst hsecond le_rfl hle

theorem told_iff : r.Told now ↔
    second ≤ first ∨ (r.exhausted = false ∧ clampPct first < clampPct second) ∨
      (primary.label "5h" = secondary.label "weekly" ∧
        primary.resetsAt now = secondary.resetsAt now) := by
  constructor
  · intro htold
    exact htold _ _ _ _ (usable_primary_iff.mpr hfirst) (usable_secondary_iff.mpr hsecond)
  · intro h p a q b hp hq
    rw [usable_primary_iff, hfirst] at hp
    rw [usable_secondary_iff, hsecond] at hq
    obtain ⟨rfl, rfl⟩ := Prod.mk.inj (Option.some.inj hp)
    obtain ⟨rfl, rfl⟩ := Prod.mk.inj (Option.some.inj hq)
    exact h

end Both

end RateLimit

/-- Percentages in order that read as much used are held to the same percentage. -/
theorem clampPct_eq_of_not_lt {first second : ℚ} (hle : first ≤ second)
    (h : ¬ clampPct first < clampPct second) : clampPct first = clampPct second := by
  apply le_antisymm _ (not_lt.mp h)
  exact max_le_max_left 0 (min_le_min_right 100 hle)

/-- The reading of a body with a window that can be read is of the most used one exactly when
no more used second window is levelled with the first. -/
theorem parse_blocking_iff (body : Response) (r : RateLimit) (now : ℤ)
    (hbody : body.rateLimit = some r)
    (husable : ∃ window slot used, r.Usable window slot used) :
    (∃ snapshot, parse body now = some snapshot ∧ r.Blocking now snapshot) ↔ r.Told now := by
  unfold parse
  rw [hbody, Option.bind_some, RateLimit.foldl_scarcer, RateLimit.reading_eq,
    RateLimit.reading_eq]
  cases hfirst : r.read r.primaryWindow with
  | none =>
    cases hsecond : r.read r.secondaryWindow with
    | none =>
      obtain ⟨window, slot, used, h⟩ := husable
      rw [RateLimit.usable_iff, hfirst, hsecond] at h
      simp at h
    | some secondary =>
      refine iff_of_true ⟨_, rfl, RateLimit.blocking_of_only
        (RateLimit.usable_secondary_iff.mpr hsecond) ?_⟩
        (RateLimit.told_of_not_both (.inl hfirst))
      intro other place part hpart
      rw [RateLimit.usable_iff, hfirst, hsecond] at hpart
      rcases hpart with ⟨-, hread⟩ | ⟨-, hread⟩
      · exact absurd hread (by simp)
      · rw [Option.some.inj hread]
  | some primary =>
    obtain ⟨primary, first⟩ := primary
    cases hsecond : r.read r.secondaryWindow with
    | none =>
      refine iff_of_true ⟨_, rfl, RateLimit.blocking_of_only
        (RateLimit.usable_primary_iff.mpr hfirst) ?_⟩
        (RateLimit.told_of_not_both (.inr hsecond))
      intro other place part hpart
      rw [RateLimit.usable_iff, hfirst, hsecond] at hpart
      rcases hpart with ⟨-, hread⟩ | ⟨-, hread⟩
      · exact (congrArg Prod.snd (Option.some.inj hread)).symm
      · exact absurd hread (by simp)
    | some secondary =>
      obtain ⟨secondary, second⟩ := secondary
      rw [RateLimit.told_iff hfirst hsecond]
      simp only [Option.map_some, RateLimit.snapshot_lt_iff]
      by_cases hle : second ≤ first
      · -- The first window stays: the second does not read as more used.
        have hclamp : ¬ clampPct first < clampPct second :=
          not_lt.mpr (max_le_max_left 0 (min_le_min_right 100 hle))
        rw [if_neg (fun h => hclamp h.2)]
        exact iff_of_true ⟨_, rfl, RateLimit.blocking_primary_of_le hfirst hsecond hle⟩
          (.inl hle)
      · have hlt : first < second := not_le.mp hle
        have hblocking := @RateLimit.blocking_iff_of_lt r now _ _ _ _ hfirst hsecond hlt
        by_cases hreads : r.exhausted = false ∧ clampPct first < clampPct second
        · rw [if_pos hreads]
          exact iff_of_true ⟨_, rfl, hblocking.mpr rfl⟩ (.inr (.inl hreads))
        · rw [if_neg hreads]
          simp only [hblocking, Option.some_inj, exists_eq_left', hle, hreads, false_or]
          unfold LimitWindow.snapshot
          rw [UsageSnapshot.mk.injEq]
          apply and_iff_right
          cases hex : r.exhausted
          · rw [hex] at hreads
            rw [clampPct_eq_of_not_lt hlt.le (fun h => hreads ⟨rfl, h⟩)]
          · rfl

/-- A five-hour pool and a weekly one, each at so much used and refilling then. -/
def bothPools (allowed : Option Bool) (session weekly : ℚ) : RateLimit where
  allowed := allowed
  limitReached := none
  primaryWindow := some ⟨some session, some 18000, some 1800009000, none⟩
  secondaryWindow := some ⟨some weekly, some 604800, some 1800400000, none⟩

theorem parse_blocking_of_served :
    (bothPools none 12 71).Usable ⟨some 12, some 18000, some 1800009000, none⟩ "5h" 12 ∧
      ∃ snapshot, parse ⟨some (bothPools none 12 71)⟩ 1800000000 = some snapshot ∧
        (bothPools none 12 71).Blocking 1800000000 snapshot := by
  have husable : (bothPools none 12 71).Usable
      ⟨some 12, some 18000, some 1800009000, none⟩ "5h" 12 := ⟨List.mem_cons_self, rfl⟩
  refine ⟨husable, (parse_blocking_iff ⟨some (bothPools none 12 71)⟩ (bothPools none 12 71)
    1800000000 rfl ⟨_, _, _, husable⟩).mpr ?_⟩
  apply (RateLimit.told_iff rfl rfl).mpr
  refine .inr (.inl ⟨rfl, ?_⟩)
  norm_num [clampPct]

/-- A refused seat whose week is spent and whose five hours are not is due back in five hours. -/
theorem refused_read_at_session :
    ¬ ∀ (body : Response) (r : RateLimit) (now : ℤ), body.rateLimit = some r →
      (∃ window slot used, r.Usable window slot used) →
        ∃ snapshot, parse body now = some snapshot ∧ r.Blocking now snapshot := by
  intro hall
  have husable : (bothPools (some false) 50 100).Usable
      ⟨some 50, some 18000, some 1800009000, none⟩ "5h" 50 := ⟨List.mem_cons_self, rfl⟩
  obtain ⟨snapshot, hparse, hblocking⟩ :=
    hall ⟨some (bothPools (some false) 50 100)⟩ _ 1800000000 rfl ⟨_, _, _, husable⟩
  rw [RateLimit.blocking_iff_of_lt rfl rfl (by norm_num)] at hblocking
  have hreset := congrArg (Option.map UsageSnapshot.resetsAt) (hblocking ▸ hparse)
  revert hreset
  decide

end CodexUsage

end OpenAIGateway
