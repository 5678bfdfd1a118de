import OpenAIGateway.HubRequest

/-!
The residue of a request: what the client's body holds once everything the hub
carries is taken out of it. A renderer of the same dialect merges it back, and
where both have a field the renderer's stands. Paths are lists of keys, and a
key matches in either of its two spellings.
-/

set_option linter.all false

namespace OpenAIGateway

/-- `maxOutputTokens` as `max_output_tokens`. -/
def snakeOf (camel : String) : String :=
  String.ofList (camel.toList.flatMap (fun c => if c.isUpper then ['_', c.toLower] else [c]))

/-- The key is a spelling of the name. -/
def Spells (name key : String) : Prop := key = name ∨ key = snakeOf name

instance (name key : String) : Decidable (Spells name key) :=
  inferInstanceAs (Decidable (key = name ∨ key = snakeOf name))

namespace Json

/-- Remove one path. The order the other members are left in is not kept track of. -/
def removePath : List String → Json → Json
  | [name], .obj members => .obj (members.filter (fun m => ¬ Spells name m.1))
  | head :: rest, .obj members =>
    .obj (members.map (fun m => if Spells head m.1 then (m.1, removePath rest m.2) else m))
  | _, v => v

mutual

/-- Drop the objects that are empty, depth first. -/
def prune : Json → Json
  | .obj members => .obj (pruneMembers members)
  | v => v

def pruneMembers : List (String × Json) → List (String × Json)
  | [] => []
  | (key, v) :: members =>
    match prune v with
    | .obj [] => pruneMembers members
    | pruned => (key, pruned) :: pruneMembers members

end

mutual

/-- Merge into a value; anything already present survives. -/
def mergeFrom : Json → Json → Json
  | .obj extra, .obj target => .obj (mergeMembers extra target)
  | _, target => target

def mergeMembers : List (String × Json) → List (String × Json) → List (String × Json)
  | [], target => target
  | (key, value) :: extra, target =>
    mergeMembers extra (match target.lookup key with
      | some existing => setMember key (mergeFrom value existing) target
      | none => target ++ [(key, value)])

end

end Json

namespace Passthrough

/-- What is left of a body once these paths are taken out of it. -/
def capture (dialect : Dialect) (body : Json) (subtracted : List (List String)) :
    Option Passthrough :=
  match (subtracted.foldl (fun v path => v.removePath path) body).prune with
  | .obj (member :: members) => some ⟨dialect, .obj (member :: members)⟩
  | _ => none

/-- Merge the residue back into a body, if this dialect wrote it. -/
def mergeInto (extra : Passthrough) (dialect : Dialect) (target : Json) : Json :=
  if extra.dialect = dialect then extra.body.mergeFrom target else target

end Passthrough

namespace Json

/-- No member is at the path, in either spelling of its keys. -/
def Absent : List String → Json → Prop
  | [name], .obj members => ∀ m ∈ members, ¬ Spells name m.1
  | head :: rest, .obj members => ∀ m ∈ members, Spells head m.1 → Absent rest m.2
  | _, _ => True

/-- A removal leaves members that were there, each as it was or with a path removed. -/
theorem members_removePath (path : List String) (members : List (String × Json)) :
    ∃ left, removePath path (.obj members) = .obj left ∧
      ∀ m ∈ left, ∃ x, (m.1, x) ∈ members ∧ (m.2 = x ∨ ∃ rest, m.2 = removePath rest x) := by
  match path with
  | [] =>
    refine ⟨members, rfl, ?_⟩
    intro m hm
    exact ⟨m.2, hm, Or.inl rfl⟩
  | [name] =>
    refine ⟨_, rfl, ?_⟩
    intro m hm
    exact ⟨m.2, List.mem_of_mem_filter hm, Or.inl rfl⟩
  | head :: next :: rest =>
    refine ⟨_, rfl, ?_⟩
    intro m hm
    obtain ⟨m', hm', rfl⟩ := List.mem_map.mp hm
    by_cases hspells : Spells head m'.1
    · rw [if_pos hspells]
      exact ⟨m'.2, hm', Or.inr ⟨next :: rest, rfl⟩⟩
    · rw [if_neg hspells]
      exact ⟨m'.2, hm', Or.inl rfl⟩

/-- Pruning leaves members that were there, pruned. -/
theorem mem_pruneMembers {members : List (String × Json)} {m : String × Json}
    (h : m ∈ pruneMembers members) : ∃ x, (m.1, x) ∈ members ∧ m.2 = prune x := by
  induction members with
  | nil => cases h
  | cons member members ih =>
    obtain ⟨key, v⟩ := member
    have hrest : m ∈ pruneMembers members → ∃ x, (m.1, x) ∈ (key, v) :: members ∧ m.2 = prune x := by
      intro hm
      obtain ⟨x, hx, heq⟩ := ih hm
      exact ⟨x, List.mem_cons_of_mem _ hx, heq⟩
    unfold pruneMembers at h
    split at h
    next => exact hrest h
    next pruned hpruned =>
      rcases List.mem_cons.mp h with rfl | hm
      · exact ⟨v, List.mem_cons_self .., rfl⟩
      · exact hrest hm

theorem removePath_of_ne_obj (path : List String) {v : Json} (h : ∀ members, v ≠ .obj members) :
    removePath path v = v := by
  unfold removePath
  split
  next => exact absurd rfl (h _)
  next => exact absurd rfl (h _)
  next => rfl

theorem Absent.removed {path : List String} {v : Json} (h : Absent path v) (other : List String) :
    Absent path (removePath other v) := by
  induction path generalizing v other with
  | nil => exact trivial
  | cons head rest ih =>
    cases v with
    | obj members =>
      obtain ⟨left, heq, hleft⟩ := members_removePath other members
      rw [heq]
      cases rest with
      | nil =>
        intro m hm
        obtain ⟨x, hx, -⟩ := hleft m hm
        exact h (m.1, x) hx
      | cons next rest =>
        intro m hm hspells
        obtain ⟨x, hx, hvalue⟩ := hleft m hm
        have hbelow : Absent (next :: rest) x := h (m.1, x) hx hspells
        rcases hvalue with hsame | ⟨path', hsame⟩
        · rw [hsame]
          exact hbelow
        · rw [hsame]
          exact ih hbelow path'
    | _ =>
      rw [removePath_of_ne_obj other (by simp)]
      exact h

theorem Absent.pruned {path : List String} {v : Json} (h : Absent path v) : Absent path (prune v) := by
  induction path generalizing v with
  | nil => exact trivial
  | cons head rest ih =>
    cases v with
    | obj members =>
      cases rest with
      | nil =>
        intro m hm
        obtain ⟨x, hx, -⟩ := mem_pruneMembers hm
        exact h (m.1, x) hx
      | cons next rest =>
        intro m hm hspells
        obtain ⟨x, hx, heq⟩ := mem_pruneMembers hm
        rw [heq]
        exact ih (h (m.1, x) hx hspells)
    | _ => exact h

theorem absent_removePath {path : List String} (hne : path ≠ []) (v : Json) :
    Absent path (removePath path v) := by
  induction path generalizing v with
  | nil => exact absurd rfl hne
  | cons head rest ih =>
    cases v with
    | obj members =>
      cases rest with
      | nil =>
        intro m hm
        have hkept := List.of_mem_filter hm
        exact of_decide_eq_true hkept
      | cons next rest =>
        intro m hm hspells
        obtain ⟨m', hm', rfl⟩ := List.mem_map.mp hm
        by_cases hhead : Spells head m'.1
        · rw [if_pos hhead]
          exact ih (List.cons_ne_nil next rest) m'.2
        · rw [if_neg hhead] at hspells
          exact absurd hspells hhead
    | _ => cases rest <;> exact trivial

/-- A path that is among those removed is absent after them all. -/
theorem absent_foldl_removePath {path : List String} (hne : path ≠ []) {paths : List (List String)}
    {v : Json} (h : path ∈ paths ∨ Absent path v) :
    Absent path (paths.foldl (fun v path => v.removePath path) v) := by
  induction paths generalizing v with
  | nil =>
    rcases h with hmem | habsent
    · cases hmem
    · exact habsent
  | cons first paths ih =>
    refine ih ?_
    rcases h with hmem | habsent
    · rcases List.mem_cons.mp hmem with rfl | hlater
      · exact Or.inr (absent_removePath hne v)
      · exact Or.inl hlater
    · exact Or.inr (habsent.removed first)

theorem lookup_append_ne {key other : String} (h : other ≠ key) (value : Json)
    (members : List (String × Json)) :
    (members ++ [(key, value)]).lookup other = members.lookup other := by
  rw [List.lookup_append, lookup_cons_ne h, List.lookup_nil, Option.or_none]

/-- A key the residue has not reads as before the merge. -/
theorem lookup_mergeMembers_of_absent {key : String} {extra : List (String × Json)}
    (h : ∀ m ∈ extra, m.1 ≠ key) (target : List (String × Json)) :
    (mergeMembers extra target).lookup key = target.lookup key := by
  induction extra generalizing target with
  | nil => rfl
  | cons member extra ih =>
    obtain ⟨other, value⟩ := member
    have hother : key ≠ other := Ne.symm (h (other, value) (List.mem_cons_self ..))
    unfold mergeMembers
    rw [ih (fun m hm => h m (List.mem_cons_of_mem _ hm))]
    split
    next existing _ => exact lookup_setMember_ne hother _ target
    next => exact lookup_append_ne hother value target

/-- What merging keeps of a value, the whole merge keeps of the member that holds it. -/
theorem lookup_mergeMembers_kept {I : Json → Prop} {key : String} {extra target : List (String × Json)}
    {t : Json} (ht : target.lookup key = some t) (hI : I t)
    (hkeep : ∀ v t, (key, v) ∈ extra → I t → I (mergeFrom v t)) :
    ∃ t', (mergeMembers extra target).lookup key = some t' ∧ I t' := by
  induction extra generalizing target t with
  | nil => exact ⟨t, ht, hI⟩
  | cons member extra ih =>
    obtain ⟨other, value⟩ := member
    have hrest : ∀ v t, (key, v) ∈ extra → I t → I (mergeFrom v t) :=
      fun v t hv => hkeep v t (List.mem_cons_of_mem _ hv)
    unfold mergeMembers
    by_cases hother : key = other
    · subst hother
      rw [ht]
      refine ih (lookup_setMember_self ..) ?_ hrest
      exact hkeep value t (List.mem_cons_self ..) hI
    · split
      next existing _ =>
        exact ih ((lookup_setMember_ne hother _ target).trans ht) hI hrest
      next =>
        exact ih ((lookup_append_ne hother value target).trans ht) hI hrest

end Json

/-- Nothing that was subtracted is left in the residue. -/
theorem Passthrough.absent_capture {dialect : Dialect} {body : Json}
    {subtracted : List (List String)} {extra : Passthrough}
    (h : capture dialect body subtracted = some extra) {path : List String}
    (hpath : path ∈ subtracted) (hne : path ≠ []) : Json.Absent path extra.body := by
  have hremoved : Json.Absent path (subtracted.foldl (fun v path => v.removePath path) body) :=
    Json.absent_foldl_removePath hne (Or.inl hpath)
  have habsent := hremoved.pruned
  unfold capture at h
  split at h
  next member members hresidue =>
    obtain rfl := Option.some.inj h
    rw [hresidue] at habsent
    exact habsent
  next => cases h

end OpenAIGateway
