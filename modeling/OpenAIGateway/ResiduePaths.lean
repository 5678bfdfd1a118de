import OpenAIGateway.Passthrough
import Mathlib.Data.List.Nodup

/-!
What becomes of the value at a path of keys when other paths are subtracted,
the empty objects are pruned, and the residue is merged into a rendered body.
A value that no subtracted path meets, and that the rendered body leaves room
for, arrives as it was. A key stands for itself here, in the spelling it has.
-/

set_option linter.all false

namespace OpenAIGateway

namespace Json

/-- The value at a path of keys. -/
def follow : List String → Json → Option Json
  | [], v => some v
  | key :: rest, v => (v.get key).bind (follow rest)

/-- No object that a path leads to has a key twice, as serde_json's maps do not. -/
def KeysOnce (v : Json) : Prop :=
  ∀ path members, v.follow path = some (.obj members) → (members.map Prod.fst).Nodup

/-- The path and the path of names have a common beginning as long as the shorter of them. -/
def Meets : List String → List String → Prop
  | name :: names, key :: keys => Spells name key ∧ Meets names keys
  | _, _ => True

/-- Somewhere on the path the value is an object without the next key. -/
def Room : List String → Json → Prop
  | [], _ => False
  | key :: rest, v => ∃ members, v = .obj members ∧ ∀ t, members.lookup key = some t → Room rest t

mutual

/-- Neither the value nor an object in it is empty; what is inside an array is not looked at. -/
def solid : Json → Bool
  | .obj members => !members.isEmpty && solidMembers members
  | _ => true

def solidMembers : List (String × Json) → Bool
  | [] => true
  | (_, v) :: members => v.solid && solidMembers members

end

theorem mem_of_lookup {β : Type*} {members : List (String × β)} {key : String} {x : β}
    (h : members.lookup key = some x) : (key, x) ∈ members := by
  obtain ⟨before, after, rfl, -⟩ := List.lookup_eq_some_iff.mp h
  exact List.mem_append_right _ (List.mem_cons_self ..)

theorem KeysOnce.nodup {members : List (String × Json)} (h : KeysOnce (.obj members)) :
    (members.map Prod.fst).Nodup := h [] members rfl

theorem KeysOnce.below {v x : Json} (h : KeysOnce v) {key : String} (hget : v.get key = some x) :
    KeysOnce x := by
  intro path members hfollow
  refine h (key :: path) members ?_
  change (v.get key).bind (follow path) = _
  rw [hget]
  exact hfollow

theorem keysOnce_of_ne_obj {v : Json} (h : ∀ members, v ≠ .obj members) : KeysOnce v := by
  intro path left hfollow
  cases path with
  | nil => exact absurd (Option.some.inj hfollow) (h left)
  | cons key rest =>
    cases v with
    | obj members => exact absurd rfl (h members)
    | _ => cases hfollow

theorem keysOnce_nil : KeysOnce (.obj []) := by
  intro path left hfollow
  cases path with
  | nil =>
    obtain rfl := Json.obj.inj (Option.some.inj hfollow)
    exact List.nodup_nil
  | cons key rest => cases hfollow

/-- One member more, with a key of its own. -/
theorem KeysOnce.cons {key : String} {v : Json} {members : List (String × Json)}
    (hkey : key ∉ members.map Prod.fst) (hv : KeysOnce v) (h : KeysOnce (.obj members)) :
    KeysOnce (.obj ((key, v) :: members)) := by
  intro path left hfollow
  cases path with
  | nil =>
    obtain rfl := Json.obj.inj (Option.some.inj hfollow)
    exact List.nodup_cons.mpr ⟨hkey, h.nodup⟩
  | cons other rest =>
    change (List.lookup other ((key, v) :: members)).bind (follow rest) = _ at hfollow
    by_cases hother : other = key
    · subst hother
      rw [lookup_cons_self] at hfollow
      exact hv rest left hfollow
    · rw [lookup_cons_ne hother] at hfollow
      exact h (other :: rest) left hfollow

theorem get_eq_some {v x : Json} {key : String} (h : v.get key = some x) :
    ∃ members, v = .obj members ∧ members.lookup key = some x := by
  cases v with
  | obj members => exact ⟨members, rfl, h⟩
  | _ => cases h

section Subtract

theorem get_removePath_last (name key : String) (v : Json) :
    (removePath [name] v).get key = if Spells name key then none else v.get key := by
  cases v with
  | obj members =>
    change (members.filter (fun m => ¬ Spells name m.1)).lookup key =
      if Spells name key then none else members.lookup key
    induction members with
    | nil => exact (ite_self none).symm
    | cons member members ih =>
      obtain ⟨k, x⟩ := member
      by_cases hk : key = k
      · subst hk
        by_cases hspells : Spells name key
        · rw [List.filter_cons_of_neg (by simpa using hspells), ih, if_pos hspells, if_pos hspells]
        · rw [List.filter_cons_of_pos (by simpa using hspells), lookup_cons_self, if_neg hspells,
            lookup_cons_self]
      · rw [lookup_cons_ne hk, ← ih]
        by_cases hspells : Spells name k
        · rw [List.filter_cons_of_neg (by simpa using hspells)]
        · rw [List.filter_cons_of_pos (by simpa using hspells), lookup_cons_ne hk]
  | _ => exact (ite_self none).symm

theorem get_removePath_cons (head next : String) (rest : List String) (key : String) (v : Json) :
    (removePath (head :: next :: rest) v).get key =
      if Spells head key then (v.get key).map (removePath (next :: rest)) else v.get key := by
  cases v with
  | obj members =>
    change (members.map (fun m => if Spells head m.1 then (m.1, removePath (next :: rest) m.2)
        else m)).lookup key =
      if Spells head key then (members.lookup key).map (removePath (next :: rest))
      else members.lookup key
    induction members with
    | nil => exact (ite_self none).symm
    | cons member members ih =>
      obtain ⟨k, x⟩ := member
      rw [List.map_cons]
      by_cases hk : key = k
      · subst hk
        by_cases hspells : Spells head key
        · rw [if_pos hspells, if_pos hspells, lookup_cons_self, lookup_cons_self, Option.map_some]
        · rw [if_neg hspells, if_neg hspells, lookup_cons_self, lookup_cons_self]
      · rw [lookup_cons_ne hk, ← ih]
        by_cases hspells : Spells head k
        · rw [if_pos hspells, lookup_cons_ne hk]
        · rw [if_neg hspells, lookup_cons_ne hk]
  | _ => exact (ite_self none).symm

theorem removePath_nil (v : Json) : removePath [] v = v := by
  cases v <;> rfl

theorem meets_nil (other : List String) : Meets other [] := by
  cases other <;> exact trivial

/-- A path that the subtracted one does not meet leads where it led. -/
theorem follow_removePath {other path : List String} (h : ¬ Meets other path) (v : Json) :
    follow path (removePath other v) = follow path v := by
  induction path generalizing other v with
  | nil => exact absurd (meets_nil other) h
  | cons key rest ih =>
    change ((removePath other v).get key).bind (follow rest) = (v.get key).bind (follow rest)
    match other with
    | [] => exact absurd trivial h
    | [name] =>
      have hspells : ¬ Spells name key := fun hs => h ⟨hs, trivial⟩
      rw [get_removePath_last, if_neg hspells]
    | head :: next :: names =>
      rw [get_removePath_cons]
      by_cases hspells : Spells head key
      · rw [if_pos hspells]
        have hrest : ¬ Meets (next :: names) rest := fun hm => h ⟨hspells, hm⟩
        cases hget : v.get key with
        | none => rfl
        | some x => exact ih hrest x
      · rw [if_neg hspells]

/-- A removal adds no key to an object. -/
theorem keys_removePath {other : List String} {members left : List (String × Json)}
    (h : removePath other (.obj members) = .obj left) :
    (left.map Prod.fst).Sublist (members.map Prod.fst) := by
  match other with
  | [] =>
    obtain rfl := Json.obj.inj h
    exact List.Sublist.refl _
  | [name] =>
    obtain rfl := Json.obj.inj h
    exact List.filter_sublist.map _
  | head :: next :: rest =>
    obtain rfl := Json.obj.inj h
    have hkeys : ∀ m ∈ members, (Prod.fst ∘ fun m : String × Json =>
        if Spells head m.1 then (m.1, removePath (next :: rest) m.2) else m) m = m.1 := by
      intro m _
      rw [Function.comp_apply]
      by_cases hspells : Spells head m.1
      · rw [if_pos hspells]
      · rw [if_neg hspells]
    rw [List.map_map, List.map_congr_left hkeys]

/-- A member that is left was there, as it is or with a path more. -/
theorem get_of_removePath {other : List String} {key : String} {v x : Json}
    (h : (removePath other v).get key = some x) :
    ∃ y, v.get key = some y ∧ (x = y ∨ ∃ rest, x = removePath rest y) := by
  match other with
  | [] =>
    rw [removePath_nil] at h
    exact ⟨x, h, Or.inl rfl⟩
  | [name] =>
    rw [get_removePath_last] at h
    by_cases hspells : Spells name key
    · rw [if_pos hspells] at h
      cases h
    · rw [if_neg hspells] at h
      exact ⟨x, h, Or.inl rfl⟩
  | head :: next :: names =>
    rw [get_removePath_cons] at h
    by_cases hspells : Spells head key
    · rw [if_pos hspells] at h
      obtain ⟨y, hy, rfl⟩ := Option.map_eq_some_iff.mp h
      exact ⟨y, hy, Or.inr ⟨_, rfl⟩⟩
    · rw [if_neg hspells] at h
      exact ⟨x, h, Or.inl rfl⟩

/-- What a path leads to after a removal it led to before, with some of its members gone. -/
theorem follow_of_removePath {other path : List String} {v : Json} {left : List (String × Json)}
    (h : follow path (removePath other v) = some (.obj left)) :
    ∃ members, follow path v = some (.obj members) ∧
      (left.map Prod.fst).Sublist (members.map Prod.fst) := by
  induction path generalizing other v with
  | nil =>
    have hroot : removePath other v = .obj left := Option.some.inj h
    cases v with
    | obj members => exact ⟨members, rfl, keys_removePath hroot⟩
    | _ =>
      rw [removePath_of_ne_obj other (by simp)] at hroot
      cases hroot
  | cons key rest ih =>
    obtain ⟨x, hget, hrest⟩ := Option.bind_eq_some_iff.mp h
    obtain ⟨y, hy, hx⟩ := get_of_removePath hget
    rcases hx with rfl | ⟨names, rfl⟩
    · exact ⟨left, Option.bind_eq_some_iff.mpr ⟨x, hy, hrest⟩, List.Sublist.refl _⟩
    · obtain ⟨members, hmembers, hsub⟩ := ih hrest
      exact ⟨members, Option.bind_eq_some_iff.mpr ⟨y, hy, hmembers⟩, hsub⟩

theorem KeysOnce.removed {v : Json} (h : KeysOnce v) (other : List String) :
    KeysOnce (removePath other v) := by
  intro path left hfollow
  obtain ⟨members, hmembers, hsub⟩ := follow_of_removePath hfollow
  exact (h path members hmembers).sublist hsub

theorem KeysOnce.foldl_removePath {v : Json} (h : KeysOnce v) (paths : List (List String)) :
    (paths.foldl (fun v path => v.removePath path) v).KeysOnce := by
  induction paths generalizing v with
  | nil => exact h
  | cons first paths ih => exact ih (h.removed first)

/-- The same of one path after another. -/
theorem follow_foldl_removePath {paths : List (List String)} {path : List String} {v : Json}
    (hapart : ∀ other ∈ paths, ¬ Meets other path) :
    (paths.foldl (fun v path => v.removePath path) v).follow path = v.follow path := by
  induction paths generalizing v with
  | nil => rfl
  | cons first paths ih =>
    rw [List.foldl_cons, ih (fun other hother => hapart other (List.mem_cons_of_mem _ hother))]
    exact follow_removePath (hapart first (List.mem_cons_self ..)) v

end Subtract

section Prune

theorem prune_obj (members : List (String × Json)) :
    prune (.obj members) = .obj (pruneMembers members) := by
  unfold prune
  rfl

/-- A member of which something is left is kept. -/
theorem lookup_pruneMembers {members : List (String × Json)} {key : String} {x : Json}
    (h : members.lookup key = some x) (hleft : prune x ≠ .obj []) :
    (pruneMembers members).lookup key = some (prune x) := by
  induction members with
  | nil => cases h
  | cons member members ih =>
    obtain ⟨k, y⟩ := member
    unfold pruneMembers
    by_cases hkey : key = k
    · subst hkey
      rw [lookup_cons_self] at h
      obtain rfl := Option.some.inj h
      split
      next hpruned => exact absurd hpruned hleft
      next => exact lookup_cons_self ..
    · rw [lookup_cons_ne hkey] at h
      split
      next => exact ih h
      next =>
        rw [lookup_cons_ne hkey]
        exact ih h

/-- A member that was kept is the pruned one of its key. -/
theorem lookup_of_pruneMembers {members : List (String × Json)}
    (hkeys : (members.map Prod.fst).Nodup) {key : String} {y : Json}
    (h : (pruneMembers members).lookup key = some y) :
    ∃ x, members.lookup key = some x ∧ y = prune x := by
  obtain ⟨x, hx, hy⟩ := mem_pruneMembers (mem_of_lookup h)
  refine ⟨x, ?_, hy⟩
  clear h hy
  induction members with
  | nil => cases hx
  | cons member members ih =>
    obtain ⟨k, z⟩ := member
    rcases List.mem_cons.mp hx with heq | hmem
    · obtain ⟨rfl, rfl⟩ := Prod.mk.inj heq
      exact lookup_cons_self ..
    · have hne : key ≠ k := by
        rintro rfl
        exact (List.nodup_cons.mp hkeys).1 (List.mem_map.mpr ⟨_, hmem, rfl⟩)
      rw [lookup_cons_ne hne]
      exact ih (List.nodup_cons.mp hkeys).2 hmem

theorem map_fst_pruneMembers (members : List (String × Json)) :
    ((pruneMembers members).map Prod.fst).Sublist (members.map Prod.fst) := by
  induction members with
  | nil => exact List.Sublist.refl _
  | cons member members ih =>
    obtain ⟨k, x⟩ := member
    unfold pruneMembers
    split
    next => exact ih.cons k
    next => exact ih.cons_cons k

theorem KeysOnce.pruned {v : Json} (h : KeysOnce v) : KeysOnce (prune v) := by
  intro path left hfollow
  induction path generalizing v with
  | nil =>
    have hroot : prune v = .obj left := Option.some.inj hfollow
    cases v with
    | obj members =>
      rw [prune_obj] at hroot
      obtain rfl := Json.obj.inj hroot
      exact h.nodup.sublist (map_fst_pruneMembers members)
    | _ =>
      unfold prune at hroot
      cases hroot
  | cons key rest ih =>
    obtain ⟨y, hget, hrest⟩ := Option.bind_eq_some_iff.mp hfollow
    cases v with
    | obj members =>
      rw [prune_obj] at hget
      obtain ⟨x, hx, rfl⟩ := lookup_of_pruneMembers h.nodup hget
      have hbelow : KeysOnce x := h.below (show (Json.obj members).get key = some x from hx)
      exact ih hbelow hrest
    | _ =>
      unfold prune at hget
      cases hget

/-- What a path leads to survives the pruning if something is left of it. -/
theorem follow_prune {path : List String} {v x : Json} (h : follow path v = some x)
    (hleft : prune x ≠ .obj []) : follow path (prune v) = some (prune x) ∧ prune v ≠ .obj [] := by
  induction path generalizing v with
  | nil =>
    obtain rfl := Option.some.inj h
    exact ⟨rfl, hleft⟩
  | cons key rest ih =>
    obtain ⟨y, hget, hrest⟩ := Option.bind_eq_some_iff.mp h
    obtain ⟨members, rfl, hy⟩ := get_eq_some hget
    obtain ⟨hfollow, hne⟩ := ih hrest
    have hkept := lookup_pruneMembers hy hne
    rw [prune_obj]
    constructor
    · exact Option.bind_eq_some_iff.mpr ⟨prune y, hkept, hfollow⟩
    · intro hnil
      rw [Json.obj.inj hnil] at hkept
      cases hkept

mutual

theorem prune_of_solid : ∀ v : Json, v.solid = true → prune v = v ∧ v ≠ .obj []
  | .obj members, h => by
    unfold solid at h
    obtain ⟨hne, hmembers⟩ := Bool.and_eq_true_iff.mp h
    rw [prune_obj, pruneMembers_of_solid members hmembers]
    refine ⟨rfl, ?_⟩
    intro hnil
    rw [Json.obj.inj hnil] at hne
    cases hne
  | .null, _ => ⟨rfl, by simp⟩
  | .bool _, _ => ⟨rfl, by simp⟩
  | .num _, _ => ⟨rfl, by simp⟩
  | .str _, _ => ⟨rfl, by simp⟩
  | .arr _, _ => ⟨rfl, by simp⟩

theorem pruneMembers_of_solid : ∀ members : List (String × Json),
    solidMembers members = true → pruneMembers members = members
  | [], _ => rfl
  | (key, v) :: members, h => by
    unfold solidMembers at h
    obtain ⟨hv, hmembers⟩ := Bool.and_eq_true_iff.mp h
    obtain ⟨hsame, hne⟩ := prune_of_solid v hv
    unfold pruneMembers
    rw [pruneMembers_of_solid members hmembers, hsame]
    split
    next => exact absurd rfl hne
    next => rfl

end

end Prune

section Merge

/-- Each key of the residue is merged once: beside nothing it is added, beside something it is
merged into that. -/
theorem lookup_mergeMembers {extra : List (String × Json)} (hkeys : (extra.map Prod.fst).Nodup)
    {key : String} {x : Json} (h : extra.lookup key = some x) (target : List (String × Json)) :
    (mergeMembers extra target).lookup key =
      some (((target.lookup key).map (mergeFrom x)).getD x) := by
  induction extra generalizing target with
  | nil => cases h
  | cons member extra ih =>
    obtain ⟨other, value⟩ := member
    unfold mergeMembers
    by_cases hother : key = other
    · subst hother
      rw [lookup_cons_self] at h
      obtain rfl := Option.some.inj h
      have habsent : ∀ m ∈ extra, m.1 ≠ key := by
        rintro m hm rfl
        exact (List.nodup_cons.mp hkeys).1 (List.mem_map.mpr ⟨m, hm, rfl⟩)
      rw [lookup_mergeMembers_of_absent habsent]
      cases htarget : target.lookup key with
      | none => rw [List.lookup_append, htarget, Option.none_or, lookup_cons_self]; rfl
      | some existing => exact lookup_setMember_self ..
    · rw [lookup_cons_ne hother] at h
      rw [ih (List.nodup_cons.mp hkeys).2 h]
      split
      next => rw [lookup_setMember_ne hother]
      next => rw [lookup_append_ne hother]

/-- A value the target has room for is where the residue had it. -/
theorem follow_mergeFrom {path : List String} {extra target x : Json} (hkeys : KeysOnce extra)
    (h : follow path extra = some x) (hroom : Room path target) :
    follow path (extra.mergeFrom target) = some x := by
  induction path generalizing extra target with
  | nil => exact absurd hroom id
  | cons key rest ih =>
    obtain ⟨y, hget, hrest⟩ := Option.bind_eq_some_iff.mp h
    obtain ⟨members, rfl, hy⟩ := get_eq_some hget
    obtain ⟨tmembers, rfl, hroom⟩ := hroom
    refine Option.bind_eq_some_iff.mpr ⟨_, lookup_mergeMembers hkeys.nodup hy tmembers, ?_⟩
    cases htarget : tmembers.lookup key with
    | none => exact hrest
    | some t => exact ih (hkeys.below hget) hrest (hroom t htarget)

/-- A value of the target that is no object stays where it was. -/
theorem follow_mergeFrom_kept {path : List String} {target x : Json} (extra : Json)
    (h : follow path target = some x) (hx : ∀ members, x ≠ .obj members) :
    follow path (extra.mergeFrom target) = some x := by
  induction path generalizing extra target with
  | nil =>
    obtain rfl := Option.some.inj h
    cases target with
    | obj members => exact absurd rfl (hx members)
    | _ => cases extra <;> rfl
  | cons key rest ih =>
    obtain ⟨y, hget, hrest⟩ := Option.bind_eq_some_iff.mp h
    obtain ⟨members, rfl, hy⟩ := get_eq_some hget
    cases extra with
    | obj emembers =>
      obtain ⟨t', ht', hfollow⟩ := lookup_mergeMembers_kept
        (I := fun t => follow rest t = some x) hy hrest (fun v t _ ht => ih v ht)
      exact Option.bind_eq_some_iff.mpr ⟨t', ht', hfollow⟩
    | _ => exact h

end Merge

end Json

namespace Passthrough

/-- A path that no subtracted one meets leads, in the residue, to what it led to in the body, and
the merge puts that where the target has room for it. -/
theorem follow_capture {dialect : Dialect} {body target x : Json} {subtracted : List (List String)}
    {path : List String} (hkeys : body.KeysOnce) (h : body.follow path = some x)
    (hsolid : x.solid = true) (hapart : ∀ other ∈ subtracted, ¬ Json.Meets other path)
    (hroom : Json.Room path target) :
    ∃ extra, capture dialect body subtracted = some extra ∧
      (extra.mergeInto dialect target).follow path = some x := by
  obtain ⟨hsame, hne⟩ := Json.prune_of_solid x hsolid
  have honce := hkeys.foldl_removePath subtracted
  have hleft := (Json.follow_foldl_removePath hapart).trans h
  obtain ⟨hpruned, hnonempty⟩ := Json.follow_prune hleft (hsame.symm ▸ hne)
  rw [hsame] at hpruned
  cases path with
  | nil => exact absurd hroom id
  | cons key rest =>
    obtain ⟨y, hget, -⟩ := Option.bind_eq_some_iff.mp hpruned
    obtain ⟨members, hobj, -⟩ := Json.get_eq_some hget
    refine ⟨⟨dialect, .obj members⟩, ?_, ?_⟩
    · unfold capture
      rw [hobj] at hnonempty ⊢
      cases members with
      | nil => exact absurd rfl hnonempty
      | cons member members => rfl
    · unfold mergeInto
      rw [if_pos rfl, ← hobj]
      exact Json.follow_mergeFrom honce.pruned hpruned hroom

end Passthrough

end OpenAIGateway
