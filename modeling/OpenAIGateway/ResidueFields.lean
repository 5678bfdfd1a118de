import OpenAIGateway.ResiduePaths

/-!
The residue field by field, a field being a value that is no object with members
of its own. The residue has the fields of the body that are under no subtracted
path, but for the objects that came empty: they are pruned with those that the
subtraction emptied. A merged body reads as the residue where the target has
room, and as the target everywhere else.
-/

set_option linter.all false

namespace OpenAIGateway

namespace Json

/-- No object with members. -/
def IsField (v : Json) : Prop := ∀ m members, v ≠ .obj (m :: members)

/-- The path begins with the path of names, each key in a spelling of its name. -/
def Under : List String → List String → Prop
  | [name], key :: _ => Spells name key
  | name :: names, key :: keys => Spells name key ∧ Under names keys
  | _, _ => False

/-- The value, with the members of an object left out. -/
def outline : Json → Json
  | .obj _ => .obj []
  | v => v

section Subtract

theorem removePath_eq_iff (other : List String) {v x : Json} (hx : ∀ members, x ≠ .obj members) :
    removePath other v = x ↔ v = x := by
  cases v with
  | obj members =>
    obtain ⟨left, hleft, -⟩ := members_removePath other members
    rw [hleft]
    exact iff_of_false (Ne.symm (hx left)) (Ne.symm (hx members))
  | _ => rw [removePath_of_ne_obj other (by simp)]

/-- A value that is no object is left where it was, unless its path was subtracted. -/
theorem follow_removePath_iff {other path : List String} {v x : Json}
    (hx : ∀ members, x ≠ .obj members) :
    follow path (removePath other v) = some x ↔ follow path v = some x ∧ ¬ Under other path := by
  induction path generalizing other v with
  | nil =>
    have hunder : ¬ Under other [] := by
      unfold Under
      split <;> simp_all
    change some (removePath other v) = some x ↔ some v = some x ∧ _
    rw [Option.some.injEq, Option.some.injEq, removePath_eq_iff other hx]
    exact (and_iff_left hunder).symm
  | cons key rest ih =>
    change ((removePath other v).get key).bind (follow rest) = some x ↔
      (v.get key).bind (follow rest) = some x ∧ _
    match other with
    | [] =>
      rw [removePath_nil]
      exact (and_iff_left id).symm
    | [name] =>
      change _ ↔ _ ∧ ¬ Spells name key
      rw [get_removePath_last]
      by_cases hspells : Spells name key
      · rw [if_pos hspells]
        exact iff_of_false nofun (fun h => h.2 hspells)
      · rw [if_neg hspells]
        exact (and_iff_left hspells).symm
    | head :: next :: names =>
      change _ ↔ _ ∧ ¬ (Spells head key ∧ Under (next :: names) rest)
      rw [get_removePath_cons]
      by_cases hspells : Spells head key
      · rw [if_pos hspells, and_iff_right hspells]
        cases hget : v.get key with
        | none => exact iff_of_false nofun (fun h => nomatch h.1)
        | some y => exact ih
      · rw [if_neg hspells]
        exact (and_iff_left (fun h => hspells h.1)).symm

theorem follow_foldl_removePath_iff {paths : List (List String)} {path : List String} {v x : Json}
    (hx : ∀ members, x ≠ .obj members) :
    follow path (paths.foldl (fun v path => v.removePath path) v) = some x ↔
      follow path v = some x ∧ ∀ other ∈ paths, ¬ Under other path := by
  induction paths generalizing v with
  | nil => exact (and_iff_left nofun).symm
  | cons first paths ih =>
    change follow path (paths.foldl _ (removePath first v)) = some x ↔ _
    rw [ih, follow_removePath_iff hx, List.forall_mem_cons, and_assoc]

end Subtract

section Prune

theorem prune_eq_iff {v x : Json} (hx : ∀ members, x ≠ .obj members) : prune v = x ↔ v = x := by
  cases v with
  | obj members =>
    rw [prune_obj]
    exact iff_of_false (Ne.symm (hx _)) (Ne.symm (hx members))
  | _ => exact Iff.rfl

/-- Pruning neither moves nor drops a value that is no object. -/
theorem follow_prune_iff {path : List String} {v x : Json} (hkeys : KeysOnce v)
    (hx : ∀ members, x ≠ .obj members) :
    follow path (prune v) = some x ↔ follow path v = some x := by
  have hsame : prune x = x := (prune_eq_iff hx).mpr rfl
  constructor
  · intro h
    induction path generalizing v with
    | nil => exact congrArg some ((prune_eq_iff hx).mp (Option.some.inj h))
    | cons key rest ih =>
      obtain ⟨y, hget, hrest⟩ := Option.bind_eq_some_iff.mp h
      cases v with
      | obj members =>
        rw [prune_obj] at hget
        obtain ⟨z, hz, rfl⟩ := lookup_of_pruneMembers hkeys.nodup hget
        exact Option.bind_eq_some_iff.mpr ⟨z, hz, ih (hkeys.below hz) hrest⟩
      | _ => cases hget
  · intro h
    obtain ⟨hfollow, -⟩ := follow_prune h (by rw [hsame]; exact hx [])
    rw [hfollow, hsame]

theorem ne_empty_of_mem_pruneMembers {members : List (String × Json)} {m : String × Json}
    (h : m ∈ pruneMembers members) : m.2 ≠ .obj [] := by
  induction members with
  | nil => cases h
  | cons member members ih =>
    obtain ⟨key, v⟩ := member
    unfold pruneMembers at h
    split at h
    next => exact ih h
    next pruned hpruned =>
      rcases List.mem_cons.mp h with rfl | hm
      · exact hpruned
      · exact ih hm

/-- No object is empty after the pruning, except the whole. -/
theorem follow_prune_ne_empty {path : List String} {v : Json} (hkeys : KeysOnce v)
    (hne : path ≠ []) : follow path (prune v) ≠ some (.obj []) := by
  induction path generalizing v with
  | nil => exact absurd rfl hne
  | cons key rest ih =>
    intro h
    obtain ⟨y, hget, hrest⟩ := Option.bind_eq_some_iff.mp h
    cases v with
    | obj members =>
      rw [prune_obj] at hget
      cases rest with
      | nil =>
        obtain rfl := Option.some.inj hrest
        exact ne_empty_of_mem_pruneMembers (mem_of_lookup hget) rfl
      | cons next rest =>
        obtain ⟨z, hz, rfl⟩ := lookup_of_pruneMembers hkeys.nodup hget
        exact ih (hkeys.below hz) (List.cons_ne_nil next rest) hrest
    | _ => cases hget

theorem follow_ne_empty_of_solid {path : List String} {v : Json} (hkeys : KeysOnce v)
    (hsolid : v.solid = true) (hne : path ≠ []) : follow path v ≠ some (.obj []) := by
  rw [← (prune_of_solid v hsolid).1]
  exact follow_prune_ne_empty hkeys hne

end Prune

section Merge

theorem ne_of_lookup_eq_none {members : List (String × Json)} {key : String}
    (h : members.lookup key = none) : ∀ m ∈ members, m.1 ≠ key := by
  rintro m hm rfl
  have hne := List.lookup_eq_none_iff.mp h m hm
  simp at hne

theorem follow_of_room {path : List String} {v : Json} (h : Room path v) : follow path v = none := by
  induction path generalizing v with
  | nil => exact absurd h id
  | cons key rest ih =>
    obtain ⟨members, rfl, hroom⟩ := h
    change (members.lookup key).bind (follow rest) = none
    cases hlookup : members.lookup key with
    | none => rfl
    | some t => exact ih (hroom t hlookup)

/-- Where the target has room the merged value reads as the residue. -/
theorem follow_mergeFrom_of_room {path : List String} {extra target : Json}
    (hkeys : KeysOnce extra) (hroom : Room path target) :
    follow path (extra.mergeFrom target) = follow path extra := by
  induction path generalizing extra target with
  | nil => exact absurd hroom id
  | cons key rest ih =>
    have habsent := follow_of_room hroom
    obtain ⟨tmembers, rfl, hroom⟩ := hroom
    cases extra with
    | obj members =>
      change ((mergeMembers members tmembers).lookup key).bind (follow rest) =
        (members.lookup key).bind (follow rest)
      cases hx : members.lookup key with
      | none =>
        rw [lookup_mergeMembers_of_absent (ne_of_lookup_eq_none hx)]
        exact habsent
      | some x =>
        rw [lookup_mergeMembers hkeys.nodup hx]
        cases ht : tmembers.lookup key with
        | none => rfl
        | some t => exact ih (hkeys.below hx) (hroom t ht)
    | _ => exact habsent

/-- Elsewhere it reads as the target, though its objects may have members more. -/
theorem follow_mergeFrom_of_not_room {path : List String} {extra target : Json}
    (hkeys : KeysOnce extra) (hroom : ¬ Room path target) :
    (follow path (extra.mergeFrom target)).map outline = (follow path target).map outline := by
  induction path generalizing extra target with
  | nil => cases target <;> cases extra <;> rfl
  | cons key rest ih =>
    cases target with
    | obj tmembers =>
      obtain ⟨t, ht, hbelow⟩ : ∃ t, tmembers.lookup key = some t ∧ ¬ Room rest t := by
        by_contra hnone
        refine hroom ⟨tmembers, rfl, ?_⟩
        intro t ht
        by_contra hbelow
        exact hnone ⟨t, ht, hbelow⟩
      cases extra with
      | obj members =>
        change (((mergeMembers members tmembers).lookup key).bind (follow rest)).map outline =
          ((tmembers.lookup key).bind (follow rest)).map outline
        cases hx : members.lookup key with
        | none => rw [lookup_mergeMembers_of_absent (ne_of_lookup_eq_none hx)]
        | some x =>
          rw [lookup_mergeMembers hkeys.nodup hx, ht]
          exact ih (hkeys.below hx) hbelow
      | _ => rfl
    | _ => cases extra <;> rfl

end Merge

/-- Where the target has room the merged value reads as the residue. Everywhere else it reads as
the target: a value that is no object is the same, and an object is still one. -/
structure OnlyAdds (extra target merged : Json) : Prop where
  added : ∀ path, Room path target → merged.follow path = extra.follow path
  kept : ∀ path, ¬ Room path target →
    (merged.follow path).map outline = (target.follow path).map outline

end Json

namespace Passthrough

/-- The residue has the fields of the body that are under no subtracted path, each as it was, and
no others. -/
def KeepsTheRest (body : Json) (subtracted : List (List String))
    (residue : Option Passthrough) : Prop :=
  ∀ path x, path ≠ [] → Json.IsField x →
    (residue.bind (fun extra => extra.body.follow path) = some x ↔
      body.follow path = some x ∧ ∀ other ∈ subtracted, ¬ Json.Under other path)

/-- What the body holds when the paths are out of it and it is pruned. -/
theorem follow_capture_eq (dialect : Dialect) (body : Json) (subtracted : List (List String))
    {path : List String} (hne : path ≠ []) :
    (capture dialect body subtracted).bind (fun extra => extra.body.follow path) =
      (subtracted.foldl (fun v path => v.removePath path) body).prune.follow path := by
  unfold capture
  split
  next member members hresidue => rw [hresidue, Option.bind_some]
  next hnone =>
    obtain ⟨key, rest, rfl⟩ := List.exists_cons_of_ne_nil hne
    generalize (subtracted.foldl (fun v path => v.removePath path) body).prune = residue at hnone
    cases residue with
    | obj members =>
      cases members with
      | nil => rfl
      | cons member members => exact absurd rfl (hnone member members)
    | _ => rfl

/-- Every field but an empty object is kept just when no subtracted path is above it. -/
theorem follow_capture_iff {body : Json} (hkeys : body.KeysOnce) (dialect : Dialect)
    (subtracted : List (List String)) {path : List String} (hne : path ≠ []) {x : Json}
    (hx : ∀ members, x ≠ .obj members) :
    (capture dialect body subtracted).bind (fun extra => extra.body.follow path) = some x ↔
      body.follow path = some x ∧ ∀ other ∈ subtracted, ¬ Json.Under other path := by
  rw [follow_capture_eq dialect body subtracted hne,
    Json.follow_prune_iff (hkeys.foldl_removePath subtracted) hx,
    Json.follow_foldl_removePath_iff hx]

/-- No empty object is kept, whoever emptied it. -/
theorem follow_capture_ne_empty {body : Json} (hkeys : body.KeysOnce) (dialect : Dialect)
    (subtracted : List (List String)) {path : List String} (hne : path ≠ []) :
    (capture dialect body subtracted).bind (fun extra => extra.body.follow path) ≠
      some (.obj []) := by
  rw [follow_capture_eq dialect body subtracted hne]
  exact Json.follow_prune_ne_empty (hkeys.foldl_removePath subtracted) hne

theorem keepsTheRest_capture_iff {body : Json} (hkeys : body.KeysOnce) (dialect : Dialect)
    (subtracted : List (List String)) :
    KeepsTheRest body subtracted (capture dialect body subtracted) ↔
      ∀ path, path ≠ [] → body.follow path = some (.obj []) →
        ∃ other ∈ subtracted, Json.Under other path := by
  constructor
  · intro hkeeps path hne hempty
    by_contra hnone
    have hfield : Json.IsField (.obj []) := nofun
    have hkept := (hkeeps path (.obj []) hne hfield).mpr
      ⟨hempty, fun other hother hunder => hnone ⟨other, hother, hunder⟩⟩
    exact follow_capture_ne_empty hkeys dialect subtracted hne hkept
  · intro hcovered path x hne hfield
    by_cases hx : x = .obj []
    · subst hx
      refine iff_of_false (follow_capture_ne_empty hkeys dialect subtracted hne) ?_
      rintro ⟨hempty, hapart⟩
      obtain ⟨other, hother, hunder⟩ := hcovered path hne hempty
      exact hapart other hother hunder
    · refine follow_capture_iff hkeys dialect subtracted hne ?_
      rintro (_ | ⟨m, members⟩) rfl
      · exact hx rfl
      · exact hfield m members rfl

theorem keysOnce_capture {dialect : Dialect} {body : Json} (hkeys : body.KeysOnce)
    {subtracted : List (List String)} {extra : Passthrough}
    (h : capture dialect body subtracted = some extra) :
    extra.dialect = dialect ∧ extra.body.KeysOnce := by
  have honce := (hkeys.foldl_removePath subtracted).pruned
  unfold capture at h
  split at h
  next member members hresidue =>
    obtain rfl := Option.some.inj h
    rw [hresidue] at honce
    exact ⟨rfl, honce⟩
  next => cases h

theorem onlyAdds_mergeInto {extra : Passthrough} (hkeys : extra.body.KeysOnce) (target : Json) :
    Json.OnlyAdds extra.body target (extra.mergeInto extra.dialect target) := by
  unfold mergeInto
  rw [if_pos rfl]
  exact ⟨fun _ => Json.follow_mergeFrom_of_room hkeys,
    fun _ => Json.follow_mergeFrom_of_not_room hkeys⟩

/-- The residue is the rest of the body just when each object that came empty is under a
subtracted path; the merge overrides nothing in any case, and is for its own dialect only. -/
theorem lossless_iff {body : Json} (hkeys : body.KeysOnce) (dialect : Dialect)
    (subtracted : List (List String)) :
    (KeepsTheRest body subtracted (capture dialect body subtracted) ∧
      ∀ extra, capture dialect body subtracted = some extra → ∀ target,
        Json.OnlyAdds extra.body target (extra.mergeInto dialect target) ∧
        ∀ other, other ≠ dialect → extra.mergeInto other target = target) ↔
      ∀ path, path ≠ [] → body.follow path = some (.obj []) →
        ∃ other ∈ subtracted, Json.Under other path := by
  rw [← keepsTheRest_capture_iff hkeys dialect subtracted, and_iff_left_iff_imp]
  intro _ extra hcapture target
  obtain ⟨rfl, honce⟩ := keysOnce_capture hkeys hcapture
  refine ⟨onlyAdds_mergeInto honce target, ?_⟩
  intro other hother
  exact if_neg (Ne.symm hother)

/-- A body with a setting beside one that the parser reads. -/
def withSpeech (speech : Json) : Json :=
  .obj [("contents", .arr []),
    ("generationConfig", .obj [("temperature", .nat 1), ("speechConfig", speech)])]

theorem keysOnce_withSpeech {speech : Json} (h : speech.KeysOnce) : (withSpeech speech).KeysOnce := by
  have hconfig : (Json.obj [("temperature", .nat 1), ("speechConfig", speech)]).KeysOnce :=
    .cons (by simp) (Json.keysOnce_of_ne_obj nofun) (.cons (by simp) h Json.keysOnce_nil)
  exact .cons (by simp) (Json.keysOnce_of_ne_obj nofun) (.cons (by simp) hconfig Json.keysOnce_nil)

theorem lossless_withSpeech :
    KeepsTheRest (withSpeech (.obj [("languageCode", .str "de")]))
      [["contents"], ["generationConfig", "temperature"]]
      (some ⟨.geminiGenerateContent,
        .obj [("generationConfig", .obj [("speechConfig", .obj [("languageCode", .str "de")])])]⟩) := by
  have hspeech : (Json.obj [("languageCode", .str "de")]).KeysOnce :=
    .cons (by simp) (Json.keysOnce_of_ne_obj nofun) Json.keysOnce_nil
  have hkeys := keysOnce_withSpeech hspeech
  have hkeeps := ((lossless_iff hkeys .geminiGenerateContent
    [["contents"], ["generationConfig", "temperature"]]).mpr ?_).1
  · exact hkeeps
  · intro path hne hempty
    exact absurd hempty (Json.follow_ne_empty_of_solid hkeys rfl hne)

/-- A setting that came empty is dropped with what the subtraction emptied. -/
theorem empty_setting_is_lost :
    ¬ KeepsTheRest (withSpeech (.obj [])) [["contents"], ["generationConfig", "temperature"]]
      (capture .geminiGenerateContent (withSpeech (.obj []))
        [["contents"], ["generationConfig", "temperature"]]) := by
  have hkeys : (withSpeech (.obj [])).KeysOnce :=
    keysOnce_withSpeech Json.keysOnce_nil
  rw [keepsTheRest_capture_iff hkeys]
  intro hcovered
  obtain ⟨other, hother, hunder⟩ :=
    hcovered ["generationConfig", "speechConfig"] (List.cons_ne_nil _ _) rfl
  rcases List.mem_cons.mp hother with rfl | hother
  · have hspells : Spells "contents" "generationConfig" := hunder
    exact absurd hspells (by decide)
  · obtain rfl := List.mem_singleton.mp hother
    have hspells : Spells "temperature" "speechConfig" := hunder.2
    exact absurd hspells (by decide)

end Passthrough

end OpenAIGateway
