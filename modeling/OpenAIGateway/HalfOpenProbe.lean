import OpenAIGateway.Breakers

/-!
At most one half-open probe. The flag of a breaker says that a probe is out,
and it may be cleared only on behalf of the request that has the probe. In a
run whose outcomes are recorded that way no two probes are ever unresolved;
the outcome of another request clears the flag under the probe that is out.
-/

set_option linter.all false

namespace OpenAIGateway.Replica

variable {AccountId : Type*} {s s' : Replica AccountId}

/-- The probes unresolved after a step that grants none were unresolved before it. -/
def Settles (s s' : Replica AccountId) : Prop :=
  ∀ (i : ℕ) (f : Flight AccountId), s'.flights[i]? = some f → f.Unresolved →
    ∃ g, s.flights[i]? = some g ∧ g.account = f.account ∧ g.Unresolved

theorem Settles.one (h : Settles s s') (hs : s.OneProbe) : s'.OneProbe := by
  intro i j f g hf hg hfu hgu hacc
  obtain ⟨f', hf', hfacc, hfu'⟩ := h i f hf hfu
  obtain ⟨g', hg', hgacc, hgu'⟩ := h j g hg hgu
  exact hs i j f' g' hf' hg' hfu' hgu' (hfacc.trans (hacc.trans hgacc.symm))

/-- Replacing one flight settles probes when it adds none. -/
theorem settles_set {i : ℕ} {f g : Flight AccountId} (hf : s.flights[i]? = some f)
    (hflights : s'.flights = s.flights.set i g) (hacc : f.account = g.account)
    (hresolved : g.Unresolved → f.Unresolved) : Settles s s' := by
  intro j x hx hxu
  rw [hflights] at hx
  rcases getElem?_set_cases hx with ⟨rfl, rfl⟩ | ⟨-, hx⟩
  · exact ⟨f, hf, hacc, hresolved hxu⟩
  · exact ⟨x, hx, rfl, hxu⟩

theorem inv_new (now : ℤ) : Inv (Replica.new now : Replica AccountId) where
  one := by
    intro i j f g hf
    cases hf
  out := by
    intro i f hf
    cases hf
  unspent := by
    intro i f d hf
    cases hf

variable [DecidableEq AccountId]

theorem inv_claim {account : AccountId} (h : Inv s) (hstep : s.step (.claim account) = some s') :
    Inv s' := by
  simp only [step] at hstep
  rcases claim_cases s.breakers account s.now with
    ⟨hfree, breakers', hclaim, hout, hothers⟩ | ⟨d, breakers', hclaim, hd, hsame⟩
  · rw [hclaim] at hstep
    obtain rfl := Option.some.inj hstep
    -- No probe was out, so the one just granted is the only one of its credential.
    have hnone : ∀ (i : ℕ) (f : Flight AccountId), s.flights[i]? = some f → f.Unresolved →
        f.account ≠ account := by
      intro i f hf hfu hacc
      exact hfree (hacc ▸ h.out i f hf hfu)
    constructor
    · intro i j f g hf hg hfu hgu hacc
      rcases getElem?_concat_cases hf with hf | ⟨hi, rfl⟩ <;>
        rcases getElem?_concat_cases hg with hg | ⟨hj, rfl⟩
      · exact h.one i j f g hf hg hfu hgu hacc
      · exact absurd hacc (hnone i f hf hfu)
      · exact absurd hacc.symm (hnone j g hg hgu)
      · exact hi.trans hj.symm
    · intro i f hf hfu
      rcases getElem?_concat_cases hf with hf | ⟨-, rfl⟩
      · exact (hothers f.account (hnone i f hf hfu)).mpr (h.out i f hf hfu)
      · exact hout
    · intro i f d hf hd
      rcases getElem?_concat_cases hf with hf | ⟨-, rfl⟩
      · exact h.unspent i f d hf hd
      · obtain rfl := Option.some.inj hd
        exact ⟨rfl, fun _ => ⟨rfl, rfl, rfl⟩⟩
  · rw [hclaim] at hstep
    rcases hd with rfl | rfl
    · obtain rfl := Option.some.inj hstep
      exact ⟨h.one, fun i f hf hfu => (hsame f.account).mpr (h.out i f hf hfu), h.unspent⟩
    · obtain rfl := Option.some.inj hstep
      have hsettles : ∀ (i : ℕ) (f : Flight AccountId),
          (s.flights ++ [⟨account, false, some ⟨account, false⟩, false⟩])[i]? = some f →
          f.Unresolved → s.flights[i]? = some f := by
        intro i f hf hfu
        rcases getElem?_concat_cases hf with hf | ⟨-, rfl⟩
        · exact hf
        · cases hfu.1
      constructor
      · intro i j f g hf hg hfu hgu hacc
        exact h.one i j f g (hsettles i f hf hfu) (hsettles j g hg hgu) hfu hgu hacc
      · intro i f hf hfu
        exact (hsame f.account).mpr (h.out i f (hsettles i f hf hfu) hfu)
      · intro i f d hf hd
        rcases getElem?_concat_cases hf with hf | ⟨-, rfl⟩
        · exact h.unspent i f d hf hd
        · obtain rfl := Option.some.inj hd
          exact ⟨rfl, fun hprobe => nomatch hprobe⟩

theorem inv_sent {i : ℕ} (h : Inv s) (hstep : s.step (.sent i) = some s') : Inv s' := by
  simp only [step] at hstep
  cases hf : s.flights[i]? with
  | none => simp [hf] at hstep
  | some f =>
    cases hd : f.guard with
    | none => simp [hf, hd] at hstep
    | some d =>
      simp only [hf, hd] at hstep
      obtain rfl := Option.some.inj hstep
      have hsettles : Settles s { s with
          flights := s.flights.set i { f with guard := some d.sent } } :=
        settles_set hf rfl rfl (fun hu => ⟨hu.1, by rw [hd]; rfl, hu.2.2⟩)
      constructor
      · exact hsettles.one h.one
      · intro j x hx hxu
        obtain ⟨y, hy, hacc, hyu⟩ := hsettles j x hx hxu
        exact hacc ▸ h.out j y hy hyu
      · intro j x d' hx hd'
        rcases getElem?_set_cases hx with ⟨-, rfl⟩ | ⟨-, hx⟩
        · obtain rfl := Option.some.inj hd'
          exact ⟨(h.unspent i f d hf hd).1, fun hprobe => nomatch hprobe⟩
        · exact h.unspent j x d' hx hd'

theorem inv_drop {i : ℕ} (h : Inv s) (hstep : s.step (.drop i) = some s') : Inv s' := by
  simp only [step] at hstep
  cases hf : s.flights[i]? with
  | none => simp [hf] at hstep
  | some f =>
    cases hd : f.guard with
    | none => simp [hf, hd] at hstep
    | some d =>
      simp only [hf, hd] at hstep
      obtain rfl := Option.some.inj hstep
      obtain ⟨hacc, hunresolved⟩ := h.unspent i f d hf hd
      have hsettles : Settles s { s with
          breakers := d.drop s.breakers, flights := s.flights.set i { f with guard := none } } :=
        settles_set hf rfl rfl (fun hu => nomatch hu.2.1)
      constructor
      · exact hsettles.one h.one
      · intro j x hx hxu
        obtain ⟨y, hy, hyacc, hyu⟩ := hsettles j x hx hxu
        have hout := h.out j y hy hyu
        rw [hyacc] at hout
        show (d.drop s.breakers).ProbeOut x.account
        unfold Dispatch.drop
        by_cases hprobe : d.probe = true
        · -- The guard gives back its own probe, and another credential's stays out.
          have hne : x.account ≠ d.account := by
            intro heq
            have hij : j = i := h.one j i y f hy hf hyu (hunresolved hprobe)
              (hyacc.trans (heq.trans hacc))
            subst hij
            rcases getElem?_set_cases hx with ⟨-, rfl⟩ | ⟨hji, -⟩
            · cases hxu.2.1
            · exact hji rfl
          rw [if_pos hprobe]
          exact (probeOut_releaseProbe s.breakers hne).mpr hout
        · rw [if_neg hprobe]
          exact hout
      · intro j x d' hx hd'
        rcases getElem?_set_cases hx with ⟨-, rfl⟩ | ⟨-, hx⟩
        · cases hd'
        · exact h.unspent j x d' hx hd'

theorem inv_record {owner : Option ℕ} {account : AccountId} {success : Bool} (h : Inv s)
    (hok : s.Orderly (.record owner account success))
    (hstep : s.step (.record owner account success) = some s') : Inv s' := by
  obtain ⟨hown, hspent⟩ := hok
  cases owner with
  | none =>
    obtain rfl := Option.some.inj hstep
    refine ⟨h.one, ?_, h.unspent⟩
    intro i f hf hfu
    have hne : f.account ≠ account := fun hacc => nomatch hown i f hf hacc hfu
    exact (probeOut_recordOutcome s success hne).mpr (h.out i f hf hfu)
  | some i =>
    simp only [step] at hstep
    cases hf : s.flights[i]? with
    | none => simp [hf] at hstep
    | some f =>
      by_cases hacc : f.account = account
      · subst hacc
        simp only [hf, if_true] at hstep
        obtain rfl := Option.some.inj hstep
        have hsettles : Settles s { s with
            breakers := s.recordOutcome f.account success
            flights := s.flights.set i { f with recorded := true } } :=
          settles_set hf rfl rfl (fun hu => nomatch hu.2.2)
        constructor
        · exact hsettles.one h.one
        · intro j x hx hxu
          obtain ⟨y, hy, hyacc, hyu⟩ := hsettles j x hx hxu
          have hne : x.account ≠ f.account := by
            intro heq
            have hij : i = j := Option.some.inj (hown j y hy (hyacc.trans heq) hyu)
            subst hij
            rcases getElem?_set_cases hx with ⟨-, rfl⟩ | ⟨hji, -⟩
            · cases hxu.2.2
            · exact hji rfl
          exact (probeOut_recordOutcome s success hne).mpr (hyacc ▸ h.out j y hy hyu)
        · intro j x d hx hd
          rcases getElem?_set_cases hx with ⟨-, rfl⟩ | ⟨-, hx⟩
          · refine ⟨(h.unspent i f d hf hd).1, fun hprobe => ?_⟩
            rw [hspent i f d rfl hf hd] at hprobe
            cases hprobe
          · exact h.unspent j x d hx hd
      · simp [hf, hacc] at hstep

/-- An orderly step keeps the invariant. -/
theorem inv_step (s : Replica AccountId) (call : Call AccountId) (s' : Replica AccountId)
    (h : Inv s) (hok : s.Orderly call) (hstep : s.step call = some s') : Inv s' := by
  cases call with
  | tick now =>
    simp only [step] at hstep
    by_cases hnow : s.now ≤ now
    · rw [if_pos hnow] at hstep
      obtain rfl := Option.some.inj hstep
      exact ⟨h.one, h.out, h.unspent⟩
    · rw [if_neg hnow] at hstep
      cases hstep
  | permits account =>
    obtain rfl := Option.some.inj hstep
    exact h
  | claim account => exact inv_claim h hstep
  | sent i => exact inv_sent h hstep
  | record owner account success => exact inv_record h hok hstep
  | drop i => exact inv_drop h hstep

/-- In every state a run of orderly steps reaches, at most one request of a
credential has an unresolved probe. -/
theorem oneProbe_of_orderly (now : ℤ) (calls : List (Call AccountId)) (s : Replica AccountId)
    (horderly : Transition.AllSteps step Orderly (Replica.new now) calls)
    (hrun : Transition.run step (Replica.new now) calls = some s) : s.OneProbe :=
  (Transition.invariant_run inv_step (inv_new now) horderly hrun).one

/-- Five failures, a cooldown, and a request that is granted the probe. -/
def probingCalls : List (Call ℕ) :=
  [.record none 0 false, .record none 0 false, .record none 0 false, .record none 0 false,
    .record none 0 false, .tick 60, .permits 0, .claim 0, .sent 0]

theorem oneProbe_probing :
    ∃ s f, Transition.run step (Replica.new 0) probingCalls = some s ∧ s.flights[0]? = some f ∧
      f.Unresolved ∧ s.OneProbe := by
  refine ⟨_, _, rfl, rfl, ⟨rfl, rfl, rfl⟩, oneProbe_of_orderly 0 probingCalls _ ?_ rfl⟩
  simp [probingCalls, Transition.AllSteps, Orderly, step, Replica.new]

/-- A request that is still out when five others fail, the probe that follows,
the failure of the first request, and the claim after the cooldown it starts. -/
def stragglerCalls : List (Call ℕ) :=
  [.claim 0, .sent 0,
    .claim 0, .sent 1, .record (some 1) 0 false, .drop 1,
    .claim 0, .sent 2, .record (some 2) 0 false, .drop 2,
    .claim 0, .sent 3, .record (some 3) 0 false, .drop 3,
    .claim 0, .sent 4, .record (some 4) 0 false, .drop 4,
    .claim 0, .sent 5, .record (some 5) 0 false, .drop 5,
    .tick 60, .claim 0, .sent 6,
    .record (some 0) 0 false, .drop 0,
    .tick 120, .claim 0]

/-- The straggler's outcome clears the flag, and a second probe goes out beside the first. -/
theorem straggler_frees_probe :
    ∃ s f g, Transition.run step (Replica.new 0) stragglerCalls = some s ∧
      s.flights[6]? = some f ∧ s.flights[7]? = some g ∧ f.account = g.account ∧
      f.Unresolved ∧ g.Unresolved ∧ ¬ s.OneProbe := by
  refine ⟨_, _, _, rfl, rfl, rfl, rfl, ⟨rfl, rfl, rfl⟩, ⟨rfl, rfl, rfl⟩, ?_⟩
  intro hone
  exact absurd (hone 6 7 _ _ rfl rfl ⟨rfl, rfl, rfl⟩ ⟨rfl, rfl, rfl⟩ rfl) (by decide)

end OpenAIGateway.Replica
