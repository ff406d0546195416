import UdevHidBpf.HidBpfAsync

/-! # No call is lost

What a `hid_bpf_async_delayed_call` leads to, whether it is accepted or refused. -/
namespace AsyncActivations

open StepRuns HidBpfAsync

def AllSucceed (s : State) (a : Action) : Prop :=
  HelpersSucceed s a ∧ ∀ args, a ≠ .enter args false

/-- A key that was handed out: in `STARTING` an activation is on its way. -/
structure Awake (s : State) : Prop where
  inUse : s.elem.state = .initialized ∨ s.elem.state = .starting ∨ s.elem.state = .running
  starting : s.elem.state = .starting → 0 < pending s

theorem Initialised.awake {s : State} (h : Initialised s) : Awake s := by
  constructor
  · exact .inl h.state
  · intro hstarting
    rw [h.state] at hstarting
    cases hstarting

theorem effect_pending_kept {s t : State} {a : Action} (h : Effect s a t)
    (hok : HelpersSucceed s a) (ha : a ≠ .writeRunning) (hp : 0 < pending s) : 0 < pending t := by
  cases h with
  | refused => exact hp
  | accepted args hst => simp [pending]
  | stored i c hid hi => simpa [pending] using hp
  | advanced i c cb hi => simpa [pending] using hp
  | failed i ret hi hr => exact absurd hok hr
  | armed i d hi => simp [pending]
  | queuedNow i hi => simp [pending]
  | fired ht hcb => simp [pending]
  | timerQueued hcb => simp [pending]
  | timerLost ret hcb hr => exact absurd hok hr
  | workStarted hq hw => simp [pending]
  | contextFound hw => simp [pending]
  | contextLost hw => exact absurd hok (by simp [HelpersSucceed])
  | runningWritten hw => exact absurd rfl ha
  | initializedWritten hw => simpa [pending, hw] using hp
  | released hw => simpa [pending, hw] using hp

theorem effect_awake {s t : State} {a : Action} (hs : Awake s) (hok : HelpersSucceed s a)
    (h : Effect s a t) : Awake t := by
  have hkept (ha : a ≠ .writeRunning) (hstarting : s.elem.state = .starting) : 0 < pending t :=
    effect_pending_kept h hok ha (hs.starting hstarting)
  rcases effect_pending h with ⟨-, hst⟩ | ⟨-, hp, hst⟩ | ⟨-, hst⟩ | ⟨-, -, hst⟩
  · refine ⟨hst ▸ hs.inUse, ?_⟩
    intro hstarting
    refine hkept ?_ (hst ▸ hstarting)
    rintro rfl
    cases h
    cases hstarting
  · refine ⟨.inr (.inl hst), ?_⟩
    intro _
    omega
  · refine ⟨.inr (.inr hst), ?_⟩
    intro hstarting
    cases hst.symm.trans hstarting
  · refine ⟨.inl hst, ?_⟩
    intro hstarting
    cases hst.symm.trans hstarting

theorem pending_of_enter {s t : State} {args : CallArgs} {found : Bool} (hs : Awake s)
    (hok : AllSucceed s (.enter args found)) (h : next s (.enter args found) = some t) :
    0 < pending t := by
  have hfound : found = true := by
    cases found with
    | true => rfl
    | false => exact absurd rfl (hok.2 args)
  subst hfound
  by_cases hst : s.elem.state = .initialized ∨ s.elem.state = .running
  · simp only [next, accepts_of_state hst] at h
    split at h
    · cases h
    · cases h
      simp [pending]
  · have hstarting : s.elem.state = .starting := by
      rcases hs.inUse with h | h | h
      · exact absurd (.inl h) hst
      · exact h
      · exact absurd (.inr h) hst
    have hrefused := refuses_starting hstarting args
    simp only [next, hrefused] at h
    split at h
    · cases h
    · cases h
      exact hs.starting hstarting

theorem pending_run {s t : State} {as : List Action} (hm : Meets AllSucceed next s as)
    (hr : run next s as = some t) (hno : Action.writeRunning ∉ as) (hp : 0 < pending s) :
    0 < pending t := by
  induction as generalizing s with
  | nil =>
    cases hr
    exact hp
  | cons a as ih =>
    obtain ⟨u, hu, hrest⟩ := run_cons_some hr
    simp only [Meets, hu] at hm
    have hne : a ≠ .writeRunning := fun h => hno (h ▸ List.mem_cons_self)
    have hkept := effect_pending_kept (next_effect hu) hm.1.1 hne hp
    exact ih hm.2 hrest (fun h => hno (List.mem_cons_of_mem _ h)) hkept

theorem Quiescent.pending_eq {s : State} (h : Quiescent s) : pending s = 0 := by
  simp [pending, h.calls, h.timer, h.timerCb, h.queued, h.worker]

def isEnter : Action → Bool
  | .enter .. => true
  | _ => false

def startsCallback : Action → Bool
  | .writeRunning => true
  | _ => false

/-- A step adds at most the activation of a call, and each start of the callback ends one. -/
theorem effect_balance {s t : State} {a : Action} (h : Effect s a t) :
    pending t + (startsCallback a).toNat ≤ pending s + (isEnter a).toNat := by
  cases h with
  | refused args found => simp [startsCallback]
  | accepted args hst =>
    simp only [pending, startsCallback, isEnter, List.length_append, List.length_singleton,
      Bool.toNat_true, Bool.toNat_false]
    omega
  | stored i c hid hi => simp [pending, startsCallback]
  | advanced i c cb hi => simp [pending, startsCallback]
  | failed i ret hi hr =>
    simp only [pending, startsCallback, List.length_eraseIdx_of_lt hi, Bool.toNat_false]
    omega
  | armed i d hi =>
    simp only [pending, startsCallback, List.length_eraseIdx_of_lt hi, Option.isSome_some,
      Bool.toNat_true, Bool.toNat_false]
    omega
  | queuedNow i hi =>
    simp only [pending, startsCallback, List.length_eraseIdx_of_lt hi, Bool.toNat_true,
      Bool.toNat_false]
    omega
  | fired ht hcb =>
    simp only [pending, startsCallback, ht, hcb, Option.isSome_none, Bool.toNat_true,
      Bool.toNat_false]
    omega
  | timerQueued hcb =>
    simp only [pending, startsCallback, hcb, Bool.toNat_true, Bool.toNat_false]
    omega
  | timerLost ret hcb hr =>
    simp only [pending, startsCallback, Bool.toNat_false]
    omega
  | workStarted hq hw => simp [pending, startsCallback, hq, hw]
  | contextFound hw => simp [pending, startsCallback, hw]
  | contextLost hw =>
    simp [pending, startsCallback, hw]
    omega
  | runningWritten hw => simp [pending, startsCallback, hw]
  | initializedWritten hw => simp [pending, startsCallback, hw]
  | released hw => simp [pending, startsCallback, hw]

theorem run_balance {s t : State} {as : List Action} (hr : run next s as = some t) :
    as.countP startsCallback + pending t ≤ pending s + as.countP isEnter := by
  induction as generalizing s with
  | nil =>
    cases hr
    simp
  | cons a as ih =>
    obtain ⟨u, hu, hrest⟩ := run_cons_some hr
    have hstep := effect_balance (next_effect hu)
    have hafter := ih hrest
    have hstart : (a :: as).countP startsCallback =
        as.countP startsCallback + (startsCallback a).toNat := by
      rw [List.countP_cons]
      cases startsCallback a <;> rfl
    have henter : (a :: as).countP isEnter = as.countP isEnter + (isEnter a).toNat := by
      rw [List.countP_cons]
      cases isEnter a <;> rfl
    omega

/-- Each call, accepted or refused, is followed by a start of the callback before the key comes
to rest, and the callback starts no more often than it was called for. -/
theorem no_call_is_lost {s t : State} {as : List Action} (hs : Initialised s)
    (hm : Meets AllSucceed next s as) (hr : run next s as = some t) :
    (∀ before args found after, as = before ++ .enter args found :: after → Quiescent t →
      .writeRunning ∈ after) ∧
    as.countP startsCallback ≤ as.countP isEnter := by
  constructor
  · intro before args found after hsplit hquiet
    subst hsplit
    obtain ⟨u, hbefore, hrest⟩ := run_append_some hr
    obtain ⟨v, henter, hafter⟩ := run_cons_some hrest
    have hmeets := meets_append hm hbefore
    simp only [Meets, henter] at hmeets
    have hawake : Awake u :=
      run_invariant (fun _ _ _ h hc hn => effect_awake h hc.1 (next_effect hn))
      (Initialised.awake hs) (meets_before hm) hbefore
    have hpending := pending_of_enter hawake hmeets.1 henter
    by_contra hno
    have hstill := pending_run hmeets.2 hafter hno hpending
    rw [Quiescent.pending_eq hquiet] at hstill
    exact absurd hstill (Nat.lt_irrefl 0)
  · have hbalance := run_balance hr
    have hnone : pending s = 0 := by
      simp [pending, hs.timer, hs.queued, hs.timerCb, hs.worker, hs.calls]
    omega

end AsyncActivations
