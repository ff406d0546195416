import UdevHidBpf.HidBpfAsync

/-! # Handing out async contexts

The slots of `hid_bpf_async_ctx_map` under concurrent calls of `hid_bpf_async_get_ctx`,
while the keys already handed out are in use. A call makes one step for each lookup with the
lock section behind it, each helper and each store. A helper returns 0 or `-err`. -/
namespace AsyncContexts

open BpfErrors StepRuns HidBpfAsync

def ENOMEM : ℤ := 12

/-- Where a `hid_bpf_async_get_ctx` stands; `searched` is the result of
`hid_bpf_async_find_empty_key`. -/
inductive GetCtx where
  | scan (i : ℕ)
  | searched (key : ℤ)
  | timerInit (key : ℕ)
  | timerSetCallback (key : ℕ)
  | wqInit (key : ℕ)
  | writeInitialized (key : ℕ)
  | returned (ret : ℤ)
  deriving DecidableEq, Repr

def setState (state : AsyncState) (slot : State) : State :=
  { slot with elem := { slot.elem with state := state } }

/-- One step of a call; `found` is a lookup and `err` a helper. -/
def getCtxStep (slots : List State) (pc : GetCtx) (found : Bool) (err : ℕ) :
    List State × GetCtx :=
  match pc with
  | .scan i =>
    match slots[i]? with
    | none => (slots, .searched (-EINVAL))
    | some slot =>
      if ¬ found then (slots, .searched (-ENOMEM))
      else if slot.elem.state = .unset then
        (slots.modify i (setState .initializing), .searched i)
      else (slots, .scan (i + 1))
  | .searched key =>
    if key < 0 then (slots, .returned key)
    else if ¬ found then (slots, .returned (-EINVAL))
    else (slots, .timerInit key.toNat)
  | .timerInit key =>
    if err ≠ 0 then (slots, .returned (-err)) else (slots, .timerSetCallback key)
  | .timerSetCallback key =>
    if err ≠ 0 then (slots, .returned (-err)) else (slots, .wqInit key)
  | .wqInit key => if err ≠ 0 then (slots, .returned (-err)) else (slots, .writeInitialized key)
  | .writeInitialized key => (slots.modify key (setState .initialized), .returned key)
  | .returned ret => (slots, .returned ret)

structure System where
  slots : List State
  calls : List GetCtx
  deriving DecidableEq, Repr

inductive Action where
  | start
  | step (c : ℕ) (found : Bool) (err : ℕ)
  | onKey (key : ℕ) (a : HidBpfAsync.Action)
  deriving DecidableEq, Repr

def handedOut (s : System) (key : ℕ) : Bool := s.calls.any (· = .returned key)

def next (s : System) : Action → Option System
  | .start => some { s with calls := s.calls ++ [.scan 0] }
  | .step c found err =>
    match s.calls[c]? with
    | none | some (.returned _) => none
    | some pc =>
      let r := getCtxStep s.slots pc found err
      some ⟨r.1, s.calls.set c r.2⟩
  | .onKey key a =>
    if handedOut s key then
      (s.slots[key]?).bind fun slot => (HidBpfAsync.next slot a).map fun t =>
        { s with slots := s.slots.set key t }
    else none

/-- The key a call has claimed and not given up. -/
def GetCtx.key : GetCtx → Option ℕ
  | .scan _ => none
  | .searched key | .returned key => if 0 ≤ key then some key.toNat else none
  | .timerInit key | .timerSetCallback key | .wqInit key | .writeInitialized key => some key

def Owns (s : System) (c key : ℕ) : Prop := ∃ pc, s.calls[c]? = some pc ∧ pc.key = some key

def Taken (slots : List State) (key : ℕ) : Prop :=
  ∃ slot, slots[key]? = some slot ∧ slot.elem.state ≠ .unset

/-- A slot has at most one owner, and an owned slot is not allocatable. -/
structure Invariant (s : System) : Prop where
  taken : ∀ c key, Owns s c key → Taken s.slots key
  unique : ∀ c c' key, Owns s c key → Owns s c' key → c = c'

theorem next_ne_unset {slot t : State} {a : HidBpfAsync.Action}
    (h : HidBpfAsync.next slot a = some t) (hs : slot.elem.state ≠ .unset) :
    t.elem.state ≠ .unset := by
  cases next_effect h <;> first | exact hs | exact AsyncState.noConfusion

theorem taken_modify {slots : List State} {key i : ℕ} {state : AsyncState}
    (hstate : state ≠ .unset) (h : Taken slots key) :
    Taken (slots.modify i (setState state)) key := by
  obtain ⟨slot, hslot, hne⟩ := h
  by_cases hi : i = key
  · exact ⟨setState state slot, by simp [hi, hslot], hstate⟩
  · exact ⟨slot, by simp [hi, hslot], hne⟩

/-- All that a step of a call can do: claim the slot it looks at, publish its own, or leave the
slots alone. -/
inductive Effect (slots : List State) : GetCtx → Bool → List State → GetCtx → Prop where
  | claims (i : ℕ) (slot : State) (hslot : slots[i]? = some slot)
      (hunset : slot.elem.state = .unset) :
      Effect slots (.scan i) true (slots.modify i (setState .initializing)) (.searched i)
  | passes (i : ℕ) (h : Taken slots i) : Effect slots (.scan i) true slots (.scan (i + 1))
  | ends (i : ℕ) (found : Bool) (h : slots.length ≤ i) :
      Effect slots (.scan i) found slots (.searched (-EINVAL))
  | lost (i : ℕ) : Effect slots (.scan i) false slots (.searched (-ENOMEM))
  | advances (pc pc' : GetCtx) (found : Bool)
      (hpc : ∀ i, pc' ≠ .scan i ∧ ∀ key, pc' ≠ .searched key)
      (hkey : pc'.key = pc.key ∨ pc'.key = none) : Effect slots pc found slots pc'
  | publishes (key : ℕ) (found : Bool) : Effect slots (.writeInitialized key) found
      (slots.modify key (setState .initialized)) (.returned key)

theorem key_returned_neg (err : ℕ) (h : err ≠ 0) : (GetCtx.returned (-err)).key = none := by
  simp only [GetCtx.key]
  rw [if_neg]
  omega

theorem Effect.helper {slots : List State} {pc pc' : GetCtx} {found : Bool} (err : ℕ)
    (hpc : ∀ i, pc' ≠ .scan i ∧ ∀ key, pc' ≠ .searched key) (hkey : pc'.key = pc.key) :
    let r := if err ≠ 0 then (slots, .returned (-err)) else (slots, pc')
    Effect slots pc found r.1 r.2 := by
  by_cases herr : err ≠ 0
  · rw [if_pos herr]
    exact .advances _ _ _ (by simp) (.inr (key_returned_neg err herr))
  · rw [if_neg herr]
    exact .advances _ _ _ hpc (.inl hkey)

theorem getCtxStep_effect (slots : List State) (pc : GetCtx) (found : Bool) (err : ℕ) :
    Effect slots pc found (getCtxStep slots pc found err).1 (getCtxStep slots pc found err).2 := by
  cases pc with
  | scan i =>
    simp only [getCtxStep]
    cases hslot : slots[i]? with
    | none => exact .ends i found (List.getElem?_eq_none_iff.mp hslot)
    | some slot =>
      cases found with
      | false => exact .lost i
      | true =>
        by_cases hunset : slot.elem.state = .unset
        · simpa [hunset] using Effect.claims i slot hslot hunset
        · simpa [hunset] using Effect.passes i ⟨slot, hslot, hunset⟩
  | searched key =>
    simp only [getCtxStep]
    split_ifs with hneg hfound
    · exact .advances _ _ _ (by simp) (.inl rfl)
    · refine .advances _ _ _ (by simp) (.inl ?_)
      simp [GetCtx.key, Int.not_lt.mp hneg]
    · exact .advances _ _ _ (by simp) (.inr rfl)
  | timerInit key => exact .helper err (by simp) rfl
  | timerSetCallback key => exact .helper err (by simp) rfl
  | wqInit key => exact .helper err (by simp) rfl
  | writeInitialized key => exact .publishes key found
  | returned ret => exact .advances _ (.returned ret) _ (by simp) (.inl rfl)

/-- What a step of the system does to calls and slots. -/
inductive SystemEffect (s : System) : Action → System → Prop where
  | starts : SystemEffect s .start { s with calls := s.calls ++ [.scan 0] }
  | steps (c : ℕ) (pc pc' : GetCtx) (found : Bool) (err : ℕ) (slots : List State)
      (hc : s.calls[c]? = some pc) (hpc : ∀ ret, pc ≠ .returned ret)
      (h : Effect s.slots pc found slots pc') :
      SystemEffect s (.step c found err) ⟨slots, s.calls.set c pc'⟩
  | uses (key : ℕ) (a : HidBpfAsync.Action) (slot t : State) (hslot : s.slots[key]? = some slot)
      (h : HidBpfAsync.next slot a = some t) :
      SystemEffect s (.onKey key a) { s with slots := s.slots.set key t }

theorem next_systemEffect {s t : System} {a : Action} (h : next s a = some t) :
    SystemEffect s a t := by
  cases a with
  | start =>
    cases h
    exact .starts
  | step c found err =>
    simp only [next] at h
    split at h
    · cases h
    · cases h
    · rename_i pc hne hc
      cases h
      exact .steps c pc _ found err _ hc (fun ret hret => hne ret hret)
        (getCtxStep_effect s.slots pc found err)
  | onKey key a =>
    simp only [next, Option.ite_none_right_eq_some, Option.bind_eq_some_iff,
      Option.map_eq_some_iff] at h
    obtain ⟨-, slot, hslot, u, hu, rfl⟩ := h
    exact .uses key a slot u hslot hu

theorem length_slots {s t : System} {a : Action} (h : next s a = some t) :
    t.slots.length = s.slots.length := by
  cases next_systemEffect h with
  | starts => rfl
  | steps c pc pc' found err slots hc hpc he => cases he <;> simp
  | uses key a slot u hslot hu => exact List.length_set

theorem taken_next {s t : System} {a : Action} (h : next s a = some t) {key : ℕ}
    (hk : Taken s.slots key) : Taken t.slots key := by
  cases next_systemEffect h with
  | starts => exact hk
  | steps c pc pc' found err slots hc hpc he =>
    cases he with
    | claims i slot hslot hunset => exact taken_modify (by decide) hk
    | publishes key found => exact taken_modify (by decide) hk
    | passes | ends | lost | advances => exact hk
  | uses i a slot u hslot hu =>
    obtain ⟨slot', hslot', hne⟩ := hk
    by_cases hi : i = key
    · subst hi
      obtain rfl := Option.some.inj (hslot.symm.trans hslot')
      refine ⟨u, ?_, next_ne_unset hu hne⟩
      exact List.getElem?_set_self (List.getElem?_eq_some_iff.mp hslot).1
    · exact ⟨slot', by rw [List.getElem?_set_ne hi, hslot'], hne⟩

theorem call_next {s t : System} {a : Action} (h : next s a = some t) {c : ℕ} {pc : GetCtx}
    (hpc : t.calls[c]? = some pc) :
    s.calls[c]? = some pc ∨ s.calls[c]? = none ∧ pc = .scan 0 ∨
      ∃ found err pc', a = .step c found err ∧ s.calls[c]? = some pc' ∧
        Effect s.slots pc' found t.slots pc := by
  cases next_systemEffect h with
  | starts =>
    rw [List.getElem?_append] at hpc
    split at hpc
    · exact .inl hpc
    · rename_i hlen
      exact .inr (.inl ⟨List.getElem?_eq_none_iff.mpr (Nat.not_lt.mp hlen),
        List.mem_singleton.mp (List.mem_of_getElem? hpc)⟩)
  | steps c' before after found err slots hc' hreturned he =>
    by_cases hc : c' = c
    · subst hc
      rw [List.getElem?_set_self (List.getElem?_eq_some_iff.mp hc').1, Option.some.injEq] at hpc
      subst hpc
      exact .inr (.inr ⟨found, err, before, rfl, hc', he⟩)
    · rw [List.getElem?_set_ne hc] at hpc
      exact .inl hpc
  | uses key a slot u hslot hu => exact .inl hpc

/-- Ownership is only ever gained by claiming a slot that was free. -/
theorem owns_next {s t : System} {a : Action} (h : next s a = some t) {c key : ℕ}
    (ho : Owns t c key) : Owns s c key ∨
      ¬ Taken s.slots key ∧ Taken t.slots key ∧ ∃ found err, a = .step c found err := by
  obtain ⟨pc, hpc, hkey⟩ := ho
  rcases call_next h hpc with hs | ⟨-, rfl⟩ | ⟨found, err, pc', rfl, hpc', he⟩
  · exact .inl ⟨pc, hs, hkey⟩
  · cases hkey
  · obtain ⟨slots, calls⟩ := t
    cases he with
    | claims i slot hslot hunset =>
      obtain rfl : i = key := by simpa [GetCtx.key] using hkey
      refine .inr ⟨?_, ⟨setState .initializing slot, ?_, AsyncState.noConfusion⟩, true, err, rfl⟩
      · rintro ⟨slot', hslot', hne⟩
        rw [hslot, Option.some.injEq] at hslot'
        exact hne (hslot' ▸ hunset)
      · change (s.slots.modify i (setState .initializing))[i]? = _
        simp [hslot]
    | passes | ends | lost => cases hkey
    | advances _ _ _ hpc hkeys =>
      rcases hkeys with hk | hk
      · exact .inl ⟨pc', hpc', hk ▸ hkey⟩
      · cases hk.symm.trans hkey
    | publishes key' found =>
      refine .inl ⟨_, hpc', ?_⟩
      simpa [GetCtx.key] using hkey

theorem invariant_start (slots : List State) : Invariant ⟨slots, []⟩ := by
  constructor
  · rintro c key ⟨pc, hpc, -⟩
    cases hpc
  · rintro c c' key ⟨pc, hpc, -⟩
    cases hpc

theorem invariant_next {s : System} {a : Action} {t : System} (hs : Invariant s)
    (h : next s a = some t) : Invariant t := by
  constructor
  · intro c key ho
    rcases owns_next h ho with ho | ⟨-, ht, -⟩
    · exact taken_next h (hs.taken c key ho)
    · exact ht
  · intro c c' key ho ho'
    rcases owns_next h ho with hold | ⟨hfree, -, found, err, hact⟩
    · rcases owns_next h ho' with hold' | ⟨hfree', -, -⟩
      · exact hs.unique c c' key hold hold'
      · exact absurd (hs.taken c key hold) hfree'
    · rcases owns_next h ho' with hold' | ⟨-, -, found', err', hact'⟩
      · exact absurd (hs.taken c' key hold') hfree
      · rw [hact, Action.step.injEq] at hact'
        exact hact'.1

def scanned (s : System) (c : ℕ) : ℕ :=
  match s.calls[c]? with
  | some (.scan i) => i
  | some (.searched ret) => if ret = -EINVAL then s.slots.length else 0
  | _ => 0

theorem scanned_next {s t : System} {a : Action} (h : next s a = some t) {c i : ℕ}
    (hle : scanned s c ≤ i) (hlt : i < scanned t c) :
    ∃ found err, a = .step c found err ∧ s.calls[c]? = some (.scan i) ∧ Taken s.slots i := by
  cases hpc : t.calls[c]? with
  | none => simp [scanned, hpc] at hlt
  | some pc =>
    rcases call_next h hpc with hs | ⟨-, rfl⟩ | ⟨found, err, pc', rfl, hpc', he⟩
    · have hsame : scanned t c = scanned s c := by
        simp only [scanned, hpc, hs, length_slots h]
      omega
    · simp [scanned, hpc] at hlt
    · refine ⟨found, err, rfl, ?_⟩
      have hlen := length_slots h
      obtain ⟨slots, calls⟩ := t
      simp only at hpc hlen
      cases he with
      | claims j slot hslot hunset =>
        have hj : (j : ℤ) ≠ -EINVAL := by
          have hneg : -(EINVAL : ℤ) < 0 := by decide
          omega
        simp [scanned, hpc, hj] at hlt
      | passes j htaken =>
        simp only [scanned, hpc, hpc'] at hle hlt
        obtain rfl : i = j := by omega
        exact ⟨hpc', htaken⟩
      | ends j found hend =>
        simp only [scanned, hpc, hpc', if_true] at hle hlt
        omega
      | lost j => simp [scanned, hpc, ENOMEM, EINVAL] at hlt
      | advances _ _ _ hpc'' hkeys =>
        cases pc with
        | scan i => exact absurd rfl (hpc'' i).1
        | searched key => exact absurd rfl ((hpc'' 0).2 key)
        | _ => simp [scanned, hpc] at hlt
      | publishes key' found => simp [scanned, hpc] at hlt

theorem length_run {s t : System} {as : List Action} (h : run next s as = some t) :
    t.slots.length = s.slots.length :=
  run_preserves (I := fun u => u.slots.length = s.slots.length)
    (fun _ _ _ hu hnext => (length_slots hnext).trans hu) rfl h

theorem taken_run {s t : System} {as : List Action} (h : run next s as = some t) {key : ℕ}
    (hk : Taken s.slots key) : Taken t.slots key :=
  run_preserves (I := fun u => Taken u.slots key) (fun _ _ _ hu hnext => taken_next hnext hu) hk h

def VisitedTaken (s : System) (as : List Action) (c i : ℕ) : Prop :=
  ∃ before after found err u, as = before ++ .step c found err :: after ∧
    run next s before = some u ∧ u.calls[c]? = some (.scan i) ∧ Taken u.slots i

theorem visited_of_scanned {s t : System} {as : List Action} (h : run next s as = some t)
    {c i : ℕ} (hle : scanned s c ≤ i) (hlt : i < scanned t c) : VisitedTaken s as c i := by
  induction as generalizing s with
  | nil =>
    cases h
    omega
  | cons a as ih =>
    obtain ⟨u, hu, hrun⟩ := run_cons_some h
    by_cases hi : i < scanned u c
    · obtain ⟨found, err, rfl, hscan, htaken⟩ := scanned_next hu hle hi
      exact ⟨[], as, found, err, s, rfl, rfl, hscan, htaken⟩
    · obtain ⟨before, after, found, err, v, rfl, hv, hscan, htaken⟩ := ih hrun (Nat.not_lt.mp hi)
      exact ⟨a :: before, after, found, err, v, rfl, by simpa [run, hu] using hv, hscan, htaken⟩

/-- Where its lookups succeed a scan fails for want of a free slot only. -/
def ScanFails (c : ℕ) (s : System) : Prop :=
  ∀ ret < 0, s.calls[c]? = some (.searched ret) → ret = -EINVAL

theorem scanFails_next {c : ℕ} {s t : System} {a : Action} (hs : ScanFails c s)
    (ha : ∀ err, a ≠ .step c false err) (h : next s a = some t) : ScanFails c t := by
  intro ret hret hpc
  rcases call_next h hpc with hold | ⟨-, heq⟩ | ⟨found, err, pc', rfl, hpc', he⟩
  · exact hs ret hret hold
  · cases heq
  · generalize hslots : t.slots = slots at he
    generalize hkey : GetCtx.searched ret = pc at he
    cases he with
    | claims i =>
      injection hkey with hkey
      omega
    | ends => exact GetCtx.searched.inj hkey
    | lost => exact absurd rfl (ha err)
    | advances _ _ _ hpc'' => exact absurd hkey.symm ((hpc'' 0).2 ret)
    | passes | publishes => cases hkey

/-- No key is handed out twice or taken back, and only a full map is refused. -/
theorem get_ctx_hands_out_once (slots : List State) (as : List Action) (s : System)
    (hrun : run next ⟨slots, []⟩ as = some s) :
    (∀ c c' key : ℕ, s.calls[c]? = some (.returned key) → s.calls[c']? = some (.returned key) →
      c = c') ∧
    (∀ (c : ℕ) (ret : ℤ), s.calls[c]? = some (.returned ret) → 0 ≤ ret → ret < slots.length) ∧
    (∀ c key : ℕ, s.calls[c]? = some (.returned key) → ∀ (later : List Action) (t : System),
      run next s later = some t → Taken t.slots key) ∧
    ∀ (c : ℕ) (ret : ℤ), s.calls[c]? = some (.searched ret) → ret < 0 →
      (∀ err, .step c false err ∉ as) → ∀ i < slots.length, VisitedTaken ⟨slots, []⟩ as c i := by
  have hinv : Invariant s :=
    run_preserves (fun _ _ _ => invariant_next) (invariant_start slots) hrun
  have howns (c key : ℕ) (h : s.calls[c]? = some (.returned key)) : Owns s c key :=
    ⟨_, h, by simp [GetCtx.key]⟩
  refine ⟨?_, ?_, ?_, ?_⟩
  · intro c c' key h h'
    exact hinv.unique c c' key (howns c key h) (howns c' key h')
  · intro c ret h hret
    obtain ⟨key, rfl⟩ := Int.eq_ofNat_of_zero_le hret
    obtain ⟨slot, hslot, -⟩ := hinv.taken c key (howns c key h)
    rw [← length_run hrun]
    exact_mod_cast (List.getElem?_eq_some_iff.mp hslot).1
  · intro c key h later t hlater
    exact taken_run hlater (hinv.taken c key (howns c key h))
  · intro c ret h hret hfound i hi
    have hmeets : Meets (fun _ a => ∀ err, a ≠ Action.step c false err) next ⟨slots, []⟩ as := by
      apply meets_of_mem
      rintro a ha - err rfl
      exact hfound err ha
    have hfails : ScanFails c s := run_invariant (I := ScanFails c)
      (fun _ _ _ hu ha hnext => scanFails_next hu ha hnext) (fun _ _ hpc => by cases hpc)
      hmeets hrun
    obtain rfl := hfails ret hret h
    apply visited_of_scanned hrun (Nat.zero_le i)
    simpa [scanned, h, length_run hrun] using hi

def unsetSlot : State := ⟨⟨.unset, none, false, none, 0⟩, false, .idle, []⟩

def twoCalls : List Action :=
  [.start, .start, .step 0 true 0, .step 1 true 0, .step 1 true 0] ++
    (List.replicate 5 (.step 0 true 0) ++ List.replicate 5 (.step 1 true 0))

/-- The second key after a call on the first one. -/
theorem get_ctx_hands_out_once_two_calls : ∃ s t,
    run next ⟨[unsetSlot, unsetSlot], []⟩ twoCalls = some s ∧
      run next s [.onKey 0 (.enter ⟨.event, 1, 10, none⟩ true)] = some t ∧ Taken t.slots 1 := by
  have hrun : run next ⟨[unsetSlot, unsetSlot], []⟩ twoCalls =
      some ⟨[setState .initialized unsetSlot, setState .initialized unsetSlot],
        [.returned 0, .returned 1]⟩ := by decide
  refine ⟨_, _, hrun, rfl, ?_⟩
  exact (get_ctx_hands_out_once _ _ _ hrun).2.2.1 1 1 rfl
    [.onKey 0 (.enter ⟨.event, 1, 10, none⟩ true)] _ rfl

end AsyncContexts
