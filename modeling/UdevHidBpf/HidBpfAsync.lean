import Mathlib.Tactic.NormNum
import UdevHidBpf.BpfErrors
import UdevHidBpf.StepRuns

/-! # The life of one async key

One element of `hid_bpf_async_ctx_map` under concurrent `hid_bpf_async_delayed_call`s,
its timer and its work item. Each lock section, each store to the element and each
helper call is one step, and the scheduler picks any enabled step. A helper returns
0 or any error; the kernel's timer and work queue are the two fields of `Elem`. -/
namespace HidBpfAsync

open BpfErrors StepRuns

inductive AsyncState where
  | unset
  | initializing
  | initialized
  | starting
  | running
  deriving DecidableEq, Repr

/-- `struct hid_bpf_async_map_elem`. An armed timer holds its delay in nanoseconds,
`queued` is a work item that the work queue has not started yet. -/
structure Elem where
  state : AsyncState
  timer : Option ℕ
  queued : Bool
  wqCallback : Option ℕ
  hid : ℕ
  deriving DecidableEq, Repr

def msToNs (milliseconds : ℕ) : ℕ := milliseconds * 1000 * 1000 % 2 ^ 64

/-- Where a `hid_bpf_async_delayed_call` stands once its lock section accepted it. -/
inductive Pc where
  | storeHid
  | wqSetCallback
  | timerSetCallback
  | timerStart
  | wqStart
  deriving DecidableEq, Repr

/-- A call comes from a device event or, re-entrantly, from the key's own callback. -/
inductive Caller where
  | event
  | callback
  deriving DecidableEq, Repr

structure CallArgs where
  caller : Caller
  hid : ℕ
  milliseconds : ℕ
  wqCb : Option ℕ
  deriving DecidableEq, Repr

structure Call where
  args : CallArgs
  pc : Pc
  deriving DecidableEq, Repr

inductive Progress where
  | continues (c : Call)
  | returns (ret : ℤ)
  deriving DecidableEq, Repr

/-- The lock section of `hid_bpf_async_delayed_call`. -/
def delayedCallEnter (e : Elem) (args : CallArgs) : Elem × Progress :=
  if e.state ≠ .initialized ∧ e.state ≠ .running then (e, .returns (-EINVAL))
  else ({ e with state := .starting }, .continues ⟨args, .storeHid⟩)

def CallArgs.startPc (args : CallArgs) : Pc :=
  if args.milliseconds ≠ 0 then .timerSetCallback else .wqStart

/-- The rest of `hid_bpf_async_delayed_call`, one store or helper at a time; `ret` is
what the helper returns. No exit after the lock section restores the state. -/
def delayedCallStep (e : Elem) (c : Call) (ret : ℤ) : Elem × Progress :=
  match c.pc with
  | .storeHid =>
    ({ e with hid := c.args.hid },
      .continues { c with pc := if c.args.wqCb.isSome then .wqSetCallback else c.args.startPc })
  | .wqSetCallback =>
    if ret ≠ 0 then (e, .returns ret)
    else ({ e with wqCallback := c.args.wqCb }, .continues { c with pc := c.args.startPc })
  | .timerSetCallback =>
    if ret ≠ 0 then (e, .returns ret) else (e, .continues { c with pc := .timerStart })
  | .timerStart =>
    if ret ≠ 0 then (e, .returns ret)
    else ({ e with timer := some (msToNs c.args.milliseconds) }, .returns 0)
  | .wqStart =>
    if ret ≠ 0 then (e, .returns ret) else ({ e with queued := true }, .returns 0)

/-- Where the work item (`HID_BPF_ASYNC_CB`) stands. -/
inductive Worker where
  | idle
  | started
  | allocated
  | body
  | written
  deriving DecidableEq, Repr

structure State where
  elem : Elem
  /-- `__start_wq_timer_cb` was entered and has not issued its `bpf_wq_start`. -/
  timerCb : Bool
  worker : Worker
  calls : List Call
  deriving DecidableEq, Repr

inductive Action where
  /-- `hid_bpf_async_delayed_call` up to its lock section; `found` is the map lookup. -/
  | enter (args : CallArgs) (found : Bool)
  | storeHid (i : ℕ)
  | helper (i : ℕ) (ret : ℤ)
  | timerFires
  | timerWqStart (ret : ℤ)
  | workStarts
  | allocateContext (ok : Bool)
  | writeRunning
  | writeInitialized
  | releaseContext
  deriving DecidableEq, Repr

/-- The callback's body issues its calls one after the other. -/
def mayEnter (s : State) : Caller → Bool
  | .event => true
  | .callback => s.worker = .body ∧ ∀ c ∈ s.calls, c.args.caller ≠ .callback

def putBack (s : State) (i : ℕ) : Elem × Progress → State
  | (e, .continues c) => { s with elem := e, calls := s.calls.set i c }
  | (e, .returns _) => { s with elem := e, calls := s.calls.eraseIdx i }

def next (s : State) : Action → Option State
  | .enter args found =>
    if ¬ mayEnter s args.caller then none
    else if ¬ found then some s
    else match delayedCallEnter s.elem args with
      | (e, .continues c) => some { s with elem := e, calls := s.calls ++ [c] }
      | (e, .returns _) => some { s with elem := e }
  | .storeHid i =>
    match s.calls[i]? with
    | some c => if c.pc = .storeHid then some (putBack s i (delayedCallStep s.elem c 0)) else none
    | none => none
  | .helper i ret =>
    match s.calls[i]? with
    | some c => if c.pc ≠ .storeHid then some (putBack s i (delayedCallStep s.elem c ret)) else none
    | none => none
  | .timerFires =>
    if s.elem.timer.isSome ∧ s.timerCb = false then
      some { s with elem := { s.elem with timer := none }, timerCb := true }
    else none
  | .timerWqStart ret =>
    if s.timerCb then
      some { s with
        timerCb := false
        elem := if ret ≠ 0 then s.elem else { s.elem with queued := true } }
    else none
  | .workStarts =>
    if s.elem.queued ∧ s.worker = .idle then
      some { s with elem := { s.elem with queued := false }, worker := .started }
    else none
  | .allocateContext ok =>
    if s.worker = .started then some { s with worker := if ok then .allocated else .idle }
    else none
  | .writeRunning =>
    if s.worker = .allocated then
      some { s with elem := { s.elem with state := .running }, worker := .body }
    else none
  | .writeInitialized =>
    if s.worker = .body ∧ ∀ c ∈ s.calls, c.args.caller ≠ .callback then
      some { s with elem := { s.elem with state := .initialized }, worker := .written }
    else none
  | .releaseContext => if s.worker = .written then some { s with worker := .idle } else none

/-- What the `hid_bpf_async_delayed_call` that ends with this step returns. -/
def returned (s : State) : Action → Option ℤ
  | .enter args found =>
    if ¬ mayEnter s args.caller then none
    else if ¬ found then some (-EINVAL)
    else match delayedCallEnter s.elem args with
      | (_, .continues _) => none
      | (_, .returns ret) => some ret
  | .helper i ret =>
    match s.calls[i]? with
    | some c =>
      if c.pc = .storeHid then none
      else match delayedCallStep s.elem c ret with
        | (_, .continues _) => none
        | (_, .returns r) => some r
    | none => none
  | _ => none

/-- A key as `hid_bpf_async_get_ctx` hands it out. -/
structure Initialised (s : State) : Prop where
  state : s.elem.state = .initialized
  timer : s.elem.timer = none
  queued : s.elem.queued = false
  timerCb : s.timerCb = false
  worker : s.worker = .idle
  calls : s.calls = []

def freshKey : State := ⟨⟨.initialized, none, false, none, 0⟩, false, .idle, []⟩

theorem freshKey_initialised : Initialised freshKey := ⟨rfl, rfl, rfl, rfl, rfl, rfl⟩

/-- An accepted call waits in the timer or in the work queue. -/
def Outstanding (s : State) : Prop := s.elem.timer.isSome = true ∨ s.elem.queued = true

/-- Whoever calls `hid_bpf_async_delayed_call` now gets `-EINVAL` and changes nothing. -/
def Refuses (e : Elem) : Prop :=
  ∀ args, delayedCallEnter e args = (e, .returns (-EINVAL))

instance (s : State) : Decidable (Outstanding s) := inferInstanceAs (Decidable (_ ∨ _))

theorem refuses_starting {e : Elem} (h : e.state = .starting) : Refuses e := by
  intro args
  simp [delayedCallEnter, h]

theorem accepts_of_state {e : Elem} (h : e.state = .initialized ∨ e.state = .running)
    (args : CallArgs) :
    delayedCallEnter e args = ({ e with state := .starting }, .continues ⟨args, .storeHid⟩) := by
  rcases h with h | h <;> simp [delayedCallEnter, h]

/-- All that a step can do to a key, with the guards later proofs need. -/
inductive Effect (s : State) : Action → State → Prop where
  | refused (args : CallArgs) (found : Bool) : Effect s (.enter args found) s
  | accepted (args : CallArgs) (h : s.elem.state = .initialized ∨ s.elem.state = .running) :
      Effect s (.enter args true)
        { s with elem := { s.elem with state := .starting }, calls := s.calls ++ [⟨args, .storeHid⟩] }
  | stored (i : ℕ) (c : Call) (hid : ℕ) (hi : i < s.calls.length) :
      Effect s (.storeHid i) { s with elem := { s.elem with hid := hid }, calls := s.calls.set i c }
  | advanced (i : ℕ) (c : Call) (cb : Option ℕ) (hi : i < s.calls.length) :
      Effect s (.helper i 0)
        { s with elem := { s.elem with wqCallback := cb }, calls := s.calls.set i c }
  | failed (i : ℕ) (ret : ℤ) (hi : i < s.calls.length) (hr : ret ≠ 0) :
      Effect s (.helper i ret) { s with calls := s.calls.eraseIdx i }
  | armed (i d : ℕ) (hi : i < s.calls.length) :
      Effect s (.helper i 0)
        { s with elem := { s.elem with timer := some d }, calls := s.calls.eraseIdx i }
  | queuedNow (i : ℕ) (hi : i < s.calls.length) :
      Effect s (.helper i 0)
        { s with elem := { s.elem with queued := true }, calls := s.calls.eraseIdx i }
  | fired (h : s.elem.timer.isSome = true) (hc : s.timerCb = false) :
      Effect s .timerFires { s with elem := { s.elem with timer := none }, timerCb := true }
  | timerQueued (h : s.timerCb = true) :
      Effect s (.timerWqStart 0)
        { s with timerCb := false, elem := { s.elem with queued := true } }
  | timerLost (ret : ℤ) (h : s.timerCb = true) (hr : ret ≠ 0) :
      Effect s (.timerWqStart ret) { s with timerCb := false }
  | workStarted (h : s.elem.queued = true) (hw : s.worker = .idle) :
      Effect s .workStarts { s with elem := { s.elem with queued := false }, worker := .started }
  | contextFound (h : s.worker = .started) :
      Effect s (.allocateContext true) { s with worker := .allocated }
  | contextLost (h : s.worker = .started) :
      Effect s (.allocateContext false) { s with worker := .idle }
  | runningWritten (h : s.worker = .allocated) :
      Effect s .writeRunning { s with elem := { s.elem with state := .running }, worker := .body }
  | initializedWritten (h : s.worker = .body) :
      Effect s .writeInitialized
        { s with elem := { s.elem with state := .initialized }, worker := .written }
  | released (h : s.worker = .written) : Effect s .releaseContext { s with worker := .idle }

private theorem helper_effect (s : State) (i : ℕ) (c : Call) (ret : ℤ)
    (hi : i < s.calls.length) (hp : c.pc ≠ .storeHid) :
    Effect s (.helper i ret) (putBack s i (delayedCallStep s.elem c ret)) := by
  obtain ⟨args, pc⟩ := c
  by_cases hr : ret = 0
  · subst hr
    cases pc with
    | storeHid => exact absurd rfl hp
    | wqSetCallback => exact .advanced i _ args.wqCb hi
    | timerSetCallback => exact .advanced i _ s.elem.wqCallback hi
    | timerStart => exact .armed i _ hi
    | wqStart => exact .queuedNow i hi
  · have hf : delayedCallStep s.elem ⟨args, pc⟩ ret = (s.elem, .returns ret) := by
      cases pc <;> first | exact absurd rfl hp | simp [delayedCallStep, hr]
    rw [hf]
    exact .failed i ret hi hr

/-- Every later invariant is a case analysis of this lemma. -/
theorem next_effect {s t : State} {a : Action} (h : next s a = some t) : Effect s a t := by
  cases a with
  | enter args found =>
    simp only [next] at h
    split at h
    · cases h
    split at h
    · cases h; exact .refused args found
    rename_i hf
    · by_cases hs : s.elem.state = .initialized ∨ s.elem.state = .running
      · rw [accepts_of_state hs] at h
        cases h
        have hf : found = true := by simpa using hf
        exact hf ▸ .accepted args hs
      · have he : delayedCallEnter s.elem args = (s.elem, .returns (-EINVAL)) := by
          simpa [delayedCallEnter] using hs
        rw [he] at h
        cases h
        exact .refused args found
  | storeHid i =>
    simp only [next] at h
    split at h
    · rename_i c hc
      split at h
      · rename_i hp
        cases h
        simpa [putBack, delayedCallStep, hp] using
          Effect.stored i _ c.args.hid (List.getElem?_eq_some_iff.mp hc).1
      · cases h
    · cases h
  | helper i ret =>
    simp only [next] at h
    split at h
    · rename_i c hc
      split at h
      · rename_i hp
        cases h
        exact helper_effect s i c ret (List.getElem?_eq_some_iff.mp hc).1 hp
      · cases h
    · cases h
  | timerFires =>
    simp only [next, Option.ite_none_right_eq_some] at h
    obtain ⟨hg, h⟩ := h
    cases h
    exact .fired hg.1 hg.2
  | timerWqStart ret =>
    simp only [next, Option.ite_none_right_eq_some] at h
    obtain ⟨hg, h⟩ := h
    cases h
    by_cases hr : ret = 0
    · subst hr; exact .timerQueued hg
    · simpa [hr] using Effect.timerLost ret hg hr
  | workStarts =>
    simp only [next, Option.ite_none_right_eq_some] at h
    obtain ⟨hg, h⟩ := h
    cases h
    exact .workStarted hg.1 hg.2
  | allocateContext ok =>
    simp only [next, Option.ite_none_right_eq_some] at h
    obtain ⟨hg, h⟩ := h
    cases h
    cases ok
    · exact .contextLost hg
    · exact .contextFound hg
  | writeRunning =>
    simp only [next, Option.ite_none_right_eq_some] at h
    obtain ⟨hg, h⟩ := h
    cases h
    exact .runningWritten hg
  | writeInitialized =>
    simp only [next, Option.ite_none_right_eq_some] at h
    obtain ⟨hg, h⟩ := h
    cases h
    exact .initializedWritten hg.1
  | releaseContext =>
    simp only [next, Option.ite_none_right_eq_some] at h
    obtain ⟨hg, h⟩ := h
    cases h
    exact .released hg

/-- How many activations are under way and not yet running: calls past their lock
section, the armed timer, its callback, the queued work and the work before its
`RUNNING` write. -/
def pending (s : State) : ℕ :=
  s.calls.length + s.elem.timer.isSome.toNat + s.timerCb.toNat + s.elem.queued.toNat +
    (decide (s.worker = .started ∨ s.worker = .allocated)).toNat

structure OneActivation (s : State) : Prop where
  single : pending s ≤ 1
  starting : 0 < pending s → s.elem.state = .starting

theorem Initialised.oneActivation {s : State} (h : Initialised s) : OneActivation s := by
  have hp : pending s = 0 := by
    simp [pending, h.timer, h.queued, h.timerCb, h.worker, h.calls]
  exact ⟨by omega, by omega⟩

/-- The closing write of `HID_BPF_ASYNC_CB` does not run over a `STARTING` that a call
accepted during the callback's body left there. -/
def ClosingWriteClean (s : State) (a : Action) : Prop :=
  a = .writeInitialized → s.elem.state ≠ .starting

instance (s : State) (a : Action) : Decidable (ClosingWriteClean s a) :=
  inferInstanceAs (Decidable (_ → _))

/-- Most steps pass an activation on or drop it. Only an accepted call adds one, and only
the two writes of the callback touch the state word otherwise. -/
theorem effect_pending {s t : State} {a : Action} (h : Effect s a t) :
    (pending t ≤ pending s ∧ t.elem.state = s.elem.state) ∨
    ((s.elem.state = .initialized ∨ s.elem.state = .running) ∧
      pending t = pending s + 1 ∧ t.elem.state = .starting) ∨
    (pending t + 1 = pending s ∧ t.elem.state = .running) ∨
    (a = .writeInitialized ∧ pending t = pending s ∧ t.elem.state = .initialized) := by
  cases h with
  | refused => exact .inl ⟨le_rfl, rfl⟩
  | accepted args hst =>
    refine .inr (.inl ⟨hst, ?_, rfl⟩)
    simp only [pending, List.length_append, List.length_singleton]
    omega
  | stored i c hid hi => exact .inl ⟨by simp [pending], rfl⟩
  | advanced i c cb hi => exact .inl ⟨by simp [pending], rfl⟩
  | failed i ret hi hr =>
    refine .inl ⟨?_, rfl⟩
    simp only [pending, List.length_eraseIdx_of_lt hi]
    omega
  | armed i d hi =>
    refine .inl ⟨?_, rfl⟩
    simp only [pending, List.length_eraseIdx_of_lt hi, Option.isSome_some, Bool.toNat_true]
    omega
  | queuedNow i hi =>
    refine .inl ⟨?_, rfl⟩
    simp only [pending, List.length_eraseIdx_of_lt hi, Bool.toNat_true]
    omega
  | fired ht hcb =>
    refine .inl ⟨?_, rfl⟩
    simp only [pending, ht, hcb, Option.isSome_none, Bool.toNat_true, Bool.toNat_false]
    omega
  | timerQueued hcb =>
    refine .inl ⟨?_, rfl⟩
    simp only [pending, hcb, Bool.toNat_true, Bool.toNat_false]
    omega
  | timerLost ret hcb hr =>
    refine .inl ⟨?_, rfl⟩
    simp only [pending, Bool.toNat_false]
    omega
  | workStarted hq hw => exact .inl ⟨by simp [pending, hq, hw], rfl⟩
  | contextFound hw => exact .inl ⟨by simp [pending, hw], rfl⟩
  | contextLost hw => exact .inl ⟨by simp [pending, hw], rfl⟩
  | runningWritten hw => exact .inr (.inr (.inl ⟨by simp [pending, hw], rfl⟩))
  | initializedWritten hw => exact .inr (.inr (.inr ⟨rfl, by simp [pending, hw], rfl⟩))
  | released hw => exact .inl ⟨by simp [pending, hw], rfl⟩

theorem effect_oneActivation {s t : State} {a : Action} (hs : OneActivation s)
    (hclean : ClosingWriteClean s a) (h : Effect s a t) : OneActivation t := by
  obtain ⟨hsingle, hstarting⟩ := hs
  rcases effect_pending h with ⟨hp, hst⟩ | ⟨hst, hp, ht⟩ | ⟨hp, -⟩ | ⟨ha, hp, -⟩
  · exact ⟨by omega, fun hpos => hst ▸ hstarting (by omega)⟩
  · have hz : ¬ 0 < pending s := fun hpos => by
      have hs := hstarting hpos
      rcases hst with hst | hst <;> simp [hst] at hs
    exact ⟨by omega, fun _ => ht⟩
  · exact ⟨by omega, by omega⟩
  · have hz : ¬ 0 < pending s := fun hpos => hclean ha (hstarting hpos)
    exact ⟨by omega, by omega⟩

theorem run_oneActivation {s t : State} {as : List Action} (hs : Initialised s)
    (hm : Meets ClosingWriteClean next s as) (hr : run next s as = some t) : OneActivation t :=
  run_invariant (fun _ _ _ h hc hn => effect_oneActivation h hc (next_effect hn))
    hs.oneActivation hm hr

theorem OneActivation.refuses {s : State} (h : OneActivation s) (ho : Outstanding s) :
    Refuses s.elem := by
  apply refuses_starting (h.starting _)
  rcases ho with ho | ho <;> simp [pending, ho]

/-- A step that arms the timer or queues the work while an activation already waits
there: `bpf_timer_start` would re-arm, `bpf_wq_start` would do nothing. -/
def Merges (s : State) : Action → Prop
  | .helper i ret =>
    (∃ c, s.calls[i]? = some c ∧ (c.pc = .timerStart ∨ c.pc = .wqStart)) ∧ ret = 0 ∧ Outstanding s
  | .timerWqStart ret => s.timerCb = true ∧ ret = 0 ∧ Outstanding s
  | _ => False

theorem OneActivation.not_merges {s : State} (h : OneActivation s) (a : Action) :
    ¬ Merges s a := by
  have h1 := h.single
  intro hm
  cases a with
  | helper i ret =>
    obtain ⟨⟨c, hc, -⟩, -, ho⟩ := hm
    have hl := (List.getElem?_eq_some_iff.mp hc).1
    rcases ho with ho | ho <;> simp [pending, ho] at h1 <;> omega
  | timerWqStart ret =>
    obtain ⟨hcb, -, ho⟩ := hm
    rcases ho with ho | ho <;> simp [pending, ho, hcb] at h1 <;> omega
  | _ => exact hm

/-- In a run whose closing writes never overwrite a `STARTING`, a key that waits for its
timer or in the work queue refuses every further call, and no activation is merged. -/
theorem outstanding_refuses {s t : State} {as : List Action} (hs : Initialised s)
    (hm : Meets ClosingWriteClean next s as) (hr : run next s as = some t) :
    (Outstanding t → Refuses t.elem) ∧ ∀ a, ¬ Merges t a :=
  have h := run_oneActivation hs hm hr
  ⟨h.refuses, h.not_merges⟩

def eventCall (milliseconds : ℕ) : CallArgs := ⟨.event, 7, milliseconds, some 0⟩

def plainActivation : List Action :=
  [.enter (eventCall 10) true, .storeHid 0, .helper 0 0, .helper 0 0, .helper 0 0,
    .timerFires, .timerWqStart 0, .workStarts, .allocateContext true, .writeRunning,
    .writeInitialized, .releaseContext]

theorem outstanding_refuses_armed :
    ∃ t, run next freshKey (plainActivation.take 5) = some t ∧ Outstanding t ∧
      Refuses t.elem := by
  have hr : run next freshKey (plainActivation.take 5) =
      some ⟨⟨.starting, some 10000000, false, some 0, 7⟩, false, .idle, []⟩ := by decide
  have ho : Outstanding ⟨⟨.starting, some 10000000, false, some 0, 7⟩, false, .idle, []⟩ := by
    decide
  exact ⟨_, hr, ho, (outstanding_refuses freshKey_initialised (by decide) hr).1 ho⟩

/-- The callback re-arms its own key and then ends: its closing write hides the armed
timer, the next event's call is accepted and re-arms it. -/
theorem reentry_accepted_while_armed :
    ¬ ∀ (s : State) (as : List Action) (t : State), Initialised s → run next s as = some t →
      Outstanding t → Refuses t.elem := by
  intro h
  have hr : run next freshKey (plainActivation.take 10 ++
      [.enter ⟨.callback, 7, 10, none⟩ true, .storeHid 0, .helper 0 0, .helper 0 0,
        .writeInitialized]) =
      some ⟨⟨.initialized, some 10000000, false, some 0, 7⟩, false, .written, []⟩ := by decide
  have hx := h _ _ _ freshKey_initialised hr (by decide) (eventCall 20)
  exact absurd hx (by decide)

/-- No call in progress, no timer armed, no work queued or running. -/
structure Quiescent (s : State) : Prop where
  calls : s.calls = []
  timer : s.elem.timer = none
  timerCb : s.timerCb = false
  queued : s.elem.queued = false
  worker : s.worker = .idle

/-- Every helper behind the lock section, the timer's `bpf_wq_start` and the callback's
`hid_bpf_allocate_context` succeed. -/
def HelpersSucceed (_ : State) : Action → Prop
  | .helper _ ret => ret = 0
  | .timerWqStart ret => ret = 0
  | .allocateContext ok => ok = true
  | _ => True

instance (s : State) (a : Action) : Decidable (HelpersSucceed s a) := by
  cases a <;> simp only [HelpersSucceed] <;> infer_instance

/-- Whoever has moved the key away from `INITIALIZED` is still under way. -/
def Live (s : State) : Prop :=
  s.elem.state ≠ .initialized → 0 < pending s ∨ s.worker = .body

theorem effect_live {s t : State} {a : Action} (hs : Live s) (hok : HelpersSucceed s a)
    (h : Effect s a t) : Live t := by
  cases h with
  | refused => exact hs
  | accepted args hst => exact fun _ => .inl (by simp [pending])
  | stored i c hid hi => simpa [Live, pending] using hs
  | advanced i c cb hi => simpa [Live, pending] using hs
  | failed i ret hi hr => exact absurd hok hr
  | armed i d hi => exact fun _ => .inl (by simp [pending])
  | queuedNow i hi => exact fun _ => .inl (by simp [pending])
  | fired ht hcb => exact fun _ => .inl (by simp [pending])
  | timerQueued hcb => exact fun _ => .inl (by simp [pending])
  | timerLost ret hcb hr => exact absurd hok hr
  | workStarted hq hw => exact fun _ => .inl (by simp [pending])
  | contextFound hw => exact fun _ => .inl (by simp [pending])
  | contextLost hw => exact absurd hok (by simp [HelpersSucceed])
  | runningWritten hw => exact fun _ => .inr rfl
  | initializedWritten hw => exact fun hne => absurd rfl hne
  | released hw => simpa [Live, pending, hw] using hs

theorem Live.quiescent {s : State} (h : Live s) (hq : Quiescent s) :
    s.elem.state = .initialized := by
  by_contra hne
  have hb := h hne
  simp [pending, hq.calls, hq.timer, hq.timerCb, hq.queued, hq.worker] at hb

/-- With working helpers the only failing exits of `hid_bpf_async_delayed_call` are the
missing map element and the refusal, and both leave everything alone. -/
theorem error_leaves_state {s t : State} {a : Action} {ret : ℤ} (hok : HelpersSucceed s a)
    (hn : next s a = some t) (hret : returned s a = some ret) (hne : ret ≠ 0) : t = s := by
  cases a with
  | enter args found =>
    simp only [next, returned] at hn hret
    split at hn
    · cases hn
    split at hn
    · cases hn; rfl
    · by_cases hs : s.elem.state = .initialized ∨ s.elem.state = .running
      · simp_all [accepts_of_state hs args]
      · have he : delayedCallEnter s.elem args = (s.elem, .returns (-EINVAL)) := by
          simpa [delayedCallEnter] using hs
        rw [he] at hn
        cases hn
        rfl
  | helper i r =>
    change r = 0 at hok
    subst hok
    simp only [returned] at hret
    split at hret
    · rename_i c hc
      cases hpc : c.pc <;> simp [delayedCallStep, hpc] at hret <;> exact absurd hret.symm hne
    · cases hret
  | _ => cases hret

/-- As long as no helper fails, a key at rest is `INITIALIZED`, so it accepts the next
call, and a call that returns an error changed nothing. -/
theorem quiescent_initialized {s t : State} {as : List Action} (hs : Initialised s)
    (hm : Meets HelpersSucceed next s as) (hr : run next s as = some t) :
    (Quiescent t → t.elem.state = .initialized ∧
      ∀ args, delayedCallEnter t.elem args =
        ({ t.elem with state := .starting }, .continues ⟨args, .storeHid⟩)) ∧
    ∀ a u ret, HelpersSucceed t a → next t a = some u → returned t a = some ret → ret ≠ 0 →
      u = t := by
  have hl : Live t := run_invariant (fun _ _ _ h hc hn => effect_live h hc (next_effect hn))
    (fun hne => absurd hs.state hne) hm hr
  refine ⟨fun hq => ?_, fun a u ret => error_leaves_state⟩
  have hi := hl.quiescent hq
  exact ⟨hi, accepts_of_state (.inl hi)⟩

theorem quiescent_initialized_after_one :
    ∃ t, run next freshKey plainActivation = some t ∧ t.elem.state = .initialized := by
  have hr : run next freshKey plainActivation =
      some ⟨⟨.initialized, none, false, some 0, 7⟩, false, .idle, []⟩ := by decide
  exact ⟨_, hr, ((quiescent_initialized freshKey_initialised (by decide) hr).1
    ⟨rfl, rfl, rfl, rfl, rfl⟩).1⟩

/-- `bpf_timer_start` fails once: the key is left in `STARTING` with nobody to move it on. -/
theorem key_dies_on_timer_error :
    ¬ ∀ (s : State) (as : List Action) (t : State), Initialised s → run next s as = some t →
      Quiescent t → t.elem.state = .initialized := by
  intro h
  have hr : run next freshKey
      [.enter (eventCall 10) true, .storeHid 0, .helper 0 0, .helper 0 0, .helper 0 (-EINVAL)] =
      some ⟨⟨.starting, none, false, some 0, 7⟩, false, .idle, []⟩ := by decide
  exact absurd (h _ _ _ freshKey_initialised hr ⟨rfl, rfl, rfl, rfl, rfl⟩) (by decide)

end HidBpfAsync
