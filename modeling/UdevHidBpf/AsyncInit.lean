import Mathlib.Logic.Function.Iterate
import UdevHidBpf.AsyncContexts

/-! # Initialising an async function

`____async_init_##fun` on its own: the steps of its `hid_bpf_async_get_ctx`, then its own. A
lookup finds the keys of the map. The store to `name` is the last step; nothing reads it. -/
namespace AsyncInit

open BpfErrors StepRuns HidBpfAsync AsyncContexts

/-- What the helpers return: 0 or `-err`. -/
structure Outcomes where
  timerInit : ℕ
  timerSetCallback : ℕ
  wqInit : ℕ
  wqSetCallback : ℕ
  deriving DecidableEq, Repr

def Outcomes.Succeed (o : Outcomes) : Prop :=
  o.timerInit = 0 ∧ o.timerSetCallback = 0 ∧ o.wqInit = 0 ∧ o.wqSetCallback = 0

instance (o : Outcomes) : Decidable o.Succeed := inferInstanceAs (Decidable (_ ∧ _))

def Outcomes.err (o : Outcomes) : GetCtx → ℕ
  | .timerInit _ => o.timerInit
  | .timerSetCallback _ => o.timerSetCallback
  | .wqInit _ => o.wqInit
  | _ => 0

inductive Pc where
  | getCtx (pc : GetCtx)
  | lookup (key : ℕ)
  | wqSetCallback (key : ℕ)
  | storeName
  | returned (ret : ℤ)
  deriving DecidableEq, Repr

def setCallback (cb : ℕ) (slot : State) : State :=
  { slot with elem := { slot.elem with wqCallback := some cb } }

/-- One step; `cb` is the callback of the function. -/
def asyncInitStep (cb : ℕ) (o : Outcomes) : List State × Pc → List State × Pc
  | (slots, .getCtx (.returned key)) =>
    if key < 0 then (slots, .returned key) else (slots, .lookup key.toNat)
  | (slots, .getCtx pc) =>
    let r := getCtxStep slots pc true (o.err pc)
    (r.1, .getCtx r.2)
  | (slots, .lookup key) =>
    if key < slots.length then (slots, .wqSetCallback key) else (slots, .returned (-EINVAL))
  | (slots, .wqSetCallback key) =>
    if o.wqSetCallback ≠ 0 then (slots, .returned (-o.wqSetCallback))
    else (slots.modify key (setCallback cb), .storeName)
  | (slots, .storeName) => (slots, .returned 0)
  | (slots, .returned ret) => (slots, .returned ret)

def start (slots : List State) : List State × Pc := (slots, .getCtx (.scan 0))

/-- A whole attempt: the scan looks at each slot once, and ten steps follow it. -/
def asyncInit (cb : ℕ) (o : Outcomes) (slots : List State) : List State × Pc :=
  (asyncInitStep cb o)^[slots.length + 10] (start slots)

def Free (slots : List State) (key : ℕ) : Prop :=
  ∃ slot, slots[key]? = some slot ∧ slot.elem.state = .unset

def failedAttempt (cb : ℕ) (slots : List State) (o : Outcomes) : Option (List State) :=
  match asyncInit cb o slots with
  | (slots', .returned ret) => if ret < 0 then some slots' else none
  | _ => none

variable {cb : ℕ} {o : Outcomes} {slots : List State}

theorem taken_or_free {key : ℕ} (h : key < slots.length) : Taken slots key ∨ Free slots key := by
  by_cases hu : slots[key].elem.state = .unset
  · exact .inr ⟨_, List.getElem?_eq_getElem h, hu⟩
  · exact .inl ⟨_, List.getElem?_eq_getElem h, hu⟩

theorem not_free_of_taken {key : ℕ} (h : Taken slots key) : ¬ Free slots key := by
  rintro ⟨slot, hslot, hunset⟩
  obtain ⟨slot', hslot', hne⟩ := h
  obtain rfl := Option.some.inj (hslot.symm.trans hslot')
  exact hne hunset

theorem free_modify {f : State → State} {key : ℕ} (htaken : Taken slots key)
    (hf : ∀ slot, slot.elem.state ≠ .unset → (f slot).elem.state ≠ .unset) (j : ℕ) :
    Free (slots.modify key f) j ↔ Free slots j := by
  by_cases hj : key = j
  · subst hj
    have htaken' : Taken (slots.modify key f) key := by
      obtain ⟨slot, hslot, hne⟩ := htaken
      exact ⟨f slot, by simp [hslot], hf slot hne⟩
    exact iff_of_false (not_free_of_taken htaken') (not_free_of_taken htaken)
  · simp [Free, hj]

theorem free_claim {key : ℕ} (h : Free slots key) (j : ℕ) :
    Free (slots.modify key (setState .initializing)) j ↔ Free slots j ∧ j ≠ key := by
  by_cases hj : key = j
  · subst hj
    obtain ⟨slot, hslot, -⟩ := h
    have htaken : Taken (slots.modify key (setState .initializing)) key :=
      ⟨setState .initializing slot, by simp [hslot], AsyncState.noConfusion⟩
    exact iff_of_false (not_free_of_taken htaken) fun hk => hk.2 rfl
  · simp [Free, hj, Ne.symm hj]

section steps

variable (key : ℕ)

theorem step_end : asyncInitStep cb o (slots, .getCtx (.scan slots.length)) =
    (slots, .getCtx (.searched (-EINVAL))) := by
  simp [asyncInitStep, getCtxStep]

theorem step_searched_neg {ret : ℤ} (h : ret < 0) :
    asyncInitStep cb o (slots, .getCtx (.searched ret)) = (slots, .getCtx (.returned ret)) := by
  simp [asyncInitStep, getCtxStep, h]

theorem step_getCtx_neg {ret : ℤ} (h : ret < 0) :
    asyncInitStep cb o (slots, .getCtx (.returned ret)) = (slots, .returned ret) := by
  simp [asyncInitStep, h]

@[simp] theorem step_getCtx_err {err : ℕ} (h : err ≠ 0) :
    asyncInitStep cb o (slots, .getCtx (.returned (-err))) = (slots, .returned (-err)) :=
  step_getCtx_neg (by omega)

@[simp] theorem step_searched : asyncInitStep cb o (slots, .getCtx (.searched key)) =
    (slots, .getCtx (.timerInit key)) := by
  have hkey : ¬ (key : ℤ) < 0 := by omega
  simp [asyncInitStep, getCtxStep, hkey]

@[simp] theorem step_timerInit : asyncInitStep cb o (slots, .getCtx (.timerInit key)) =
    (slots, .getCtx (if o.timerInit = 0 then .timerSetCallback key
      else .returned (-o.timerInit))) := by
  by_cases h : o.timerInit = 0 <;> simp [asyncInitStep, getCtxStep, Outcomes.err, h]

@[simp] theorem step_timerSetCallback :
    asyncInitStep cb o (slots, .getCtx (.timerSetCallback key)) =
      (slots, .getCtx (if o.timerSetCallback = 0 then .wqInit key
        else .returned (-o.timerSetCallback))) := by
  by_cases h : o.timerSetCallback = 0 <;> simp [asyncInitStep, getCtxStep, Outcomes.err, h]

@[simp] theorem step_wqInit : asyncInitStep cb o (slots, .getCtx (.wqInit key)) =
    (slots, .getCtx (if o.wqInit = 0 then .writeInitialized key
      else .returned (-o.wqInit))) := by
  by_cases h : o.wqInit = 0 <;> simp [asyncInitStep, getCtxStep, Outcomes.err, h]

@[simp] theorem step_writeInitialized :
    asyncInitStep cb o (slots, .getCtx (.writeInitialized key)) =
      (slots.modify key (setState .initialized), .getCtx (.returned key)) := rfl

@[simp] theorem step_getCtx : asyncInitStep cb o (slots, .getCtx (.returned key)) =
    (slots, .lookup key) := by
  simp [asyncInitStep]

@[simp] theorem step_lookup {key : ℕ} (h : key < slots.length) :
    asyncInitStep cb o (slots, .lookup key) = (slots, .wqSetCallback key) := if_pos h

@[simp] theorem step_wqSetCallback : asyncInitStep cb o (slots, .wqSetCallback key) =
    if o.wqSetCallback = 0 then (slots.modify key (setCallback cb), .storeName)
    else (slots, .returned (-o.wqSetCallback)) := by
  by_cases h : o.wqSetCallback = 0 <;> simp [asyncInitStep, h]

@[simp] theorem step_storeName :
    asyncInitStep cb o (slots, .storeName) = (slots, .returned 0) := rfl

@[simp] theorem step_returned (ret : ℤ) :
    asyncInitStep cb o (slots, .returned ret) = (slots, .returned ret) := rfl

end steps

theorem asyncInit_of_iterate {n : ℕ} {slots' : List State} {ret : ℤ}
    (h : (asyncInitStep cb o)^[n] (start slots) = (slots', .returned ret))
    (hn : n ≤ slots.length + 10) : asyncInit cb o slots = (slots', .returned ret) := by
  obtain ⟨k, hk⟩ := Nat.exists_eq_add_of_le' hn
  rw [asyncInit, hk, Function.iterate_add_apply, h]
  exact Function.iterate_fixed rfl k

theorem scan_taken {k : ℕ} (h : ∀ j < k, Taken slots j) :
    (asyncInitStep cb o)^[k] (start slots) = (slots, .getCtx (.scan k)) := by
  induction k with
  | zero => rfl
  | succ k ih =>
    obtain ⟨slot, hslot, hne⟩ := h k (Nat.lt_succ_self k)
    rw [Function.iterate_succ_apply', ih fun j hj => h j (Nat.lt_succ_of_lt hj)]
    simp [asyncInitStep, getCtxStep, hslot, hne]

theorem scan_finds {k : ℕ} (h : ∀ j < k, Taken slots j) (hk : Free slots k) :
    (asyncInitStep cb o)^[k + 1] (start slots) =
      (slots.modify k (setState .initializing), .getCtx (.searched k)) := by
  obtain ⟨slot, hslot, hunset⟩ := hk
  rw [Function.iterate_succ_apply', scan_taken h]
  simp [asyncInitStep, getCtxStep, hslot, hunset]

variable (cb o) in
theorem asyncInit_full (h : ∀ k, ¬ Free slots k) :
    asyncInit cb o slots = (slots, .returned (-EINVAL)) := by
  have htaken : ∀ j < slots.length, Taken slots j :=
    fun j hj => (taken_or_free hj).resolve_right (h j)
  have hneg : -(EINVAL : ℤ) < 0 := by decide
  have hreturn : (asyncInitStep cb o)^[3] (slots, .getCtx (.scan slots.length)) =
      (slots, .returned (-EINVAL)) := by
    simp only [Function.iterate_succ_apply, Function.iterate_zero_apply, step_end,
      step_searched_neg hneg, step_getCtx_neg hneg]
  apply asyncInit_of_iterate (n := 3 + slots.length) _ (by omega)
  rw [Function.iterate_add_apply, scan_taken htaken, hreturn]

variable (cb o) in
/-- Whatever the helpers do with a claimed slot, it stays claimed. -/
theorem claimed_returns {key : ℕ} (hkey : Taken slots key) : ∃ slots' ret,
    (asyncInitStep cb o)^[9] (slots, .getCtx (.searched key)) = (slots', .returned ret) ∧
      (∀ j, Free slots' j ↔ Free slots j) ∧ (ret < 0 ↔ ¬ o.Succeed) := by
  have hneg {err : ℕ} (h : err ≠ 0) : -(err : ℤ) < 0 := by omega
  have hlen : key < slots.length := by
    obtain ⟨slot, hslot, -⟩ := hkey
    exact (List.getElem?_eq_some_iff.mp hslot).1
  by_cases h₁ : o.timerInit = 0
  swap
  · refine ⟨slots, -o.timerInit, ?_, fun j => Iff.rfl, iff_of_true (hneg h₁) fun h => h₁ h.1⟩
    simp [Function.iterate_succ_apply, h₁]
  by_cases h₂ : o.timerSetCallback = 0
  swap
  · refine ⟨slots, -o.timerSetCallback, ?_, fun j => Iff.rfl,
      iff_of_true (hneg h₂) fun h => h₂ h.2.1⟩
    simp [Function.iterate_succ_apply, h₁, h₂]
  by_cases h₃ : o.wqInit = 0
  swap
  · refine ⟨slots, -o.wqInit, ?_, fun j => Iff.rfl, iff_of_true (hneg h₃) fun h => h₃ h.2.2.1⟩
    simp [Function.iterate_succ_apply, h₁, h₂, h₃]
  have hinit := free_modify (f := setState .initialized) hkey fun _ _ => AsyncState.noConfusion
  by_cases h₄ : o.wqSetCallback = 0
  swap
  · refine ⟨slots.modify key (setState .initialized), -o.wqSetCallback, ?_, hinit,
      iff_of_true (hneg h₄) fun h => h₄ h.2.2.2⟩
    simp [Function.iterate_succ_apply, h₁, h₂, h₃, hlen, h₄]
  · have htaken : Taken (slots.modify key (setState .initialized)) key :=
      taken_modify AsyncState.noConfusion hkey
    have hcb := free_modify (f := setCallback cb) htaken fun _ h => h
    refine ⟨(slots.modify key (setState .initialized)).modify key (setCallback cb), 0, ?_,
      fun j => (hcb j).trans (hinit j), iff_of_false (by decide) fun h => h ⟨h₁, h₂, h₃, h₄⟩⟩
    simp [Function.iterate_succ_apply, h₁, h₂, h₃, hlen, h₄]

theorem exists_first_free (h : ∃ k, Free slots k) :
    ∃ k, Free slots k ∧ ∀ j < k, Taken slots j := by
  classical
  have hfree := Nat.find_spec h
  refine ⟨Nat.find h, hfree, fun j hj => ?_⟩
  obtain ⟨slot, hslot, -⟩ := hfree
  have hlen : Nat.find h < slots.length := (List.getElem?_eq_some_iff.mp hslot).1
  exact (taken_or_free (hj.trans hlen)).resolve_right (Nat.find_min h hj)

variable (cb o) in
theorem asyncInit_free (h : ∃ k, Free slots k) : ∃ k slots' ret,
    asyncInit cb o slots = (slots', .returned ret) ∧ Free slots k ∧
      (∀ j, Free slots' j ↔ Free slots j ∧ j ≠ k) ∧ (ret < 0 ↔ ¬ o.Succeed) := by
  obtain ⟨k, hk, hbefore⟩ := exists_first_free h
  obtain ⟨slot, hslot, -⟩ := id hk
  have hclaimed : Taken (slots.modify k (setState .initializing)) k :=
    ⟨setState .initializing slot, by simp [hslot], AsyncState.noConfusion⟩
  obtain ⟨slots', ret, hreturn, hfree, hret⟩ := claimed_returns cb o hclaimed
  refine ⟨k, slots', ret, ?_, hk, fun j => (hfree j).trans (free_claim hk j), hret⟩
  have hlen : k < slots.length := (List.getElem?_eq_some_iff.mp hslot).1
  apply asyncInit_of_iterate (n := 9 + (k + 1)) _ (by omega)
  rw [Function.iterate_add_apply, scan_finds hbefore hk, hreturn]

def readied (cb : ℕ) (slot : State) : State :=
  { slot with elem := { slot.elem with state := .initialized, wqCallback := some cb } }

variable (cb) in
theorem asyncInit_succeeds (ho : o.Succeed) (h : ∃ k, Free slots k) : ∃ k slot,
    slots[k]? = some slot ∧ slot.elem.state = .unset ∧
      asyncInit cb o slots = (slots.set k (readied cb slot), .returned 0) := by
  obtain ⟨k, hk, hbefore⟩ := exists_first_free h
  obtain ⟨slot, hslot, hunset⟩ := id hk
  obtain ⟨hlen, hget⟩ := List.getElem?_eq_some_iff.mp hslot
  obtain ⟨h₁, h₂, h₃, h₄⟩ := ho
  refine ⟨k, slot, hslot, hunset, ?_⟩
  apply asyncInit_of_iterate (n := 9 + (k + 1)) _ (by omega)
  rw [Function.iterate_add_apply, scan_finds hbefore hk]
  simp [Function.iterate_succ_apply, h₁, h₂, h₃, h₄, hlen, List.modify_eq_set_getElem?, readied,
    setState, setCallback, hget]

variable (cb o slots) in
theorem asyncInit_zero_iff :
    (asyncInit cb o slots).2 = .returned 0 ↔ (∃ k, Free slots k) ∧ o.Succeed := by
  constructor
  · intro h
    by_cases hfree : ∃ k, Free slots k
    · obtain ⟨k, slots', ret, hinit, -, -, hret⟩ := asyncInit_free cb o hfree
      rw [hinit] at h
      obtain rfl := Pc.returned.inj h
      exact ⟨hfree, not_not.mp fun ho => absurd (hret.mpr ho) (lt_irrefl 0)⟩
    · rw [asyncInit_full cb o (not_exists.mp hfree)] at h
      cases h
  · rintro ⟨hfree, ho⟩
    obtain ⟨k, slot, -, -, hinit⟩ := asyncInit_succeeds cb ho hfree
    rw [hinit]

theorem failedAttempt_eq {slots' : List State} (h : failedAttempt cb slots o = some slots') :
    ∃ ret < 0, asyncInit cb o slots = (slots', .returned ret) := by
  unfold failedAttempt at h
  split at h
  · rename_i s ret heq
    rw [Option.ite_none_right_eq_some, Option.some.injEq] at h
    exact ⟨ret, h.1, h.2 ▸ heq⟩
  · cases h

/-- Nothing is lost where there is nothing to claim or no helper fails. -/
def Harmless (slots : List State) (o : Outcomes) : Prop := (∀ k, ¬ Free slots k) ∨ o.Succeed

theorem failedAttempt_free {slots' : List State} (ho : Harmless slots o)
    (h : failedAttempt cb slots o = some slots') (k : ℕ) : Free slots' k ↔ Free slots k := by
  obtain ⟨ret, hret, hinit⟩ := failedAttempt_eq h
  by_cases hfree : ∃ k, Free slots k
  · obtain ⟨_, slots'', ret', hinit', -, -, hsucceed⟩ := asyncInit_free cb o hfree
    obtain ⟨rfl, hreturned⟩ := Prod.mk.inj (hinit.symm.trans hinit')
    obtain rfl := Pc.returned.inj hreturned
    exact absurd (ho.resolve_left fun hnone => hfree.elim hnone) (hsucceed.mp hret)
  · have hfull := asyncInit_full cb o (not_exists.mp hfree)
    obtain ⟨rfl, -⟩ := Prod.mk.inj (hinit.symm.trans hfull)
    exact Iff.rfl

/-- A failed attempt keeps the free slots exactly if it found none or no helper failed; over
any number of failed attempts of that kind a free slot is still found. -/
theorem failed_init_leaks_nothing_iff (cb : ℕ) (slots : List State) :
    (∀ o : Outcomes, ∃ slots' ret, asyncInit cb o slots = (slots', .returned ret) ∧
      ((ret < 0 → ∀ k, Free slots' k ↔ Free slots k) ↔ (∀ k, ¬ Free slots k) ∨ o.Succeed)) ∧
    ∀ (slots' : List State) (os : List Outcomes), Meets Harmless (failedAttempt cb) slots os →
      run (failedAttempt cb) slots os = some slots' →
      (∀ k, Free slots' k ↔ Free slots k) ∧
        ((∃ k, Free slots k) → ∀ o, ∃ (n key : ℕ) (claimed : List State),
          (asyncInitStep cb o)^[n] (start slots') = (claimed, .getCtx (.searched key))) := by
  constructor
  · intro o
    by_cases hfree : ∃ k, Free slots k
    · obtain ⟨k, slots', ret, hinit, hk, hfree', hret⟩ := asyncInit_free cb o hfree
      refine ⟨slots', ret, hinit, ?_⟩
      constructor
      · intro hsame
        by_contra hno
        have hneg : ret < 0 := hret.mpr fun h => hno (.inr h)
        exact ((hfree' k).mp ((hsame hneg k).mpr hk)).2 rfl
      · rintro (hnone | ho) hneg
        · exact absurd hk (hnone k)
        · exact absurd ho (hret.mp hneg)
    · rw [not_exists] at hfree
      exact ⟨slots, -EINVAL, asyncInit_full cb o hfree, fun _ => .inl hfree, fun _ _ k => Iff.rfl⟩
  · intro slots' os hmeets hrun
    have hsame : ∀ k, Free slots' k ↔ Free slots k :=
      run_invariant (I := fun s => ∀ k, Free s k ↔ Free slots k)
        (fun _ _ _ hs ho hnext k => (failedAttempt_free ho hnext k).trans (hs k))
        (fun _ => Iff.rfl) hmeets hrun
    refine ⟨hsame, fun ⟨k, hk⟩ o => ?_⟩
    obtain ⟨key, hkey, hbefore⟩ := exists_first_free ⟨k, (hsame k).mpr hk⟩
    exact ⟨key + 1, key, _, scan_finds hbefore hkey⟩

def takenSlot : State := setState .initializing unsetSlot

/-- Two attempts on a full map. -/
theorem failed_init_leaks_nothing_full : ∃ slots',
    run (failedAttempt 7) [takenSlot] [⟨0, 0, 0, 0⟩, ⟨16, 0, 0, 0⟩] = some slots' ∧
      ∀ k, Free slots' k ↔ Free [takenSlot] k := by
  have hfull : ∀ k, ¬ Free [takenSlot] k := by
    rintro k ⟨slot, hslot, hunset⟩
    obtain rfl := List.mem_singleton.mp (List.mem_of_getElem? hslot)
    cases hunset
  have hrun : run (failedAttempt 7) [takenSlot] [⟨0, 0, 0, 0⟩, ⟨16, 0, 0, 0⟩] =
      some [takenSlot] := by decide
  exact ⟨[takenSlot], hrun, ((failed_init_leaks_nothing_iff 7 [takenSlot]).2 [takenSlot]
    [⟨0, 0, 0, 0⟩, ⟨16, 0, 0, 0⟩] ⟨.inl hfull, .inl hfull, trivial⟩ hrun).1⟩

/-- `bpf_timer_init` fails and the only slot is gone. -/
theorem failed_timer_init_leaks : ¬ ∀ (cb : ℕ) (o : Outcomes) (slots slots' : List State) (ret : ℤ),
    asyncInit cb o slots = (slots', .returned ret) → ret < 0 →
      ∀ k, Free slots' k ↔ Free slots k := by
  intro h
  have hsame := h 7 ⟨16, 0, 0, 0⟩ [unsetSlot] [takenSlot] (-16) (by decide) (by decide) 0
  obtain ⟨slot, hslot, hunset⟩ := hsame.mpr ⟨unsetSlot, rfl, rfl⟩
  obtain rfl := Option.some.inj hslot
  cases hunset

end AsyncInit
