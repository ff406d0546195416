import UdevHidBpf.DeviceEvents
import UdevHidBpf.StepRuns

/-! # The Surface Dial

Reports, two timers and a work item share the variables of the program. Holding the button
for two seconds switches the haptics, and with them the resolution of the wheel. -/
namespace SurfaceDial

open DeviceEvents StepRuns

def DIAL_INPUT_REPORT_ID : UInt8 := 1
def LOW_RESOLUTION : ℕ := 72
def LOW_MULTIPLIER : Int32 := 120
def HIGH_RESOLUTION : ℕ := 2880
def HIGH_MULTIPLIER : Int32 := 3

/-- The variables, the two timers and the work item. An armed timer holds its delay in
nanoseconds, running work the argument that it was called with. -/
structure Dial where
  hapticEnabled : Bool
  prevClick : Bool
  initialized : Bool
  currentMultiplier : Int32
  hapticTimer : Option ℕ
  sleepTimer : Option ℕ
  workPending : Bool
  workRunning : Option Bool
  deriving DecidableEq

def initial : Dial := ⟨true, false, false, 0, none, none, false, none⟩

def nsToS (seconds : ℕ) : ℕ := seconds * 1000 * 1000 * 1000

/-- Neither key of the map is out of range, and starting a timer or the work succeeds. -/
def delayWorkControl (seconds : ℕ) (cancel : Bool) (s : Dial) : Dial :=
  if seconds = 0 then { s with workPending := true }
  else if cancel then { s with hapticTimer := none }
  else { s with hapticTimer := some (nsToS seconds) }

def restartSleepTimer (seconds : ℕ) (s : Dial) : Dial :=
  { s with sleepTimer := some (nsToS seconds) }

@[simp] theorem currentMultiplier_delay (seconds : ℕ) (cancel : Bool) (s : Dial) :
    (delayWorkControl seconds cancel s).currentMultiplier = s.currentMultiplier := by
  rw [delayWorkControl]
  split_ifs <;> rfl

/-- `dial->wheel`, a `__s16`. -/
def wheel (data : List UInt8) : Int16 := (getU16 data 2).toInt16

/-- The product is computed as an `int` and stored in 16 bits. -/
def scaleWheel (wheel : Int16) (currentMultiplier : Int32) : Int16 :=
  (wheel.toInt32 * currentMultiplier).toInt16

def surfaceDialEvent (s : Dial) (buffer : List UInt8) : Called Dial :=
  match hidBpfGetData buffer 0 9 with
  | none => ⟨s, buffer, 0⟩
  | some data =>
    if byte data 0 ≠ DIAL_INPUT_REPORT_ID then ⟨s, data, -1⟩
    else
      let s := if s.initialized then s else { delayWorkControl 0 false s with initialized := true }
      let data := data.set 1 (byte data 1 &&& 0xfd)
      let click := hasBits (byte data 1) 0x01
      let s := if s.prevClick ≠ click then delayWorkControl 2 (!click) s else s
      let s := { s with prevClick := click }
      let data := setU16 data 4 0
      let data := setU16 data 6 0
      let data := setU16 data 2 (scaleWheel (wheel data) s.currentMultiplier).toUInt16
      ⟨restartSleepTimer 120 s, data, 0⟩

def hapticTimerCb (s : Dial) : Dial :=
  { s with hapticEnabled := !s.hapticEnabled, workPending := true }

def sleepTimerCb (s : Dial) : Dial := { s with initialized := false }

/-- The answers of the device to one run of the work: the context, the feature report that
was read into the buffer, and two return values. -/
structure Answers where
  allocated : Bool
  feature : List UInt8
  length_feature : feature.length = 8
  setReport : ℤ
  outputReport : ℤ

def resolutionOf (enable : Bool) : ℕ := if enable then LOW_RESOLUTION else HIGH_RESOLUTION

def multiplierOf (enable : Bool) : Int32 := if enable then LOW_MULTIPLIER else HIGH_MULTIPLIER

def featureReport (enable : Bool) (buf : List UInt8) : List UInt8 :=
  let buf := stores buf [(1, UInt8.ofNat (resolutionOf enable % 256)),
    (2, UInt8.ofNat (resolutionOf enable / 256))]
  if enable then stores buf [(3, 0), (4, 3)] else stores buf [(4, 0)]

def notification (buf : List UInt8) : List UInt8 :=
  (stores buf [(0, DIAL_INPUT_REPORT_ID), (1, 0), (2, 5), (3, 80), (4, 0)]).take 5

/-- What a run of the work leaves behind, with the reports that it sent. -/
structure HapticRun where
  currentMultiplier : Int32
  sent : List (List UInt8)
  ret : ℤ

def setResAndHaptic (enable : Bool) (hw : Answers) (currentMultiplier : Int32) : HapticRun :=
  if !hw.allocated then ⟨currentMultiplier, [], -1⟩
  else
    let buf := featureReport enable hw.feature
    ⟨if hw.setReport = 8 then multiplierOf enable else currentMultiplier,
      [buf, notification buf], hw.outputReport⟩

inductive Action where
  | report (r : Report)
  | hapticExpires
  | sleepExpires
  | workStarts
  | workEnds (hw : Answers)

/-- Only an armed timer can expire, and is not armed afterwards. The work reads
`haptic_enabled` when it starts, and is not started again before it ends. -/
def next (s : Dial) : Action → Option Dial
  | .report r => some (surfaceDialEvent s r.data).vars
  | .hapticExpires =>
    if s.hapticTimer.isSome then some (hapticTimerCb { s with hapticTimer := none }) else none
  | .sleepExpires =>
    if s.sleepTimer.isSome then some (sleepTimerCb { s with sleepTimer := none }) else none
  | .workStarts =>
    if s.workPending ∧ s.workRunning = none then
      some { s with workPending := false, workRunning := some s.hapticEnabled }
    else none
  | .workEnds hw =>
    match s.workRunning with
    | none => none
    | some enable =>
      some { s with
        workRunning := none
        currentMultiplier := (setResAndHaptic enable hw s.currentMultiplier).currentMultiplier }

variable {s t : Dial} {r : Report}

def isDial (r : Report) : Bool := byte r.data 0 == DIAL_INPUT_REPORT_ID

def click (r : Report) : Bool := hasBits (byte r.data 1) 0x01

theorem button_clear_touch (r : Report) :
    hasBits (byte (r.data.set 1 (byte r.data 1 &&& 0xfd)) 1) 0x01 = click r := by
  have hkept : ∀ b : UInt8, hasBits (b &&& 0xfd) 0x01 = hasBits b 0x01 := by decide +kernel
  have hlen := r.length_data
  rw [byte_set_self (by omega), hkept, click]

theorem vars_dial (h : isDial r) : (surfaceDialEvent s r.data).vars =
    { s with
      initialized := true
      prevClick := click r
      hapticTimer := if s.prevClick = click r then s.hapticTimer
        else if click r then some (nsToS 2) else none
      sleepTimer := some (nsToS 120)
      workPending := s.workPending || !s.initialized } := by
  have hid : byte r.data 0 = DIAL_INPUT_REPORT_ID := by simpa [isDial] using h
  simp only [surfaceDialEvent, get_data_report r (by decide : 9 ≤ 64), if_neg (not_not.2 hid),
    button_clear_touch]
  cases hinit : s.initialized <;> by_cases hclick : s.prevClick = click r <;>
    cases hpress : click r <;> simp_all [delayWorkControl, restartSleepTimer]

theorem event_other (h : ¬ isDial r) : surfaceDialEvent s r.data = ⟨s, r.data, -1⟩ := by
  have hid : byte r.data 0 ≠ DIAL_INPUT_REPORT_ID := by simpa [isDial] using h
  simp only [surfaceDialEvent, get_data_report r (by decide : 9 ≤ 64), if_pos hid]

theorem wheel_set_wheel {data : List UInt8} (h : 4 ≤ data.length) (w : Int16) :
    wheel (setU16 data 2 w.toUInt16) = w := by
  rw [wheel, getU16_setU16 (by omega)]
  rfl

theorem wheel_dial (h : isDial r) : wheel (surfaceDialEvent s r.data).data =
    scaleWheel (wheel r.data) s.currentMultiplier := by
  have hid : byte r.data 0 = DIAL_INPUT_REPORT_ID := by simpa [isDial] using h
  have hlen := r.length_data
  have hread : wheel (setU16 (setU16 (r.data.set 1 (byte r.data 1 &&& 0xfd)) 4 0) 6 0) =
      wheel r.data := by
    simp [wheel, getU16, setU16, byte_set_ne]
  simp only [surfaceDialEvent, get_data_report r (by decide : 9 ≤ 64), if_neg (not_not.2 hid),
    hread]
  rw [wheel_set_wheel (by simp [length_setU16]; omega)]
  congr 1
  split_ifs <;> simp

/-- All that a step can do. -/
inductive Step (s : Dial) : Action → Dial → Prop where
  | other (r : Report) (h : ¬ isDial r) : Step s (.report r) s
  | moved (r : Report) (h : isDial r) (hclick : s.prevClick = click r) (pending : Bool) :
      Step s (.report r) { s with
        initialized := true, sleepTimer := some (nsToS 120), workPending := pending }
  | pressed (r : Report) (h : isDial r) (hprev : s.prevClick = false) (hclick : click r = true)
      (pending : Bool) :
      Step s (.report r) { s with
        initialized := true, sleepTimer := some (nsToS 120), workPending := pending
        prevClick := true, hapticTimer := some (nsToS 2) }
  | released (r : Report) (h : isDial r) (hprev : s.prevClick = true) (hclick : click r = false)
      (pending : Bool) :
      Step s (.report r) { s with
        initialized := true, sleepTimer := some (nsToS 120), workPending := pending
        prevClick := false, hapticTimer := none }
  | hapticExpired (h : s.hapticTimer.isSome) :
      Step s .hapticExpires { s with
        hapticTimer := none, hapticEnabled := !s.hapticEnabled, workPending := true }
  | slept (h : s.sleepTimer.isSome) :
      Step s .sleepExpires { s with sleepTimer := none, initialized := false }
  | workStarted (h : s.workPending) (hidle : s.workRunning = none) :
      Step s .workStarts { s with workPending := false, workRunning := some s.hapticEnabled }
  | workEnded (hw : Answers) (enable : Bool) (h : s.workRunning = some enable) :
      Step s (.workEnds hw) { s with
        workRunning := none
        currentMultiplier := (setResAndHaptic enable hw s.currentMultiplier).currentMultiplier }

theorem step_report (s : Dial) (r : Report) :
    Step s (.report r) (surfaceDialEvent s r.data).vars := by
  by_cases hdial : isDial r
  · rw [vars_dial hdial]
    by_cases hclick : s.prevClick = click r
    · rw [if_pos hclick, ← hclick]
      exact .moved r hdial hclick _
    · rw [if_neg hclick]
      cases hpress : click r
      · exact .released r hdial (by simpa [hpress] using hclick) hpress _
      · exact .pressed r hdial (by simpa [hpress] using hclick) hpress _
  · rw [event_other hdial]
    exact .other r hdial

theorem step_of_next {a : Action} (h : next s a = some t) : Step s a t := by
  cases a with
  | report r =>
    obtain rfl := Option.some.inj h
    exact step_report s r
  | hapticExpires =>
    rw [next, Option.ite_none_right_eq_some] at h
    obtain rfl := Option.some.inj h.2
    exact .hapticExpired h.1
  | sleepExpires =>
    rw [next, Option.ite_none_right_eq_some] at h
    obtain rfl := Option.some.inj h.2
    exact .slept h.1
  | workStarts =>
    rw [next, Option.ite_none_right_eq_some] at h
    obtain rfl := Option.some.inj h.2
    exact .workStarted h.1.1 h.1.2
  | workEnds hw =>
    cases hrun : s.workRunning with
    | none => simp [next, hrun] at h
    | some enable =>
      simp only [next, hrun, Option.some.injEq] at h
      rw [← h]
      exact .workEnded hw enable hrun

def Held (s : Dial) : Prop := s.hapticTimer.isSome → s.prevClick

theorem held_step {a : Action} (h : Held s) (hnext : next s a = some t) : Held t := by
  cases step_of_next hnext with
  | other r hdial => exact h
  | moved r hdial hclick pending => exact h
  | pressed r hdial hprev hclick pending => exact fun _ => rfl
  | released r hdial hprev hclick pending =>
    intro harmed
    cases harmed
  | hapticExpired harmed =>
    intro harmed
    cases harmed
  | slept harmed => exact h
  | workStarted hpending hidle => exact h
  | workEnded hw enable hrun => exact h

theorem held_run {actions : List Action} (h : run next initial actions = some s) : Held s := by
  have hinitial : Held initial := by
    intro harmed
    cases harmed
  exact run_preserves (fun _ _ _ => held_step) hinitial h

theorem haptic_changes {a : Action} (hnext : next s a = some t)
    (hchange : t.hapticEnabled ≠ s.hapticEnabled) : a = .hapticExpires := by
  cases step_of_next hnext with
  | hapticExpired harmed => rfl
  | other | moved | pressed | released | slept | workStarted | workEnded =>
    exact absurd rfl hchange

/-- How often the timer can still expire before the button changes. -/
def expiriesLeft (s : Dial) : ℕ := if s.hapticTimer.isSome then 1 else 0

/-- A toggle takes an armed timer, and only a press arms it. -/
theorem toggle_costs_expiry {a : Action} (hnext : next s a = some t)
    (hsteady : t.prevClick = s.prevClick) :
    (if t.hapticEnabled = s.hapticEnabled then 0 else 1) + expiriesLeft t ≤ expiriesLeft s := by
  cases step_of_next hnext with
  | pressed r hdial hprev hclick pending =>
    rw [hprev] at hsteady
    cases hsteady
  | released r hdial hprev hclick pending =>
    rw [hprev] at hsteady
    cases hsteady
  | hapticExpired harmed => simp [expiriesLeft, harmed]
  | other | moved | slept | workStarted | workEnded => simp [expiriesLeft]

/-- The law of the haptics. A stretch without a change of the button lies between two
consecutive changes, before the first or after the last. -/
structure TogglesOncePerPress : Prop where
  held : ∀ actions s, run next initial actions = some s → s.hapticTimer.isSome → s.prevClick
  only_expiry : ∀ s a t, next s a = some t → t.hapticEnabled ≠ s.hapticEnabled → a = .hapticExpires
  once : ∀ before s stretch, run next initial before = some s →
    changes Dial.prevClick next s stretch = 0 → changes Dial.hapticEnabled next s stretch ≤ 1
  not_released : ∀ before s stretch, run next initial before = some s →
    changes Dial.prevClick next s stretch = 0 → s.prevClick = false →
      changes Dial.hapticEnabled next s stretch = 0

theorem toggles_once_per_press : TogglesOncePerPress where
  held _ _ hrun := held_run hrun
  only_expiry _ _ _ hnext hchange := haptic_changes hnext hchange
  once before s stretch _ hsteady := by
    have hle : expiriesLeft s ≤ 1 := by
      rw [expiriesLeft]
      split <;> decide
    exact le_trans (changes_le (fun _ _ _ => toggle_costs_expiry) hsteady) hle
  not_released before s stretch hrun hsteady hreleased := by
    have hunarmed : ¬ s.hapticTimer.isSome := by
      intro harmed
      rw [held_run hrun harmed] at hreleased
      cases hreleased
    have hnone : expiriesLeft s = 0 := if_neg hunarmed
    have hle : changes Dial.hapticEnabled next s stretch ≤ expiriesLeft s :=
      changes_le (fun _ _ _ => toggle_costs_expiry) hsteady
    exact Nat.le_zero.1 (hnone ▸ hle)

theorem toInt_scaleWheel (w : Int16) (m : Int32) :
    (scaleWheel w m).toInt = (w.toInt * m.toInt).bmod (2 ^ 16) := by
  rw [scaleWheel, Int32.toInt_toInt16, Int32.toInt_mul, Int16.toInt_toInt32]
  exact Int.bmod_bmod_of_dvd (by decide)

theorem scaleWheel_eq_iff (w : Int16) (m : Int32) :
    (scaleWheel w m).toInt = w.toInt * m.toInt ↔
      -32768 ≤ w.toInt * m.toInt ∧ w.toInt * m.toInt ≤ 32767 := by
  have hlow := (scaleWheel w m).le_toInt
  have hhigh := (scaleWheel w m).toInt_lt
  rw [toInt_scaleWheel] at hlow hhigh ⊢
  constructor
  · intro heq
    omega
  · rintro ⟨hle, hge⟩
    exact Int.bmod_eq_of_le (by simpa using hle) (by omega)

def inRange (r : Report) : Bool := decide (-32767 ≤ (wheel r.data).toInt)

def product (s : Dial) (r : Report) : ℤ := (wheel r.data).toInt * s.currentMultiplier.toInt

/-- The report `r` keeps the sign and the size of the turn. -/
def Scaled (s : Dial) (r : Report) : Prop :=
  let written := (wheel (surfaceDialEvent s r.data).data).toInt
  written = product s r ∨
    -32767 ≤ written ∧ written ≤ 32767 ∧ written.sign = (wheel r.data).toInt.sign

def ScalesWheel (actions : List Action) : Prop :=
  ∀ before r rest s, actions = before ++ .report r :: rest → run next initial before = some s →
    isDial r → inRange r → Scaled s r

def Fits (s : Dial) : Action → Prop
  | .report r => isDial r → inRange r → -32768 ≤ product s r ∧ product s r ≤ 32767
  | _ => True

instance instDecidableFits : ∀ s a, Decidable (Fits s a)
  | s, .report r => inferInstanceAs (Decidable (isDial r → inRange r →
      -32768 ≤ product s r ∧ product s r ≤ 32767))
  | _, .hapticExpires => isTrue trivial
  | _, .sleepExpires => isTrue trivial
  | _, .workStarts => isTrue trivial
  | _, .workEnds _ => isTrue trivial

theorem scaled_of_fits (h : isDial r) (hfits : -32768 ≤ product s r ∧ product s r ≤ 32767) :
    Scaled s r := by
  left
  rw [wheel_dial h]
  exact (scaleWheel_eq_iff _ _).2 hfits

/-- A run in which every product fits scales every report. -/
theorem scales_wheel {actions : List Action} (h : Meets Fits next initial actions) :
    ScalesWheel actions := by
  rintro before r rest s rfl hrun hdial hrange
  exact scaled_of_fits hdial (meets_at h hrun hdial hrange)

def wheelReport (low high : UInt8) : Report :=
  .ofBytes [DIAL_INPUT_REPORT_ID, 0, low, high, 0, 0, 0, 0, 0]

def granted : Action := .workEnds ⟨true, List.replicate 8 0, rfl, 8, 5⟩

def wake : List Action := [.report (wheelReport 0 0), .workStarts, granted]

def lowResolution : Dial := ⟨true, false, true, LOW_MULTIPLIER, none, some (nsToS 120), false, none⟩

theorem run_wake : run next initial wake = some lowResolution := by decide

/-- A turn by 300 in low resolution comes out as a turn the other way. -/
theorem turn_wraps : ¬ ScalesWheel (wake ++ [.report (wheelReport 0x2c 0x01)]) := by
  intro h
  have hproduct : product lowResolution (wheelReport 0x2c 0x01) = 36000 := by decide
  have hin : (wheel (wheelReport 0x2c 0x01).data).toInt.sign = 1 := by decide
  have hout : (wheel (surfaceDialEvent lowResolution (wheelReport 0x2c 0x01).data).data).toInt =
      -29536 := by decide
  rcases h wake (wheelReport 0x2c 0x01) [] lowResolution rfl run_wake (by decide) (by decide) with
    heq | ⟨-, -, hsign⟩
  · rw [hout, hproduct] at heq
    exact absurd heq (by decide)
  · rw [hout, hin] at hsign
    exact absurd hsign (by decide)

/-- A turn by 200 fits. -/
theorem turn_scales : ScalesWheel (wake ++ [.report (wheelReport 0xc8 0x00)]) :=
  scales_wheel (by decide)

/-- Whichever of the two is set, a full turn of the dial comes out at the same length. -/
theorem resolution_mul_multiplier (enable : Bool) (hw : Answers) :
    (getU16 (featureReport enable hw.feature) 1).toNat * (multiplierOf enable).toInt = 8640 := by
  obtain ⟨allocated, feature, hlen, setReport, outputReport⟩ := hw
  rcases feature with _ | ⟨a, _ | ⟨b, _ | ⟨c, feature⟩⟩⟩ <;> simp at hlen
  cases enable <;> simp [featureReport, stores, getU16, byte]
  all_goals decide

end SurfaceDial
