import UdevHidBpf.DeviceEvents

/-! # The Huion Kamvas 13 and 16, third generation

Both tablets report pen, buttons and wheels under one id. Their programs differ in what they
do to a pen report. -/
namespace KamvasGen3

open Transducers DeviceEvents

def VENDOR_REPORT_ID : UInt8 := 8
def VENDOR_REPORT_LENGTH : ℕ := 14
def CUSTOM_PAD_REPORT_ID : UInt8 := 9
def VENDOR_REPORT_SUBTYPE_PEN : UInt8 := 0x08
def VENDOR_REPORT_SUBTYPE_PEN_OUT : UInt8 := 0x00
def VENDOR_REPORT_SUBTYPE_BUTTONS : UInt8 := 0x0e
def VENDOR_REPORT_SUBTYPE_WHEELS : UInt8 := 0x0f

def reportSubtype (data : List UInt8) : UInt8 := byte data 1 >>> 4 &&& 0x0f

/-- The `__s8` values of top and bottom wheel; -1 is the byte 0xff. -/
def wheelTurns (data : List UInt8) : UInt8 × UInt8 :=
  let turn := if byte data 5 = 1 then 1 else 0xff
  if byte data 3 = 1 then (turn, 0)
  else if byte data 3 = 2 then (0, turn)
  else (0, 0)

def filteredButtons (lastButtonState : UInt8) (data : List UInt8) : UInt8 :=
  if lastButtonState ≠ 0x00 ∧ byte data 4 ≠ 0x00 then lastButtonState else byte data 4

/-- `struct pad_report` goes over the report in place; its padding bits stay. -/
def padEvent (lastButtonState : UInt8) (data : List UInt8) : Called UInt8 :=
  let reportSubtype := reportSubtype data
  let wheels :=
    if reportSubtype = VENDOR_REPORT_SUBTYPE_WHEELS then wheelTurns data else (0, 0)
  let lastButtonState :=
    if reportSubtype = VENDOR_REPORT_SUBTYPE_BUTTONS then filteredButtons lastButtonState data
    else lastButtonState
  ⟨lastButtonState,
    stores data [(0, CUSTOM_PAD_REPORT_ID), (1, byte data 1 &&& 0xfe), (2, 0), (3, 0),
      (4, lastButtonState), (5, wheels.1), (6, wheels.2)], 7⟩

/-- Either program, by what it does to a pen report. The variable is `last_button_state`. -/
def fixEvent (pen : List UInt8 → List UInt8) (lastButtonState : UInt8) (size : ℕ)
    (buffer : List UInt8) : Called UInt8 :=
  match hidBpfGetData buffer 0 VENDOR_REPORT_LENGTH with
  | none => ⟨lastButtonState, buffer, 0⟩
  | some data =>
    if size ≠ VENDOR_REPORT_LENGTH then ⟨lastButtonState, data, 0⟩
    else if byte data 0 ≠ VENDOR_REPORT_ID then ⟨lastButtonState, data, 0⟩
    else if reportSubtype data = VENDOR_REPORT_SUBTYPE_PEN ∨
        reportSubtype data = VENDOR_REPORT_SUBTYPE_PEN_OUT then ⟨lastButtonState, pen data, 0⟩
    else if reportSubtype data = VENDOR_REPORT_SUBTYPE_BUTTONS ∨
        reportSubtype data = VENDOR_REPORT_SUBTYPE_WHEELS then padEvent lastButtonState data
    else ⟨lastButtonState, data, 0⟩

def invertYTilt (data : List UInt8) : List UInt8 := data.set 11 (-byte data 11)

/-- The third byte of X moves next to the other two, and makes the bytes after them one
place longer; each assignment reads what the ones before it left. -/
def rearrange (data : List UInt8) : List UInt8 :=
  let x24 := byte data 8
  let data := data.set 8 (byte data 7)
  let data := data.set 7 (byte data 6)
  let data := data.set 6 (byte data 5)
  let data := data.set 5 (byte data 4)
  data.set 4 x24

def hidFixEventHuionKamvas13Gen3 : UInt8 → ℕ → List UInt8 → Called UInt8 := fixEvent invertYTilt

def hidFixEventHuionKamvas16Gen3 : UInt8 → ℕ → List UInt8 → Called UInt8 :=
  fixEvent fun data => rearrange (invertYTilt data)

def kamvas13Gen3 : Transducer UInt8 Report (Option (List UInt8)) :=
  sizedDevice 0 hidFixEventHuionKamvas13Gen3

def kamvas16Gen3 : Transducer UInt8 Report (Option (List UInt8)) :=
  sizedDevice 0 hidFixEventHuionKamvas16Gen3

def isVendor (r : Report) : Bool :=
  decide (r.size = VENDOR_REPORT_LENGTH) && byte r.data 0 == VENDOR_REPORT_ID

def isPen (r : Report) : Bool :=
  isVendor r && (reportSubtype r.data == VENDOR_REPORT_SUBTYPE_PEN ||
    reportSubtype r.data == VENDOR_REPORT_SUBTYPE_PEN_OUT)

def isButtons (r : Report) : Bool :=
  isVendor r && reportSubtype r.data == VENDOR_REPORT_SUBTYPE_BUTTONS

def isWheels (r : Report) : Bool :=
  isVendor r && reportSubtype r.data == VENDOR_REPORT_SUBTYPE_WHEELS

def isPad (r : Report) : Bool := isButtons r || isWheels r

def outButtons (out : List UInt8) : UInt8 := byte out 4

def topWheel (out : List UInt8) : ℤ := (byte out 5).toInt8.toInt

def bottomWheel (out : List UInt8) : ℤ := (byte out 6).toInt8.toInt

section law

variable (m : Transducer UInt8 Report (Option (List UInt8)))

def shownButtons (before : List Report) : UInt8 :=
  ((m.lastOutput isPad before).bind id).elim 0 outButtons

/-- A button is never exchanged for another, and let go only when the report says so. -/
structure SteadyButtons (shown : UInt8) (x : Report) (out : List UInt8) : Prop where
  not_exchanged : shown ≠ 0 → outButtons out ≠ 0 → outButtons out = shown
  released : shown ≠ 0 → outButtons out = 0 → isButtons x ∧ byte x.data 4 = 0
  wheels_keep : isWheels x → outButtons out = shown

structure SoundWheels (x : Report) (out : List UInt8) : Prop where
  top : topWheel out = -1 ∨ topWheel out = 0 ∨ topWheel out = 1
  bottom : bottomWheel out = -1 ∨ bottomWheel out = 0 ∨ bottomWheel out = 1
  one : topWheel out = 0 ∨ bottomWheel out = 0
  buttons : isButtons x → topWheel out = 0 ∧ bottomWheel out = 0

/-- What the program does with a report `x` after `before`. -/
def NeverFakesButtons : Prop :=
  ∀ before x,
    (isPad x → ∃ out, m.output before x = some out ∧ byte out 0 = CUSTOM_PAD_REPORT_ID ∧
      SteadyButtons (shownButtons m before) x out ∧ SoundWheels x out) ∧
    (¬ isVendor x → m.output before x = some x.bytes ∧ m.after (before ++ [x]) = m.after before)

end law

section step

variable {pen : List UInt8 → List UInt8} {s : UInt8} {r : Report}

def nextButtons (s : UInt8) (r : Report) : UInt8 :=
  if isButtons r then filteredButtons s r.data else s

def sentWheels (r : Report) : UInt8 × UInt8 := if isWheels r then wheelTurns r.data else (0, 0)

theorem vendor_iff :
    isVendor r ↔ r.size = VENDOR_REPORT_LENGTH ∧ byte r.data 0 = VENDOR_REPORT_ID := by
  simp [isVendor]

theorem pad_vendor (h : isPad r) : isVendor r := by
  simp only [isPad, isButtons, isWheels, ← Bool.and_or_distrib_left, Bool.and_eq_true] at h
  exact h.1

theorem pen_vendor (h : isPen r) : isVendor r := by
  rw [isPen, Bool.and_eq_true] at h
  exact h.1

theorem pad_not_pen (h : isPad r) : ¬ isPen r := by
  have hsubtype : reportSubtype r.data = VENDOR_REPORT_SUBTYPE_BUTTONS ∨
      reportSubtype r.data = VENDOR_REPORT_SUBTYPE_WHEELS := by
    simpa [isPad, isButtons, isWheels, pad_vendor h] using h
  rw [isPen, pad_vendor h]
  rcases hsubtype with hsubtype | hsubtype <;> rw [hsubtype] <;> decide

theorem buttons_not_wheels (h : isButtons r) : ¬ isWheels r := by
  obtain ⟨hvendor, hsubtype⟩ : isVendor r ∧
      reportSubtype r.data = VENDOR_REPORT_SUBTYPE_BUTTONS := by
    simpa [isButtons] using h
  rw [isWheels, hvendor, hsubtype]
  decide

theorem event_vendor (h : isVendor r) : fixEvent pen s r.size r.data =
    if isPen r then ⟨s, pen r.data, 0⟩
    else if isPad r then padEvent s r.data
    else ⟨s, r.data, 0⟩ := by
  obtain ⟨hsize, hid⟩ := vendor_iff.1 h
  have hpen : reportSubtype r.data = VENDOR_REPORT_SUBTYPE_PEN ∨
      reportSubtype r.data = VENDOR_REPORT_SUBTYPE_PEN_OUT ↔ isPen r := by simp [isPen, h]
  have hpad : reportSubtype r.data = VENDOR_REPORT_SUBTYPE_BUTTONS ∨
      reportSubtype r.data = VENDOR_REPORT_SUBTYPE_WHEELS ↔ isPad r := by
    simp [isPad, isButtons, isWheels, h]
  simp only [fixEvent, get_data_report r (by decide : VENDOR_REPORT_LENGTH ≤ 64),
    if_neg (not_not.2 hsize), if_neg (not_not.2 hid), hpen, hpad]

theorem step_pad (h : isPad r) : (sizedDevice 0 (fixEvent pen)).step s r = (nextButtons s r,
    some [CUSTOM_PAD_REPORT_ID, byte r.data 1 &&& 0xfe, 0, 0, nextButtons s r, (sentWheels r).1,
      (sentWheels r).2]) := by
  have hvendor := pad_vendor h
  have hbuttons : reportSubtype r.data = VENDOR_REPORT_SUBTYPE_BUTTONS ↔ isButtons r := by
    simp [isButtons, hvendor]
  have hwheels : reportSubtype r.data = VENDOR_REPORT_SUBTYPE_WHEELS ↔ isWheels r := by
    simp [isWheels, hvendor]
  have hevent : fixEvent pen s r.size r.data = _ := event_vendor hvendor
  rw [if_neg (pad_not_pen h), if_pos h] at hevent
  simp only [padEvent, hbuttons, hwheels] at hevent
  exact sizedDevice_sends (by simp) (by simp) hevent

theorem step_pen (h : isPen r) : (sizedDevice 0 (fixEvent pen)).step s r =
    (s, some ((pen r.data).take VENDOR_REPORT_LENGTH)) := by
  have hevent : fixEvent pen s r.size r.data = _ := event_vendor (pen_vendor h)
  rw [if_pos h] at hevent
  rw [sizedDevice_passes hevent, (vendor_iff.1 (pen_vendor h)).1]

theorem step_not_vendor (h : ¬ isVendor r) :
    (sizedDevice 0 (fixEvent pen)).step s r = (s, some r.bytes) := by
  apply sizedDevice_passes
  simp only [fixEvent, get_data_report r (by decide : VENDOR_REPORT_LENGTH ≤ 64)]
  by_cases hsize : r.size = VENDOR_REPORT_LENGTH
  · have hid : byte r.data 0 ≠ VENDOR_REPORT_ID := fun hid => h (vendor_iff.2 ⟨hsize, hid⟩)
    rw [if_neg (not_not.2 hsize), if_pos hid]
  · rw [if_pos hsize]

theorem vars_not_pad (h : ¬ isPad r) : ((sizedDevice 0 (fixEvent pen)).step s r).1 = s := by
  by_cases hvendor : isVendor r
  · by_cases hpen : isPen r
    · rw [step_pen hpen]
    · have hevent : fixEvent pen s r.size r.data = _ := event_vendor hvendor
      rw [if_neg hpen, if_neg h] at hevent
      rw [sizedDevice_passes hevent]
  · rw [step_not_vendor hvendor]

end step

section run

variable (pen : List UInt8 → List UInt8)

/-- What is remembered is what was shown last. -/
theorem after_eq_shown (before : List Report) :
    (sizedDevice 0 (fixEvent pen)).after before =
      shownButtons (sizedDevice 0 (fixEvent pen)) before := by
  induction before using List.reverseRecOn with
  | nil => rfl
  | append_singleton before x ih =>
    rw [Transducer.after_concat, shownButtons, Transducer.lastOutput_concat]
    by_cases hpad : isPad x
    · rw [if_pos hpad, Transducer.output, step_pad hpad]
      rfl
    · rw [if_neg hpad, vars_not_pad hpad, ih, shownButtons]

theorem steady_buttons {s : UInt8} {x : Report} {out : List UInt8}
    (hout : outButtons out = nextButtons s x) : SteadyButtons s x out := by
  rw [nextButtons] at hout
  by_cases hbuttons : isButtons x
  · rw [if_pos hbuttons, filteredButtons] at hout
    refine ⟨?_, ?_, fun hwheels => absurd hwheels (buttons_not_wheels hbuttons)⟩
    · intro hs hshown
      by_cases hzero : byte x.data 4 = 0
      · rw [if_neg (not_and.2 fun _ => not_not.2 hzero)] at hout
        exact absurd (hout.trans hzero) hshown
      · rw [hout, if_pos ⟨hs, hzero⟩]
    · intro hs hshown
      by_cases hzero : byte x.data 4 = 0
      · exact ⟨hbuttons, hzero⟩
      · rw [if_pos ⟨hs, hzero⟩] at hout
        exact absurd (hout.symm.trans hshown) hs
  · rw [if_neg hbuttons] at hout
    exact ⟨fun _ _ => hout, fun hs hshown => absurd (hout.symm.trans hshown) hs, fun _ => hout⟩

theorem sound_wheels {x : Report} {out : List UInt8} (htop : byte out 5 = (sentWheels x).1)
    (hbottom : byte out 6 = (sentWheels x).2) : SoundWheels x out := by
  have hturn : ∀ b ∈ ([0, 1, 0xff] : List UInt8),
      b.toInt8.toInt = -1 ∨ b.toInt8.toInt = 0 ∨ b.toInt8.toInt = 1 := by decide
  have hsent : (sentWheels x).1 ∈ ([0, 1, 0xff] : List UInt8) ∧
      (sentWheels x).2 ∈ ([0, 1, 0xff] : List UInt8) ∧
      ((sentWheels x).1 = 0 ∨ (sentWheels x).2 = 0) := by
    rw [sentWheels, wheelTurns]
    split_ifs <;> simp
  have hzero : (0 : UInt8).toInt8.toInt = 0 := by decide
  refine ⟨?_, ?_, ?_, ?_⟩
  · rw [topWheel, htop]
    exact hturn _ hsent.1
  · rw [bottomWheel, hbottom]
    exact hturn _ hsent.2.1
  · rw [topWheel, bottomWheel, htop, hbottom]
    exact hsent.2.2.imp (fun h => by rw [h, hzero]) (fun h => by rw [h, hzero])
  · intro hbuttons
    rw [topWheel, bottomWheel, htop, hbottom, sentWheels, if_neg (buttons_not_wheels hbuttons)]
    exact ⟨hzero, hzero⟩

theorem never_fakes_buttons : NeverFakesButtons (sizedDevice 0 (fixEvent pen)) := by
  intro before x
  constructor
  · intro hpad
    have hstep : (sizedDevice 0 (fixEvent pen)).step
        ((sizedDevice 0 (fixEvent pen)).after before) x = _ := step_pad hpad
    refine ⟨_, congrArg Prod.snd hstep, rfl, ?_, sound_wheels rfl rfl⟩
    rw [← after_eq_shown]
    exact steady_buttons rfl
  · intro hvendor
    rw [Transducer.output, Transducer.after_concat, step_not_vendor hvendor]
    exact ⟨rfl, rfl⟩

end run

/-- Neither tablet fakes a button change. -/
theorem kamvas_never_fake_buttons :
    NeverFakesButtons kamvas13Gen3 ∧ NeverFakesButtons kamvas16Gen3 :=
  ⟨never_fakes_buttons _, never_fakes_buttons _⟩

end KamvasGen3
