import UdevHidBpf.VendorPads

/-! # The Huion Inspiroy Dial 2

In default mode pad and dials report apart and share one button byte of what is sent. In raw
mode the pad has two dials. -/
namespace Dial2

open Transducers DeviceEvents VendorPads

def PAD_REPORT_ID : UInt8 := 3
def VENDOR_REPORT_ID : UInt8 := 8
def DIAL_REPORT_ID : UInt8 := 17

/-- The `static` variable of the program and the file-scope one, both zero at load. -/
structure Vars where
  button : UInt8
  lastButtonState : UInt8
  deriving DecidableEq, Repr

def keyButton : ℕ → UInt8
  | 0x050000 => 0x01
  | 0x080000 => 0x02
  | 0x0c0000 => 0x04
  | 0xe01600 => 0x08
  | 0x2c0000 => 0x10
  | 0xe0e21d => 0x20
  | _ => 0

def padKey (data : List UInt8) : ℕ :=
  (byte data 2).toNat <<< 16 ||| (byte data 3).toNat <<< 8 ||| (byte data 4).toNat

def dialValue (data : List UInt8) : UInt16 :=
  (byte data 3).toUInt16 <<< 8 ||| (byte data 2).toUInt16

/-- `!!data[1] << 6`. -/
def dialPress (data : List UInt8) : UInt8 := (if byte data 1 ≠ 0 then (1 : UInt8) else 0) <<< 6

/-- A pad report in raw mode: `struct pad_report` goes over the report in place. -/
def vendorPadEvent (s : Vars) (data : List UInt8) : Called Vars :=
  let dials : UInt8 × UInt8 :=
    if byte data 1 = 0xf1 then
      let d := if byte data 5 = 2 then 0xff else byte data 5
      if byte data 3 = 1 then (d, 0) else (0, d)
    else (0, 0)
  let lastButtonState := if byte data 1 = 0xf1 then s.lastButtonState else byte data 4
  ⟨{ s with lastButtonState },
    stores data [(0, PAD_REPORT_ID), (1, 0), (2, 0), (3, 0), (4, lastButtonState), (5, dials.1),
      (6, dials.2)], 7⟩

def dial2FixEvents (s : Vars) (buffer : List UInt8) : Called Vars :=
  match hidBpfGetData buffer 0 16 with
  | none => ⟨s, buffer, 0⟩
  | some data =>
    if byte data 0 = PAD_REPORT_ID then
      let button := s.button &&& 0xc0 ||| keyButton (padKey data)
      ⟨{ s with button }, [PAD_REPORT_ID, 0, 0, 0, 0, button, 0, 0] ++ data.drop 8, 8⟩
    else if byte data 0 = DIAL_REPORT_ID then
      let button := s.button &&& 0x3f ||| dialPress data
      ⟨{ s with button },
        [PAD_REPORT_ID, 0, 0, 0, (dialValue data).toUInt8, button] ++ data.drop 6, 6⟩
    else if byte data 0 = VENDOR_REPORT_ID then
      if byte data 1 &&& 0x20 ≠ 0 then vendorPadEvent s data else ⟨s, data, 0⟩
    else ⟨s, data, 0⟩

def dial2 : Transducer Vars Report (Option (List UInt8)) := device ⟨0, 0⟩ dial2FixEvents

def isPad (r : Report) : Bool := byte r.data 0 == PAD_REPORT_ID

def isDial (r : Report) : Bool := byte r.data 0 == DIAL_REPORT_ID

def isVendorPad (r : Report) : Bool :=
  byte r.data 0 == VENDOR_REPORT_ID && hasBits (byte r.data 1) 0x20

def isVendorButton (r : Report) : Bool := isVendorPad r && !isWheel r

def padButtons (r : Report) : UInt8 := keyButton (padKey r.data)

/-- The default mode after `before`: pad buttons and dial button side by side in byte 5, the
dial in byte 4. -/
def SendsDefault (before : List Report) (x : Report) : Prop :=
  ∃ out, dial2.output before x = some out ∧ byte out 0 = PAD_REPORT_ID ∧
    byte out 5 &&& 0x3f = (Transducer.mostRecent isPad (before ++ [x])).elim 0 padButtons ∧
    (hasBits (byte out 5) 0x40 ↔
      ∃ d, Transducer.mostRecent isDial (before ++ [x]) = some d ∧ byte d.data 1 ≠ 0) ∧
    ¬ hasBits (byte out 5) 0x80 ∧
    (isPad x → byte out 4 = 0) ∧
    (isDial x → (byte out 4).toNat = (dialValue x.data).toNat % 256)

/-- The raw mode after `before`: buttons in byte 4, and a turn of one of the dials in bytes 5
and 6. -/
def SendsVendor (before : List Report) (x : Report) : Prop :=
  ∃ out, dial2.output before x = some out ∧ byte out 0 = PAD_REPORT_ID ∧
    byte out 4 = (Transducer.mostRecent isVendorButton (before ++ [x])).elim 0
      (fun b => byte b.data 4) ∧
    (byte out 5 = 0 ∨ byte out 6 = 0) ∧
    (¬ isWheel x → byte out 5 = 0 ∧ byte out 6 = 0) ∧
    (isWheel x → ∀ n, turn (byte x.data 5) = some n →
      (byte out (if byte x.data 3 = 1 then 5 else 6)).toInt8.toInt = n)

section masks

variable {keep mask : UInt8}

theorem merge_and (b p : UInt8) :
    (b &&& keep ||| p) &&& mask = b &&& (keep &&& mask) ||| p &&& mask := by
  apply UInt8.eq_of_toBitVec_eq
  ext i hi
  simp [Bool.and_or_distrib_right, Bool.and_assoc]

theorem merge_replaced (h : keep &&& mask = 0) (b p : UInt8) :
    (b &&& keep ||| p) &&& mask = p &&& mask := by
  rw [merge_and, h, UInt8.and_zero, UInt8.zero_or]

theorem merge_kept (h : keep &&& mask = mask) {p : UInt8} (hp : p &&& mask = 0) (b : UInt8) :
    (b &&& keep ||| p) &&& mask = b &&& mask := by
  rw [merge_and, h, hp, UInt8.or_zero]

end masks

theorem key_button_masked (key : ℕ) : keyButton key &&& 0x3f = keyButton key ∧
    keyButton key &&& 0x40 = 0 ∧ keyButton key &&& 0x80 = 0 := by
  unfold keyButton
  split <;> decide

theorem dial_press_masked (data : List UInt8) : dialPress data &&& 0x3f = 0 ∧
    (hasBits (dialPress data) 0x40 ↔ byte data 1 ≠ 0) ∧ dialPress data &&& 0x80 = 0 := by
  rw [dialPress]
  by_cases hpress : byte data 1 = 0
  · rw [if_neg (not_not.2 hpress)]
    exact ⟨by decide, iff_of_false (by decide) (not_not.2 hpress), by decide⟩
  · rw [if_pos hpress]
    exact ⟨by decide, iff_of_true (by decide) hpress, by decide⟩

variable {s : Vars} {r : Report}

theorem step_pad (h : isPad r) : dial2.step s r =
    ({ s with button := s.button &&& 0xc0 ||| padButtons r },
      some [PAD_REPORT_ID, 0, 0, 0, 0, s.button &&& 0xc0 ||| padButtons r, 0, 0]) := by
  have hid : byte r.data 0 = PAD_REPORT_ID := by simpa [isPad] using h
  have hevent : dial2FixEvents s r.data =
      ⟨{ s with button := s.button &&& 0xc0 ||| padButtons r },
        [PAD_REPORT_ID, 0, 0, 0, 0, s.button &&& 0xc0 ||| padButtons r, 0, 0] ++ r.data.drop 8,
        8⟩ := by
    simp only [dial2FixEvents, get_data_report r (by decide : 16 ≤ 64), if_pos hid, padButtons]
  exact device_copies (by simp) hevent

theorem step_dial (h : isDial r) : dial2.step s r =
    ({ s with button := s.button &&& 0x3f ||| dialPress r.data },
      some [PAD_REPORT_ID, 0, 0, 0, (dialValue r.data).toUInt8,
        s.button &&& 0x3f ||| dialPress r.data]) := by
  have hid : byte r.data 0 = DIAL_REPORT_ID := by simpa [isDial] using h
  have hevent : dial2FixEvents s r.data =
      ⟨{ s with button := s.button &&& 0x3f ||| dialPress r.data },
        [PAD_REPORT_ID, 0, 0, 0, (dialValue r.data).toUInt8,
          s.button &&& 0x3f ||| dialPress r.data] ++ r.data.drop 6, 6⟩ := by
    simp only [dial2FixEvents, get_data_report r (by decide : 16 ≤ 64), hid, if_true]
    exact if_neg (by decide)
  exact device_copies (by simp) hevent

def vendorButtons (s : Vars) (r : Report) : UInt8 :=
  if isWheel r then s.lastButtonState else byte r.data 4

def dialBytes (r : Report) : UInt8 × UInt8 :=
  if isWheel r then
    if byte r.data 3 = 1 then (wheelByte (byte r.data 5), 0) else (0, wheelByte (byte r.data 5))
  else (0, 0)

theorem step_vendor_pad (h : isVendorPad r) : dial2.step s r =
    ({ s with lastButtonState := vendorButtons s r },
      some [PAD_REPORT_ID, 0, 0, 0, vendorButtons s r, (dialBytes r).1, (dialBytes r).2]) := by
  obtain ⟨hid, hflag⟩ : byte r.data 0 = VENDOR_REPORT_ID ∧ byte r.data 1 &&& 0x20 ≠ 0 := by
    simpa [isVendorPad, hasBits] using h
  have hwheel : byte r.data 1 = 0xf1 ↔ isWheel r := by simp [isWheel]
  have hevent : dial2FixEvents s r.data = vendorPadEvent s r.data := by
    simp only [dial2FixEvents, get_data_report r (by decide : 16 ≤ 64), hid, if_true, if_pos hflag]
    rw [if_neg (by decide), if_neg (by decide)]
  simp only [vendorPadEvent, hwheel] at hevent
  exact device_sends (by simp) (by simp) hevent

theorem vars_other (hpad : ¬ isPad r) (hdial : ¬ isDial r) (hvendor : ¬ isVendorPad r) :
    (dial2.step s r).1 = s := by
  have hpad' : byte r.data 0 ≠ PAD_REPORT_ID := by simpa [isPad] using hpad
  have hdial' : byte r.data 0 ≠ DIAL_REPORT_ID := by simpa [isDial] using hdial
  rw [dial2, device_step]
  simp only [dial2FixEvents, get_data_report r (by decide : 16 ≤ 64), if_neg hpad', if_neg hdial']
  by_cases hid : byte r.data 0 = VENDOR_REPORT_ID
  · have hflag : byte r.data 1 &&& 0x20 = 0 := by simpa [isVendorPad, hasBits, hid] using hvendor
    rw [if_pos hid, if_neg (by simpa using hflag)]
  · rw [if_neg hid]

theorem pad_not_dial (h : isPad r) : ¬ isDial r := by
  have hid : byte r.data 0 = PAD_REPORT_ID := by simpa [isPad] using h
  rw [isDial, hid]
  decide

/-- The default-mode byte is written by default-mode reports alone. -/
theorem button_kept (hpad : ¬ isPad r) (hdial : ¬ isDial r) :
    (dial2.step s r).1.button = s.button := by
  by_cases hvendor : isVendorPad r
  · rw [step_vendor_pad hvendor]
  · rw [vars_other hpad hdial hvendor]

theorem pad_buttons_after (run : List Report) : (dial2.after run).button &&& 0x3f =
    (Transducer.mostRecent isPad run).elim 0 padButtons := by
  apply dial2.after_mostRecent (fun s => s.button &&& 0x3f) isPad padButtons
  · intro s x hpad
    rw [step_pad hpad]
    exact (merge_replaced (by decide) _ _).trans (key_button_masked _).1
  · intro s x hpad
    by_cases hdial : isDial x
    · rw [step_dial hdial]
      exact merge_kept (by decide) (dial_press_masked _).1 _
    · rw [button_kept (by simpa using hpad) hdial]

theorem dial_button_after (run : List Report) : hasBits (dial2.after run).button 0x40 =
    (Transducer.mostRecent isDial run).elim false (fun d => byte d.data 1 != 0) := by
  apply dial2.after_mostRecent (fun s => hasBits s.button 0x40) isDial
    (fun d => byte d.data 1 != 0)
  · intro s x hdial
    rw [step_dial hdial]
    dsimp only
    rw [hasBits, merge_replaced (by decide), ← hasBits, Bool.eq_iff_iff, bne_iff_ne]
    exact (dial_press_masked _).2.1
  · intro s x hdial
    by_cases hpad : isPad x
    · rw [step_pad hpad]
      dsimp only
      rw [hasBits, padButtons, merge_kept (by decide) (key_button_masked _).2.1, ← hasBits]
    · rw [button_kept hpad (by simpa using hdial)]

theorem top_bit_after (run : List Report) : (dial2.after run).button &&& 0x80 = 0 := by
  apply dial2.after_invariant (I := fun _ s => s.button &&& 0x80 = 0) rfl
  intro before x s htop
  by_cases hpad : isPad x
  · rw [step_pad hpad]
    exact (merge_kept (by decide) (key_button_masked _).2.2 _).trans htop
  by_cases hdial : isDial x
  · rw [step_dial hdial]
    exact (merge_replaced (by decide) _ _).trans (dial_press_masked _).2.2
  · rw [button_kept hpad hdial]
    exact htop

theorem vendor_buttons_after (run : List Report) : (dial2.after run).lastButtonState =
    (Transducer.mostRecent isVendorButton run).elim 0 (fun b => byte b.data 4) := by
  apply dial2.after_mostRecent Vars.lastButtonState isVendorButton (fun b => byte b.data 4)
  · intro s x hbutton
    obtain ⟨hvendor, hwheel⟩ : isVendorPad x ∧ ¬ isWheel x := by
      simpa [isVendorButton] using hbutton
    rw [step_vendor_pad hvendor, vendorButtons, if_neg hwheel]
  · intro s x hbutton
    by_cases hvendor : isVendorPad x
    · have hwheel : isWheel x := by simpa [isVendorButton, hvendor] using hbutton
      rw [step_vendor_pad hvendor, vendorButtons, if_pos hwheel]
    by_cases hpad : isPad x
    · rw [step_pad hpad]
    by_cases hdial : isDial x
    · rw [step_dial hdial]
    · rw [vars_other hpad hdial hvendor]

theorem default_byte (before : List Report) (x : Report) :
    let button := (dial2.after (before ++ [x])).button
    button &&& 0x3f = (Transducer.mostRecent isPad (before ++ [x])).elim 0 padButtons ∧
      (hasBits button 0x40 ↔
        ∃ d, Transducer.mostRecent isDial (before ++ [x]) = some d ∧ byte d.data 1 ≠ 0) ∧
      ¬ hasBits button 0x80 := by
  refine ⟨pad_buttons_after _, ?_, ?_⟩
  · rw [dial_button_after]
    cases Transducer.mostRecent isDial (before ++ [x]) <;> simp
  · rw [hasBits, top_bit_after]
    decide

theorem sends_default {x : Report} (h : isPad x ∨ isDial x) (before : List Report) :
    SendsDefault before x := by
  obtain ⟨hpads, hdial, htop⟩ := default_byte before x
  rw [Transducer.after_concat] at hpads hdial htop
  rcases h with h | h
  · have hout := congrArg Prod.snd (step_pad (s := dial2.after before) h)
    rw [step_pad h] at hpads hdial htop
    refine ⟨_, hout, rfl, hpads, hdial, htop, fun _ => rfl, ?_⟩
    intro hdial
    exact absurd hdial (pad_not_dial h)
  · have hout := congrArg Prod.snd (step_dial (s := dial2.after before) h)
    rw [step_dial h] at hpads hdial htop
    refine ⟨_, hout, rfl, hpads, hdial, htop, ?_, ?_⟩
    · intro hpad
      exact absurd h (pad_not_dial hpad)
    · intro _
      exact UInt16.toNat_toUInt8 _

theorem sends_vendor {x : Report} (h : isVendorPad x) (before : List Report) :
    SendsVendor before x := by
  have hbuttons := vendor_buttons_after (before ++ [x])
  have hout := congrArg Prod.snd (step_vendor_pad (s := dial2.after before) h)
  rw [Transducer.after_concat, step_vendor_pad h] at hbuttons
  refine ⟨_, hout, rfl, hbuttons, ?_, ?_, ?_⟩
  · change (dialBytes x).1 = 0 ∨ (dialBytes x).2 = 0
    rw [dialBytes]
    split_ifs <;> simp
  · intro hwheel
    change (dialBytes x).1 = 0 ∧ (dialBytes x).2 = 0
    rw [dialBytes, if_neg hwheel]
    exact ⟨rfl, rfl⟩
  · intro hwheel n hn
    rw [← toInt_wheelByte hn, dialBytes, if_pos hwheel]
    by_cases hone : byte x.data 3 = 1
    · rw [if_pos hone, if_pos hone]
      rfl
    · rw [if_neg hone, if_neg hone]
      rfl

/-- Buttons and dials stay apart, whatever was reported before. -/
theorem keeps_buttons_and_dials_apart (before : List Report) (x : Report) :
    (isPad x ∨ isDial x → SendsDefault before x) ∧ (isVendorPad x → SendsVendor before x) :=
  ⟨fun h => sends_default h before, fun h => sends_vendor h before⟩

/-- The dial is pressed and turned back while the first button is held; then in raw mode. -/
theorem keeps_apart_pressed :
    SendsDefault [.ofBytes [PAD_REPORT_ID, 0, 0x05, 0, 0, 0, 0, 0]]
        (.ofBytes [DIAL_REPORT_ID, 1, 0xff, 0xff, 0, 0, 0, 0, 0]) ∧
      SendsVendor [.ofBytes [VENDOR_REPORT_ID, 0xe0, 1, 1, 0x04, 0, 0, 0, 0, 0, 0, 0]]
        (.ofBytes [VENDOR_REPORT_ID, 0xf1, 1, 2, 0, 2, 0, 0, 0, 0, 0, 0]) :=
  ⟨(keeps_buttons_and_dials_apart _ _).1 (Or.inr (by decide)),
    (keeps_buttons_and_dials_apart _ _).2 (by decide)⟩

end Dial2
