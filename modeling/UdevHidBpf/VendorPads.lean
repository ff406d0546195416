import UdevHidBpf.Inspiroy2S
import UdevHidBpf.KeydialK20

/-! # Pads in vendor mode

A wheel report carries no buttons and a button report no wheel, but the pad report made of
either has both: the buttons are those of the last button report. -/
namespace VendorPads

open Transducers DeviceEvents

def isWheel (r : Report) : Bool := byte r.data 1 == 0xf1

def wheelByte (direction : UInt8) : UInt8 := if direction = 2 then 0xff else direction

def wheelOf (data : List UInt8) : UInt8 := if byte data 1 = 0xf1 then wheelByte (byte data 5) else 0

def turn : UInt8 → Option ℤ
  | 0 => some 0
  | 1 => some 1
  | 2 => some (-1)
  | _ => none

/-- The pad of a device: button bits from byte 4 on in its reports and in ours, where the
wheel follows them. -/
structure Pad where
  isPad : Report → Bool
  reportId : UInt8
  inBytes : ℕ
  outBytes : ℕ

def Pad.isButton (p : Pad) (r : Report) : Bool := p.isPad r && !isWheel r

def Pad.buttonBits (p : Pad) (r : Report) : ℕ := LittleEndian.value ((r.data.drop 4).take p.inBytes)

def Pad.outButtons (p : Pad) (out : List UInt8) : ℕ :=
  LittleEndian.value ((out.drop 4).take p.outBytes)

def Pad.outWheel (p : Pad) (out : List UInt8) : UInt8 := byte out (4 + p.outBytes)

def PersistsButtons {S : Type*} (m : Transducer S Report (Option (List UInt8))) (p : Pad) : Prop :=
  ∀ before x, p.isPad x → ∃ out, m.output before x = some out ∧
    out.length = 5 + p.outBytes ∧ byte out 0 = p.reportId ∧
    p.outButtons out = (Transducer.mostRecent p.isButton (before ++ [x])).elim 0 p.buttonBits ∧
    (¬ isWheel x → (p.outWheel out).toInt8.toInt = 0) ∧
    (isWheel x → ∀ n, turn (byte x.data 5) = some n → (p.outWheel out).toInt8.toInt = n)

theorem toInt_wheelByte {direction : UInt8} {n : ℤ} (h : turn direction = some n) :
    (wheelByte direction).toInt8.toInt = n := by
  have hall : ∀ d : UInt8, ∀ n ∈ turn d, (wheelByte d).toInt8.toInt = n := by decide +kernel
  exact hall direction n h

/-- One pad report `x`, from a state that holds `held` to one that holds `held'`. -/
structure Pad.Sends (p : Pad) (held held' : ℕ) (x : Report) (out : List UInt8) : Prop where
  length_out : out.length = 5 + p.outBytes
  report_id : byte out 0 = p.reportId
  holds : held' = if isWheel x then held else p.buttonBits x
  buttons : p.outButtons out = held'
  wheel : p.outWheel out = wheelOf x.data

/-- Enough for the law: pad reports send what is held, and only they change it. -/
theorem persists_of_step {S : Type*} {m : Transducer S Report (Option (List UInt8))} {p : Pad}
    (held : S → ℕ) (hinit : held m.init = 0)
    (hpad : ∀ s x, p.isPad x → ∃ out, (m.step s x).2 = some out ∧
      p.Sends (held s) (held (m.step s x).1) x out)
    (hother : ∀ s x, ¬ p.isPad x → held (m.step s x).1 = held s) : PersistsButtons m p := by
  have hset : ∀ s x, p.isButton x = true → held (m.step s x).1 = p.buttonBits x := by
    intro s x hbutton
    obtain ⟨hx, hwheel⟩ : p.isPad x ∧ ¬ isWheel x := by simpa [Pad.isButton] using hbutton
    obtain ⟨out, -, hsends⟩ := hpad s x hx
    rw [hsends.holds, if_neg hwheel]
  have hkeep : ∀ s x, p.isButton x = false → held (m.step s x).1 = held s := by
    intro s x hbutton
    by_cases hx : p.isPad x
    · have hwheel : isWheel x := by simpa [Pad.isButton, hx] using hbutton
      obtain ⟨out, -, hsends⟩ := hpad s x hx
      rw [hsends.holds, if_pos hwheel]
    · exact hother s x hx
  intro before x hx
  obtain ⟨out, hout, hsends⟩ := hpad (m.after before) x hx
  refine ⟨out, hout, hsends.length_out, hsends.report_id, ?_, ?_, ?_⟩
  · have hheld := m.after_mostRecent held p.isButton p.buttonBits hset hkeep (before ++ [x])
    rw [hsends.buttons, ← m.after_concat, hheld, hinit]
  · intro hbutton
    rw [hsends.wheel, wheelOf, if_neg (by simpa [isWheel] using hbutton)]
    rfl
  · intro hturn n hn
    rw [hsends.wheel, wheelOf, if_pos (by simpa [isWheel] using hturn), toInt_wheelByte hn]

theorem value_word16 (w : UInt16) :
    LittleEndian.value [w.toUInt8, (w >>> 8).toUInt8] = w.toNat := by
  have hw : w.toNat < 2 ^ 16 := w.toNat_lt
  simp only [LittleEndian.value, UInt16.toNat_toUInt8, UInt16.toNat_shiftRight]
  simp only [UInt16.reduceToNat, Nat.reduceMod, Nat.shiftRight_eq_div_pow]
  omega

theorem value_word32 (w : UInt32) :
    LittleEndian.value [w.toUInt8, (w >>> 8).toUInt8, (w >>> 16).toUInt8, (w >>> 24).toUInt8] =
      w.toNat := by
  have hw : w.toNat < 2 ^ 32 := w.toNat_lt
  simp only [LittleEndian.value, UInt32.toNat_toUInt8, UInt32.toNat_shiftRight]
  simp only [UInt32.reduceToNat, Nat.reduceMod, Nat.shiftRight_eq_div_pow]
  omega

theorem toNat_word16 (a b : UInt8) :
    (a.toUInt16 ||| b.toUInt16 <<< 8).toNat = LittleEndian.value [a, b] := by
  have ha := a.toNat_lt
  have hb := b.toNat_lt
  rw [or_shift_eq, UInt16.toNat_ofNat', Nat.mod_eq_of_lt (by omega)]
  rfl

theorem toNat_word24 (a b c : UInt8) :
    (a.toUInt32 ||| b.toUInt32 <<< 8 ||| c.toUInt32 <<< 16).toNat =
      LittleEndian.value [a, b, c] := by
  have hb : b.toNat < 2 ^ 8 := b.toNat_lt
  have hc : c.toNat < 2 ^ 8 := c.toNat_lt
  have hlow : (b.toUInt32 <<< 8).toNat = b.toNat <<< 8 := by
    rw [UInt32.toNat_shiftLeft, UInt8.toNat_toUInt32, Nat.shiftLeft_eq, Nat.shiftLeft_eq]
    exact Nat.mod_eq_of_lt (by simp; omega)
  have hhigh : (c.toUInt32 <<< 16).toNat = c.toNat <<< 16 := by
    rw [UInt32.toNat_shiftLeft, UInt8.toNat_toUInt32, Nat.shiftLeft_eq, Nat.shiftLeft_eq]
    exact Nat.mod_eq_of_lt (by simp; omega)
  rw [UInt32.toNat_or, UInt32.toNat_or, hlow, hhigh, UInt8.toNat_toUInt32,
    LittleEndian.value_triple]

namespace Inspiroy2M

def PAD_REPORT_ID : UInt8 := 3
def VENDOR_REPORT_ID : UInt8 := 8

def defaultModeKey : ℕ → UInt8 × UInt8
  | 0x0005 => (1, 0)
  | 0x0711 => (2, 0)
  | 0x0008 => (3, 0)
  | 0x000c => (4, 0)
  | 0x002c => (5, 0)
  | 0x0108 => (6, 0)
  | 0x0116 => (7, 0)
  | 0x051d => (8, 0)
  | 0x012d => (0, -1)
  | 0x012e => (0, 1)
  | _ => (0, 0)

/-- `last_button_state` after a pad report. -/
def buttonState (lastButtonState : UInt16) (data : List UInt8) : UInt16 :=
  if byte data 1 = 0xf1 then lastButtonState
  else (byte data 4).toUInt16 ||| (byte data 5).toUInt16 <<< 8

/-- A pad report in raw mode: `struct pad_report` goes over the report in place. -/
def padEvent (lastButtonState : UInt16) (data : List UInt8) : Called UInt16 :=
  let wheel := wheelOf data
  let lastButtonState := buttonState lastButtonState data
  ⟨lastButtonState,
    stores data [(0, PAD_REPORT_ID), (1, 0), (2, 0), (3, 0), (4, lastButtonState.toUInt8),
      (5, (lastButtonState >>> 8).toUInt8), (6, wheel)], 7⟩

def inspiroy2FixEvents (lastButtonState : UInt16) (buffer : List UInt8) : Called UInt16 :=
  match hidBpfGetData buffer 0 10 with
  | none => ⟨lastButtonState, buffer, 0⟩
  | some data =>
    if byte data 0 = PAD_REPORT_ID then
      let key := defaultModeKey ((byte data 1).toNat <<< 8 ||| (byte data 2).toNat)
      ⟨lastButtonState, [PAD_REPORT_ID, 0, 0, 0, key.2, key.1] ++ data.drop 6, 6⟩
    else if byte data 0 = VENDOR_REPORT_ID then
      if byte data 1 &&& 0x20 ≠ 0 then padEvent lastButtonState data
      else ⟨lastButtonState, data, 0⟩
    else ⟨lastButtonState, data, 0⟩

def inspiroy2 : Transducer UInt16 Report (Option (List UInt8)) := device 0 inspiroy2FixEvents

def pad : Pad where
  isPad r := byte r.data 0 == VENDOR_REPORT_ID && hasBits (byte r.data 1) 0x20
  reportId := PAD_REPORT_ID
  inBytes := 2
  outBytes := 2

variable {s : UInt16} {r : Report}

theorem event_pad (h : pad.isPad r) : inspiroy2FixEvents s r.data = padEvent s r.data := by
  obtain ⟨hid, hflag⟩ : byte r.data 0 = VENDOR_REPORT_ID ∧ byte r.data 1 &&& 0x20 ≠ 0 := by
    simpa [pad, hasBits] using h
  simp only [inspiroy2FixEvents, get_data_report r (by decide : 10 ≤ 64), hid, if_true,
    if_pos hflag]
  exact if_neg (by decide)

theorem vars_not_pad (h : ¬ pad.isPad r) : (inspiroy2FixEvents s r.data).vars = s := by
  simp only [inspiroy2FixEvents, get_data_report r (by decide : 10 ≤ 64)]
  by_cases hdefault : byte r.data 0 = PAD_REPORT_ID
  · rw [if_pos hdefault]
  rw [if_neg hdefault]
  by_cases hid : byte r.data 0 = VENDOR_REPORT_ID
  · have hflag : byte r.data 1 &&& 0x20 = 0 := by simpa [pad, hasBits, hid] using h
    rw [if_pos hid, if_neg (by simpa using hflag)]
  · rw [if_neg hid]

theorem step_pad (h : pad.isPad r) : inspiroy2.step s r = (buttonState s r.data,
    some [PAD_REPORT_ID, 0, 0, 0, (buttonState s r.data).toUInt8,
      (buttonState s r.data >>> 8).toUInt8, wheelOf r.data]) :=
  device_sends (by simp) (by simp) (event_pad h)

theorem sends_pad (h : pad.isPad r) : ∃ out, (inspiroy2.step s r).2 = some out ∧
    pad.Sends s.toNat (inspiroy2.step s r).1.toNat r out := by
  rw [step_pad h]
  refine ⟨_, rfl, rfl, rfl, ?_, value_word16 _, rfl⟩
  have hlen : 4 + 2 ≤ r.data.length := by
    have := r.length_data
    omega
  have hbits : pad.buttonBits r = LittleEndian.value [byte r.data 4, byte r.data 5] := by
    rw [Pad.buttonBits, show pad.inBytes = 2 from rfl, bytes_at hlen]
    rfl
  rw [buttonState, hbits, ← toNat_word16, isWheel]
  by_cases hwheel : byte r.data 1 = 0xf1 <;> simp [hwheel]

theorem persists_buttons : PersistsButtons inspiroy2 pad := by
  apply persists_of_step UInt16.toNat rfl
  · intro s x hpad
    exact sends_pad hpad
  · intro s x hpad
    exact congrArg UInt16.toNat (vars_not_pad hpad)

end Inspiroy2M

section Inspiroy2S

open Inspiroy2S

def inspiroy2SPad : Pad where
  isPad r := byte r.data 0 == VENDOR_REPORT_ID && hasBits (byte r.data 1) 0x20
  reportId := PAD_REPORT_ID
  inBytes := 1
  outBytes := 1

variable {s : Vars} {r : Report}

/-- `last_button_state` after a pad report. -/
def buttonState8 (lastButtonState : UInt8) (data : List UInt8) : UInt8 :=
  if byte data 1 = 0xf1 then lastButtonState else byte data 4

theorem pad_event_in_place (s : Vars) {data : List UInt8} (h : 6 ≤ data.length) :
    padEvent s data = ⟨{ s with lastButtonState := buttonState8 s.lastButtonState data },
      stores data [(0, PAD_REPORT_ID), (1, 0), (2, 0), (3, 0),
        (4, buttonState8 s.lastButtonState data), (5, wheelOf data)], 6⟩ := by
  have hwrites := stores_range data [PAD_REPORT_ID, 0, 0, 0, buttonState8 s.lastButtonState data,
    wheelOf data] (k := 0) (by simpa using h)
  have hstores : stores data [(0, PAD_REPORT_ID), (1, 0), (2, 0), (3, 0),
      (4, buttonState8 s.lastButtonState data), (5, wheelOf data)] =
      [PAD_REPORT_ID, 0, 0, 0, buttonState8 s.lastButtonState data, wheelOf data] ++
        data.drop 6 := hwrites
  rw [hstores]
  rfl

theorem inspiroy2S_event_pad (h : inspiroy2SPad.isPad r) :
    inspiroy2FixEvents s r.data = padEvent s r.data := by
  obtain ⟨hid, hflag⟩ : byte r.data 0 = VENDOR_REPORT_ID ∧ byte r.data 1 &&& 0x20 ≠ 0 := by
    simpa [inspiroy2SPad, hasBits] using h
  simp only [inspiroy2FixEvents, get_data_report r (by decide : 10 ≤ 64), hid, if_true,
    if_pos hflag]
  exact if_neg (by decide)

theorem inspiroy2S_vars_not_pad (h : ¬ inspiroy2SPad.isPad r) :
    (inspiroy2FixEvents s r.data).vars.lastButtonState = s.lastButtonState := by
  simp only [inspiroy2FixEvents, get_data_report r (by decide : 10 ≤ 64)]
  by_cases hdefault : byte r.data 0 = PAD_REPORT_ID
  · rw [if_pos hdefault]
  rw [if_neg hdefault]
  by_cases hid : byte r.data 0 = VENDOR_REPORT_ID
  · have hflag : byte r.data 1 &&& 0x20 = 0 := by simpa [inspiroy2SPad, hasBits, hid] using h
    rw [if_pos hid, if_neg (by simpa using hflag)]
    split_ifs <;> rfl
  · rw [if_neg hid]

theorem inspiroy2S_step_pad (h : inspiroy2SPad.isPad r) : inspiroy2.step s r =
    ({ s with lastButtonState := buttonState8 s.lastButtonState r.data },
      some [PAD_REPORT_ID, 0, 0, 0, buttonState8 s.lastButtonState r.data, wheelOf r.data]) := by
  have hlen := r.length_data
  have hevent := inspiroy2S_event_pad (s := s) h
  rw [pad_event_in_place s (by omega)] at hevent
  exact device_sends (by simp) (by simp) hevent

theorem inspiroy2S_persists_buttons : PersistsButtons inspiroy2 inspiroy2SPad := by
  apply persists_of_step (fun s : Vars => s.lastButtonState.toNat) rfl
  · intro s r h
    rw [inspiroy2S_step_pad h]
    refine ⟨_, rfl, rfl, rfl, ?_, rfl, rfl⟩
    have hlen : 4 + 1 ≤ r.data.length := by
      have := r.length_data
      omega
    have hbits : inspiroy2SPad.buttonBits r = (byte r.data 4).toNat := by
      rw [Pad.buttonBits, show inspiroy2SPad.inBytes = 1 from rfl, bytes_at hlen]
      rfl
    rw [hbits, buttonState8, isWheel]
    by_cases hwheel : byte r.data 1 = 0xf1 <;> simp [hwheel]
  · intro s r h
    exact congrArg UInt8.toNat (inspiroy2S_vars_not_pad h)

end Inspiroy2S

namespace KeydialK20Usb

open KeydialK20 (BIT buttonMapping modifierButtons)

def PAD_KBD_REPORT_ID : UInt8 := 3
def VENDOR_REPORT_ID : UInt8 := 8
def PAD_KBD_REPORT_LENGTH : ℕ := 8

/-- `struct pad_report` over the report in place; the padding bits of byte 1 stay. -/
def padReport (data : List UInt8) (buttons : UInt32) (wheel : UInt8) : List UInt8 :=
  stores data [(0, VENDOR_REPORT_ID), (1, byte data 1 &&& 0xfe), (2, 0), (3, 0),
    (4, buttons.toUInt8), (5, (buttons >>> 8).toUInt8), (6, (buttons >>> 16).toUInt8),
    (7, (buttons >>> 24).toUInt8), (8, wheel)]

/-- `last_button_state` after a report in raw mode. -/
def buttonState (lastButtonState : UInt32) (data : List UInt8) : UInt32 :=
  if byte data 1 = 0xf1 then lastButtonState
  else (byte data 4).toUInt32 ||| (byte data 5).toUInt32 <<< 8 ||| (byte data 6).toUInt32 <<< 16

/-- The loop over the key bytes, which are cleared up to the first zero. Here 0xff is a key
like any other. -/
def keyLoop (buttons : UInt32) (data : List UInt8) : List ℕ → UInt32 × List UInt8
  | [] => (buttons, data)
  | i :: rest =>
    if byte data i = 0 then (buttons, data)
    else
      match buttonMapping.findIdx? (byte data i == ·) with
      | none => keyLoop buttons (data.set i 0) rest
      | some b => keyLoop (buttons ||| BIT b) (data.set i 0) rest

def k20FixEvents (lastButtonState : UInt32) (buffer : List UInt8) : Called UInt32 :=
  match hidBpfGetData buffer 0 10 with
  | none => ⟨lastButtonState, buffer, 0⟩
  | some data =>
    if byte data 0 = VENDOR_REPORT_ID then
      let wheel := wheelOf data
      let lastButtonState := buttonState lastButtonState data
      ⟨lastButtonState, padReport data lastButtonState wheel, 9⟩
    else if byte data 0 = PAD_KBD_REPORT_ID then
      let (buttons, data) := keyLoop (modifierButtons (byte data 1)) data
        (List.range' 2 (PAD_KBD_REPORT_LENGTH - 2))
      ⟨lastButtonState, padReport data buttons 0, 9⟩
    else ⟨lastButtonState, data, 0⟩

def keydialK20 : Transducer UInt32 Report (Option (List UInt8)) := device 0 k20FixEvents

def pad : Pad where
  isPad r := byte r.data 0 == VENDOR_REPORT_ID
  reportId := VENDOR_REPORT_ID
  inBytes := 3
  outBytes := 4

variable {s : UInt32} {r : Report}

theorem event_pad (h : pad.isPad r) : k20FixEvents s r.data =
    ⟨buttonState s r.data, padReport r.data (buttonState s r.data) (wheelOf r.data), 9⟩ := by
  have hid : byte r.data 0 = VENDOR_REPORT_ID := by simpa [pad] using h
  simp only [k20FixEvents, get_data_report r (by decide : 10 ≤ 64), if_pos hid]

theorem vars_not_pad (h : ¬ pad.isPad r) : (k20FixEvents s r.data).vars = s := by
  have hid : byte r.data 0 ≠ VENDOR_REPORT_ID := by simpa [pad] using h
  simp only [k20FixEvents, get_data_report r (by decide : 10 ≤ 64), if_neg hid]
  split_ifs <;> rfl

theorem step_pad (h : pad.isPad r) : keydialK20.step s r = (buttonState s r.data,
    some [VENDOR_REPORT_ID, byte r.data 1 &&& 0xfe, 0, 0, (buttonState s r.data).toUInt8,
      (buttonState s r.data >>> 8).toUInt8, (buttonState s r.data >>> 16).toUInt8,
      (buttonState s r.data >>> 24).toUInt8, wheelOf r.data]) :=
  device_sends (by simp) (by simp) (event_pad h)

theorem sends_pad (h : pad.isPad r) : ∃ out, (keydialK20.step s r).2 = some out ∧
    pad.Sends s.toNat (keydialK20.step s r).1.toNat r out := by
  rw [step_pad h]
  refine ⟨_, rfl, rfl, rfl, ?_, value_word32 _, rfl⟩
  have hlen : 4 + 3 ≤ r.data.length := by
    have := r.length_data
    omega
  have hbits : pad.buttonBits r =
      LittleEndian.value [byte r.data 4, byte r.data 5, byte r.data 6] := by
    rw [Pad.buttonBits, show pad.inBytes = 3 from rfl, bytes_at hlen]
    rfl
  rw [buttonState, hbits, ← toNat_word24, isWheel]
  by_cases hwheel : byte r.data 1 = 0xf1 <;> simp [hwheel]

theorem persists_buttons : PersistsButtons keydialK20 pad := by
  apply persists_of_step UInt32.toNat rfl
  · intro s x hpad
    exact sends_pad hpad
  · intro s x hpad
    exact congrArg UInt32.toNat (vars_not_pad hpad)

end KeydialK20Usb

/-- Buttons outlive wheel reports on all three, whatever else is reported in between. -/
theorem pads_persist_buttons :
    PersistsButtons Inspiroy2M.inspiroy2 Inspiroy2M.pad ∧
      PersistsButtons Inspiroy2S.inspiroy2 inspiroy2SPad ∧
      PersistsButtons KeydialK20Usb.keydialK20 KeydialK20Usb.pad :=
  ⟨Inspiroy2M.persists_buttons, inspiroy2S_persists_buttons, KeydialK20Usb.persists_buttons⟩

end VendorPads
