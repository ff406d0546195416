import Mathlib.Data.List.Basic
import UdevHidBpf.DeviceEvents
import UdevHidBpf.LittleEndian

/-! # The three report streams of the Keydial K20 over Bluetooth

Keyboard, consumer control and mouse reports become one pad report. -/
namespace KeydialK20

open Transducers DeviceEvents

def BT_PAD_KBD_REPORT_ID : UInt8 := 1
def BT_PAD_CC_REPORT_ID : UInt8 := 2
def BT_PAD_MOUSE_REPORT_ID : UInt8 := 5
def BT_PAD_KBD_REPORT_LENGTH : ℕ := 9
def OUR_REPORT_ID : UInt8 := 11

def BIT (n : ℕ) : UInt32 := 1 <<< UInt32.ofNat n

/-- The keys of buttons 1 to 18, 0xff for the three that are modifiers. -/
def buttonMapping : List UInt8 :=
  [0x0e, 0x0a, 0x0f, 0x4c, 0x0c, 0x07, 0x05, 0x08, 0x16, 0x1d, 0x06, 0x19, 0xff, 0xff, 0xff,
    0x28, 0x2c, 0x11]

def modifierButtons (modifiers : UInt8) : UInt32 :=
  let buttons := if hasBits modifiers 0x01 then 0 ||| BIT 12 else 0
  let buttons := if hasBits modifiers 0x02 then buttons ||| BIT 14 else buttons
  if hasBits modifiers 0x04 then buttons ||| BIT 13 else buttons

def buttonOf (key : UInt8) : Option ℕ :=
  buttonMapping.findIdx? fun m => key != 0xff && key == m

def keyButtons (buttons : UInt32) : List UInt8 → UInt32
  | [] => buttons
  | key :: keys =>
    if key = 0 then buttons
    else
      match buttonOf key with
      | none => keyButtons buttons keys
      | some b => keyButtons (buttons ||| BIT b) keys

def keyBytes (data : List UInt8) : List UInt8 :=
  (List.range' 4 (BT_PAD_KBD_REPORT_LENGTH - 4)).map (byte data)

def keyboardButtons (data : List UInt8) : UInt32 :=
  keyButtons (modifierButtons (byte data 1)) (keyBytes data)

/-- `struct pad_report` written over the buffer; the padding bits of byte 1 stay. -/
def padReport (data : List UInt8) (buttons : UInt32) (wheel : UInt8) : List UInt8 :=
  [OUR_REPORT_ID, byte data 1 &&& 0xfe, 0, 0] ++ LittleEndian.bytes 4 buttons.toNat ++ [wheel] ++
    data.drop 9

/-- The variable is `last_button_state`. -/
def k20BtFixEvents (lastButtonState : UInt32) (buffer : List UInt8) : Called UInt32 :=
  match hidBpfGetData buffer 0 12 with
  | none => ⟨lastButtonState, buffer, 0⟩
  | some data =>
    if byte data 0 = BT_PAD_KBD_REPORT_ID then
      let buttons := keyboardButtons data
      ⟨buttons, padReport data buttons 0, 9⟩
    else if byte data 0 = BT_PAD_CC_REPORT_ID then
      let lastButtonState :=
        if byte data 1 = 0xcd then lastButtonState ||| BIT 18 else lastButtonState &&& ~~~BIT 18
      ⟨lastButtonState, padReport data lastButtonState 0, 9⟩
    else if byte data 0 = BT_PAD_MOUSE_REPORT_ID then
      ⟨lastButtonState, padReport data lastButtonState (byte data 6), 9⟩
    else ⟨lastButtonState, data, 0⟩

def keydialK20 : Transducer UInt32 Report (Option (List UInt8)) := device 0 k20BtFixEvents

def isKeyboard (r : Report) : Bool := byte r.data 0 == BT_PAD_KBD_REPORT_ID

def isConsumer (r : Report) : Bool := byte r.data 0 == BT_PAD_CC_REPORT_ID

def isWheel (r : Report) : Bool := byte r.data 0 == BT_PAD_MOUSE_REPORT_ID

def isPlayPause (r : Report) : Bool := byte r.data 1 == 0xcd

def latest (kind : Report → Bool) (run : List Report) : Option Report := (run.filter kind).getLast?

/-- Button `b` of a keyboard report: a modifier, or a key before the first zero. -/
def Pressed (r : Report) (b : ℕ) : Prop :=
  b = 12 ∧ hasBits (byte r.data 1) 0x01 ∨ b = 14 ∧ hasBits (byte r.data 1) 0x02 ∨
    b = 13 ∧ hasBits (byte r.data 1) 0x04 ∨
    ∃ key ∈ (keyBytes r.data).takeWhile (· != 0), key ≠ 0xff ∧ buttonMapping[b]? = some key

def bit (w : UInt32) (b : ℕ) : Bool := w.toNat.testBit b

def outButtons (bytes : List UInt8) : ℕ := LittleEndian.value ((bytes.drop 4).take 4)

/-- The output law for the report `x` after `before`. -/
def Merged (before : List Report) (x : Report) : Prop :=
  ∃ out, keydialK20.output before x = some out ∧
    ((outButtons out).testBit 18 ↔
      ∃ c, latest isConsumer (before ++ [x]) = some c ∧ isPlayPause c) ∧
    (∀ b < 18, (outButtons out).testBit b ↔
      ∃ k, latest isKeyboard (before ++ [x]) = some k ∧ Pressed k b) ∧
    byte out 8 = if isWheel x then byte x.data 6 else 0

theorem bit_or (w : UInt32) {b : ℕ} (hb : b < 32) (i : ℕ) :
    bit (w ||| BIT b) i = (bit w i || decide (b = i)) := by
  have hpow : ∀ b < 32, (BIT b).toNat = 2 ^ b := by decide
  rw [bit, UInt32.toNat_or, hpow b hb, Nat.testBit_or, Nat.testBit_two_pow]
  rfl

theorem bit_or_if (w : UInt32) (c : Bool) {b : ℕ} (hb : b < 32) (i : ℕ) :
    bit (if c then w ||| BIT b else w) i ↔ bit w i ∨ i = b ∧ c := by
  cases c
  · simp
  · rw [if_pos rfl, bit_or w hb, Bool.or_eq_true, decide_eq_true_eq, eq_comm (a := b)]
    simp

theorem bit_clear (w : UInt32) {i : ℕ} (hi : i < 32) :
    bit (w &&& ~~~BIT 18) i = (bit w i && decide (i ≠ 18)) := by
  have hmask : ∀ i < 32, (~~~BIT 18).toNat.testBit i = decide (i ≠ 18) := by decide
  rw [bit, UInt32.toNat_and, Nat.testBit_and, hmask i hi]
  rfl

theorem bit_zero (i : ℕ) : bit 0 i = false := Nat.zero_testBit i

theorem button_of_eq (key : UInt8) (b : ℕ) :
    buttonOf key = some b ↔ key ≠ 0xff ∧ buttonMapping[b]? = some key := by
  have hunique : ∀ key : UInt8, key ≠ 0xff → ∀ b < 18, buttonMapping[b]? = some key →
      buttonOf key = some b := by decide +kernel
  constructor
  · intro h
    obtain ⟨hb, hkey, -⟩ := List.findIdx?_eq_some_iff_getElem.1 h
    obtain ⟨hne, heq⟩ : key ≠ 0xff ∧ key = buttonMapping[b] := by simpa using hkey
    exact ⟨hne, by rw [List.getElem?_eq_getElem hb, heq]⟩
  · rintro ⟨hne, hget⟩
    obtain ⟨hb, -⟩ := List.getElem?_eq_some_iff.1 hget
    exact hunique key hne b hb hget

theorem button_of_lt {key : UInt8} {b : ℕ} (h : buttonOf key = some b) : b < 32 := by
  obtain ⟨hb, -⟩ := List.getElem?_eq_some_iff.1 ((button_of_eq key b).1 h).2
  exact lt_trans hb (by decide)

theorem key_buttons_bit (buttons : UInt32) (keys : List UInt8) (i : ℕ) :
    bit (keyButtons buttons keys) i ↔ bit buttons i ∨
      ∃ key ∈ keys.takeWhile (· != 0), key ≠ 0xff ∧ buttonMapping[i]? = some key := by
  induction keys generalizing buttons with
  | nil => simp [keyButtons]
  | cons key keys ih =>
    by_cases hzero : key = 0
    · simp [keyButtons, hzero]
    rw [keyButtons, if_neg hzero, List.takeWhile_cons_of_pos (by simpa using hzero)]
    cases hbutton : buttonOf key with
    | none =>
      have hno : ¬ (key ≠ 0xff ∧ buttonMapping[i]? = some key) := by
        rw [← button_of_eq, hbutton]
        simp
      simp only [ih, List.exists_mem_cons_iff, hno, false_or]
    | some b =>
      have hyes : key ≠ 0xff ∧ buttonMapping[i]? = some key ↔ b = i := by
        rw [← button_of_eq, hbutton, Option.some.injEq]
      simp only [ih, bit_or buttons (button_of_lt hbutton), List.exists_mem_cons_iff, hyes,
        Bool.or_eq_true, decide_eq_true_eq, or_assoc]

theorem modifier_buttons_bit (modifiers : UInt8) (i : ℕ) :
    bit (modifierButtons modifiers) i ↔ i = 12 ∧ hasBits modifiers 0x01 ∨
      i = 14 ∧ hasBits modifiers 0x02 ∨ i = 13 ∧ hasBits modifiers 0x04 := by
  simp only [modifierButtons, bit_or_if _ _ (by decide : 12 < 32),
    bit_or_if _ _ (by decide : 13 < 32), bit_or_if _ _ (by decide : 14 < 32), bit_zero,
    Bool.false_eq_true, false_or, or_assoc]

theorem keyboard_buttons_bit (r : Report) (i : ℕ) :
    bit (keyboardButtons r.data) i ↔ Pressed r i := by
  rw [keyboardButtons, key_buttons_bit, modifier_buttons_bit, Pressed, or_assoc, or_assoc]

theorem not_pressed_dial (r : Report) : ¬ Pressed r 18 := by
  rintro (⟨h, -⟩ | ⟨h, -⟩ | ⟨h, -⟩ | ⟨key, -, -, h⟩)
  · omega
  · omega
  · omega
  · exact absurd h (by simp [buttonMapping])

variable {s : UInt32} {r : Report}

def nextButtons (s : UInt32) (r : Report) : UInt32 :=
  if isKeyboard r then keyboardButtons r.data
  else if isConsumer r then if isPlayPause r then s ||| BIT 18 else s &&& ~~~BIT 18
  else s

def isInput (r : Report) : Bool := isKeyboard r || isConsumer r || isWheel r

theorem keyboard_not_consumer (hkey : isKeyboard r) : ¬ isConsumer r := by
  have hid : byte r.data 0 = BT_PAD_KBD_REPORT_ID := by simpa [isKeyboard] using hkey
  rw [isConsumer, hid]
  decide

theorem step_input (hinput : isInput r) :
    keydialK20.step s r = (nextButtons s r,
      some ((padReport r.data (nextButtons s r)
        (if isWheel r then byte r.data 6 else 0)).take 9)) := by
  have hkbd : byte r.data 0 = BT_PAD_KBD_REPORT_ID ↔ isKeyboard r := by simp [isKeyboard]
  have hcc : byte r.data 0 = BT_PAD_CC_REPORT_ID ↔ isConsumer r := by simp [isConsumer]
  have hmouse : byte r.data 0 = BT_PAD_MOUSE_REPORT_ID ↔ isWheel r := by simp [isWheel]
  have hplay : byte r.data 1 = 0xcd ↔ isPlayPause r := by simp [isPlayPause]
  have hevent : k20BtFixEvents s r.data = ⟨nextButtons s r, padReport r.data (nextButtons s r)
      (if isWheel r then byte r.data 6 else 0), (9 : ℕ)⟩ := by
    simp only [k20BtFixEvents, get_data_report r (by decide : 12 ≤ 64), hkbd, hcc, hmouse, hplay,
      nextButtons]
    by_cases h₁ : isKeyboard r
    · have hno : ¬ isWheel r := by
        rw [← hmouse, hkbd.2 h₁]
        decide
      simp [h₁, hno]
    by_cases h₂ : isConsumer r
    · have hno : ¬ isWheel r := by
        rw [← hmouse, hcc.2 h₂]
        decide
      simp [h₁, h₂, hno]
    · have h₃ : isWheel r := by simpa [isInput, h₁, h₂] using hinput
      simp [h₁, h₂, h₃]
  exact device_resizes (by decide) hevent

theorem out_buttons_pad (data : List UInt8) (w : UInt32) (wheel : UInt8) :
    outButtons ((padReport data w wheel).take 9) = w.toNat := by
  have hcut : (((padReport data w wheel).take 9).drop 4).take 4
      = LittleEndian.bytes 4 w.toNat := by
    rw [padReport]
    simp [LittleEndian.bytes]
  rw [outButtons, hcut, LittleEndian.value_bytes, Nat.mod_eq_of_lt w.toNat_lt]

theorem out_wheel_pad (data : List UInt8) (w : UInt32) (wheel : UInt8) :
    byte ((padReport data w wheel).take 9) 8 = wheel := by
  rw [padReport]
  simp [LittleEndian.bytes, byte]

theorem next_keyboard_bit (hkey : isKeyboard r) (i : ℕ) :
    bit (nextButtons s r) i ↔ Pressed r i := by
  rw [nextButtons, if_pos hkey, keyboard_buttons_bit]

theorem next_consumer_bit (hkey : ¬ isKeyboard r) (hcc : isConsumer r) {i : ℕ} (hi : i < 32) :
    bit (nextButtons s r) i ↔ if i = 18 then isPlayPause r = true else bit s i := by
  rw [nextButtons, if_neg hkey, if_pos hcc]
  by_cases hplay : isPlayPause r
  · rw [if_pos hplay, bit_or s (by decide)]
    by_cases h18 : i = 18
    · simp [h18, hplay]
    · simp [h18, Ne.symm h18]
  · rw [if_neg hplay, bit_clear s hi]
    by_cases h18 : i = 18 <;> simp [h18, hplay]

theorem next_other (hkey : ¬ isKeyboard r) (hcc : ¬ isConsumer r) : nextButtons s r = s := by
  rw [nextButtons, if_neg hkey, if_neg hcc]

def MergesStreams (run : List Report) : Prop :=
  ∀ before x rest, run = before ++ x :: rest → Merged before x

def DialFree (run : List Report) : Prop :=
  ∀ before x rest, run = before ++ x :: rest → isKeyboard x →
    ∀ c, latest isConsumer before = some c → ¬ isPlayPause c

theorem latest_concat (kind : Report → Bool) (before : List Report) (x : Report) :
    latest kind (before ++ [x]) = if kind x then some x else latest kind before :=
  Transducer.mostRecent_concat kind before x

theorem after_input {before : List Report} {x : Report} (hinput : isInput x) :
    keydialK20.after (before ++ [x]) = nextButtons (keydialK20.after before) x := by
  rw [Transducer.after_concat, step_input hinput]

theorem keys_after (run : List Report) (hrun : ∀ r ∈ run, isInput r) {i : ℕ} (hi : i < 18) :
    bit (keydialK20.after run) i ↔ ∃ k, latest isKeyboard run = some k ∧ Pressed k i := by
  induction run using List.reverseRecOn with
  | nil => simp [keydialK20, device, bit_zero, latest]
  | append_singleton xs x ih =>
    have hxs := ih fun r hr => hrun r (List.mem_append_left _ hr)
    rw [after_input (hrun x (by simp)), latest_concat]
    by_cases hkey : isKeyboard x
    · rw [next_keyboard_bit hkey, if_pos hkey]
      simp
    rw [if_neg hkey, ← hxs]
    by_cases hcc : isConsumer x
    · rw [next_consumer_bit hkey hcc (by omega), if_neg (by omega)]
    · rw [next_other hkey hcc]

theorem dial_free_left {xs ys : List Report} (h : DialFree (xs ++ ys)) : DialFree xs := by
  intro before y rest hsplit
  exact h before y (rest ++ ys) (by simp [hsplit])

theorem dial_after (run : List Report) (hrun : ∀ r ∈ run, isInput r) (hfree : DialFree run) :
    bit (keydialK20.after run) 18 ↔ ∃ c, latest isConsumer run = some c ∧ isPlayPause c := by
  induction run using List.reverseRecOn with
  | nil => simp [keydialK20, device, bit_zero, latest]
  | append_singleton xs x ih =>
    have hxs := ih (fun r hr => hrun r (List.mem_append_left _ hr)) (dial_free_left hfree)
    rw [after_input (hrun x (by simp)), latest_concat]
    by_cases hkey : isKeyboard x
    · have hcc := keyboard_not_consumer hkey
      have hnone := hfree xs x [] rfl hkey
      rw [next_keyboard_bit hkey, if_neg hcc]
      refine iff_of_false (not_pressed_dial x) ?_
      rintro ⟨c, hlast, hplay⟩
      exact hnone c hlast hplay
    by_cases hcc : isConsumer x
    · rw [next_consumer_bit hkey hcc (by omega), if_pos rfl, if_pos hcc]
      simp
    · rw [next_other hkey hcc, if_neg hcc, hxs]

/-- Under the law for bits 0 to 17 and the wheel, which always hold, only bit 18 is at stake. -/
theorem merged_iff {before : List Report} {x : Report} (hbefore : ∀ r ∈ before, isInput r)
    (hinput : isInput x) : Merged before x ↔
      (bit (keydialK20.after (before ++ [x])) 18 ↔
        ∃ c, latest isConsumer (before ++ [x]) = some c ∧ isPlayPause c) := by
  have hall : ∀ r ∈ before ++ [x], isInput r := by
    intro r hr
    rcases List.mem_append.1 hr with hr | hr
    · exact hbefore r hr
    · rw [List.mem_singleton.1 hr]
      exact hinput
  have hout : keydialK20.output before x =
      some ((padReport x.data (keydialK20.after (before ++ [x]))
        (if isWheel x then byte x.data 6 else 0)).take 9) := by
    rw [Transducer.output, step_input hinput, after_input hinput]
  constructor
  · rintro ⟨out, h, hdial, -⟩
    rw [hout, Option.some.injEq] at h
    rw [← h, out_buttons_pad] at hdial
    exact hdial
  · intro hdial
    refine ⟨_, hout, ?_, ?_, out_wheel_pad _ _ _⟩
    · rw [out_buttons_pad]
      exact hdial
    · intro b hb
      rw [out_buttons_pad]
      exact keys_after (before ++ [x]) hall hb

/-- The three streams merge without loss exactly where no key is reported under a held dial
button. -/
theorem merges_streams_iff {run : List Report} (hrun : ∀ r ∈ run, isInput r) :
    MergesStreams run ↔ DialFree run := by
  constructor
  · intro h before x rest hsplit hkey c hlast hplay
    obtain ⟨hbefore, hx⟩ := forall_of_split hrun hsplit
    have hcc := keyboard_not_consumer hkey
    have hdial := (merged_iff hbefore hx).1 (h before x rest hsplit)
    rw [after_input hx, next_keyboard_bit hkey, latest_concat, if_neg hcc] at hdial
    exact not_pressed_dial x (hdial.2 ⟨c, hlast, hplay⟩)
  · intro hfree before x rest hsplit
    obtain ⟨hbefore, hx⟩ := forall_of_split hrun hsplit
    have hrest : run = (before ++ [x]) ++ rest := by simp [hsplit]
    rw [merged_iff hbefore hx]
    rw [hrest] at hrun hfree
    exact dial_after (before ++ [x]) (fun r hr => hrun r (List.mem_append_left _ hr))
      (dial_free_left hfree)

def keyReport (key : UInt8) : Report := .ofBytes [BT_PAD_KBD_REPORT_ID, 0, 0, 0, key, 0, 0, 0, 0]

def dialReport (usage : UInt8) : Report := .ofBytes [BT_PAD_CC_REPORT_ID, usage, 0]

/-- A key is pressed while the dial button is held. -/
theorem key_drops_dial : ¬ MergesStreams [dialReport 0xcd, keyReport 0x0e] := by
  intro h
  obtain ⟨out, hout, hdial, -⟩ := h [dialReport 0xcd] (keyReport 0x0e) [] rfl
  have hplay : ∃ c, latest isConsumer ([dialReport 0xcd] ++ [keyReport 0x0e]) = some c ∧
      isPlayPause c := ⟨dialReport 0xcd, rfl, by decide⟩
  have hclear : (outButtons <$> keydialK20.output [dialReport 0xcd] (keyReport 0x0e)).map
      (Nat.testBit · 18) = some false := by decide
  rw [hout] at hclear
  exact absurd (hdial.2 hplay) (by simpa using hclear)

/-- The dial button is let go before the key is pressed. -/
theorem dial_then_key : MergesStreams [dialReport 0xcd, dialReport 0x00, keyReport 0x0e] := by
  have hrun : ∀ r ∈ [dialReport 0xcd, dialReport 0x00, keyReport 0x0e], isInput r := by decide
  rw [merges_streams_iff hrun]
  intro before x rest hsplit hkey c hlast
  rcases before with _ | ⟨a, _ | ⟨b, before⟩⟩
  · exact absurd hlast (by simp [latest])
  · simp only [List.cons_append, List.nil_append, List.cons.injEq] at hsplit
    rw [← hsplit.2.1] at hkey
    exact absurd hkey (by decide)
  · simp only [List.cons_append, List.cons.injEq] at hsplit
    obtain ⟨rfl, rfl, hrest⟩ := hsplit
    obtain rfl : before = [] := by
      have hlen := congrArg List.length hrest
      simp only [List.length_append, List.length_cons, List.length_nil] at hlen
      exact List.eq_nil_of_length_eq_zero (by omega)
    have hnow : latest isConsumer [dialReport 0xcd, dialReport 0x00] = some (dialReport 0x00) := rfl
    rw [hnow, Option.some.injEq] at hlast
    rw [← hlast]
    decide

end KeydialK20
