import UdevHidBpf.VendorPads

/-! # Keyboard reports of the Keydial K20

The USB and the Bluetooth filter decode them by two copies of one search. In the table 0xff
stands for a button without a key, and only one of the copies passes over it. -/
namespace KeydialKeys

open Transducers DeviceEvents
open KeydialK20 (BIT bit bit_or buttonMapping buttonOf keyBytes modifierButtons outButtons Pressed)
open VendorPads.KeydialK20Usb (keydialK20 k20FixEvents keyLoop padReport PAD_KBD_REPORT_ID
  PAD_KBD_REPORT_LENGTH VENDOR_REPORT_ID)

def isKeyboard (r : Report) : Bool := byte r.data 0 == PAD_KBD_REPORT_ID

def keyCodes (r : Report) : List UInt8 :=
  ((List.range' 2 (PAD_KBD_REPORT_LENGTH - 2)).map (byte r.data)).takeWhile (· != 0)

def btKeyCodes (r : Report) : List UInt8 := (keyBytes r.data).takeWhile (· != 0)

def SameKeys (r x : Report) : Prop := byte x.data 1 = byte r.data 1 ∧ btKeyCodes x = keyCodes r

/-- What a keyboard report `r` is decoded to when the filter holds `s`. -/
def Decodes (s : UInt32) (r : Report) : Prop :=
  ∃ out, (keydialK20.step s r).2 = some out ∧
    ((outButtons out).testBit 12 ↔ hasBits (byte r.data 1) 0x01) ∧
    ((outButtons out).testBit 13 ↔ hasBits (byte r.data 1) 0x04) ∧
    ((outButtons out).testBit 14 ↔ hasBits (byte r.data 1) 0x02) ∧
    (∀ b, b ≠ 12 → b ≠ 13 → b ≠ 14 →
      ((outButtons out).testBit b ↔ ∃ key ∈ keyCodes r, buttonMapping[b]? = some key)) ∧
    ∀ t x, KeydialK20.isKeyboard x → SameKeys r x →
      ∃ out', (KeydialK20.keydialK20.step t x).2 = some out' ∧ outButtons out' = outButtons out

def matchOf (key : UInt8) : Option ℕ := buttonMapping.findIdx? (key == ·)

theorem match_of_eq (key : UInt8) (b : ℕ) :
    matchOf key = some b ↔ key ≠ 0xff ∧ buttonMapping[b]? = some key ∨ key = 0xff ∧ b = 12 := by
  by_cases hplace : key = 0xff
  · have hcontrol : matchOf 0xff = some 12 := by decide
    simp [hplace, hcontrol, eq_comm]
  · have hne : (key != 0xff) = true := by simpa using hplace
    have hbutton : matchOf key = buttonOf key := by
      simp only [matchOf, buttonOf, hne, Bool.true_and]
    rw [hbutton, KeydialK20.button_of_eq]
    simp [hplace]

theorem match_of_lt {key : UInt8} {b : ℕ} (h : matchOf key = some b) : b < 32 := by
  obtain ⟨hb, -⟩ := List.findIdx?_eq_some_iff_getElem.1 h
  exact lt_trans hb (by decide)

/-- Each key byte is cleared after it was read, and no other byte is. -/
theorem key_loop_bit (buttons : UInt32) (data : List UInt8) {places : List ℕ}
    (hplaces : places.Nodup) (i : ℕ) :
    bit (keyLoop buttons data places).1 i ↔ bit buttons i ∨
      ∃ key ∈ (places.map (byte data)).takeWhile (· != 0), matchOf key = some i := by
  induction places generalizing buttons data with
  | nil => simp [keyLoop]
  | cons j places ih =>
    obtain ⟨hfresh, hrest⟩ := List.nodup_cons.1 hplaces
    by_cases hzero : byte data j = 0
    · simp [keyLoop, hzero]
    have hclear : places.map (byte (data.set j 0)) = places.map (byte data) := by
      apply List.map_congr_left
      intro k hk
      exact byte_set_ne (by rintro rfl; exact hfresh hk) 0
    rw [keyLoop, if_neg hzero, List.map_cons, List.takeWhile_cons_of_pos (by simpa using hzero),
      List.exists_mem_cons_iff]
    cases hmatch : matchOf (byte data j) with
    | none =>
      rw [matchOf] at hmatch
      simp [hmatch, ih buttons (data.set j 0) hrest, hclear]
    | some b =>
      have hb := match_of_lt hmatch
      rw [matchOf] at hmatch
      simp only [hmatch, ih (buttons ||| BIT b) (data.set j 0) hrest, hclear, bit_or buttons hb,
        Bool.or_eq_true, decide_eq_true_eq, Option.some.injEq, or_assoc]

theorem length_key_loop (buttons : UInt32) (data : List UInt8) (places : List ℕ) :
    (keyLoop buttons data places).2.length = data.length := by
  induction places generalizing buttons data with
  | nil => rfl
  | cons j places ih =>
    rw [keyLoop]
    split
    · rfl
    split <;> rw [ih, List.length_set]

variable {s : UInt32} {r : Report}

def keyboardButtons (r : Report) : UInt32 :=
  (keyLoop (modifierButtons (byte r.data 1)) r.data (List.range' 2 (PAD_KBD_REPORT_LENGTH - 2))).1

theorem keyboard_buttons_bit (r : Report) (i : ℕ) : bit (keyboardButtons r) i ↔
    i = 12 ∧ hasBits (byte r.data 1) 0x01 ∨ i = 14 ∧ hasBits (byte r.data 1) 0x02 ∨
      i = 13 ∧ hasBits (byte r.data 1) 0x04 ∨
      (∃ key ∈ keyCodes r, key ≠ 0xff ∧ buttonMapping[i]? = some key) ∨
      0xff ∈ keyCodes r ∧ i = 12 := by
  have hplaces : (List.range' 2 (PAD_KBD_REPORT_LENGTH - 2)).Nodup := List.nodup_range'
  have hkeys := key_loop_bit (modifierButtons (byte r.data 1)) r.data hplaces i
  have hmatch : (∃ key ∈ keyCodes r, matchOf key = some i) ↔
      (∃ key ∈ keyCodes r, key ≠ 0xff ∧ buttonMapping[i]? = some key) ∨
        0xff ∈ keyCodes r ∧ i = 12 := by
    simp only [match_of_eq, and_or_left, exists_or]
    apply or_congr_right
    constructor
    · rintro ⟨key, hkey, rfl, hi⟩
      exact ⟨hkey, hi⟩
    · rintro ⟨hkey, hi⟩
      exact ⟨0xff, hkey, rfl, hi⟩
  rw [keyboardButtons, hkeys, KeydialK20.modifier_buttons_bit, ← keyCodes, hmatch, or_assoc,
    or_assoc]

theorem step_keyboard (h : isKeyboard r) : ∃ out, (keydialK20.step s r).2 = some out ∧
    outButtons out = (keyboardButtons r).toNat := by
  have hid : byte r.data 0 = PAD_KBD_REPORT_ID := by simpa [isKeyboard] using h
  have hne : ¬ byte r.data 0 = VENDOR_REPORT_ID := by
    rw [hid]
    decide
  obtain ⟨buttons, data, hloop⟩ : ∃ buttons data, keyLoop (modifierButtons (byte r.data 1)) r.data
      (List.range' 2 (PAD_KBD_REPORT_LENGTH - 2)) = (buttons, data) := ⟨_, _, rfl⟩
  have hevent : k20FixEvents s r.data = ⟨s, padReport data buttons 0, (9 : ℕ)⟩ := by
    simp only [k20FixEvents, get_data_report r (by decide : 10 ≤ 64), if_neg hne, if_pos hid, hloop]
    rfl
  have hlen : 9 ≤ data.length := by
    have hkept := length_key_loop (modifierButtons (byte r.data 1)) r.data
      (List.range' 2 (PAD_KBD_REPORT_LENGTH - 2))
    have hdata : data.length = r.data.length := by rwa [hloop] at hkept
    have := r.length_data
    omega
  have hbuttons : buttons = keyboardButtons r := by rw [keyboardButtons, hloop]
  refine ⟨(padReport data buttons 0).take 9, ?_, ?_⟩
  · rw [keydialK20, device_resizes (by decide) hevent]
  · have hfits : [VENDOR_REPORT_ID, byte data 1 &&& 0xfe, 0, 0, buttons.toUInt8,
        (buttons >>> 8).toUInt8, (buttons >>> 16).toUInt8, (buttons >>> 24).toUInt8, 0].length ≤
        data.length := hlen
    have hsent : (padReport data buttons 0).take 9 = _ := take_stores hfits
    rw [hsent, ← hbuttons]
    exact VendorPads.value_word32 buttons

theorem bt_step_keyboard {x : Report} (t : UInt32) (h : KeydialK20.isKeyboard x) :
    ∃ out, (KeydialK20.keydialK20.step t x).2 = some out ∧
      outButtons out = (KeydialK20.keyboardButtons x.data).toNat := by
  have hinput : KeydialK20.isInput x := by simp [KeydialK20.isInput, h]
  rw [KeydialK20.step_input hinput, KeydialK20.nextButtons, if_pos h]
  exact ⟨_, rfl, KeydialK20.out_buttons_pad _ _ _⟩

theorem bt_keyboard_buttons_bit {x : Report} (h : SameKeys r x) (i : ℕ) :
    bit (KeydialK20.keyboardButtons x.data) i ↔
      i = 12 ∧ hasBits (byte r.data 1) 0x01 ∨ i = 14 ∧ hasBits (byte r.data 1) 0x02 ∨
        i = 13 ∧ hasBits (byte r.data 1) 0x04 ∨
        ∃ key ∈ keyCodes r, key ≠ 0xff ∧ buttonMapping[i]? = some key := by
  rw [KeydialK20.keyboard_buttons_bit, Pressed, h.1, ← btKeyCodes, h.2]

theorem no_key_iff (b : ℕ) : buttonMapping[b]? = some 0xff ↔ b = 12 ∨ b = 13 ∨ b = 14 := by
  by_cases hb : b < 18
  · have htable : ∀ b < 18, buttonMapping[b]? = some 0xff ↔ b = 12 ∨ b = 13 ∨ b = 14 := by decide
    exact htable b hb
  · have hnone : buttonMapping[b]? = none := List.getElem?_eq_none (not_lt.1 hb)
    rw [hnone]
    constructor
    · intro h
      cases h
    · omega

theorem no_key_code {b : ℕ} (hb : b = 12 ∨ b = 13 ∨ b = 14) (keys : List UInt8) :
    ¬ ∃ key ∈ keys, key ≠ 0xff ∧ buttonMapping[b]? = some key := by
  rintro ⟨key, -, hne, hkey⟩
  rw [(no_key_iff b).2 hb, Option.some.injEq] at hkey
  exact hne hkey.symm

theorem key_code_iff {b : ℕ} (hb : ¬ (b = 12 ∨ b = 13 ∨ b = 14)) (key : UInt8) :
    key ≠ 0xff ∧ buttonMapping[b]? = some key ↔ buttonMapping[b]? = some key := by
  apply and_iff_right_of_imp
  rintro hkey rfl
  exact hb ((no_key_iff b).1 hkey)

theorem keyboard_buttons_bit_of_control
    (h : 0xff ∈ keyCodes r → hasBits (byte r.data 1) 0x01) (i : ℕ) :
    bit (keyboardButtons r) i ↔
      i = 12 ∧ hasBits (byte r.data 1) 0x01 ∨ i = 14 ∧ hasBits (byte r.data 1) 0x02 ∨
        i = 13 ∧ hasBits (byte r.data 1) 0x04 ∨
        ∃ key ∈ keyCodes r, key ≠ 0xff ∧ buttonMapping[i]? = some key := by
  rw [keyboard_buttons_bit]
  constructor
  · rintro (h₁ | h₁ | h₁ | h₁ | ⟨hkey, rfl⟩)
    · exact .inl h₁
    · exact .inr (.inl h₁)
    · exact .inr (.inr (.inl h₁))
    · exact .inr (.inr (.inr h₁))
    · exact .inl ⟨rfl, h hkey⟩
  · rintro (h₁ | h₁ | h₁ | h₁)
    · exact .inl h₁
    · exact .inr (.inl h₁)
    · exact .inr (.inr (.inl h₁))
    · exact .inr (.inr (.inr (.inl h₁)))

/-- The modifiers are told apart and the two copies agree exactly where no key code 0xff is
reported without Control. -/
theorem decodes_iff (h : isKeyboard r) : Decodes s r ↔
    (0xff ∈ keyCodes r → hasBits (byte r.data 1) 0x01) := by
  obtain ⟨out, hout, hbuttons⟩ := step_keyboard (s := s) h
  have hbit : ∀ i, (outButtons out).testBit i = bit (keyboardButtons r) i := by
    intro i
    rw [hbuttons, bit]
  constructor
  · rintro ⟨out', hout', hcontrol, -⟩ hkey
    obtain rfl : out = out' := Option.some.inj (hout.symm.trans hout')
    rw [hbit, keyboard_buttons_bit] at hcontrol
    exact hcontrol.1 (.inr (.inr (.inr (.inr ⟨hkey, rfl⟩))))
  intro hcontrol
  have hbits := keyboard_buttons_bit_of_control hcontrol
  refine ⟨out, hout, ?_, ?_, ?_, ?_, ?_⟩
  · rw [hbit, hbits]
    simp [no_key_code]
  · rw [hbit, hbits]
    simp [no_key_code]
  · rw [hbit, hbits]
    simp [no_key_code]
  · intro b h12 h13 h14
    have hkey := key_code_iff (by simp [h12, h13, h14] : ¬ (b = 12 ∨ b = 13 ∨ b = 14))
    rw [hbit, hbits]
    simp only [h12, h13, h14, false_and, false_or, hkey]
  · intro t x hx hsame
    obtain ⟨out', hout', hbuttons'⟩ := bt_step_keyboard t hx
    refine ⟨out', hout', ?_⟩
    rw [hbuttons', hbuttons]
    apply Nat.eq_of_testBit_eq
    intro i
    rw [Bool.eq_iff_iff]
    exact (bt_keyboard_buttons_bit hsame i).trans (hbits i).symm

def keyReport (modifiers key : UInt8) : Report :=
  .ofBytes [PAD_KBD_REPORT_ID, modifiers, key, 0, 0, 0, 0, 0]

/-- A key code that is no key presses Control. -/
theorem placeholder_presses_control :
    isKeyboard (keyReport 0 0xff) ∧ ¬ Decodes 0 (keyReport 0 0xff) := by
  refine ⟨by decide, ?_⟩
  rintro ⟨out, hout, hcontrol, -⟩
  have hset : (keydialK20.step 0 (keyReport 0 0xff)).2.map (fun out => (outButtons out).testBit 12)
      = some true := by decide
  rw [hout, Option.map_some, Option.some.injEq] at hset
  exact absurd (hcontrol.1 hset) (by decide)

/-- Control and key K. -/
theorem decodes_control_k : Decodes 0 (keyReport 0x01 0x0e) :=
  (decodes_iff (by decide)).2 (by decide)

end KeydialKeys
