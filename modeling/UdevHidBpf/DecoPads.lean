import Mathlib.Data.Finset.Erase
import UdevHidBpf.DeviceEvents

/-! # Pads of the Deco Mini 4 and the Deco 01 V3

A pad reports a key for each button held, in any slot, and one button as a modifier. The
key table has a zero in the place of that button. -/
namespace DecoPads

open Transducers DeviceEvents

def PAD_REPORT_ID : UInt8 := 6
def PAD_REPORT_LENGTH : ℕ := 8

def BIT (n : ℕ) : UInt8 := 1 <<< UInt8.ofNat n

/-- The key table of a pad. -/
structure PadButtons where
  keys : List UInt8
  nodup : keys.Nodup
  modifier : keys[2]? = some 0
  fits : keys.length ≤ 8

/-- The inner loop: one byte of the report against every entry. -/
def pressKey (padButtons : List UInt8) (buttonMask key : UInt8) : UInt8 :=
  padButtons.zipIdx.foldl
    (fun mask entry => if key ≠ 0 ∧ key = entry.1 then mask ||| BIT entry.2 else mask) buttonMask

def buttonMask (padButtons data : List UInt8) : UInt8 :=
  let mask := if hasBits (byte data 1) (BIT 2) then 0 ||| BIT 2 else 0
  (List.range' 2 (PAD_REPORT_LENGTH - 2)).foldl
    (fun mask d => pressKey padButtons mask (byte data d)) mask

def report (buttonMask : UInt8) : List UInt8 := [PAD_REPORT_ID, buttonMask, 0, 0, 0, 0, 0, 0]

def padReport (padButtons data : List UInt8) : List UInt8 :=
  report (buttonMask padButtons data) ++ data.drop PAD_REPORT_LENGTH

namespace DecoMini4

def padButtons : PadButtons where
  keys := [0x05, 0x08, 0x00, 0x2c, 0x16, 0x1d]
  nodup := by decide
  modifier := rfl
  fits := by decide

def hidDeviceEventXppenDecoMini4 (_ : Unit) (buffer : List UInt8) : Called Unit :=
  match hidBpfGetData buffer 0 8 with
  | none => ⟨(), buffer, 0⟩
  | some data =>
    if byte data 0 ≠ PAD_REPORT_ID then ⟨(), data, 0⟩
    else ⟨(), padReport padButtons.keys data, 0⟩

def decoMini4 : Transducer Unit Report (Option (List UInt8)) :=
  device () hidDeviceEventXppenDecoMini4

end DecoMini4

namespace Deco01V3

def padButtons : PadButtons where
  keys := [0x05, 0x08, 0x00, 0x2c, 0x16, 0x1d, 0x57, 0x56]
  nodup := by decide
  modifier := rfl
  fits := by decide

def xppenDeco01v3DeviceEvent (_ : Unit) (buffer : List UInt8) : Called Unit :=
  match hidBpfGetData buffer 0 PAD_REPORT_LENGTH with
  | none => ⟨(), buffer, 0⟩
  | some data =>
    if byte data 0 = PAD_REPORT_ID then ⟨(), padReport padButtons.keys data, 0⟩
    else ⟨(), data, 0⟩

def xppenDeco01v3 : Transducer Unit Report (Option (List UInt8)) :=
  device () xppenDeco01v3DeviceEvent

end Deco01V3

def isPad (r : Report) : Bool := byte r.data 0 == PAD_REPORT_ID

def slots (r : Report) : List UInt8 := (List.range' 2 (PAD_REPORT_LENGTH - 2)).map (byte r.data)

def PadButtons.key (p : PadButtons) (b : ℕ) : UInt8 := p.keys.getD b 0

/-- The report of a pad with the buttons of `S` held: their keys in any order, with zeros
anywhere between them. -/
structure Holds (p : PadButtons) (S : Finset ℕ) (r : Report) : Prop where
  buttons : ∀ b ∈ S, b < p.keys.length
  modifier : hasBits (byte r.data 1) (BIT 2) ↔ 2 ∈ S
  keys : ((slots r).filter (· ≠ 0) : Multiset UInt8) = (S.erase 2).val.map p.key

structure DecodesMask (p : PadButtons) (r : Report) (mask : UInt8) : Prop where
  key : ∀ b, b ≠ 2 → (mask.toNat.testBit b ↔ ∃ key ∈ slots r, p.keys[b]? = some key)
  modifier : mask.toNat.testBit 2 ↔ hasBits (byte r.data 1) (BIT 2)
  held : ∀ S, Holds p S r → ∀ b, mask.toNat.testBit b ↔ b ∈ S

def DecodesPad (m : Transducer Unit Report (Option (List UInt8))) (p : PadButtons) : Prop :=
  (∀ s r, isPad r → ∃ mask, (m.step s r).2 =
    some ((report mask ++ r.data.drop PAD_REPORT_LENGTH).take r.size) ∧ DecodesMask p r mask) ∧
  ∀ s r, ¬ isPad r → (m.step s r).2 = some r.bytes

theorem bit_or (w : UInt8) {b : ℕ} (hb : b < 8) (i : ℕ) :
    (w ||| BIT b).toNat.testBit i ↔ w.toNat.testBit i ∨ i = b := by
  have hpow : ∀ b < 8, (BIT b).toNat = 2 ^ b := by decide
  rw [UInt8.toNat_or, hpow b hb, Nat.testBit_or, Nat.testBit_two_pow, Bool.or_eq_true,
    decide_eq_true_eq, eq_comm (a := b)]

theorem foldl_or_iff {A B : Type*} {step : B → A → B} (P : B → Prop) {Q : A → Prop} {xs : List A}
    (hstep : ∀ b, ∀ x ∈ xs, P (step b x) ↔ P b ∨ Q x) (b : B) :
    P (xs.foldl step b) ↔ P b ∨ ∃ x ∈ xs, Q x := by
  induction xs generalizing b with
  | nil => simp
  | cons x xs ih =>
    have hrest := ih (fun c y hy => hstep c y (List.mem_cons_of_mem x hy)) (step b x)
    rw [List.foldl_cons, hrest, hstep b x List.mem_cons_self, List.exists_mem_cons_iff, or_assoc]

variable {p : PadButtons} {r : Report}

theorem press_key_bit (p : PadButtons) (mask key : UInt8) (i : ℕ) :
    (pressKey p.keys mask key).toNat.testBit i ↔
      mask.toNat.testBit i ∨ key ≠ 0 ∧ p.keys[i]? = some key := by
  have hstep : ∀ m : UInt8, ∀ entry ∈ p.keys.zipIdx,
      (if key ≠ 0 ∧ key = entry.1 then m ||| BIT entry.2 else m).toNat.testBit i ↔
        m.toNat.testBit i ∨ key ≠ 0 ∧ key = entry.1 ∧ i = entry.2 := by
    intro m entry hentry
    have hlt : entry.2 < 8 := by
      have := List.snd_lt_of_mem_zipIdx hentry
      have := p.fits
      omega
    by_cases hkey : key ≠ 0 ∧ key = entry.1
    · rw [if_pos hkey, bit_or m hlt]
      simp [hkey.1, ← hkey.2]
    · rw [if_neg hkey, ← and_assoc]
      simp [hkey]
  rw [pressKey, foldl_or_iff (fun m : UInt8 => m.toNat.testBit i) hstep]
  apply or_congr_right
  constructor
  · rintro ⟨⟨k, b⟩, hentry, hne, rfl, rfl⟩
    exact ⟨hne, List.mk_mem_zipIdx_iff_getElem?.1 hentry⟩
  · rintro ⟨hne, hkey⟩
    exact ⟨(key, i), List.mk_mem_zipIdx_iff_getElem?.2 hkey, hne, rfl, rfl⟩

theorem button_mask_bit (p : PadButtons) (r : Report) (i : ℕ) :
    (buttonMask p.keys r.data).toNat.testBit i ↔
      hasBits (byte r.data 1) (BIT 2) ∧ i = 2 ∨
        ∃ key ∈ slots r, key ≠ 0 ∧ p.keys[i]? = some key := by
  have hstep : ∀ mask : UInt8, ∀ d ∈ List.range' 2 (PAD_REPORT_LENGTH - 2),
      (pressKey p.keys mask (byte r.data d)).toNat.testBit i ↔ mask.toNat.testBit i ∨
        byte r.data d ≠ 0 ∧ p.keys[i]? = some (byte r.data d) :=
    fun mask d _ => press_key_bit p mask (byte r.data d) i
  have hslots : (∃ d ∈ List.range' 2 (PAD_REPORT_LENGTH - 2),
      byte r.data d ≠ 0 ∧ p.keys[i]? = some (byte r.data d)) ↔
        ∃ key ∈ slots r, key ≠ 0 ∧ p.keys[i]? = some key := by
    simp [slots]
  rw [buttonMask, foldl_or_iff (fun m : UInt8 => m.toNat.testBit i) hstep, hslots]
  apply or_congr_left
  by_cases hmod : hasBits (byte r.data 1) (BIT 2)
  · rw [if_pos hmod, bit_or 0 (by decide)]
    simp [hmod]
  · rw [if_neg hmod]
    simp [hmod]

theorem key_ne_zero {b : ℕ} (hb : b ≠ 2) {key : UInt8} (h : p.keys[b]? = some key) : key ≠ 0 := by
  rintro rfl
  obtain ⟨hlt, -⟩ := List.getElem?_eq_some_iff.1 h
  exact hb ((List.getElem?_inj hlt p.nodup).1 (h.trans p.modifier.symm))

theorem mask_key_bit (p : PadButtons) (r : Report) {b : ℕ} (hb : b ≠ 2) :
    (buttonMask p.keys r.data).toNat.testBit b ↔ ∃ key ∈ slots r, p.keys[b]? = some key := by
  have hplain : ∀ key, key ≠ 0 ∧ p.keys[b]? = some key ↔ p.keys[b]? = some key :=
    fun key => and_iff_right_of_imp (key_ne_zero hb)
  rw [button_mask_bit]
  simp only [hb, and_false, false_or, hplain]

theorem mask_modifier_bit (p : PadButtons) (r : Report) :
    (buttonMask p.keys r.data).toNat.testBit 2 ↔ hasBits (byte r.data 1) (BIT 2) := by
  have hno : ¬ ∃ key ∈ slots r, key ≠ 0 ∧ p.keys[2]? = some key := by
    rintro ⟨key, -, hne, hkey⟩
    rw [p.modifier, Option.some.injEq] at hkey
    exact hne hkey.symm
  rw [button_mask_bit]
  simp [hno]

theorem PadButtons.key_eq {b : ℕ} (hb : b < p.keys.length) : p.keys[b]? = some (p.key b) := by
  simp [PadButtons.key, hb]

theorem Holds.mem_slots {S : Finset ℕ} (h : Holds p S r) {b : ℕ} (hb : b ≠ 2) :
    (∃ key ∈ slots r, p.keys[b]? = some key) ↔ b ∈ S := by
  have hmem : ∀ key, key ≠ 0 ∧ key ∈ slots r ↔ ∃ c ∈ S.erase 2, p.key c = key := by
    intro key
    have hkeys : key ∈ (slots r).filter (· ≠ 0) ↔ key ∈ (S.erase 2).val.map p.key := by
      rw [← h.keys, Multiset.mem_coe]
    rw [Multiset.mem_map, List.mem_filter, decide_eq_true_eq] at hkeys
    exact and_comm.trans hkeys
  constructor
  · rintro ⟨key, hslot, hkey⟩
    obtain ⟨c, hc, hck⟩ := (hmem key).1 ⟨key_ne_zero hb hkey, hslot⟩
    have hcS := Finset.mem_of_mem_erase hc
    have hcb : p.keys[c]? = p.keys[b]? := by rw [p.key_eq (h.buttons c hcS), hck, hkey]
    rwa [← (List.getElem?_inj (h.buttons c hcS) p.nodup).1 hcb]
  · intro hbS
    obtain ⟨-, hslot⟩ := (hmem (p.key b)).2 ⟨b, Finset.mem_erase.2 ⟨hb, hbS⟩, rfl⟩
    exact ⟨p.key b, hslot, p.key_eq (h.buttons b hbS)⟩

theorem decodes_mask (p : PadButtons) (r : Report) :
    DecodesMask p r (buttonMask p.keys r.data) where
  key _ hb := mask_key_bit p r hb
  modifier := mask_modifier_bit p r
  held S h b := by
    by_cases hb : b = 2
    · rw [hb, mask_modifier_bit, h.modifier]
    · rw [mask_key_bit p r hb, h.mem_slots hb]

/-- All that a pad's filter does to a report, whichever way the test for its id is written. -/
theorem decodes_pad {event : Unit → List UInt8 → Called Unit} (p : PadButtons)
    (hpad : ∀ r : Report, isPad r → event () r.data = ⟨(), padReport p.keys r.data, 0⟩)
    (hother : ∀ r : Report, ¬ isPad r → event () r.data = ⟨(), r.data, 0⟩) :
    DecodesPad (device () event) p := by
  constructor
  · intro s r h
    refine ⟨buttonMask p.keys r.data, ?_, decodes_mask p r⟩
    rw [device_passes (hpad r h), padReport]
  · intro s r h
    rw [device_passes (hother r h), Report.bytes]

theorem deco_mini_4_decodes : DecodesPad DecoMini4.decoMini4 DecoMini4.padButtons := by
  apply decodes_pad
  · intro r h
    have hid : byte r.data 0 = PAD_REPORT_ID := by simpa [isPad] using h
    simp only [DecoMini4.hidDeviceEventXppenDecoMini4, get_data_report r (by decide : 8 ≤ 64),
      if_neg (not_not.2 hid)]
  · intro r h
    have hid : byte r.data 0 ≠ PAD_REPORT_ID := by simpa [isPad] using h
    simp only [DecoMini4.hidDeviceEventXppenDecoMini4, get_data_report r (by decide : 8 ≤ 64),
      if_pos hid]

theorem deco01v3_decodes : DecodesPad Deco01V3.xppenDeco01v3 Deco01V3.padButtons := by
  apply decodes_pad
  · intro r h
    have hid : byte r.data 0 = PAD_REPORT_ID := by simpa [isPad] using h
    simp only [Deco01V3.xppenDeco01v3DeviceEvent,
      get_data_report r (by decide : PAD_REPORT_LENGTH ≤ 64), if_pos hid]
  · intro r h
    have hid : byte r.data 0 ≠ PAD_REPORT_ID := by simpa [isPad] using h
    simp only [Deco01V3.xppenDeco01v3DeviceEvent,
      get_data_report r (by decide : PAD_REPORT_LENGTH ≤ 64), if_neg hid]

/-- Both pads report exactly the buttons that are held. -/
theorem deco_pads_decode :
    DecodesPad DecoMini4.decoMini4 DecoMini4.padButtons ∧
      DecodesPad Deco01V3.xppenDeco01v3 Deco01V3.padButtons :=
  ⟨deco_mini_4_decodes, deco01v3_decodes⟩

example : (buttonMask DecoMini4.padButtons.keys [6, 0x05, 0, 0x1d, 0, 0, 0x08, 0]) = 0x26 := by
  decide

end DecoPads
