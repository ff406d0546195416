import UdevHidBpf.DecoPads
import UdevHidBpf.FixedDescriptors

/-! # The XP-Pen Deco 02

The pad reports its buttons and its dial as keys of a keyboard, in an order that depends on the
modifiers. The program turns them into a mask and a turn of the dial, and the fixed descriptor
has the pen copied from the one of the device. -/
namespace Deco02

open ListSplice Transducers DeviceEvents DecoPads KamvasPen FixedDescriptors ReportFields
open ReportMacros ShortItems

def RDESC_SIZE_PAD : ℕ := 188
def REPORT_SIZE_PAD : ℕ := 8
def REPORT_ID_BUTTONS : UInt8 := 3
def PAD_BUTTON_COUNT : ℕ := 6

def HidUsage_GD_Dial : ℕ := 0x37
def HidUsage_Dig_Invert : ℕ := 0x3c
def HidUsage_Dig_Eraser : ℕ := 0x45

def penFields : List Rdesc := [
  generatedUsage HidUsage_Dig_TipSwitch,
  generatedUsage HidUsage_Dig_BarrelSwitch,
  generatedUsage HidUsage_Dig_Eraser,
  generatedUsage HidUsage_Dig_Invert,
  generatedUsage HidUsage_Dig_InRange,
  .item .logicalMinimum_i8 0,
  .item .logicalMaximum_i8 1,
  .item .reportSize 1,
  .item .reportCount 5,
  input (Var ||| Abs),
  .item .reportCount 3,
  input Const,
  generatedUsagePage HidUsagePage_GenericDesktop,
  generatedUsage HidUsage_GD_X,
  .item .logicalMinimum_i16 0,
  .item .logicalMaximum_i16 22352,
  .item .unitExponent (-3),
  unit inch,
  .item .physicalMinimum_i16 0,
  .item .physicalMaximum_i16 22352,
  .item .reportSize 16,
  .item .reportCount 1,
  input (Var ||| Abs),
  generatedUsage HidUsage_GD_Y,
  .item .logicalMinimum_i16 0,
  .item .logicalMaximum_i16 13970,
  .item .unitExponent (-3),
  unit inch,
  .item .physicalMinimum_i16 0,
  .item .physicalMaximum_i16 13970,
  .item .reportSize 16,
  .item .reportCount 1,
  input (Var ||| Abs),
  generatedUsagePage HidUsagePage_Digitizers,
  generatedUsage HidUsage_Dig_TipPressure,
  .item .logicalMinimum_i16 0,
  .item .logicalMaximum_i16 8191,
  .item .reportSize 16,
  .item .reportCount 1,
  input (Var ||| Abs)]

def padFields : List Rdesc := [
  generatedUsagePage HidUsagePage_GenericDesktop,
  generatedUsage HidUsage_GD_Dial,
  .item .logicalMinimum_i8 (-1),
  .item .logicalMaximum_i8 1,
  .item .reportCount 1,
  .item .reportSize REPORT_SIZE_PAD,
  input (Var ||| KamvasPen.Rel),
  generatedUsagePage HidUsagePage_Button,
  .item .reportSize 1,
  .item .reportCount PAD_BUTTON_COUNT,
  .item .usageMinimum_i8 0x01,
  .item .usageMaximum_i8 PAD_BUTTON_COUNT,
  .item .logicalMinimum_i8 0x0,
  .item .logicalMaximum_i8 0x1,
  input (Var ||| Abs),
  -- the buttons have no padding behind them, so all that follows lies across bytes
  generatedUsagePage HidUsagePage_Digitizers,
  generatedUsage HidUsage_Dig_BarrelSwitch,
  .item .reportCount 1,
  .item .reportSize 1,
  input (Var ||| Abs),
  .item .reportCount 7,
  input Const,
  generatedUsagePage HidUsagePage_GenericDesktop,
  generatedUsage HidUsage_GD_X,
  generatedUsage HidUsage_GD_Y,
  .item .reportCount 2,
  .item .reportSize 8,
  input (Var ||| Abs),
  .item .reportCount 2,
  .item .reportSize 8,
  input Const]

def fixedRdescPad : Rdesc := rdesc [
  generatedUsagePage HidUsagePage_Digitizers,
  generatedUsage HidUsage_Dig_Pen,
  collectionApplication (rdesc [
    .item .reportId 7,
    generatedUsage HidUsage_Dig_Stylus,
    collectionPhysical (rdesc penFields)]),
  generatedUsagePage HidUsagePage_GenericDesktop,
  generatedUsage HidUsage_GD_Keypad,
  collectionApplication (rdesc [
    .item .reportId REPORT_ID_BUTTONS.toNat,
    .item .reportCount 1,
    .item .reportSize REPORT_SIZE_PAD,
    generatedUsagePage HidUsagePage_Digitizers,
    generatedUsage HidUsage_Dig_TabletFunctionKeys,
    collectionPhysical (rdesc padFields),
    fixedSizeVendorReport RDESC_SIZE_PAD])]

/-- `xppen_deco02_rdesc_fixup` with the array. -/
def xppenDeco02RdescFixup (fixed : List UInt8) (b : Buffer) : List UInt8 × ℤ :=
  if b.size = RDESC_SIZE_PAD then (splice b.data 0 fixed, fixed.length) else (b.data, 0)

/-- The descriptor of the device, as the comment in the source has it. -/
def deviceDescriptor : List UInt8 :=
  [0x05, 0x0d, 0x09, 0x02, 0xa1, 0x01, 0x85, 0x07, 0x09, 0x20, 0xa1, 0x00, 0x09, 0x42, 0x09, 0x44,
    0x09, 0x45, 0x09, 0x3c, 0x09, 0x32, 0x15, 0x00, 0x25, 0x01, 0x75, 0x01, 0x95, 0x05, 0x81, 0x02,
    0x95, 0x03, 0x81, 0x03, 0x05, 0x01, 0x09, 0x30, 0x15, 0x00, 0x26, 0x50, 0x57, 0x55, 0x0d, 0x65,
    0x13, 0x35, 0x00, 0x46, 0x50, 0x57, 0x75, 0x10, 0x95, 0x01, 0x81, 0x02, 0x09, 0x31, 0x15, 0x00,
    0x26, 0x92, 0x36, 0x55, 0x0d, 0x65, 0x13, 0x35, 0x00, 0x46, 0x92, 0x36, 0x75, 0x10, 0x95, 0x01,
    0x81, 0x02, 0x05, 0x0d, 0x09, 0x30, 0x15, 0x00, 0x26, 0xff, 0x1f, 0x75, 0x10, 0x95, 0x01, 0x81,
    0x02, 0xc0, 0xc0, 0x09, 0x0e, 0xa1, 0x01, 0x85, 0x05, 0x09, 0x23, 0xa1, 0x02, 0x09, 0x52, 0x09,
    0x53, 0x25, 0x0a, 0x75, 0x08, 0x95, 0x02, 0xb1, 0x02, 0xc0, 0xc0, 0x05, 0x0c, 0x09, 0x36, 0xa1,
    0x00, 0x85, 0x06, 0x05, 0x09, 0x19, 0x01, 0x29, 0x20, 0x15, 0x00, 0x25, 0x01, 0x95, 0x20, 0x75,
    0x01, 0x81, 0x02, 0xc0, 0x05, 0x01, 0x09, 0x06, 0xa1, 0x01, 0x85, 0x03, 0x05, 0x07, 0x19, 0xe0,
    0x29, 0xe7, 0x15, 0x00, 0x25, 0x01, 0x75, 0x01, 0x95, 0x08, 0x81, 0x02, 0x05, 0x07, 0x19, 0x00,
    0x29, 0xff, 0x26, 0xff, 0x00, 0x75, 0x08, 0x95, 0x06, 0x81, 0x00, 0xc0]

def pressKey (state : UInt8 × UInt8) (key : UInt8) : UInt8 × UInt8 :=
  match key with
  | 0x2e => (1, state.2)
  | 0x2d => (0xff, state.2)
  | 0x05 => (state.1, state.2 ||| BIT 0)
  | 0x2c => (state.1, state.2 ||| BIT 1)
  | 0x08 => (state.1, state.2 ||| BIT 2)
  | 0x0c => (state.1, state.2 ||| BIT 3)
  | 0x1d => (state.1, state.2 ||| BIT 4)
  | 0x16 => (state.1, state.2 ||| BIT 5)
  | _ => state

/-- `dial_code` and `button_mask` after the loop. -/
def pressKeys (data : List UInt8) : UInt8 × UInt8 :=
  ((List.range' 2 6).map (byte data)).foldl pressKey (0, 0)

def padReport (state : UInt8 × UInt8) : List UInt8 :=
  [REPORT_ID_BUTTONS, state.1, state.2, 0, 0, 0, 0, 0]

def xppenDeco02DeviceEvent (buffer : List UInt8) : Called Unit :=
  match hidBpfGetData buffer 0 REPORT_SIZE_PAD with
  | none => ⟨(), buffer, 0⟩
  | some data =>
    if byte data 0 ≠ REPORT_ID_BUTTONS then ⟨(), data, 0⟩
    else ⟨(), padReport (pressKeys data) ++ data.drop 8, 0⟩

def xppenDeco02 : Transducer Unit Report (Option (List UInt8)) :=
  device () fun _ => xppenDeco02DeviceEvent

def fixedFields : List Field := (layout (fixedRdescPad.items itemPayload)).getD []

def deviceFields : List Field := (reportFields deviceDescriptor).getD []

def buttonKeys : List UInt8 := [0x05, 0x2c, 0x08, 0x0c, 0x1d, 0x16]

def lastTurn (keys : List UInt8) : ℤ :=
  match keys.reverse.find? fun key => key = 0x2e ∨ key = 0x2d with
  | some key => if key = 0x2e then 1 else -1
  | none => 0

/-- A button is down when its key is among `keys`, wherever, and nothing else is reported than
the dial. -/
structure DecodesKeys (fields : List Field) (keys : List UInt8) (out : List UInt8) : Prop where
  length : out.length = declaredLength fields REPORT_ID_BUTTONS.toNat
  button : ∀ i < 6, decode fields out (fullUsageOf HidUsagePage_Button (i + 1)) =
    some (if keys.any fun key => buttonKeys[i]? = some key then 1 else 0)
  dial : decode fields out (fullUsageOf HidUsagePage_GenericDesktop HidUsage_GD_Dial) =
    some (lastTurn keys)
  barrelSwitch : decode fields out
    (fullUsageOf HidUsagePage_Digitizers HidUsage_Dig_BarrelSwitch) = some 0
  x : decode fields out (fullUsageOf HidUsagePage_GenericDesktop HidUsage_GD_X) = some 0
  y : decode fields out (fullUsageOf HidUsagePage_GenericDesktop HidUsage_GD_Y) = some 0

section keys

variable {keys : List UInt8}

theorem press_key_mask (state : UInt8 × UInt8) (key : UInt8) :
    (pressKey state key).2 = state.2 ||| (pressKey (0, 0) key).2 := by
  unfold pressKey
  split <;> simp

theorem key_bit : ∀ key : UInt8, (∀ i < 6,
    (pressKey (0, 0) key).2.toNat.testBit i = decide (buttonKeys[i]? = some key)) ∧
      (pressKey (0, 0) key).2.toNat < 64 := by
  decide +kernel

theorem press_keys_bit {i : ℕ} (hi : i < 6) (state : UInt8 × UInt8) :
    (keys.foldl pressKey state).2.toNat.testBit i ↔
      state.2.toNat.testBit i ∨ ∃ key ∈ keys, buttonKeys[i]? = some key := by
  apply foldl_or_iff (fun s : UInt8 × UInt8 => s.2.toNat.testBit i)
  intro s key _
  rw [press_key_mask, UInt8.toNat_or, Nat.testBit_or, (key_bit key).1 i hi, Bool.or_eq_true,
    decide_eq_true_eq]

theorem press_keys_mask {state : UInt8 × UInt8} (h : state.2.toNat < 64) :
    (keys.foldl pressKey state).2.toNat < 64 := by
  induction keys generalizing state with
  | nil => exact h
  | cons key keys ih =>
    apply ih
    rw [press_key_mask, UInt8.toNat_or]
    exact Nat.or_lt_two_pow (n := 6) h (key_bit key).2

theorem press_key_dial (state : UInt8 × UInt8) (key : UInt8) : (pressKey state key).1 =
    if key = 0x2e then 1 else if key = 0x2d then 0xff else state.1 := by
  unfold pressKey
  split <;> simp_all

theorem press_keys_dial : ((keys.foldl pressKey (0, 0)).1.toInt8.toInt : ℤ) = lastTurn keys := by
  induction keys using List.reverseRecOn with
  | nil => rfl
  | append_singleton keys key ih =>
    rw [List.foldl_append, List.foldl_cons, List.foldl_nil, press_key_dial, lastTurn,
      List.reverse_append, List.reverse_singleton, List.singleton_append, List.find?_cons]
    by_cases hright : key = 0x2e
    · simp only [hright]
      rfl
    · by_cases hleft : key = 0x2d
      · simp only [hleft]
        rfl
      · simp only [hright, hleft, or_self, decide_false, if_false]
        exact ih

end keys

section decoding

variable {keys : List UInt8}

theorem value_pad (dial mask : UInt8) (hmask : mask.toNat < 64) :
    LittleEndian.value (padReport (dial, mask)) < 2 ^ 22 := by
  have hdial := dial.toNat_lt
  simp only [padReport, LittleEndian.value]
  rw [REPORT_ID_BUTTONS]
  simp only [UInt8.reduceToNat]
  omega

theorem decode_filler {dial mask : UInt8} (hmask : mask.toNat < 64) {usage i n : ℕ} (hi : 22 ≤ i)
    (hfield : (fixedFields.find? fun f =>
      f.reportId == REPORT_ID_BUTTONS.toNat && f.usage == some usage) =
        some ⟨REPORT_ID_BUTTONS.toNat, i, n, some usage, false⟩) :
    decode fixedFields (padReport (dial, mask)) usage = some 0 := by
  have hlt := lt_of_lt_of_le (value_pad dial mask hmask) (Nat.pow_le_pow_right (by decide) hi)
  have hhead : ((padReport (dial, mask)).headD 0).toNat = REPORT_ID_BUTTONS.toNat := rfl
  rw [decode_field hhead hfield, Field.value, LittleEndian.bitRange, Nat.div_eq_of_lt hlt]
  rfl

theorem decodes_keys : DecodesKeys fixedFields keys (padReport (keys.foldl pressKey (0, 0))) := by
  have hhead : ((padReport (keys.foldl pressKey (0, 0))).headD 0).toNat =
      REPORT_ID_BUTTONS.toNat := rfl
  have hmask : (keys.foldl pressKey (0, 0)).2.toNat < 64 := press_keys_mask (by decide)
  constructor
  · have hdeclared : declaredLength fixedFields REPORT_ID_BUTTONS.toNat = 8 := by decide +kernel
    rw [hdeclared]
    rfl
  · intro i hi
    have hfield : ∀ i < 6, fixedFields.find? (fun f => f.reportId == REPORT_ID_BUTTONS.toNat &&
        f.usage == some (fullUsageOf HidUsagePage_Button (i + 1))) =
        some ⟨REPORT_ID_BUTTONS.toNat, 8 * 2 + i, 1,
          some (fullUsageOf HidUsagePage_Button (i + 1)), false⟩ := by decide +kernel
    have hbyte : byte (padReport (keys.foldl pressKey (0, 0))) 2 =
        (keys.foldl pressKey (0, 0)).2 := rfl
    have hbit : (keys.foldl pressKey (0, 0)).2.toNat.testBit i =
        keys.any fun key => buttonKeys[i]? = some key := by
      rw [Bool.eq_iff_iff, press_keys_bit hi, List.any_eq_true]
      simp
    rw [decode_bit_at hhead (by omega) (hfield i hi), hbyte, hbit]
    cases keys.any fun key => buttonKeys[i]? = some key <;> rfl
  · rw [← press_keys_dial]
    exact decode_signed_at hhead (i := 1) (by decide +kernel)
  · exact decode_filler hmask (i := 22) (n := 1) (by decide) (by decide +kernel)
  · exact decode_filler hmask (i := 30) (n := 8) (by decide) (by decide +kernel)
  · exact decode_filler hmask (i := 38) (n := 8) (by decide) (by decide +kernel)

end decoding

section events

variable {r : Report}

theorem step_keys (hid : byte r.data 0 = REPORT_ID_BUTTONS) (hsize : r.size = REPORT_SIZE_PAD) :
    xppenDeco02.step () r =
      ((), some (padReport ((slots r).foldl pressKey (0, 0)))) := by
  have hcalled : xppenDeco02DeviceEvent r.data =
      ⟨(), padReport (pressKeys r.data) ++ r.data.drop 8, 0⟩ := by
    rw [xppenDeco02DeviceEvent, get_data_report r (by decide)]
    simp only [hid, ne_eq, not_true_eq_false, if_false]
  rw [xppenDeco02, device_passes hcalled, hsize]
  exact congrArg (fun out => ((), some out)) (List.take_left' rfl)

theorem step_other (hid : byte r.data 0 ≠ REPORT_ID_BUTTONS) :
    xppenDeco02.step () r = ((), some r.bytes) := by
  apply device_passes
  rw [xppenDeco02DeviceEvent, get_data_report r (by decide)]
  simp only [ne_eq, hid, not_false_eq_true, if_true]

end events

theorem fixed_no_wide_unit : fixedRdescPad.NoWideUnit := by
  simp [fixedRdescPad, rdesc, collectionApplication, collectionPhysical, padFields, penFields,
    unit, vendor_report_no_wide_unit, usage_no_wide_unit, usage_page_no_wide_unit, input,
    Rdesc.NoWideUnit, isWideUnit]

theorem pen_fields : fixedFields.filter (·.reportId == 7) = deviceFields.filter (·.reportId == 7) := by
  decide +kernel

/-- The pad is read off its keys in whatever order they are reported, and the pen as before. -/
theorem pad_reports_decode (b : Buffer) (fixed : List UInt8)
    (hfixed : fixedRdescPad.bytes = some fixed) :
    (b.size ≠ RDESC_SIZE_PAD → b.parsed (xppenDeco02RdescFixup fixed b) = b.descriptor) ∧
    (b.size = RDESC_SIZE_PAD →
      ∃ fields, reportFields (b.parsed (xppenDeco02RdescFixup fixed b)) = some fields ∧
        (fields.Pairwise fun f g => ¬ Overlap f g) ∧
        (∀ r : Report, byte r.data 0 = REPORT_ID_BUTTONS → r.size = REPORT_SIZE_PAD →
          ∃ out, xppenDeco02.step () r = ((), some out) ∧ DecodesKeys fields (slots r) out) ∧
        (∀ r : Report, byte r.data 0 ≠ REPORT_ID_BUTTONS →
          xppenDeco02.step () r = ((), some r.bytes)) ∧
        (b.descriptor = deviceDescriptor → ∀ old, reportFields b.descriptor = some old →
          ∀ report usage, (report.headD 0).toNat = 7 →
            decode fields report usage = decode old report usage)) := by
  constructor
  · intro hsize
    rw [xppenDeco02RdescFixup, if_neg hsize, b.parsed_unchanged]
  · intro hsize
    have hne : fixed ≠ [] := by
      rintro rfl
      exact absurd hfixed (by decide +kernel)
    have hlayout : layout (fixedRdescPad.items itemPayload) = some fixedFields := by
      rw [fixedFields, Option.getD_of_ne_none (by decide +kernel)]
    refine ⟨fixedFields, ?_, layout_disjoint hlayout, ?_, fun r hid => step_other hid, ?_⟩
    · rw [xppenDeco02RdescFixup, if_pos hsize, b.parsed_replaced hne,
        reportFields_of_bytes fixed_no_wide_unit hfixed, hlayout]
    · intro r hid hlen
      exact ⟨_, step_keys hid hlen, decodes_keys⟩
    · intro hdescriptor old hold report usage hid
      apply decode_congr hid
      rw [pen_fields, deviceFields, ← hdescriptor, hold, Option.getD_some]

def deviceBuffer : Buffer where
  data := deviceDescriptor ++ List.replicate 3908 0
  size := 188
  length_data := by
    rw [List.length_append, List.length_replicate]
    rfl
  size_le := by decide

def twoButtons : Report := .ofBytes [0x03, 0x05, 0x05, 0x1d, 0x2d, 0, 0, 0]

theorem pad_reports_decode_two_buttons : ∃ fixed fields,
    reportFields (deviceBuffer.parsed (xppenDeco02RdescFixup fixed deviceBuffer)) = some fields ∧
      ∃ out, xppenDeco02.step () twoButtons = ((), some out) ∧
        decode fields out (fullUsageOf HidUsagePage_Button 1) = some 1 ∧
        decode fields out (fullUsageOf HidUsagePage_Button 2) = some 0 ∧
        decode fields out (fullUsageOf HidUsagePage_Button 5) = some 1 ∧
        decode fields out (fullUsageOf HidUsagePage_GenericDesktop HidUsage_GD_Dial) =
          some (-1) := by
  obtain ⟨fixed, hfixed⟩ : ∃ fixed, fixedRdescPad.bytes = some fixed :=
    Option.isSome_iff_exists.mp (by decide +kernel)
  obtain ⟨fields, hfields, -, hkeys, -, -⟩ := (pad_reports_decode deviceBuffer fixed hfixed).2 rfl
  obtain ⟨out, hout, hdecodes⟩ := hkeys twoButtons rfl rfl
  exact ⟨fixed, fields, hfields, out, hout, hdecodes.button 0 (by decide),
    hdecodes.button 1 (by decide), hdecodes.button 4 (by decide), hdecodes.dial⟩

end Deco02
