import UdevHidBpf.KamvasGen3
import UdevHidBpf.ReportFields
import UdevHidBpf.ReportMacros

/-! # Pen reports of the Kamvas 16

The program moves the bytes of a pen report to where the fixed report descriptor has its
fields. -/
namespace KamvasPen

open Transducers DeviceEvents KamvasGen3 ReportMacros ReportFields

def HidUsagePage_GenericDesktop : ℕ := 0x01
def HidUsagePage_Button : ℕ := 0x09
def HidUsagePage_Consumer : ℕ := 0x0c
def HidUsagePage_Digitizers : ℕ := 0x0d
def HidUsage_GD_Keypad : ℕ := 0x07
def HidUsage_GD_X : ℕ := 0x30
def HidUsage_GD_Y : ℕ := 0x31
def HidUsage_GD_Wheel : ℕ := 0x38
def HidUsage_Con_ACPan : ℕ := 0x238
def HidUsage_Dig_Pen : ℕ := 0x02
def HidUsage_Dig_Stylus : ℕ := 0x20
def HidUsage_Dig_TipPressure : ℕ := 0x30
def HidUsage_Dig_InRange : ℕ := 0x32
def HidUsage_Dig_TabletFunctionKeys : ℕ := 0x39
def HidUsage_Dig_XTilt : ℕ := 0x3d
def HidUsage_Dig_YTilt : ℕ := 0x3e
def HidUsage_Dig_TipSwitch : ℕ := 0x42
def HidUsage_Dig_BarrelSwitch : ℕ := 0x44
def HidUsage_Dig_SecondaryBarrelSwitch : ℕ := 0x5a

def Const : ℕ := 0x1
def Var : ℕ := 0x2
def Abs : ℕ := 0x0
def Rel : ℕ := 0x4
def cm : ℕ := 0x11
def inch : ℕ := 0x13
def deg : ℕ := 0x14

def rdesc (items : List Rdesc) : Rdesc := items.foldr .seq .empty

def input (flags : ℕ) : Rdesc := .item .input flags

/-- The pen: report `VENDOR_REPORT_ID`. -/
def penFields : List Rdesc := [
  .item .reportSize 1,
  .item .logicalMinimum_i8 0,
  .item .logicalMaximum_i8 1,
  .item .reportCount 3,
  generatedUsage HidUsage_Dig_TipSwitch,
  generatedUsage HidUsage_Dig_BarrelSwitch,
  generatedUsage HidUsage_Dig_SecondaryBarrelSwitch,
  input (Var ||| Abs),
  .pushPop (rdesc [
    .item .reportCount 1,
    generatedUsagePage HidUsagePage_Button,
    .item .usage_i8 0x4a,
    input (Var ||| Abs)]),
  .item .reportCount 3,
  input Const,
  .item .reportCount 1,
  generatedUsage HidUsage_Dig_InRange,
  input (Var ||| Abs),
  .item .reportSize 16,
  .item .reportCount 1,
  .pushPop (rdesc [
    generatedUsagePage HidUsagePage_GenericDesktop,
    unit cm,
    .item .unitExponent (-2),
    .item .logicalMinimum_i16 0,
    .item .physicalMinimum_i16 0,
    .item .reportSize 24,
    .item .logicalMaximum_i32 69920,
    .item .physicalMaximum_i16 3496,
    generatedUsage HidUsage_GD_X,
    input (Var ||| Abs),
    .item .reportSize 16,
    .item .logicalMaximum_i16 39340,
    .item .physicalMaximum_i16 1967,
    generatedUsage HidUsage_GD_Y,
    input (Var ||| Abs)]),
  .item .reportSize 16,
  .item .logicalMinimum_i16 0,
  .item .logicalMaximum_i16 16383,
  generatedUsage HidUsage_Dig_TipPressure,
  input (Var ||| Abs),
  .item .reportSize 8,
  .item .reportCount 1,
  input Const,
  .item .reportCount 2,
  .pushPop (rdesc [
    unit deg,
    .item .unitExponent 0,
    .item .logicalMinimum_i8 (-60),
    .item .physicalMinimum_i8 (-60),
    .item .logicalMaximum_i8 60,
    .item .physicalMaximum_i8 60,
    generatedUsage HidUsage_Dig_XTilt,
    generatedUsage HidUsage_Dig_YTilt,
    input (Var ||| Abs)])]

/-- The pad: report `CUSTOM_PAD_REPORT_ID`. -/
def padFields : List Rdesc := [
  .item .reportSize 1,
  .item .reportCount 1,
  generatedUsage HidUsage_Dig_BarrelSwitch,
  input (Var ||| Abs),
  .item .reportCount 7,
  input Const,
  .item .reportSize 8,
  .item .reportCount 2,
  generatedUsagePage HidUsagePage_GenericDesktop,
  generatedUsage HidUsage_GD_X,
  generatedUsage HidUsage_GD_Y,
  input (Var ||| Abs),
  .item .reportSize 1,
  .item .reportCount 8,
  generatedUsagePage HidUsagePage_Button,
  .item .usageMinimum_i8 1,
  .item .usageMaximum_i8 8,
  input (Var ||| Abs),
  .item .reportSize 8,
  .item .reportCount 1,
  generatedUsagePage HidUsagePage_GenericDesktop,
  generatedUsage HidUsage_GD_Wheel,
  .item .logicalMinimum_i8 (-1),
  .item .logicalMaximum_i8 1,
  input (Var ||| Rel),
  generatedUsagePage HidUsagePage_Consumer,
  generatedUsage HidUsage_Con_ACPan,
  input (Var ||| Rel)]

def fixedRdescVendor : Rdesc := rdesc [
  generatedUsagePage HidUsagePage_Digitizers,
  generatedUsage HidUsage_Dig_Pen,
  collectionApplication (rdesc [
    .item .reportId VENDOR_REPORT_ID.toNat,
    generatedUsagePage HidUsagePage_Digitizers,
    generatedUsage HidUsage_Dig_Pen,
    collectionPhysical (rdesc penFields)]),
  generatedUsagePage HidUsagePage_GenericDesktop,
  generatedUsage HidUsage_GD_Keypad,
  collectionApplication (rdesc [
    .item .reportId CUSTOM_PAD_REPORT_ID.toNat,
    .item .logicalMinimum_i8 0,
    .item .logicalMaximum_i8 1,
    generatedUsagePage HidUsagePage_Digitizers,
    generatedUsage HidUsage_Dig_TabletFunctionKeys,
    collectionPhysical (rdesc padFields),
    fixedSizeVendorReport VENDOR_REPORT_LENGTH])]

def reportFields (descriptor : List UInt8) : Option (List Field) :=
  (ShortItems.parse descriptor).bind layout

def vendorFields : List Field := (layout (fixedRdescVendor.items itemPayload)).getD []

def fullUsageOf (page id : ℕ) : ℕ := page * 2 ^ 16 + id

/-- The pen report with the bytes `b` as `fields` show it in `out`. Tilts are signed bytes. -/
structure DecodesPen (fields : List Field) (b : ℕ → UInt8) (out : List UInt8) : Prop where
  tipSwitch : decode fields out (fullUsageOf HidUsagePage_Digitizers HidUsage_Dig_TipSwitch) =
    some (((b 1).toNat.testBit 0).toNat : ℤ)
  barrelSwitch : decode fields out
    (fullUsageOf HidUsagePage_Digitizers HidUsage_Dig_BarrelSwitch) =
      some (((b 1).toNat.testBit 1).toNat : ℤ)
  secondaryBarrelSwitch : decode fields out
    (fullUsageOf HidUsagePage_Digitizers HidUsage_Dig_SecondaryBarrelSwitch) =
      some (((b 1).toNat.testBit 2).toNat : ℤ)
  thirdButton : decode fields out (fullUsageOf HidUsagePage_Button 0x4a) =
    some (((b 1).toNat.testBit 3).toNat : ℤ)
  inRange : decode fields out (fullUsageOf HidUsagePage_Digitizers HidUsage_Dig_InRange) =
    some (((b 1).toNat.testBit 7).toNat : ℤ)
  x : decode fields out (fullUsageOf HidUsagePage_GenericDesktop HidUsage_GD_X) =
    some (((b 2).toNat ||| (b 3).toNat <<< 8 ||| (b 8).toNat <<< 16 : ℕ) : ℤ)
  y : decode fields out (fullUsageOf HidUsagePage_GenericDesktop HidUsage_GD_Y) =
    some (((b 4).toNat ||| (b 5).toNat <<< 8 : ℕ) : ℤ)
  tipPressure : decode fields out
    (fullUsageOf HidUsagePage_Digitizers HidUsage_Dig_TipPressure) =
      some (((b 6).toNat ||| (b 7).toNat <<< 8 : ℕ) : ℤ)
  xTilt : decode fields out (fullUsageOf HidUsagePage_Digitizers HidUsage_Dig_XTilt) =
    some (b 10).toInt8.toInt
  yTilt : (b 11).toInt8 ≠ -128 →
    decode fields out (fullUsageOf HidUsagePage_Digitizers HidUsage_Dig_YTilt) =
      some (-(b 11).toInt8.toInt)

/-- A composition closes what it opens, so that what was saved before stays saved. -/
theorem saved_items (r : Rdesc) {p q : Reader} (h : readItems p (r.items itemPayload) = some q) :
    q.saved = p.saved := by
  have hitem (m : ItemMacro) (payload : ℕ) {p q : Reader}
      (h : readItems p [⟨m.code.1, payload⟩] = some q) : q.saved = p.saved := by
    have hcode : m.code.1.toNat / 4 ≠ 0x29 ∧ m.code.1.toNat / 4 ≠ 0x2d := by cases m <;> decide
    exact readItem_saved (readItems_singleton h) hcode.1 hcode.2
  induction r generalizing p q with
  | empty =>
    cases h
    rfl
  | seq first rest ihFirst ihRest =>
    obtain ⟨mid, hfirst, hrest⟩ := readItems_append h
    rw [ihRest hrest, ihFirst hfirst]
  | item m arg => exact hitem m _ h
  | usagePageVendor u => exact hitem .usagePage_i16 _ h
  | collection col body ih =>
    obtain ⟨inner, hinner, hclose⟩ := readItems_append h
    obtain ⟨opened, hopen, hbody⟩ := readItems_append hinner
    have hcode : (0xa1 : UInt8).toNat / 4 ≠ 0x29 ∧ (0xa1 : UInt8).toNat / 4 ≠ 0x2d := by decide
    rw [readItem_saved (readItems_singleton hclose) (by decide) (by decide), ih hbody,
      readItem_saved (readItems_singleton hopen) hcode.1 hcode.2]
  | pushPop body ih => exact (push_pop_restores ih h).2

theorem macro_push_pop (body : Rdesc) {p q : Reader}
    (h : readItems p ((Rdesc.pushPop body).items itemPayload) = some q) :
    q.globals = p.globals :=
  (push_pop_restores (saved_items body) h).1

theorem vendor_layout : layout (fixedRdescVendor.items itemPayload) = some vendorFields := by
  decide +kernel

theorem usage_no_wide_unit (value : ℕ) : (generatedUsage value).NoWideUnit := by
  rw [generatedUsage]
  split_ifs <;> simp [Rdesc.NoWideUnit, isWideUnit]

theorem usage_page_no_wide_unit (value : ℕ) : (generatedUsagePage value).NoWideUnit := by
  rw [generatedUsagePage]
  split_ifs <;> simp [Rdesc.NoWideUnit, isWideUnit]

theorem vendor_no_wide_unit : fixedRdescVendor.NoWideUnit := by
  simp [fixedRdescVendor, rdesc, collectionApplication, collectionPhysical, penFields, padFields,
    fixedSizeVendorReport, usage_no_wide_unit, usage_page_no_wide_unit, unit, input,
    Rdesc.NoWideUnit, isWideUnit]

theorem vendor_fields : ∃ descriptor, fixedRdescVendor.bytes = some descriptor ∧
    reportFields descriptor = some vendorFields := by
  obtain ⟨descriptor, hbytes⟩ : ∃ descriptor, fixedRdescVendor.bytes = some descriptor :=
    Option.isSome_iff_exists.1 (by decide +kernel)
  have hitems := (macros_well_formed fixedRdescVendor vendor_no_wide_unit descriptor hbytes).1
  refine ⟨descriptor, hbytes, ?_⟩
  rw [reportFields, hitems, Option.bind_some, vendor_layout]

def penBytes (b : ℕ → UInt8) : List UInt8 :=
  [b 0, b 1, b 2, b 3, b 8, b 4, b 5, b 6, b 7, b 9, b 10, -b 11, b 12, b 13]

theorem take_rearrange {data : List UInt8} (h : 14 ≤ data.length) :
    (rearrange (invertYTilt data)).take 14 = penBytes (byte data) := by
  have hlen : 0 + 14 ≤ (rearrange (invertYTilt data)).length := by
    simpa [rearrange, invertYTilt] using h
  have hbytes := bytes_at hlen
  rw [List.drop_zero] at hbytes
  rw [hbytes]
  have h14 : ∀ i < 14, i < data.length := fun i hi => lt_of_lt_of_le hi h
  simp [rearrange, invertYTilt, byte, List.range'_succ, h14, penBytes]

theorem output_pen {x : Report} (h : isPen x) (before : List Report) :
    kamvas16Gen3.output before x = some (penBytes (byte x.data)) := by
  have hlen : 14 ≤ x.data.length := by
    have := x.length_data
    omega
  rw [Transducer.output, kamvas16Gen3, hidFixEventHuionKamvas16Gen3, step_pen h]
  exact congrArg some (take_rearrange hlen)

section decoding

variable {b : ℕ → UInt8}

theorem decode_pen (hid : b 0 = VENDOR_REPORT_ID) {usage : ℕ} {f : Field}
    (hfield : (vendorFields.find? fun f =>
      f.reportId == VENDOR_REPORT_ID.toNat && f.usage == some usage) = some f) :
    decode vendorFields (penBytes b) usage = some (f.value (penBytes b)) := by
  have hhead : (penBytes b).headD 0 = VENDOR_REPORT_ID := hid
  rw [decode, hhead, hfield, Option.map_some]

theorem decode_bit (hid : b 0 = VENDOR_REPORT_ID) {usage i : ℕ} (hi : i < 8)
    (hfield : (vendorFields.find? fun f =>
      f.reportId == VENDOR_REPORT_ID.toNat && f.usage == some usage) =
        some ⟨VENDOR_REPORT_ID.toNat, 8 + i, 1, some usage, false⟩) :
    decode vendorFields (penBytes b) usage = some (((b 1).toNat.testBit i).toNat : ℤ) := by
  have hbyte : (8 + i) / 8 = 1 := by omega
  have hbit : (8 + i) % 8 = i := by omega
  rw [decode_pen hid hfield, value_bit rfl rfl]
  dsimp only
  rw [hbyte, hbit]
  rfl

theorem decode_bytes (hid : b 0 = VENDOR_REPORT_ID) {usage i n : ℕ}
    (hfield : (vendorFields.find? fun f =>
      f.reportId == VENDOR_REPORT_ID.toNat && f.usage == some usage) =
        some ⟨VENDOR_REPORT_ID.toNat, 8 * i, 8 * n, some usage, false⟩) :
    decode vendorFields (penBytes b) usage =
      some (LittleEndian.value (((penBytes b).drop i).take n) : ℤ) := by
  rw [decode_pen hid hfield, value_bytes rfl rfl rfl]

theorem decode_signed (hid : b 0 = VENDOR_REPORT_ID) {usage i : ℕ}
    (hfield : (vendorFields.find? fun f =>
      f.reportId == VENDOR_REPORT_ID.toNat && f.usage == some usage) =
        some ⟨VENDOR_REPORT_ID.toNat, 8 * i, 8, some usage, true⟩) :
    decode vendorFields (penBytes b) usage = some (((penBytes b).getD i 0).toInt8.toInt) := by
  rw [decode_pen hid hfield, value_signed_byte rfl rfl rfl]

theorem toInt_neg {v : UInt8} (h : v.toInt8 ≠ -128) :
    (-v).toInt8.toInt = -v.toInt8.toInt := by
  have hall : ∀ v : UInt8, v.toInt8 ≠ -128 → (-v).toInt8.toInt = -v.toInt8.toInt := by
    decide +kernel
  exact hall v h

theorem decodes_pen (hid : b 0 = VENDOR_REPORT_ID) : DecodesPen vendorFields b (penBytes b) where
  tipSwitch := decode_bit hid (by decide) (by decide +kernel)
  barrelSwitch := decode_bit hid (by decide) (by decide +kernel)
  secondaryBarrelSwitch := decode_bit hid (by decide) (by decide +kernel)
  thirdButton := decode_bit hid (by decide) (by decide +kernel)
  inRange := decode_bit hid (by decide) (by decide +kernel)
  x := by
    rw [decode_bytes (i := 2) (n := 3) hid (by decide +kernel), ← LittleEndian.value_triple]
    rfl
  y := by
    rw [decode_bytes (i := 5) (n := 2) hid (by decide +kernel), ← LittleEndian.value_pair]
    rfl
  tipPressure := by
    rw [decode_bytes (i := 7) (n := 2) hid (by decide +kernel), ← LittleEndian.value_pair]
    rfl
  xTilt := decode_signed (i := 10) hid (by decide +kernel)
  yTilt := by
    intro htilt
    rw [decode_signed (i := 11) hid (by decide +kernel), ← toInt_neg htilt]
    rfl

end decoding

/-- The fixed descriptor reads the device's values off every pen report that is passed on,
from fields that do not overlap. -/
theorem pen_reports_decode : ∃ descriptor fields,
    fixedRdescVendor.bytes = some descriptor ∧ reportFields descriptor = some fields ∧
      (fields.Pairwise fun f g => ¬ Overlap f g) ∧
      ∀ before x, isPen x → ∃ out, kamvas16Gen3.output before x = some out ∧
        DecodesPen fields (byte x.data) out := by
  obtain ⟨descriptor, hbytes, hfields⟩ := vendor_fields
  refine ⟨descriptor, vendorFields, hbytes, hfields, layout_disjoint vendor_layout, ?_⟩
  intro before x hpen
  exact ⟨_, output_pen hpen before, decodes_pen (vendor_iff.1 (pen_vendor hpen)).2⟩

end KamvasPen
