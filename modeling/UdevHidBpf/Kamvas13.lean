import UdevHidBpf.HuionPads

/-! # The descriptor of the Kamvas 13

Its pen reports X in two bytes. The Kamvas 16 shares the pad. -/
namespace Kamvas13

open Transducers DeviceEvents KamvasGen3 FixedDescriptors ReportFields ReportMacros
open KamvasPen (HidUsagePage_Button HidUsagePage_Digitizers HidUsagePage_GenericDesktop
  HidUsage_Dig_BarrelSwitch HidUsage_Dig_InRange HidUsage_Dig_SecondaryBarrelSwitch
  HidUsage_Dig_TipPressure HidUsage_Dig_TipSwitch HidUsage_Dig_XTilt HidUsage_Dig_YTilt
  HidUsage_GD_X HidUsage_GD_Y fullUsageOf reportFields toInt_neg)
open HuionPads
open UdevProperties (Bytes)

/-- The pen report with the bytes `b` as `fields` show it in `out`. -/
structure DecodesPen (fields : List Field) (b : ℕ → UInt8) (out : List UInt8) : Prop where
  tipSwitch : decode fields out (fullUsageOf HidUsagePage_Digitizers HidUsage_Dig_TipSwitch) =
    some (((b 1).toNat.testBit 0).toNat : ℤ)
  barrelSwitch : decode fields out
    (fullUsageOf HidUsagePage_Digitizers HidUsage_Dig_BarrelSwitch) =
      some (((b 1).toNat.testBit 1).toNat : ℤ)
  secondaryBarrelSwitch : decode fields out
    (fullUsageOf HidUsagePage_Digitizers HidUsage_Dig_SecondaryBarrelSwitch) =
      some (((b 1).toNat.testBit 2).toNat : ℤ)
  thirdButton : decode fields out (fullUsageOf HidUsagePage_Button 0x4a) =
    some (((b 1).toNat.testBit 3).toNat : ℤ)
  inRange : decode fields out (fullUsageOf HidUsagePage_Digitizers HidUsage_Dig_InRange) =
    some (((b 1).toNat.testBit 7).toNat : ℤ)
  x : decode fields out (fullUsageOf HidUsagePage_GenericDesktop HidUsage_GD_X) =
    some (LittleEndian.value [b 2, b 3] : ℤ)
  y : decode fields out (fullUsageOf HidUsagePage_GenericDesktop HidUsage_GD_Y) =
    some (LittleEndian.value [b 4, b 5] : ℤ)
  tipPressure : decode fields out
    (fullUsageOf HidUsagePage_Digitizers HidUsage_Dig_TipPressure) =
      some (LittleEndian.value [b 6, b 7] : ℤ)
  xTilt : decode fields out (fullUsageOf HidUsagePage_Digitizers HidUsage_Dig_XTilt) =
    some (b 10).toInt8.toInt
  yTilt : (b 11).toInt8 ≠ -128 →
    decode fields out (fullUsageOf HidUsagePage_Digitizers HidUsage_Dig_YTilt) =
      some (-(b 11).toInt8.toInt)

/-- The pad report `out` made of `x`: the seven buttons and the two wheels, by what the pad showed
before. -/
structure DecodesPad (fields : List Field) (shown : UInt8) (x : Report) (out : List UInt8) :
    Prop where
  button : ∀ i < 7, decode fields out (dialButton i) =
    some (((outButtons out).toNat.testBit i).toNat : ℤ)
  top : decode fields out wheelUsage = some (topWheel out)
  bottom : decode fields out panUsage = some (bottomWheel out)
  steady : SteadyButtons shown x out
  wheels : SoundWheels x out

def vendorFields : List Field := arrayFields HuionDescriptors.Kamvas13.fixedRdescVendor

def penBytes (b : ℕ → UInt8) : List UInt8 :=
  [b 0, b 1, b 2, b 3, b 4, b 5, b 6, b 7, b 8, b 9, b 10, -b 11, b 12, b 13]

theorem take_invert {data : List UInt8} (h : 14 ≤ data.length) :
    (invertYTilt data).take 14 = penBytes (byte data) := by
  have hlen : 0 + 14 ≤ (invertYTilt data).length := by simpa [invertYTilt] using h
  have hbytes := bytes_at hlen
  rw [List.drop_zero] at hbytes
  have h14 : ∀ i < 14, i < data.length := fun i hi => lt_of_lt_of_le hi h
  rw [hbytes]
  simp [List.range'_succ, byte, invertYTilt, penBytes, h14]

theorem output_pen {x : Report} (h : isPen x) (before : List Report) :
    kamvas13Gen3.output before x = some (penBytes (byte x.data)) := by
  have hlen : 14 ≤ x.data.length := by
    have := x.length_data
    omega
  rw [Transducer.output, kamvas13Gen3, hidFixEventHuionKamvas13Gen3, step_pen h]
  exact congrArg some (take_invert hlen)

theorem decodes_pen {b : ℕ → UInt8} (hid : b 0 = VENDOR_REPORT_ID) :
    DecodesPen vendorFields b (penBytes b) := by
  have hhead : ((penBytes b).headD 0).toNat = VENDOR_REPORT_ID.toNat := congrArg UInt8.toNat hid
  constructor
  · exact decode_bit_at hhead (i := 1) (j := 0) (by decide) (by decide +kernel)
  · exact decode_bit_at hhead (i := 1) (j := 1) (by decide) (by decide +kernel)
  · exact decode_bit_at hhead (i := 1) (j := 2) (by decide) (by decide +kernel)
  · exact decode_bit_at hhead (i := 1) (j := 3) (by decide) (by decide +kernel)
  · exact decode_bit_at hhead (i := 1) (j := 7) (by decide) (by decide +kernel)
  · exact decode_bytes_at hhead (i := 2) (n := 2) (by decide +kernel)
  · exact decode_bytes_at hhead (i := 4) (n := 2) (by decide +kernel)
  · exact decode_bytes_at hhead (i := 6) (n := 2) (by decide +kernel)
  · exact decode_signed_at hhead (i := 10) (by decide +kernel)
  · intro htilt
    rw [decode_signed_at hhead (i := 11) (by decide +kernel), ← toInt_neg htilt]
    rfl

theorem decodes_pad {before : List Report} {x : Report} (h : isPad x) :
    ∃ out, kamvas13Gen3.output before x = some out ∧
      DecodesPad vendorFields (shownButtons kamvas13Gen3 before) x out := by
  obtain ⟨out, hout, hid, hsteady, hwheels⟩ := (never_fakes_buttons invertYTilt before x).1 h
  have hhead : (out.headD 0).toNat = CUSTOM_PAD_REPORT_ID.toNat := by rw [headD_byte, hid]
  have hbutton : ∀ i < 7, vendorFields.find? (fun f =>
      f.reportId == CUSTOM_PAD_REPORT_ID.toNat && f.usage == some (dialButton i)) =
      some ⟨CUSTOM_PAD_REPORT_ID.toNat, 8 * 4 + i, 1, some (dialButton i), false⟩ := by
    decide +kernel
  refine ⟨out, hout, ?_, ?_, ?_, hsteady, hwheels⟩
  · intro i hi
    exact decode_bit_at hhead (by omega) (hbutton i hi)
  · exact decode_signed_at hhead (i := 5) (by decide +kernel)
  · exact decode_signed_at hhead (i := 6) (by decide +kernel)

/-- On the vendor node the kernel finds what pen and pad report, in every run. -/
theorem vendor_node_decodes (firmwareId : Bytes) {b : Buffer}
    (hsize : b.size = HuionNodes.kamvas13Gen3.vendorLength) : ∃ fields,
      reportFields (b.parsed (HuionNodes.kamvas13Gen3.fixRdesc firmwareId b)) = some fields ∧
        (fields.Pairwise fun f g => ¬ Overlap f g) ∧ ∀ before x,
          (isPen x → ∃ out, KamvasGen3.kamvas13Gen3.output before x = some out ∧
            DecodesPen fields (byte x.data) out) ∧
          (isPad x → ∃ out, KamvasGen3.kamvas13Gen3.output before x = some out ∧
            DecodesPad fields (shownButtons KamvasGen3.kamvas13Gen3 before) x out) := by
  obtain ⟨hfields, hdisjoint⟩ :=
    fields_of_node ((HuionNodes.fixRdesc_settles HuionNodes.kamvas13Gen3 firmwareId b).vendor hsize)
  refine ⟨vendorFields, hfields, hdisjoint, fun before x => ⟨fun hpen => ?_, decodes_pad⟩⟩
  exact ⟨_, output_pen hpen before, decodes_pen (vendor_iff.1 (pen_vendor hpen)).2⟩

theorem vendor_node_room : 36 ≤ HID_MAX_DESCRIPTOR_SIZE := by decide

def vendorNode : Buffer := .zeros 36 vendor_node_room

def tiltedPen : Report := .ofBytes [0x08, 0x80, 0x10, 0x27, 0x20, 0x4e, 0, 0, 0, 0, 0, 10, 0, 0]

theorem vendor_node_decodes_tilt : ∃ fields out,
    reportFields (vendorNode.parsed (HuionNodes.kamvas13Gen3.fixRdesc [] vendorNode)) =
      some fields ∧ KamvasGen3.kamvas13Gen3.output [] tiltedPen = some out ∧
      decode fields out (fullUsageOf HidUsagePage_Digitizers HidUsage_Dig_YTilt) = some (-10) := by
  obtain ⟨fields, hfields, -, hreports⟩ := vendor_node_decodes [] (b := vendorNode) rfl
  obtain ⟨out, hout, hpen⟩ := (hreports [] tiltedPen).1 (by decide)
  exact ⟨fields, out, hfields, hout, hpen.yTilt (by decide)⟩

end Kamvas13
